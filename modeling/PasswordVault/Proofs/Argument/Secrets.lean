import PasswordVault.Argument.Conversion
import PasswordVault.Proofs.Text.Coding

/-!
# Secrets as octets or as text

A passphrase and a clear text are given as octets of any form or as text, which stands for its
octets in UTF-8. Text with a surrogate stands for nothing.

## Main definitions

- `Argument.Spells` — an argument that stands for octets
-/

namespace PasswordVault.Argument

/-- An argument stands for octets: it is an octet string of any form with this content, or a text
without surrogates in UTF-8. -/
inductive Spells : Argument → Bytes → Prop
  | octets (form : Form) (content : Bytes) : Spells (.octets form content) content
  | text {t : Text} (h : ∀ c ∈ t, c.isSurrogate = false) :
    Spells (.text t) (t.flatMap Utf8.encodePoint)

theorem secretOctets_eq_ok_iff {role : Role} {value : Argument} {octets : Bytes} :
    value.secretOctets role = .ok octets ↔ Spells value octets := by
  constructor
  · intro h
    cases value with
    | text t =>
      rw [secretOctets] at h
      cases hencode : Utf8.encode t with
      | error fault => simp [hencode] at h
      | ok encoded =>
        simp only [hencode, Except.ok.injEq] at h
        subst h
        obtain ⟨hscalar, rfl⟩ := Utf8.encode_eq_ok_iff.mp hencode
        exact .text hscalar
    | octets form content =>
      rw [← Except.ok.inj h]
      exact .octets form content
    | _ => cases h
  · rintro (⟨form, content⟩ | hscalar)
    · rfl
    · rw [secretOctets, Utf8.encode_eq_ok_iff.mpr ⟨hscalar, rfl⟩]

end PasswordVault.Argument
