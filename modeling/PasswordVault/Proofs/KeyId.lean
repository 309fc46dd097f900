import PasswordVault.KeyId
import PasswordVault.Proofs.Text.Hexadecimal.Grammar

/-!
# What a key ID stands for

A key ID that is given as octets stands for these, and one that is given as text for the octets that
it denotes in hexadecimal. Either way there are at most 255 of them.

`KeyId.ofArgument_text_eq_ok_iff` says which texts are key IDs,
`KeyId.ofArgument_text_of_not_denotes` and `KeyId.ofArgument_text_of_long` how others are refused,
and `KeyId.shown_eq_canonical` that all spellings of a key ID are shown alike.
-/

namespace PasswordVault.KeyId

open Hexadecimal (Denotes canonical)

variable {t : Text} {id : Bytes}

theorem checkLength_eq_ok_iff {octets : Bytes} :
    checkLength octets = .ok id ↔ octets = id ∧ octets.length ≤ Envelope.maxKeyIdLength := by
  rw [checkLength]
  by_cases hlong : Envelope.maxKeyIdLength < octets.length
  · rw [if_pos hlong]
    exact iff_of_false (fun h => by cases h) fun h => absurd h.2 (Nat.not_le.mpr hlong)
  · rw [if_neg hlong, Except.ok.injEq]
    exact (and_iff_left (Nat.le_of_not_lt hlong)).symm

/-- **A text is a key ID** if it denotes no more octets than a key ID may have. -/
theorem ofArgument_text_eq_ok_iff :
    ofArgument (.text t) = .ok id ↔ Denotes t id ∧ id.length ≤ Envelope.maxKeyIdLength := by
  rw [ofArgument, ← Hexadecimal.read_eq_ok_iff]
  cases Hexadecimal.read t with
  | error position => exact iff_of_false (fun h => by cases h) fun h => by cases h.1
  | ok octets =>
    rw [Except.ok.injEq, checkLength_eq_ok_iff]
    constructor
    · rintro ⟨rfl, hlength⟩
      exact ⟨rfl, hlength⟩
    · rintro ⟨rfl, hlength⟩
      exact ⟨rfl, hlength⟩

/-- A text that denotes nothing is refused with the position at fault. -/
theorem ofArgument_text_of_not_denotes (h : ∀ octets, ¬Denotes t octets) :
    ∃ position, ofArgument (.text t) = .error (.field (.keyIdNotHexadecimal position)) := by
  rw [ofArgument]
  cases hread : Hexadecimal.read t with
  | error position => exact ⟨position, rfl⟩
  | ok octets => exact absurd (Hexadecimal.read_eq_ok_iff.mp hread) (h octets)

/-- Too many octets are refused, whatever they are written with. -/
theorem ofArgument_text_of_long (h : Denotes t id) (hlong : Envelope.maxKeyIdLength < id.length) :
    ofArgument (.text t) = .error (.field (.keyIdTooLong id.length)) := by
  rw [ofArgument, Hexadecimal.read_eq_ok_iff.mpr h]
  exact if_pos hlong

theorem length_le_of_ofArgument {value : Argument} (h : ofArgument value = .ok id) :
    id.length ≤ Envelope.maxKeyIdLength := by
  cases value with
  | text content => exact (ofArgument_text_eq_ok_iff.mp h).2
  | octets form content =>
    obtain ⟨rfl, hlength⟩ := checkLength_eq_ok_iff.mp h
    exact hlength
  | _ => cases h

theorem ofArgument_ofBytes (h : id.length ≤ Envelope.maxKeyIdLength) :
    ofArgument (.ofBytes id) = .ok id :=
  if_neg (Nat.not_lt.mpr h)

/-! ### Spellings -/

/-- What is shown of a key ID is accepted as that key ID. -/
theorem ofArgument_shown (h : id.length ≤ Envelope.maxKeyIdLength) :
    ofArgument (.text (Text.ofString (shown id))) = .ok id :=
  ofArgument_text_eq_ok_iff.mpr ⟨Hexadecimal.denotes_write .upper id, h⟩

/-- The letter case makes no difference, in success or in failure. -/
theorem ofArgument_text_upper (t : Text) :
    ofArgument (.text (t.map CodePoint.upper)) = ofArgument (.text t) := by
  rw [ofArgument, ofArgument, Hexadecimal.read_map_upper]

/-- What is shown of a key ID is the canonical form of each of its spellings. -/
theorem shown_eq_canonical (h : ofArgument (.text t) = .ok id) :
    shown id = (canonical t).toString := by
  rw [Hexadecimal.canonical_eq (ofArgument_text_eq_ok_iff.mp h).1]
  rfl

end PasswordVault.KeyId
