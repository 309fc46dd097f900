import PasswordVault.Proofs.Suite.Faithful
import PasswordVault.Proofs.Vault.Runs

/-!
# Encryption and decryption as inverses

What the library can rely on beyond one round trip: that whatever is encrypted can be decrypted, and
that a plaintext has one ciphertext for each key and vector.

## Main definitions

- `Suite.Restores` — what is encrypted is decrypted at any later time
- `Suite.Reseals` — what is decrypted is encrypted again as the same ciphertext
- `Suite.AddsTag` — what is encrypted gets sixteen octets longer

`Suite.standard_restores`, `Suite.standard_reseals` and `Suite.standard_addsTag` say that the
standard suite does all of it.
-/

namespace PasswordVault

namespace Suite

/-- What a suite encrypts under a key and a vector is at least two octets long, and it decrypts it
to the same plaintext at any later time. -/
def Restores (suite : Suite) (key : Argument) (vector : Bytes) : Prop :=
  ∀ history plaintext, ∃ form ciphertext,
    suite.answer history (.encrypt key vector plaintext) = .ok (.octets form ciphertext) ∧
      2 ≤ ciphertext.length ∧
      ∀ later, ∃ form, suite.answer later (.decrypt key vector ciphertext) =
        .ok (.octets form plaintext)

/-- What a suite decrypts under a key and a vector it encrypts as the same ciphertext at any later
time. -/
def Reseals (suite : Suite) (key : Argument) (vector : Bytes) : Prop :=
  ∀ history ciphertext form plaintext,
    suite.answer history (.decrypt key vector ciphertext) = .ok (.octets form plaintext) →
      ∀ later, ∃ form, suite.answer later (.encrypt key vector plaintext) =
        .ok (.octets form ciphertext)

/-- Whatever a suite encrypts, under any key and vector, its ciphertext is sixteen octets longer. -/
def AddsTag (suite : Suite) : Prop :=
  ∀ history key vector plaintext form ciphertext,
    suite.answer history (.encrypt key vector plaintext) = .ok (.octets form ciphertext) →
      ciphertext.length = plaintext.length + 16

end Suite

namespace Standard

theorem of_reportAs {α : Type} {wrap : Failure → Failure} {outcome : Except Failure α}
    {value : α} (h : reportAs wrap outcome = .ok value) : outcome = .ok value := by
  cases outcome with
  | ok other => exact h
  | error failure => cases h

/-- What is decrypted has the right tag under the octets of the key. -/
theorem unlock?_of_decrypt {key : Argument} {vector ciphertext plaintext : Bytes}
    (h : decrypt key (.ofBytes vector) (.ofBytes ciphertext) = .ok plaintext) :
    ∃ octets, cipherKey key = .ok octets ∧ checkNonceLength vector.length = .ok () ∧
      Gcm.unlock? octets vector ciphertext = some plaintext := by
  obtain ⟨octets, hreported, -⟩ := bind_eq_ok h
  have hkey := of_reportAs hreported
  rw [decrypt_of_cipherKey hkey] at h
  split at h
  · next hchecked =>
    split at h
    · next opened hunlocked =>
      obtain rfl : opened = plaintext := Except.ok.inj h
      exact ⟨octets, hkey, hchecked, hunlocked⟩
    · cases h
  · cases h

theorem length_of_encrypt {key : Argument} {vector plaintext ciphertext : Bytes}
    (h : encrypt key (.ofBytes vector) (.octets .buffer plaintext) = .ok ciphertext) :
    ciphertext.length = plaintext.length + Gcm.tagLength := by
  obtain ⟨octets, hkey, -⟩ := bind_eq_ok (of_reportAs h)
  rw [encrypt_of_cipherKey hkey] at h
  split at h
  · obtain rfl := Except.ok.inj h
    exact Gcm.length_lock octets vector plaintext
  · cases h

end Standard

namespace Suite

/-- **The standard suite restores** what it encrypts under a key of 32 octets. -/
theorem standard_restores (entropy : Entropy) {key vector : Bytes} (hk : key.length = 32)
    (hv : vector.length = 16) : (standard entropy).Restores (.octets .buffer key) vector := by
  intro history plaintext
  refine ⟨.constant, Gcm.lock key vector plaintext,
    standard_encrypt entropy history plaintext hk hv, ?_, ?_⟩
  · rw [Gcm.length_lock]
    exact Nat.le_add_left_of_le (by decide)
  · intro later
    exact ⟨.constant,
      standard_decrypt entropy later hk hv (Gcm.unlock?_lock key vector plaintext)⟩

/-- **The standard suite reseals** what it decrypts, whatever the key and the vector are. -/
theorem standard_reseals (entropy : Entropy) (key : Argument) (vector : Bytes) :
    (standard entropy).Reseals key vector := by
  intro history ciphertext form plaintext h later
  obtain ⟨opened, hdecrypt, hopened⟩ := map_eq_ok h
  obtain rfl : opened = plaintext := (Argument.octets.inj hopened).2
  obtain ⟨octets, hkey, hchecked, hunlock⟩ := Standard.unlock?_of_decrypt hdecrypt
  refine ⟨.constant, ?_⟩
  show Argument.ofBytes <$> Standard.encrypt key (.ofBytes vector) (.octets .buffer opened) = _
  rw [Standard.encrypt_of_cipherKey hkey, hchecked, Gcm.lock_of_unlock? hunlock]
  rfl

/-- **The standard suite adds a tag**, whatever the key and the vector are. -/
theorem standard_addsTag (entropy : Entropy) : (standard entropy).AddsTag := by
  intro history key vector plaintext form ciphertext h
  obtain ⟨locked, hencrypt, hlocked⟩ := map_eq_ok h
  obtain rfl : locked = ciphertext := (Argument.octets.inj hlocked).2
  exact Standard.length_of_encrypt hencrypt

end Suite

end PasswordVault
