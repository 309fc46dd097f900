import PasswordVault.Proofs.SecretKey.Clearing
import PasswordVault.Proofs.StoredPassword.Locking
import PasswordVault.Suite.Scripted

/-!
# What locking and unlocking leave in their buffers

Locking and unlocking copy what is secret into buffers of their own: the passphrase, the clear text
before and after padding, what was decrypted and the key. However they end, with every suite and
with every key, they overwrite these. A derivation of the wrong length is the one exception.

`StoredPassword.buffers_cleared` says so for all operations together, and
`StoredPassword.derived_left_behind` is the exception.
-/

namespace PasswordVault.StoredPassword

theorem clears_encryptPadded (suite : Suite) (key : KeyRef) (vector clear : Bytes) :
    (encryptPadded suite key vector clear).Clears := by
  rw [encryptPadded]
  cases clear.isEmpty with
  | true => exact Action.clears_of_cells fun _ => rfl
  | false =>
  refine Action.clears_scratch (fun cell => ?_) _
  refine (SecretKey.clears_secret key).bind fun secret => ?_
  refine (Action.keeps_content cell).bind fun padded => ?_
  exact (Action.clears_ask _ _).bind fun ciphertext => Action.keeps_pure _

/-- Locking under a key overwrites both copies of the clear text. -/
theorem clears_lockUnder (suite : Suite) (key : KeyRef) (vector clearText : Argument) :
    (lockUnder suite key vector clearText).Clears := by
  refine (Action.keeps_lift _).bind fun iv => ?_
  refine (Action.keeps_lift _).bind fun clear => ?_
  refine Action.clears_scratch_bind (fun cell => ?_) (fun answer => ?_) clear
  · exact (Action.keeps_content cell).bind fun _ => clears_encryptPadded _ _ _ _
  refine (SecretKey.clears_record key).bind fun record => ?_
  exact (Action.keeps_lift _).bind fun raw => Action.keeps_lift _

theorem clears_lockWith (suite : Suite) (credential : Credential) (vector clearText : Argument) :
    (lockWith suite credential vector clearText).Clears := by
  cases credential with
  | key ref => exact clears_lockUnder suite ref vector clearText
  | value argument => exact Action.keeps_fail _

theorem clears_givenOrDrawn (suite : Suite) (length : Nat) (given : Argument) :
    (givenOrDrawn suite length given).Clears := by
  cases given with
  | absent => exact Action.clears_ask _ _
  | _ => exact Action.keeps_pure _

theorem leaves_lock (suite : Suite) (v : Vault)
    (keyId passphrase clearText salt vector : Argument) :
    Leaves suite Unkept v (lock suite keyId passphrase clearText salt vector v) := by
  rw [lock]
  refine leaves_bind (Vault.clears_of_cells rfl) fun id w _ => ?_
  cases id.isEmpty with
  | true => exact leaves_of_clears (Vault.clears_of_cells rfl)
  | false =>
  cases isEmptyClearText clearText with
  | true => exact leaves_of_clears (Vault.clears_of_cells rfl)
  | false =>
  refine leaves_bind (clears_givenOrDrawn suite _ salt w) fun givenSalt u _ => ?_
  refine leaves_bind (clears_givenOrDrawn suite _ vector u) fun givenVector x _ => ?_
  exact SecretKey.leaves_generate_within (uses_lockUnder suite givenVector clearText) suite x ..

/-- Unlocking under a key overwrites what was decrypted, and the clear text that was cut off it. -/
theorem clears_unlockUnder (suite : Suite) (password : StoredPassword) (key : KeyRef) :
    (unlockUnder suite password key).Clears := by
  refine (SecretKey.clears_secret key).bind fun secret => ?_
  refine (Action.clears_ask _ _).bind fun decrypted => ?_
  refine (Action.keeps_lift _).bind fun padded => ?_
  refine Action.clears_scratch (fun cell => ?_) padded
  refine (Action.keeps_content cell).bind fun padded => ?_
  refine (Action.keeps_lift _).bind fun clear => ?_
  exact Action.clears_scratch (fun cut => Action.keeps_content cut) clear

/-- **No secret is left behind** in the buffers that an operation makes, whatever the suite answers
and the arguments are. Generating a key leaves the buffer of the key that it returns. Whatever
derives a key leaves what the suite derived, if that is not as long as a key. -/
theorem buffers_cleared (suite : Suite) (v : Vault) :
    (∀ keyId passphrase salt iterations, Leaves suite SecretKey.Returned v
      (SecretKey.generate suite keyId passphrase salt iterations v)) ∧
    (∀ keyId passphrase clearText salt vector, Leaves suite Unkept v
      (lock suite keyId passphrase clearText salt vector v)) ∧
    (∀ credential vector clearText, v.Clears (lockWith suite credential vector clearText v).2) ∧
    (∀ password key, v.Clears (unlock suite password (.key key) v).2) ∧
    ∀ password passphrase, Leaves suite Unkept v (unlock suite password (.value passphrase) v) := by
  refine ⟨?_, ?_, ?_, ?_, ?_⟩
  · exact SecretKey.leaves_generate suite v
  · exact leaves_lock suite v
  · exact fun credential vector clearText => clears_lockWith suite credential vector clearText v
  · exact fun password key => clears_unlockUnder suite password key v
  · exact fun password passphrase =>
      SecretKey.leaves_generate_within (uses_unlockUnder suite password) suite v ..

/-- The exception: a suite derives 31 octets, no key is made of them, and they are still there. -/
theorem derived_left_behind :
    ∃ w, SecretKey.generate (.scripted [] (some ⟨.ofBytes (List.replicate 31 7), none, none, none⟩))
        (.text (Text.ofString "01")) (.text (Text.ofString "pw")) (.ofBytes (.zeros 16)) .absent
        (.ofSettings (.ofEnvironment [])) = (.error (.field (.keyLength 31)), w) ∧
      w.cells = [Bytes.zeros 2, List.replicate 31 7] ∧
      ¬(Vault.ofSettings (.ofEnvironment [])).ClearsBut
        (SecretKey.Returned (.error (.field (.keyLength 31))) w) w := by
  refine ⟨_, rfl, by decide, fun h => ?_⟩
  have hcleared : (List.replicate 31 7 : Bytes) = Bytes.cleared (List.replicate 31 7) :=
    h.cleared (Nat.zero_le 1) SecretKey.not_returned_of_error rfl
  exact absurd hcleared (by decide)

end PasswordVault.StoredPassword
