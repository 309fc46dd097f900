import PasswordVault.Proofs.SecretKey.Growth
import PasswordVault.StoredPassword

/-!
# What locking and unlocking add

Locking and unlocking work on copies. However they end, with every suite and with every key, they
leave the keys, the buffers and the lists that were there as they are, whoever refers to them.

`StoredPassword.grows_lock`, `StoredPassword.grows_lockWith` and `StoredPassword.grows_unlock` say
so for the three operations.
-/

namespace PasswordVault.StoredPassword

theorem grows_encryptPadded (suite : Suite) (key : KeyRef) (vector clear : Bytes) :
    (encryptPadded suite key vector clear).Grows [] := by
  rw [encryptPadded]
  cases clear.isEmpty with
  | true => exact Action.grows_of_silent fun _ => rfl
  | false =>
  refine Action.Grows.scratch (fun cell => ?_) _
  refine (SecretKey.grows_secret key).bind fun secret => ?_
  refine (Action.grows_content cell).bind fun padded => ?_
  exact (Action.grows_ask _ _).bind fun ciphertext => Action.grows_pure _

/-- Locking under a key changes neither the key nor its secret, whatever it ends with. -/
theorem grows_lockUnder (suite : Suite) (key : KeyRef) (vector clearText : Argument) :
    (lockUnder suite key vector clearText).Grows [] := by
  refine (Action.grows_lift _).bind fun iv => ?_
  refine (Action.grows_lift _).bind fun clear => ?_
  refine Action.Grows.scratch_bind (fun cell => ?_) (fun answer => ?_) clear
  · exact (Action.grows_content cell).bind fun _ => grows_encryptPadded _ _ _ _
  refine (SecretKey.grows_record key).bind fun record => ?_
  exact (Action.grows_lift _).bind fun raw => Action.grows_lift _

theorem grows_lockWith (suite : Suite) (credential : Credential) (vector clearText : Argument) :
    (lockWith suite credential vector clearText).Grows [] := by
  cases credential with
  | key ref => exact grows_lockUnder suite ref vector clearText
  | value argument => exact Action.grows_fail _

theorem grows_givenOrDrawn (suite : Suite) (length : Nat) (given : Argument) :
    (givenOrDrawn suite length given).Grows [] := by
  cases given with
  | absent => exact Action.grows_ask _ _
  | _ => exact Action.grows_pure _

/-- Locking under a passphrase destroys a key at its end, which is the one that it made. -/
theorem grows_lock (suite : Suite) (keyId passphrase clearText salt vector : Argument) :
    (lock suite keyId passphrase clearText salt vector).Grows [] := by
  rw [lock]
  refine (Action.grows_lift _).bind fun id => ?_
  cases id.isEmpty with
  | true => exact Action.grows_of_silent fun _ => rfl
  | false =>
  cases isEmptyClearText clearText with
  | true => exact Action.grows_of_silent fun _ => rfl
  | false =>
  refine (grows_givenOrDrawn suite _ salt).bind fun givenSalt => ?_
  refine (grows_givenOrDrawn suite _ vector).bind fun givenVector => ?_
  exact SecretKey.grows_generate_within
    (fun key => grows_lockUnder suite key givenVector clearText) suite _ _ _ _

theorem grows_unlockUnder (suite : Suite) (password : StoredPassword) (key : KeyRef) :
    (unlockUnder suite password key).Grows [] := by
  refine (SecretKey.grows_secret key).bind fun secret => ?_
  refine (Action.grows_ask _ _).bind fun decrypted => ?_
  refine (Action.grows_lift _).bind fun padded => ?_
  refine Action.Grows.scratch (fun cell => ?_) padded
  refine (Action.grows_content cell).bind fun padded => ?_
  refine (Action.grows_lift _).bind fun clear => ?_
  exact Action.Grows.scratch (fun cut => Action.grows_content cut) clear

/-- A key from a caller stays as it is, and one that was derived from a passphrase is destroyed. -/
theorem grows_unlock (suite : Suite) (password : StoredPassword) (credential : Credential) :
    (unlock suite password credential).Grows [] := by
  cases credential with
  | key ref => exact grows_unlockUnder suite password ref
  | value passphrase =>
    exact SecretKey.grows_generate_within (grows_unlockUnder suite password) suite _ _ _ _

end PasswordVault.StoredPassword
