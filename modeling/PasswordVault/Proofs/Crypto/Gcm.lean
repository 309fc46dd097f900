import PasswordVault.Crypto.Gcm

/-!
# Unlocking what was locked

Counter mode takes the exclusive or with a keystream that depends on the key, the nonce and the
length alone, so running it twice changes nothing; and the tag of a ciphertext is compared with the
one that was computed for it.

`Gcm.unlock?_lock` and `Gcm.lock_of_unlock?` are the round trips.
-/

namespace PasswordVault

namespace Bytes

/-- The exclusive or with the same octets twice leaves what they cover. -/
theorem xor_xor {octets mask : Bytes} (h : octets.length ≤ mask.length) :
    xor (xor octets mask) mask = octets := by
  rw [xor, xor]
  induction octets generalizing mask with
  | nil => rfl
  | cons octet octets ih =>
    cases mask with
    | nil => cases h
    | cons first mask =>
      have hrest := ih (Nat.le_of_succ_le_succ h)
      rw [List.zipWith_cons_cons, List.zipWith_cons_cons, hrest, UInt8.xor_assoc, UInt8.xor_self,
        UInt8.xor_zero]

end Bytes

namespace Gcm

open Aes

theorem crypt_crypt (schedule : Schedule) (start : Block) (octets : Bytes) :
    crypt schedule start (crypt schedule start octets) = octets := by
  have hcovers : octets.length ≤ (keystream schedule ((octets.length + 15) / 16) start).length := by
    rw [length_keystream]
    omega
  rw [crypt, length_crypt, crypt, Bytes.xor_xor hcovers]

theorem length_tag (schedule : Schedule) (key : Element) (start : Block) (ciphertext : Bytes) :
    (tag schedule key start ciphertext).length = tagLength := rfl

theorem length_lock (key nonce plaintext : Bytes) :
    (lock key nonce plaintext).length = plaintext.length + tagLength := by
  rw [lock, List.length_append, length_crypt, length_tag]

theorem lock_ne_nil (key nonce plaintext : Bytes) : lock key nonce plaintext ≠ [] := by
  refine List.length_pos_iff.mp ?_
  rw [length_lock]
  exact Nat.add_pos_right _ (by decide)

/-- **Unlocking gives back what was locked.** -/
theorem unlock?_lock (key nonce plaintext : Bytes) :
    unlock? key nonce (lock key nonce plaintext) = some plaintext := by
  have hlength := length_lock key nonce plaintext
  have htext : (lock key nonce plaintext).length - tagLength = plaintext.length := by
    rw [hlength, Nat.add_sub_cancel]
  have hlong : ¬(lock key nonce plaintext).length < tagLength := by
    rw [hlength]
    exact Nat.not_lt.mpr (Nat.le_add_left _ _)
  have hciphertext : ∀ (schedule : Schedule) (start : Block) (rest : Bytes),
      (crypt schedule start plaintext ++ rest).take plaintext.length =
        crypt schedule start plaintext :=
    fun schedule start _ => List.take_left' (length_crypt schedule start plaintext)
  have htag : ∀ (schedule : Schedule) (start : Block) (rest : Bytes),
      (crypt schedule start plaintext ++ rest).drop plaintext.length = rest :=
    fun schedule start _ => List.drop_left' (length_crypt schedule start plaintext)
  rw [unlock?, if_neg hlong, htext]
  -- Both tags are computed from the same ciphertext.
  simp only [lock, hciphertext, htag, if_true, crypt_crypt]

/-- **Locking again gives what was unlocked.** The tag is a function of the rest, and was right. -/
theorem lock_of_unlock? {key nonce locked plaintext : Bytes}
    (h : unlock? key nonce locked = some plaintext) : lock key nonce plaintext = locked := by
  rw [unlock?] at h
  split at h
  · cases h
  dsimp only at h
  split at h
  · next htag =>
    rw [← Option.some.inj h]
    simp only [lock, crypt_crypt, ← htag, List.take_append_drop]
  · cases h

end Gcm

end PasswordVault
