import PasswordVault.Proofs.Argument.Secrets
import PasswordVault.Proofs.StoredPassword.Unlocking
import PasswordVault.Proofs.Suite.Sealing

/-!
# Stored passwords are canonical

For one key and one vector a clear text has one stored password. Locking what was unlocked gives the
same octets again, even where somebody has lowered the number of zeros that they record.

## Main definitions

- `StoredPassword.UnlocksTo` — a stored password that gives a clear text out of whole blocks

`StoredPassword.UnlocksTo.fields` says what such a stored password consists of, and
`StoredPassword.lock_unlocked` that it is locked again and is the only one.
-/

namespace PasswordVault.StoredPassword

variable {suite : Suite} {v : Vault} {key : KeyRef} {record : KeyRecord} {secret : Argument}
variable {x : StoredPassword} {padded clear : Bytes}

/-- A stored password was decoded. In a vault, a key that holds a secret unlocks it to a clear text,
out of whole blocks that the suite has decrypted. -/
structure UnlocksTo (suite : Suite) (v : Vault) (key : KeyRef) (secret : Argument)
    (x : StoredPassword) (padded clear : Bytes) : Prop where
  decoded : ∃ encoded, decode encoded = .ok x
  holds : ∃ record, SecretKey.Holds v key record secret
  decrypted : ∃ form, suite.answer v.calls (x.opening secret) = .ok (.octets form padded)
  blocks : padded.length % 16 = 0
  nonempty : padded ≠ []
  unlocked : (x.unlock suite (.key key) v).1 = .ok clear

/-- Padding the clear text gives the number of zeros that is recorded, and encrypting it gives the
ciphertext. -/
theorem UnlocksTo.fields (hx : UnlocksTo suite v key secret x padded clear)
    (hsuite : suite.Reseals secret x.envelope.vector) :
    ∃ keyId salt vector ciphertext,
      Envelope.Readable (lockedFields keyId salt vector clear ciphertext) ∧
      x = ofEnvelope (lockedFields keyId salt vector clear ciphertext) ∧ clear ≠ [] ∧
      ∀ later, ∃ form, suite.answer later (.encrypt secret vector (Padding.add clear).1) =
        .ok (.octets form ciphertext) := by
  obtain ⟨encoded, hdecode⟩ := hx.decoded
  obtain ⟨record, hholds⟩ := hx.holds
  obtain ⟨form, hanswer⟩ := hx.decrypted
  obtain ⟨e, hreadable, rfl⟩ := exists_readable_of_decode hdecode
  have hremove : Padding.remove padded e.padding = .ok clear := by
    obtain ⟨after, hrun, -⟩ := unlockUnder_run suite (ofEnvelope e) hholds.secret_eq
    rw [hanswer, opened_octets] at hrun
    exact (congrArg Prod.fst hrun).symm.trans hx.unlocked
  have hadd := Padding.add_of_remove hx.blocks hremove
  have hfields : lockedFields e.keyId e.salt e.vector clear e.ciphertext = e := by
    have hpadding : ((Padding.add clear).2 : Int) = e.padding := by
      rw [hadd]
      exact Int.toNat_of_nonneg hreadable.padding.1
    rw [lockedFields, hpadding, ← hreadable.current]
  refine ⟨e.keyId, e.salt, e.vector, e.ciphertext, ?_, ?_, ?_, ?_⟩
  · rw [hfields]
    exact hreadable
  · rw [hfields]
  · exact Padding.ne_nil_of_remove hx.blocks hx.nonempty hremove
  · rw [hadd]
    exact hsuite v.calls e.ciphertext form padded hanswer

/-- **Locking undoes unlocking.** If the suite encrypts what it has decrypted to the same
ciphertext, then a clear text that was unlocked out of whole blocks is not empty, and locking it
with a key for the same key ID and salt that holds the same secret, and with the same vector, gives
the same stored password again. So no other one with these fields is unlocked to the same clear
text. -/
theorem lock_unlocked (hsuite : suite.Reseals secret x.envelope.vector)
    (hx : UnlocksTo suite v key secret x padded clear) :
    clear ≠ [] ∧
    (∀ w key' record clearText, SecretKey.Holds w key' record secret →
      record.keyId = x.envelope.keyId → record.salt = x.envelope.salt → clearText.Spells clear →
        ∃ after, lockWith suite (.key key') (.ofBytes x.envelope.vector) clearText w =
          (.ok x, after)) ∧
    ∀ w key' y padded', UnlocksTo suite w key' secret y padded' clear →
      y.envelope.keyId = x.envelope.keyId → y.envelope.salt = x.envelope.salt →
      y.envelope.vector = x.envelope.vector → y = x := by
  obtain ⟨keyId, salt, vector, ciphertext, hreadable, rfl, hne, hencrypt⟩ := hx.fields hsuite
  refine ⟨hne, ?_, ?_⟩
  · intro w key' record clearText hw hkeyId hsalt hclear
    obtain ⟨form, hanswer⟩ := hencrypt w.calls
    have hbounded : record.Bounded := by
      refine ⟨?_, ?_⟩
      · rw [hsalt]
        exact hreadable.salt
      · rw [hkeyId]
        exact hreadable.keyId
    obtain ⟨calls, after, hlocked, -⟩ := lockUnder_run suite hw (.ofBytes vector) clearText
    rw [sealed_eq_ok hbounded (Argument.toBytes_ofBytes .constant vector) hreadable.vector
      (Argument.secretOctets_eq_ok_iff.mpr hclear) hne hreadable.ciphertext hanswer, hkeyId,
      hsalt] at hlocked
    exact ⟨after, hlocked⟩
  · intro w key' y padded' hy hkeyId hsalt hvector
    rw [← hvector] at hsuite
    obtain ⟨keyId', salt', vector', ciphertext', -, rfl, -, hencrypt'⟩ := hy.fields hsuite
    obtain rfl : keyId' = keyId := hkeyId
    obtain rfl : salt' = salt := hsalt
    obtain rfl : vector' = vector := hvector
    -- Both ciphertexts answer the same call.
    obtain ⟨form, hanswer⟩ := hencrypt []
    obtain ⟨form', hanswer'⟩ := hencrypt' []
    obtain rfl : ciphertext' = ciphertext :=
      (Argument.octets.inj (Except.ok.inj (hanswer'.symm.trans hanswer))).2
    rfl

/-- With the standard suite, a clear text that ends in eleven zeros is unlocked without three
others, and is locked with three again. -/
theorem lock_unlocked_standard :
    ∃ x after, x.envelope.padding = .integer 3 ∧
      (x.unlock (.standard (.ofSeed [7])) (.key 0) .oneKey).1 =
        .ok ([104, 105] ++ Bytes.zeros 11) ∧
      lockWith (.standard (.ofSeed [7])) (.key 0) (.ofBytes (.zeros 16))
        (.ofBytes ([104, 105] ++ Bytes.zeros 11)) .oneKey = (.ok x, after) := by
  let text : Bytes := [104, 105] ++ Bytes.zeros 11
  let ciphertext := Gcm.lock (.zeros 32) (.zeros 16) (Padding.add text).1
  let x := ofEnvelope (lockedFields [1] (.zeros 16) (.zeros 16) text ciphertext)
  have hreadable := @readable_lockedFields [1] (.zeros 16) (.zeros 16) text ciphertext (by decide)
    (by decide) rfl rfl (Gcm.lock_ne_nil (.zeros 32) (.zeros 16) (Padding.add text).1)
  have hopens : (Suite.standard (.ofSeed [7])).Opens (.zeros 32) (.zeros 16) ciphertext
      (Padding.add text).1 := fun later => ⟨.constant, Suite.standard_decrypt _ later rfl rfl
        (Gcm.unlock?_lock (.zeros 32) (.zeros 16) (Padding.add text).1)⟩
  have hholds := Vault.live_oneKey.holds
  obtain ⟨after, hunlock, -⟩ := unlockUnder_run (.standard (.ofSeed [7])) x hholds.secret_eq
  have hx : UnlocksTo (.standard (.ofSeed [7])) .oneKey 0 (.octets .buffer (.zeros 32)) x
      (Padding.add text).1 text :=
    ⟨⟨_, (decode_ofEnvelope hreadable).1 .constant⟩, ⟨_, hholds⟩, hopens _, by decide, by decide,
      (congrArg Prod.fst hunlock).trans (opened_lockedFields hopens _)⟩
  obtain ⟨-, hlock, -⟩ := lock_unlocked (Suite.standard_reseals _ _ _) hx
  obtain ⟨locked, hlocked⟩ :=
    hlock .oneKey 0 _ (.ofBytes text) hholds rfl rfl (.octets .constant text)
  exact ⟨x, locked, rfl, hx.unlocked, hlocked⟩

end PasswordVault.StoredPassword
