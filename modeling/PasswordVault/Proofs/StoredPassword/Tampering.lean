import PasswordVault.Proofs.Argument.Secrets
import PasswordVault.Proofs.StoredPassword.Unlocking
import PasswordVault.Proofs.Suite.Sealing

/-!
# Tampering with what is not authenticated

A ciphertext vouches for the clear text, but neither for the number of zeros recorded beside it nor
for the key ID. What another number does to the clear text is known exactly; another key ID does
nothing.

## Main definitions

- `Envelope.relabel` — octets with another number of zeros and another key ID

`StoredPassword.unlock_relabelled` says what is unlocked after both have been replaced.
-/

namespace PasswordVault

namespace Envelope

/-- Octets with another number in the low half of the first one, and with another key ID and its
length. -/
def relabel (raw : Bytes) (padding : Nat) (keyId : Bytes) : Bytes :=
  let ciphertextOffset := keyIdLengthOffset + 1 + (raw.getD keyIdLengthOffset 0).toNat
  packHalves ((raw.getD 0 0).toNat / 16 : Nat) padding :: slice raw 1 saltLength ++
    slice raw (1 + saltLength) vectorLength ++ UInt8.ofNat keyId.length :: keyId ++
    raw.drop ciphertextOffset

theorem relabel_layout {e : Envelope Int Bytes} (h : Readable e) (padding : Nat) (keyId : Bytes) :
    relabel (layout e) padding keyId = layout { e with padding, keyId } := by
  have hread := read_layout h
  generalize layout e = raw at hread
  rw [read] at hread
  split at hread
  · cases hread
  dsimp only at hread
  split at hread
  · cases hread
  split at hread
  · cases hread
  cases hread
  rw [relabel, layout, unpackHeader_toNat]

theorem readable_relabelled {e : Envelope Int Bytes} (h : Readable e) {padding : Nat}
    {keyId : Bytes} (hpadding : padding ≤ 15) (hkeyId : keyId.length ≤ maxKeyIdLength)
    (hciphertext : 2 ≤ e.ciphertext.length) : Readable { e with padding, keyId } := by
  have hhalf : 0 ≤ (padding : Int) ∧ (padding : Int) ≤ maxHalf := by
    rw [maxHalf]
    omega
  exact ⟨⟨h.salt, h.vector, hkeyId, h.ciphertext, h.version, hhalf⟩, h.current,
    Nat.le_add_left_of_le hciphertext⟩

end Envelope

variable {suite : Suite} {v : Vault} {key : KeyRef} {record : KeyRecord} {secret : Argument}

namespace StoredPassword

/-- What comes out when the suite decrypts to the padded clear text, and another number of zeros is
recorded. -/
theorem opened_relabelled {id s iv clear ciphertext keyId : Bytes} {m : Nat} (hne : clear ≠ [])
    (hm : m ≤ 15) (hdecrypt : ∀ later, ∃ form, suite.answer later (.decrypt secret iv ciphertext) =
      .ok (.octets form (Padding.add clear).1)) {y : StoredPassword}
    (hy : y = ofEnvelope { lockedFields id s iv clear ciphertext with padding := m, keyId })
    (calls : List Suite.Call) :
    y.opened (suite.answer calls (y.opening secret)) =
      Padding.retrim clear (Padding.add clear).2 m := by
  obtain ⟨form, hanswer⟩ := hdecrypt calls
  have hcall : suite.answer calls (y.opening secret) =
      .ok (.octets form (Padding.add clear).1) := by
    rw [hy]
    exact hanswer
  rw [hcall, hy, opened_octets]
  exact Padding.remove_add_eq_retrim hne hm

/-- **What is unlocked after tampering.** If a clear text is locked with a key, and the number of
zeros and the key ID are replaced in the octets, the result is decoded, and the key unlocks the
clear text with the wrong number of zeros taken off. So does the passphrase that the key was
generated from, since the key ID does not enter the derivation. -/
theorem unlock_relabelled {vector clearText : Argument} {iv clear : Bytes}
    (hsuite : suite.Restores secret iv) (h : SecretKey.Holds v key record secret)
    (hrecord : record.Bounded) (hvector : vector.toBytes .constant = .ok iv)
    (hlength : iv.length = 16) (hclear : clearText.Spells clear) (hne : clear ≠ []) :
    ∃ x after, lockWith suite (.key key) vector clearText v = (.ok x, after) ∧
      SecretKey.Holds after key record secret ∧
      x.envelope.padding = .integer (Padding.add clear).2 ∧
      ∀ m keyId, m ≤ 15 → keyId.length ≤ 255 →
        ∃ y, (∀ form, decode (.octets form (Envelope.relabel x.representation m keyId)) = .ok y) ∧
          y.envelope.keyId = keyId ∧ y.envelope.padding = .integer m ∧
          (∀ w key' record', SecretKey.Holds w key' record' secret →
            (y.unlock suite (.key key') w).1 = Padding.retrim clear (Padding.add clear).2 m) ∧
          ∀ u keyId' passphrase salt made, suite.Repeats .deriveKey →
            SecretKey.generate suite keyId' passphrase salt .absent u = (.ok key, made) →
            SecretKey.Holds made key record secret →
            ∀ w, w.settings = u.settings →
              (y.unlock suite (.value passphrase) w).1 =
                Padding.retrim clear (Padding.add clear).2 m := by
  obtain ⟨form, ciphertext, hencrypt, htwo, hdecrypt⟩ := hsuite v.calls (Padding.add clear).1
  have hciphertext : ciphertext ≠ [] := by
    rintro rfl
    exact absurd htwo (by decide)
  obtain ⟨calls, after, hlocked, htidy⟩ := lockUnder_run suite h vector clearText
  rw [sealed_eq_ok hrecord hvector hlength (Argument.secretOctets_eq_ok_iff.mpr hclear) hne
    hciphertext hencrypt] at hlocked
  refine ⟨_, after, hlocked, h.of_tidy htidy, rfl, ?_⟩
  intro m keyId hm hkeyId
  let fields := lockedFields record.keyId record.salt iv clear ciphertext
  let y : StoredPassword := ofEnvelope { fields with padding := m, keyId }
  have hfields : Envelope.Readable fields :=
    ⟨writable_lockedFields hrecord.keyId hrecord.salt hlength hciphertext, rfl,
      Nat.le_add_left_of_le htwo⟩
  have hraw : Envelope.relabel (Envelope.layout fields) m keyId = y.representation :=
    Envelope.relabel_layout hfields m keyId
  have hreadable := Envelope.readable_relabelled hfields hm hkeyId htwo
  have hopened := opened_relabelled hne hm hdecrypt (rfl : y = _)
  refine ⟨y, ?_, rfl, rfl, ?_, ?_⟩
  · intro form
    show decode (.octets form (Envelope.relabel (Envelope.layout fields) m keyId)) = _
    rw [hraw]
    exact (decode_ofEnvelope hreadable).1 form
  · intro w key' record' hw
    obtain ⟨later, hlater, -⟩ := unlockUnder_run suite y hw.secret_eq
    exact (congrArg Prod.fst hlater).trans (hopened w.calls)
  · intro u keyId' passphrase salt made hderive hgenerate hmade w hw
    obtain ⟨i, cell, hi, rfl, hgenerated⟩ := SecretKey.made_of_generate hgenerate
    obtain ⟨rfl, rfl⟩ := hmade.inj hgenerated.live.holds
    have hsame := SecretKey.ingredients_relabel hderive hw hkeyId hi
    obtain ⟨_, calls, _, hrun, -⟩ :=
      SecretKey.generate_within_of_ok (uses_unlockUnder suite y) hsame
    exact (congrArg Prod.fst hrun).trans (hopened calls)

/-- With the standard suite, a text that ends in NUL is locked with thirteen zeros. Fourteen take
the NUL away unnoticed, whatever the key ID says, and fifteen are too many. -/
theorem unlock_relabelled_standard :
    ∃ x after y z, lockWith (.standard (.ofSeed [7])) (.key 0) (.ofBytes (.zeros 16))
        (.text [104, 105, 0]) .oneKey = (.ok x, after) ∧
      decode (.ofBytes (Envelope.relabel x.representation 14 [])) = .ok y ∧
      (y.unlock (.standard (.ofSeed [7])) (.key 0) after).1 = .ok [104, 105] ∧
      decode (.ofBytes (Envelope.relabel x.representation 15 [1])) = .ok z ∧
      (z.unlock (.standard (.ofSeed [7])) (.key 0) after).1 =
        .error (.padding (.nonZero "15")) := by
  have hclear : Argument.Spells (.text [104, 105, 0]) [104, 105, 0] :=
    Argument.secretOctets_eq_ok_iff.mp (show Argument.secretOctets .clearText _ = _ by rfl)
  obtain ⟨x, after, hlocked, hafter, -, htampered⟩ :=
    unlock_relabelled (Suite.standard_restores (.ofSeed [7]) (Bytes.length_zeros 32)
      (Bytes.length_zeros 16)) Vault.live_oneKey.holds ⟨rfl, by decide⟩
      (Argument.toBytes_ofBytes .constant (.zeros 16)) (Bytes.length_zeros 16) hclear (by decide)
  obtain ⟨y, hy, -, -, hyKey, -⟩ := htampered 14 [] (by decide) (by decide)
  obtain ⟨z, hz, -, -, hzKey, -⟩ := htampered 15 [1] (by decide) (by decide)
  exact ⟨x, after, y, z, hlocked, hy .constant, hyKey after 0 _ hafter, hz .constant,
    hzKey after 0 _ hafter⟩

end StoredPassword

end PasswordVault
