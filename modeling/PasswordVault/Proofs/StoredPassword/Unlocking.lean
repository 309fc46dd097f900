import PasswordVault.Proofs.StoredPassword.Decoding
import PasswordVault.Proofs.StoredPassword.Locking
import PasswordVault.Proofs.Suite.Faithful

/-!
# What unlocking gives

A stored password that was decoded gives what its suite decrypts, without the zeros that it records.
The suite comes first: where it fails, nothing depends on the number of zeros.

`StoredPassword.decode_ofEnvelope` and `StoredPassword.exists_readable_of_decode` say what is
decoded, and `StoredPassword.unlock_key_outcome` how unlocking with a key ends.
-/

namespace PasswordVault

variable {suite : Suite} {v : Vault} {key : KeyRef} {record : KeyRecord} {secret : Argument}

namespace StoredPassword

/-! ### Reading back -/

theorem decode_ofEnvelope {e : Envelope Int Bytes} (h : Envelope.Readable e) :
    (∀ form, decode (.octets form (ofEnvelope e).representation) = .ok (ofEnvelope e)) ∧
      ∀ marked, decode (.text ((ofEnvelope e).text marked)) = .ok (ofEnvelope e) := by
  have hread : ofBytes (Envelope.layout e) = .ok (ofEnvelope e) :=
    ofBytes_of_read (Envelope.read_layout h)
  refine ⟨fun _ => hread, fun marked => ?_⟩
  rw [decode, representationOf, text, ofEnvelope, Armor.read_write]
  exact hread

theorem readable_lockedFields {keyId salt vector clear ciphertext : Bytes}
    (hkeyId : keyId.length ≤ Envelope.maxKeyIdLength) (hne : keyId ≠ [])
    (hsalt : salt.length = Envelope.saltLength) (hvector : vector.length = Envelope.vectorLength)
    (hciphertext : ciphertext ≠ []) :
    Envelope.Readable (lockedFields keyId salt vector clear ciphertext) := by
  refine ⟨writable_lockedFields hkeyId hsalt hvector hciphertext, rfl, ?_⟩
  have h1 : 0 < keyId.length := List.length_pos_iff.mpr hne
  have h2 : 0 < ciphertext.length := List.length_pos_iff.mpr hciphertext
  show 2 ≤ keyId.length + ciphertext.length
  omega

/-- What is decoded consists of fields that can be read. -/
theorem exists_readable_of_decode {encoded : Argument} {x : StoredPassword}
    (h : decode encoded = .ok x) : ∃ e, Envelope.Readable e ∧ x = ofEnvelope e := by
  rw [decode] at h
  split at h
  · next raw hraw =>
    obtain ⟨e, hread⟩ := exists_ofBytes_eq_ok_iff.mp ⟨x, h⟩
    obtain ⟨hreadable, rfl⟩ := Envelope.eq_layout_of_read hread
    exact ⟨e, hreadable, Except.ok.inj (h.symm.trans (ofBytes_of_read hread))⟩
  · cases h

/-! ### Unlocking with a key -/

/-- What the suite decrypts to a padded clear text gives the clear text. -/
theorem opened_lockedFields {content id s iv clear ciphertext : Bytes}
    (hopens : suite.Opens content iv ciphertext (Padding.add clear).1) (calls : List Suite.Call) :
    (ofEnvelope (lockedFields id s iv clear ciphertext)).opened (suite.answer calls
      ((ofEnvelope (lockedFields id s iv clear ciphertext)).opening (.octets .buffer content))) =
        .ok clear := by
  obtain ⟨form, hanswer⟩ := hopens calls
  have hcall : suite.answer calls ((ofEnvelope (lockedFields id s iv clear ciphertext)).opening
      (.octets .buffer content)) = .ok (.octets form (Padding.add clear).1) := hanswer
  rw [hcall]
  exact (opened_octets _ form _).trans (Padding.remove_add clear)

/-- **How unlocking with a key ends.** What was decoded records a number of at most fifteen zeros.
If the suite fails to decrypt, its failure is the outcome, and so it is whatever that number is. If
it answers with octets, they have to end with so many zeros, and give what is before these. One call
is made, the key keeps what it holds, and the same answer gives the same outcome again. -/
theorem unlock_key_outcome {encoded : Argument} {x : StoredPassword}
    (hdecode : decode encoded = .ok x) (h : SecretKey.Holds v key record secret) :
    ∃ n : Nat, n ≤ 15 ∧ x.envelope.padding = .integer n ∧
    ∃ outcome after, x.unlock suite (.key key) v = (outcome, after) ∧
      v.Tidy [x.opening secret] after ∧ SecretKey.Holds after key record secret ∧
      (∀ failure, suite.answer v.calls (x.opening secret) = .error failure →
        outcome = .error failure ∧
        ∀ encoded' y, decode encoded' = .ok y →
          y.envelope = { x.envelope with padding := y.envelope.padding } →
          y.unlock suite (.key key) v = x.unlock suite (.key key) v) ∧
      (∀ form d, suite.answer v.calls (x.opening secret) = .ok (.octets form d) →
        (∀ p, outcome = .ok p ↔ d = p ++ Bytes.zeros n) ∧
        ((∀ p, d ≠ p ++ Bytes.zeros n) → ∃ error, outcome = .error (.padding error))) ∧
      ∀ w, SecretKey.Holds w key record secret →
        suite.answer w.calls (x.opening secret) = suite.answer v.calls (x.opening secret) →
        (x.unlock suite (.key key) w).1 = outcome := by
  obtain ⟨e, hreadable, rfl⟩ := exists_readable_of_decode hdecode
  obtain ⟨n, hn⟩ := Int.eq_ofNat_of_zero_le hreadable.padding.1
  have hpadding := hreadable.padding
  obtain ⟨after, hafter, htidy⟩ := unlockUnder_run suite (ofEnvelope e) h.secret_eq
  refine ⟨n, ?_, congrArg Argument.integer hn, _, after, hafter, htidy, h.of_tidy htidy, ?_, ?_, ?_⟩
  · rw [hn] at hpadding
    exact Int.ofNat_le.mp hpadding.2
  · intro failure hanswer
    refine ⟨by rw [hanswer]; rfl, ?_⟩
    rintro encoded' y - hsame
    -- Both make the same call, and neither looks at its number of zeros.
    have hcall : y.opening secret = (ofEnvelope e).opening secret := by
      rw [opening, hsame]
      rfl
    have hfailed := unlockUnder_of_error y h.secret_eq (hcall ▸ hanswer)
    rw [hcall] at hfailed
    exact hfailed.trans (unlockUnder_of_error (ofEnvelope e) h.secret_eq hanswer).symm
  · intro form d hanswer
    rw [hanswer, opened_octets, hn]
    have hok : ∀ p, Padding.remove d n = .ok p ↔ d = p ++ Bytes.zeros n := by
      intro p
      rw [Padding.remove_eq_ok_iff, Int.toNat_natCast]
      exact and_iff_right (hn ▸ hpadding)
    refine ⟨hok, ?_⟩
    intro hnone
    rcases Padding.remove_ok_or_error d (hn ▸ hpadding) with ⟨p, hp⟩ | herror
    · exact absurd ((hok p).mp hp) (hnone p)
    · exact herror
  · intro w hw hanswer
    obtain ⟨later, hlater, -⟩ := unlockUnder_run suite (ofEnvelope e) hw.secret_eq
    rw [hanswer] at hlater
    exact congrArg Prod.fst hlater

/-- With the standard suite a key that holds zeros unlocks what was encrypted under zeros. -/
theorem unlock_key_outcome_standard :
    ((ofEnvelope (lockedFields [1] (.zeros 16) (.zeros 16) [104, 105]
      (Gcm.lock (.zeros 32) (.zeros 16) (Padding.add [104, 105]).1))).unlock
        (.standard (.ofSeed [7])) (.key 0) .oneKey).1 = .ok [104, 105] := by
  have hreadable := @readable_lockedFields [1] (.zeros 16) (.zeros 16) [104, 105] _ (by decide)
    (by decide) rfl rfl (Gcm.lock_ne_nil (.zeros 32) (.zeros 16) (Padding.add [104, 105]).1)
  have hanswer := Suite.standard_decrypt (.ofSeed [7]) Vault.oneKey.calls
    (Bytes.length_zeros 32) (Bytes.length_zeros 16)
    (Gcm.unlock?_lock (.zeros 32) (.zeros 16) (Padding.add [104, 105]).1)
  obtain ⟨n, -, hn, outcome, after, hrun, -, -, -, hoctets, -⟩ :=
    @unlock_key_outcome (.standard (.ofSeed [7])) .oneKey 0 _ _ _ _
      ((decode_ofEnvelope hreadable).1 .constant) Vault.live_oneKey.holds
  obtain rfl : 14 = n := Int.ofNat.inj (Argument.integer.inj hn)
  rw [hrun]
  exact ((hoctets .constant _ hanswer).1 [104, 105]).mpr rfl

end StoredPassword

end PasswordVault
