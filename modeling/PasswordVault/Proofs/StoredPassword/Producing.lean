import PasswordVault.Proofs.StoredPassword.Calls
import PasswordVault.Proofs.StoredPassword.Unlocking

/-!
# What is produced

A stored password comes out of locking or of decoding. Either way its fields are within their bounds
and its octets are theirs. Decoding reads nothing shorter than 36 octets, and locking under a
passphrase produces nothing shorter. Locking under a key produces one octet less if the key has an
empty key ID and the suite answers with a single octet, and that is not decoded again.

## Main definitions

- `StoredPassword.Orderly` — the fields are within their bounds and lie where they belong
- `StoredPassword.Reread` — every form of a stored password is decoded to it
- `StoredPassword.Unread` — no form of it is decoded

`StoredPassword.produced_reread` says which stored passwords are decoded again.
-/

namespace PasswordVault

namespace StoredPassword

variable {suite : Suite} {v w : Vault} {x : StoredPassword}

/-- The fields are within their bounds, and the octets are as long as they say. -/
structure Orderly (x : StoredPassword) : Prop where
  version : x.envelope.version = .integer Envelope.currentVersion
  padding : ∃ zeros : Nat, zeros ≤ 15 ∧ x.envelope.padding = .integer zeros
  salt : x.envelope.salt.length = Envelope.saltLength
  vector : x.envelope.vector.length = Envelope.vectorLength
  keyId : x.envelope.keyId.length ≤ Envelope.maxKeyIdLength
  keyIdOctet : (x.representation.getD Envelope.keyIdLengthOffset 0).toNat =
    x.envelope.keyId.length
  ciphertext : x.envelope.ciphertext ≠ []
  length : x.representation.length =
    Envelope.keyIdLengthOffset + 1 + x.envelope.keyId.length + x.envelope.ciphertext.length

/-- The octets are read as the fields, and every form of the stored password is decoded to it. -/
structure Reread (x : StoredPassword) : Prop where
  length : Envelope.minLength ≤ x.representation.length
  fields : ∃ e, Envelope.read x.representation = .ok e ∧ x.envelope = e.map .integer id
  octets : ∀ form, decode (.octets form x.representation) = .ok x
  text : ∀ marked, decode (.text (x.text marked)) = .ok x
  restored : ofBytes x.representation = .ok x

/-- The octets are too short by one, and no form of the stored password is decoded. -/
structure Unread (x : StoredPassword) : Prop where
  length : x.representation.length + 1 = Envelope.minLength
  octets : ∀ form, decode (.octets form x.representation) = .error (.parse (.tooShort 35))
  text : ∀ marked, decode (.text (x.text marked)) = .error (.parse (.tooShort 35))
  restored : ofBytes x.representation = .error (.parse (.tooShort 35))

variable {e : Envelope Int Bytes}

theorem orderly_ofEnvelope (h : Envelope.Writable e)
    (hcurrent : e.version = Envelope.currentVersion) : (ofEnvelope e).Orderly where
  version := congrArg Argument.integer hcurrent
  padding := by
    obtain ⟨hlow, hhigh⟩ := h.padding
    refine ⟨e.padding.toNat, ?_, congrArg Argument.integer (Int.toNat_of_nonneg hlow).symm⟩
    rw [Envelope.maxHalf] at hhigh
    omega
  salt := h.salt
  vector := h.vector
  keyId := h.keyId
  keyIdOctet := Envelope.toNat_getD_layout h
  ciphertext := h.ciphertext
  length := Envelope.length_layout h

theorem reread_ofEnvelope (h : Envelope.Readable e) : (ofEnvelope e).Reread := by
  obtain ⟨hoctets, htext⟩ := decode_ofEnvelope h
  refine ⟨?_, ⟨e, Envelope.read_layout h, rfl⟩, hoctets, htext, hoctets .constant⟩
  show Envelope.minLength ≤ (Envelope.layout e).length
  have htwo := h.twoOctets
  rw [Envelope.length_layout h.toWritable]
  simp only [Envelope.minLength, Envelope.keyIdLengthOffset, Envelope.saltLength,
    Envelope.vectorLength]
  omega

/-- One octet of a key ID and a ciphertext together is too little to be read. -/
theorem unread_ofEnvelope (h : Envelope.Writable e) (hkeyId : e.keyId = [])
    (hciphertext : e.ciphertext.length = 1) : (ofEnvelope e).Unread := by
  have hlength : (Envelope.layout e).length = 35 := by
    rw [Envelope.length_layout h, hkeyId, hciphertext]
    rfl
  have hshort : ofBytes (Envelope.layout e) = .error (.parse (.tooShort 35)) := by
    rw [ofBytes, Envelope.read, hlength, if_pos (by decide)]
  refine ⟨congrArg (· + 1) hlength, fun _ => hshort, fun marked => ?_, hshort⟩
  rw [decode, representationOf, text, ofEnvelope, Armor.read_write]
  exact hshort

/-- What is locked under a passphrase is made of the fields of a key with the given key ID, which
is not empty. -/
theorem exists_named_of_lock {keyId passphrase clearText salt vector : Argument}
    (h : lock suite keyId passphrase clearText salt vector v = (.ok x, w)) :
    ∃ record iv zeros ciphertext, KeyId.ofArgument keyId = .ok record.keyId ∧
      record.keyId ≠ [] ∧ written record iv zeros ciphertext = .ok x := by
  obtain ⟨id, hid, hchecked⟩ := Action.lift_bind_eq_ok h
  obtain ⟨hne, hchecked⟩ := Action.guard_eq_ok hchecked
  obtain ⟨-, hdrawing⟩ := Action.guard_eq_ok hchecked
  obtain ⟨givenSalt, v', -, hdrawing⟩ := Action.bind_eq_ok hdrawing
  obtain ⟨givenVector, v'', -, hgenerating⟩ := Action.bind_eq_ok hdrawing
  obtain ⟨key, made, hgenerated, hwithin⟩ := Action.bind_eq_ok hgenerating
  obtain ⟨i, cell, hi, rfl, hmade⟩ := SecretKey.made_of_generate hgenerated
  obtain ⟨u, hlocked⟩ := Action.ensuring_eq_ok hwithin
  obtain ⟨record, iv, zeros, ciphertext, hrecord, -, -, hwritten⟩ :=
    exists_written_of_lockUnder hlocked
  obtain rfl : i.record cell = record := Option.some.inj (hmade.live.record.symm.trans hrecord)
  -- The key is generated for the key ID that was checked.
  obtain ⟨hkeyId, -⟩ := SecretKey.ingredients_eq_ok_iff.mp hi
  have hsame : i.keyId = id := Except.ok.inj (hkeyId.symm.trans
    (KeyId.ofArgument_ofBytes (KeyId.length_le_of_ofArgument hid)))
  refine ⟨i.record cell, iv, zeros, ciphertext, hid.trans (congrArg Except.ok hsame.symm), ?_,
    hwritten⟩
  intro hempty
  exact hne (List.isEmpty_iff.mpr (hsame.symm.trans hempty))

theorem exists_written_of_lock {keyId passphrase clearText salt vector : Argument}
    (h : lock suite keyId passphrase clearText salt vector v = (.ok x, w)) :
    ∃ record iv zeros ciphertext, record.keyId ≠ [] ∧
      written record iv zeros ciphertext = .ok x := by
  obtain ⟨record, iv, zeros, ciphertext, -, hne, hwritten⟩ := exists_named_of_lock h
  exact ⟨record, iv, zeros, ciphertext, hne, hwritten⟩

/-- What is made of a key and a ciphertext is decoded again, unless the two have one octet between
them. -/
theorem reread_of_written {record : KeyRecord} {vector : Bytes} {zeros : Nat}
    {ciphertext : Argument} (h : written record vector zeros ciphertext = .ok x) :
    x.Orderly ∧ x.envelope.keyId = record.keyId ∧
      (record.keyId ≠ [] ∨ 2 ≤ x.envelope.ciphertext.length → x.Reread) ∧
      (record.keyId = [] → x.envelope.ciphertext.length = 1 → x.Unread) := by
  obtain ⟨form, octets, rfl, hwritable, rfl⟩ := written_eq_ok_iff.mp h
  refine ⟨orderly_ofEnvelope hwritable rfl, rfl, fun henough => ?_, fun hempty hone => ?_⟩
  · refine reread_ofEnvelope ⟨hwritable, rfl, ?_⟩
    show 2 ≤ record.keyId.length + octets.length
    have hpositive : 0 < octets.length := List.length_pos_iff.mpr hwritable.ciphertext
    rcases henough with hne | htwo
    · have := List.length_pos_iff.mpr hne
      omega
    · exact Nat.le_add_left_of_le htwo
  · exact unread_ofEnvelope hwritable hempty hone

theorem orderly_reread_of_readable (h : Envelope.Readable e) :
    (ofEnvelope e).Orderly ∧ (ofEnvelope e).Reread :=
  ⟨orderly_ofEnvelope h.toWritable h.current, reread_ofEnvelope h⟩

/-- **What is produced** has fields within their bounds, and is decoded again from every form. So it
is with what is decoded or restored, and with what is locked under a passphrase, whatever the suite
answers. What is locked under a key has the key ID of that key: if this is empty and the suite
answers with one octet, the result is too short to be decoded, and else it is decoded again. -/
theorem produced_reread (suite : Suite) (x : StoredPassword) :
    (∀ encoded, decode encoded = .ok x → x.Orderly ∧ x.Reread) ∧
    (∀ raw, ofBytes raw = .ok x → x.Orderly ∧ x.Reread) ∧
    (∀ keyId passphrase clearText salt vector v w,
      lock suite keyId passphrase clearText salt vector v = (.ok x, w) → x.Orderly ∧ x.Reread) ∧
    ∀ credential vector clearText v w,
      lockWith suite credential vector clearText v = (.ok x, w) →
        ∃ key record, credential = .key key ∧ v.keys[key]? = some record ∧
          x.envelope.keyId = record.keyId ∧ x.Orderly ∧
          (record.keyId ≠ [] ∨ 2 ≤ x.envelope.ciphertext.length → x.Reread) ∧
          (record.keyId = [] → x.envelope.ciphertext.length = 1 → x.Unread) := by
  refine ⟨?_, ?_, ?_, ?_⟩
  · intro encoded h
    obtain ⟨e, hreadable, rfl⟩ := exists_readable_of_decode h
    exact orderly_reread_of_readable hreadable
  · intro raw h
    -- Octets are decoded as they are restored.
    have hdecode : decode (.octets .constant raw) = .ok x := h
    obtain ⟨e, hreadable, rfl⟩ := exists_readable_of_decode hdecode
    exact orderly_reread_of_readable hreadable
  · intro keyId passphrase clearText salt vector v w h
    obtain ⟨record, iv, zeros, ciphertext, hne, hwritten⟩ := exists_written_of_lock h
    obtain ⟨horderly, -, hreread, -⟩ := reread_of_written hwritten
    exact ⟨horderly, hreread (Or.inl hne)⟩
  · intro credential vector clearText v w h
    cases credential with
    | key key =>
      obtain ⟨record, iv, zeros, ciphertext, hrecord, -, -, hwritten⟩ :=
        exists_written_of_lockUnder h
      obtain ⟨horderly, hkeyId, hkinds⟩ := reread_of_written hwritten
      exact ⟨key, record, rfl, hrecord, hkeyId, horderly, hkinds⟩
    | value other => cases h

/-- Every call is answered with one octet. -/
def oneOctet : Suite := ⟨fun _ _ => .ok (.octets .constant [9])⟩

/-- One octet for a clear text is enough under a key that has a key ID. -/
theorem produced_reread_oneOctet :
    ∃ x w, lockWith oneOctet (.key 0) (.ofBytes (.zeros 16)) (.text [104]) .oneKey = (.ok x, w) ∧
      x.representation.length = 36 ∧ x.Reread := by
  have hlocked : ∃ x w, lockWith oneOctet (.key 0) (.ofBytes (.zeros 16)) (.text [104]) .oneKey =
      (.ok x, w) ∧ x.representation.length = 36 := ⟨_, _, by rfl, by rfl⟩
  obtain ⟨x, w, hx, hlength⟩ := hlocked
  obtain ⟨-, -, -, hunder⟩ := produced_reread oneOctet x
  obtain ⟨key, record, hkey, hrecord, -, -, hreread, -⟩ := hunder _ _ _ _ w hx
  cases hkey
  cases hrecord
  exact ⟨x, w, hx, hlength, hreread (Or.inl (by decide))⟩

/-- Under a key that was created with an empty key ID, one octet for a clear text makes octets that
are stored and cannot be decoded. -/
theorem unnamed_key_unread :
    ∃ v x w, SecretKey.create (.ofBytes []) (.ofBytes (.zeros 16)) (.buffer 0)
        { Vault.ofSettings (.ofEnvironment []) with cells := [.zeros 32] } = (.ok 0, v) ∧
      lockWith oneOctet (.key 0) (.ofBytes (.zeros 16)) (.text [104]) v = (.ok x, w) ∧
      x.representation.length = 35 ∧
      decode (.octets .constant x.representation) = .error (.parse (.tooShort 35)) ∧
      decode (.text (x.text true)) = .error (.parse (.tooShort 35)) ∧
      ofBytes x.representation = .error (.parse (.tooShort 35)) := by
  refine ⟨_, _, _, by rfl, by rfl, by rfl, by rfl, ?_, by rfl⟩
  rw [decode, representationOf, text, Armor.read_write]
  rfl

end StoredPassword

end PasswordVault
