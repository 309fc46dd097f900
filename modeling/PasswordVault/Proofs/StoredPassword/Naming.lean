import PasswordVault.Proofs.StoredPassword.Producing
import PasswordVault.TextPassword

/-!
# The key ID that is stored

Locking under a passphrase refuses a key ID that denotes no octets before it does anything, however
it is spelt, and stores the octets that any other denotes. Locking under a key stores the key ID of
that key, whatever it is: keys are made for an empty key ID as for any other, and lock in the same
way.

## Main definitions

- `KeyId.Blank` — the ways of giving an empty key ID
- `KeyRecord.named` — a key under another key ID

`KeyId.ofArgument_eq_nil_iff` says that these are all, `StoredPassword.lockWith_named` that locking
under a key does not depend on its key ID, and `StoredPassword.keyId_stored` which key IDs are
stored.
-/

namespace PasswordVault

namespace KeyId

/-- The ways of giving a key ID that denotes no octets. -/
inductive Blank : Argument → Prop
  | octets (form : Form) : Blank (.octets form [])
  | text {content : Text} (h : ∀ c ∈ content, Hexadecimal.isBlank c = true) :
    Blank (.text content)

theorem ofArgument_eq_nil_iff {value : Argument} : ofArgument value = .ok [] ↔ Blank value := by
  cases value with
  | text content =>
    rw [ofArgument_text_eq_ok_iff, ← Hexadecimal.read_eq_ok_iff, Hexadecimal.read_eq_nil_iff]
    constructor
    · rintro ⟨hblank, -⟩
      exact .text hblank
    · intro h
      cases h with
      | text hblank => exact ⟨hblank, Nat.zero_le _⟩
  | octets form content =>
    constructor
    · intro h
      obtain ⟨rfl, -⟩ := checkLength_eq_ok_iff.mp h
      exact .octets form
    · rintro ⟨⟩
      rfl
  | _ => exact iff_of_false (fun h => by cases h) (fun h => by cases h)

end KeyId

def KeyRecord.named (record : KeyRecord) (id : Bytes) : KeyRecord :=
  { record with keyId := id }

namespace StoredPassword

variable {suite : Suite} {v w : Vault} {key key' : KeyRef} {record : KeyRecord} {secret : Argument}
variable {id : Bytes} {x : StoredPassword}

/-- Under another key ID the same fields are written, but for the key ID. -/
theorem written_named {vector : Bytes} {zeros : Nat} {ciphertext : Argument}
    (hid : id.length ≤ Envelope.maxKeyIdLength)
    (h : written record vector zeros ciphertext = .ok x) :
    ∃ y, written (record.named id) vector zeros ciphertext = .ok y ∧
      y.envelope = { x.envelope with keyId := id } := by
  obtain ⟨form, octets, rfl, hwritable, rfl⟩ := written_eq_ok_iff.mp h
  refine ⟨_, written_eq_ok_iff.mpr ⟨form, octets, rfl, ?_, rfl⟩, rfl⟩
  exact { hwritable with keyId := hid }

theorem sealed_named {calls : List Suite.Call} {vector clearText : Argument}
    (hid : id.length ≤ Envelope.maxKeyIdLength)
    (h : sealed suite calls record secret vector clearText = .ok x) :
    ∃ y, sealed suite calls (record.named id) secret vector clearText = .ok y ∧
      y.envelope = { x.envelope with keyId := id } := by
  obtain ⟨iv, hiv, h⟩ := bind_eq_ok h
  obtain ⟨clear, hclear, h⟩ := bind_eq_ok h
  obtain ⟨⟨ciphertext, zeros⟩, hencrypted, h⟩ := bind_eq_ok h
  obtain ⟨y, hy, hsame⟩ := written_named hid h
  refine ⟨y, ?_, hsame⟩
  rw [sealed, hiv, hclear]
  show encrypted suite calls secret iv clear >>= _ = _
  rw [hencrypted]
  exact hy

/-- **Locking under a key does not depend on its key ID**, which is stored as it is. -/
theorem lockWith_named {vector clearText : Argument} {after : Vault}
    (h : SecretKey.Holds v key record secret) (hw : SecretKey.Holds w key' (record.named id) secret)
    (hcalls : w.calls = v.calls) (hid : id.length ≤ Envelope.maxKeyIdLength)
    (hx : lockWith suite (.key key) vector clearText v = (.ok x, after)) :
    ∃ y later, lockWith suite (.key key') vector clearText w = (.ok y, later) ∧
      y.envelope = { x.envelope with keyId := id } := by
  obtain ⟨_, _, hrun, -⟩ := lockUnder_run suite h vector clearText
  have hsealed : sealed suite v.calls record secret vector clearText = .ok x :=
    congrArg Prod.fst (hrun.symm.trans hx)
  obtain ⟨y, hy, hsame⟩ := sealed_named hid hsealed
  obtain ⟨_, later, hlater, -⟩ := lockUnder_run suite hw vector clearText
  rw [hcalls, hy] at hlater
  exact ⟨y, later, hlater, hsame⟩

/-- An empty key ID is refused before anything is drawn or derived. -/
theorem lock_of_blank {keyId : Argument} (hblank : KeyId.Blank keyId)
    (suite : Suite) (passphrase clearText salt vector : Argument) (v : Vault) :
    lock suite keyId passphrase clearText salt vector v = (.error (.field .emptyKeyId), v) := by
  have hid : Action.lift (KeyId.ofArgument keyId) v = (.ok [], v) := by
    rw [Action.lift_apply, KeyId.ofArgument_eq_nil_iff.mpr hblank]
  rw [lock, Action.bind_of_ok hid]
  exact Action.bind_of_error rfl

theorem stored_of_lock {keyId passphrase clearText salt vector : Argument}
    (h : lock suite keyId passphrase clearText salt vector v = (.ok x, w)) :
    x.envelope.keyId ≠ [] ∧ KeyId.ofArgument keyId = .ok x.envelope.keyId ∧
      ∀ marked, decode (.text (x.text marked)) = .ok x := by
  obtain ⟨record, iv, zeros, ciphertext, hid, hne, hwritten⟩ := exists_named_of_lock h
  obtain ⟨-, hkeyId, hreread, -⟩ := reread_of_written hwritten
  rw [hkeyId]
  exact ⟨hne, hid, (hreread (Or.inl hne)).text⟩

theorem stored_of_lockWith {credential : Credential} {vector clearText : Argument}
    (h : lockWith suite credential vector clearText v = (.ok x, w)) :
    ∃ key record, credential = .key key ∧ v.keys[key]? = some record ∧
      x.envelope.keyId = record.keyId := by
  cases credential with
  | key key =>
    obtain ⟨record, iv, zeros, ciphertext, hrecord, -, -, hwritten⟩ := exists_written_of_lockUnder h
    obtain ⟨-, hkeyId, -⟩ := reread_of_written hwritten
    exact ⟨key, record, rfl, hrecord, hkeyId⟩
  | value other => cases h

/-- **Which key IDs are stored.** Locking under a passphrase refuses an empty key ID, however it is
spelt, and leaves the vault as it was. Whatever it locks has the octets that the key ID denotes, of
which there is at least one, and so has its text. A key is made for any key ID that denotes octets
and has these, even if there are none; what is locked under a key has the key ID of the key, and if
something can be locked under one it can be locked under another with the same secret, whatever the
key IDs. -/
theorem keyId_stored (suite : Suite) :
    (∀ keyId passphrase clearText salt vector marked v, KeyId.ofArgument keyId = .ok [] →
      (Failure.field .emptyKeyId).category = .invalidValue ∧
      lock suite keyId passphrase clearText salt vector v = (.error (.field .emptyKeyId), v) ∧
      TextPassword.lock suite keyId passphrase clearText marked v =
        (.error (.field .emptyKeyId), v)) ∧
    (∀ value, KeyId.ofArgument value = .ok [] ↔ KeyId.Blank value) ∧
    (∀ keyId passphrase clearText salt vector v x w,
      lock suite keyId passphrase clearText salt vector v = (.ok x, w) →
        x.envelope.keyId ≠ [] ∧ KeyId.ofArgument keyId = .ok x.envelope.keyId) ∧
    (∀ keyId passphrase clearText marked v t w,
      TextPassword.lock suite keyId passphrase clearText marked v = (.ok t, w) →
        ∃ x, decode (.text t) = .ok x ∧
          x.envelope.keyId ≠ [] ∧ KeyId.ofArgument keyId = .ok x.envelope.keyId) ∧
    (∀ keyId passphrase salt iterations v key w,
      SecretKey.generate suite keyId passphrase salt iterations v = (.ok key, w) →
        ∃ record, w.keys[key]? = some record ∧ KeyId.ofArgument keyId = .ok record.keyId) ∧
    (∀ keyId salt material v key w, SecretKey.create keyId salt material v = (.ok key, w) →
      ∃ record, w.keys[key]? = some record ∧ KeyId.ofArgument keyId = .ok record.keyId) ∧
    (∀ credential vector clearText v x w,
      lockWith suite credential vector clearText v = (.ok x, w) →
        ∃ key record, credential = .key key ∧ v.keys[key]? = some record ∧
          x.envelope.keyId = record.keyId) ∧
    ∀ v key record secret w key' id vector clearText x after,
      SecretKey.Holds v key record secret → SecretKey.Holds w key' (record.named id) secret →
      w.calls = v.calls → id.length ≤ 255 →
      lockWith suite (.key key) vector clearText v = (.ok x, after) →
        ∃ y later, lockWith suite (.key key') vector clearText w = (.ok y, later) ∧
          y.envelope = { x.envelope with keyId := id } := by
  refine ⟨?_, fun _ => KeyId.ofArgument_eq_nil_iff, ?_, ?_, ?_, ?_, ?_, ?_⟩
  · intro keyId passphrase clearText salt vector marked v hempty
    have hblank := KeyId.ofArgument_eq_nil_iff.mp hempty
    exact ⟨rfl, lock_of_blank hblank suite passphrase clearText salt vector v,
      Action.bind_of_error (lock_of_blank hblank suite passphrase clearText .absent .absent v)⟩
  · intro keyId passphrase clearText salt vector v x w h
    obtain ⟨hne, hid, -⟩ := stored_of_lock h
    exact ⟨hne, hid⟩
  · intro keyId passphrase clearText marked v t w h
    obtain ⟨x, u, hlocked, htext⟩ := Action.bind_eq_ok h
    obtain ⟨hne, hid, hdecode⟩ := stored_of_lock hlocked
    cases htext
    exact ⟨x, hdecode _, hne, hid⟩
  · intro keyId passphrase salt iterations v key w h
    obtain ⟨i, cell, hi, rfl, hmade⟩ := SecretKey.made_of_generate h
    exact ⟨i.record cell, hmade.live.record, (SecretKey.ingredients_eq_ok_iff.mp hi).1⟩
  · intro keyId salt material v key w h
    obtain ⟨id, s, secret, hid, -, -, -, -, rfl, rfl⟩ := SecretKey.create_eq_ok h
    exact ⟨_, List.getElem?_concat_length, hid⟩
  · intro credential vector clearText v x w h
    exact stored_of_lockWith h
  · intro v key record secret w key' id vector clearText x after hv hw hcalls hid hx
    exact lockWith_named hv hw hcalls hid hx

/-- Every call is answered with thirty-two zeros. -/
def zeroOctets : Suite := ⟨fun _ _ => .ok (.ofBytes (.zeros 32))⟩

/-- A text of blanks is refused as a key ID, and two digits between blanks are the key ID of what is
locked. -/
theorem keyId_stored_blanks :
    (lock zeroOctets (.text [32, 9, 13]) (.text [112]) (.text [104]) .absent .absent .oneKey).1 =
        .error (.field .emptyKeyId) ∧
      ∃ x w, lock zeroOctets (.text [32, 48, 49, 10]) (.text [112]) (.text [104])
          (.ofBytes (.zeros 16)) (.ofBytes (.zeros 16)) .oneKey = (.ok x, w) ∧
        x.envelope.keyId = [1] := by
  have hrun : ∃ x w, lock zeroOctets (.text [32, 48, 49, 10]) (.text [112]) (.text [104])
      (.ofBytes (.zeros 16)) (.ofBytes (.zeros 16)) .oneKey = (.ok x, w) := ⟨_, _, by rfl⟩
  obtain ⟨x, w, hx⟩ := hrun
  obtain ⟨hrefused, hblank, hlocked, -⟩ := keyId_stored zeroOctets
  obtain ⟨-, hid⟩ := hlocked _ _ _ _ _ _ x w hx
  obtain ⟨-, hempty, -⟩ := hrefused (.text [32, 9, 13]) (.text [112]) (.text [104]) .absent .absent
    .absent .oneKey ((hblank _).mpr (.text (List.all_eq_true.mp rfl)))
  exact ⟨congrArg Prod.fst hempty, x, w, hx, (Except.ok.inj hid).symm⟩

/-- A key is generated for a text of blanks, and what is locked under it has an empty key ID. -/
theorem blank_keyId_stored :
    ∃ key v x w, SecretKey.generate zeroOctets (.text [32]) (.text [112]) (.ofBytes (.zeros 16))
        .absent (Vault.ofSettings (.ofEnvironment [])) = (.ok key, v) ∧
      lockWith zeroOctets (.key key) (.ofBytes (.zeros 16)) (.text [104, 105]) v = (.ok x, w) ∧
      x.envelope.keyId = [] :=
  ⟨_, _, _, _, by rfl, by rfl, by rfl⟩

end StoredPassword

end PasswordVault
