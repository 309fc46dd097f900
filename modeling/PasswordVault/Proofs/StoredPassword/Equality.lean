import PasswordVault.Proofs.StoredPassword.Dialogues
import PasswordVault.Proofs.StoredPassword.KeyReuse
import PasswordVault.Proofs.StoredPassword.Producing

/-!
# Equal stored passwords

Stored passwords are compared by their octets, while everything else is done with their fields. For
what was decoded or locked the two say the same, so that stored passwords which are equal cannot be
told apart, and any others can by their texts.

## Main definitions

- `StoredPassword.Obtained` — the ways in which stored passwords come about
- `StoredPassword.CopyOf` — a stored password that was decoded from what another one is stored as
- `Credential.Agrees` — credentials that stand for the same secret in two vaults

`StoredPassword.Obtained.exists_fields` says that the octets of such a stored password are the
layout of its fields, `StoredPassword.unlock_agrees` that unlocking depends on nothing but the
fields and the secret, and `StoredPassword.same_observational` what this means for comparisons.
-/

namespace PasswordVault

variable {suite : Suite} {v w : Vault}

/-- Credentials that stand for the same secret: a passphrase under the same settings, or keys that
yield the same. -/
inductive Credential.Agrees (v w : Vault) : Credential → Credential → Prop
  | key {key key' : KeyRef} (h : (SecretKey.secret key v).1 = (SecretKey.secret key' w).1) :
    Agrees v w (.key key) (.key key')
  | value (passphrase : Argument) (h : w.settings = v.settings) :
    Agrees v w (.value passphrase) (.value passphrase)

namespace StoredPassword

variable {a b x : StoredPassword}

/-- A stored password comes out of decoding or of locking, with any suite. -/
inductive Obtained (x : StoredPassword) : Prop
  | decoded {encoded : Argument} (h : decode encoded = .ok x)
  | locked {suite : Suite} {keyId passphrase clearText salt vector : Argument} {v w : Vault}
    (h : lock suite keyId passphrase clearText salt vector v = (.ok x, w))
  | lockedWith {suite : Suite} {credential : Credential} {vector clearText : Argument}
    {v w : Vault} (h : lockWith suite credential vector clearText v = (.ok x, w))

/-! ### Octets, fields and texts -/

/-- What was made of a key and a ciphertext consists of fields that can be written. -/
theorem exists_fields_of_written {record : KeyRecord} {vector : Bytes} {zeros : Nat}
    {ciphertext : Argument} (h : written record vector zeros ciphertext = .ok x) :
    ∃ e, Envelope.Writable e ∧ e.version = Envelope.currentVersion ∧ x = ofEnvelope e := by
  obtain ⟨form, octets, -, hwritable, rfl⟩ := written_eq_ok_iff.mp h
  exact ⟨_, hwritable, rfl, rfl⟩

/-- **The octets are the layout of the fields**, on every way to a stored password. -/
theorem Obtained.exists_fields (h : Obtained x) :
    ∃ e, Envelope.Writable e ∧ e.version = Envelope.currentVersion ∧ x = ofEnvelope e := by
  cases h with
  | decoded h =>
    obtain ⟨e, hreadable, rfl⟩ := exists_readable_of_decode h
    exact ⟨e, hreadable.toWritable, hreadable.current, rfl⟩
  | locked h =>
    obtain ⟨record, vector, zeros, ciphertext, -, hwritten⟩ := exists_written_of_lock h
    exact exists_fields_of_written hwritten
  | @lockedWith _ credential _ _ _ _ h =>
    cases credential with
    | key key =>
      obtain ⟨record, iv, zeros, ciphertext, -, -, -, hwritten⟩ := exists_written_of_lockUnder h
      exact exists_fields_of_written hwritten
    | value other => cases h

theorem same_iff : a.same b = true ↔ a.representation = b.representation :=
  beq_iff_eq

/-- The octets determine the fields. -/
theorem Obtained.eq_of_same (ha : Obtained a) (hb : Obtained b) (h : a.same b = true) : a = b := by
  obtain ⟨e, he, -, rfl⟩ := ha.exists_fields
  obtain ⟨f, hf, -, rfl⟩ := hb.exists_fields
  exact congrArg ofEnvelope (Envelope.layout_inj he hf (same_iff.mp h))

/-- The fields determine the octets. -/
theorem Obtained.eq_of_fields (ha : Obtained a) (hb : Obtained b)
    (h : a.envelope = b.envelope) : a = b := by
  obtain ⟨e, -, -, rfl⟩ := ha.exists_fields
  obtain ⟨f, -, -, rfl⟩ := hb.exists_fields
  have hfields : e = f := by
    obtain ⟨version, padding, salt, vector, keyId, ciphertext⟩ := e
    obtain ⟨version', padding', salt', vector', keyId', ciphertext'⟩ := f
    simpa [ofEnvelope, Envelope.map] using h
  rw [hfields]

/-- Every text determines the octets, which are read from it. -/
theorem text_eq_iff (marked : Bool) :
    a.text marked = b.text marked ↔ a.representation = b.representation := by
  constructor
  · intro h
    have hread : Armor.read (a.text marked) = Armor.read (b.text marked) := congrArg Armor.read h
    rw [text, text, Armor.read_write, Armor.read_write] at hread
    exact Except.ok.inj hread
  · intro h
    rw [text, text, h]

/-- So does the text that the settings decide on. -/
theorem toText_eq_iff (marked : Argument) (hsettings : w.settings = v.settings) :
    (a.toText marked v).1 = (b.toText marked w).1 ↔ a.representation = b.representation := by
  let flag := if marked.isAbsent then v.settings.includeScheme else marked.isTrue
  have ha : (a.toText marked v).1 = .ok (a.text flag) := rfl
  have hb : (b.toText marked w).1 = .ok (b.text flag) := by
    show Except.ok (b.text (if marked.isAbsent then w.settings.includeScheme else _)) = _
    rw [hsettings]
  rw [ha, hb, Except.ok.injEq, text_eq_iff]

/-! ### Copies -/

/-- A stored password was decoded from the octets of another one, or from a text of it. -/
inductive CopyOf (a y : StoredPassword) : Prop
  | octets {form : Form} (h : decode (.octets form a.representation) = .ok y)
  | text {marked : Bool} (h : decode (.text (a.text marked)) = .ok y)

theorem representation_of_decode {encoded : Argument} (h : decode encoded = .ok x) :
    representationOf encoded = .ok x.representation := by
  rw [decode] at h
  cases hraw : representationOf encoded with
  | error failure =>
    rw [hraw] at h
    cases h
  | ok raw =>
    rw [hraw] at h
    obtain ⟨e, hread⟩ := exists_ofBytes_eq_ok_iff.mp ⟨x, h⟩
    rw [← Except.ok.inj ((ofBytes_of_read hread).symm.trans h)]

theorem CopyOf.obtained (h : CopyOf a x) : Obtained x := by
  cases h with
  | octets h => exact .decoded h
  | text h => exact .decoded h

/-- A copy has the octets that it was decoded from. -/
theorem CopyOf.representation (h : CopyOf a x) : a.representation = x.representation := by
  cases h with
  | octets h => exact Except.ok.inj (representation_of_decode h)
  | @text marked h =>
    have hread : Armor.read (a.text marked) = .ok x.representation := representation_of_decode h
    rw [StoredPassword.text, Armor.read_write] at hread
    exact Except.ok.inj hread

/-- From 36 octets on, every form is decoded. -/
theorem Obtained.reread (h : Obtained x) (hlength : Envelope.minLength ≤ x.representation.length) :
    x.Reread := by
  obtain ⟨e, hwritable, hcurrent, rfl⟩ := h.exists_fields
  have hlayout := Envelope.length_layout hwritable
  rw [show (ofEnvelope e).representation.length = _ from hlayout] at hlength
  simp only [Envelope.minLength, Envelope.keyIdLengthOffset, Envelope.saltLength,
    Envelope.vectorLength] at hlength
  exact reread_ofEnvelope ⟨hwritable, hcurrent, by omega⟩

/-! ### Unlocking in two vaults -/

/-- **Unlocking depends on the fields and the secret**, if the suite answers a call in one way. -/
theorem unlock_agrees {credential credential' : Credential} (hderive : suite.Repeats .deriveKey)
    (hdecrypt : suite.Repeats .decrypt) (h : credential.Agrees v w credential')
    (x : StoredPassword) :
    (x.unlock suite credential v).1 = (x.unlock suite credential' w).1 := by
  cases h with
  | @key key key' hsecret =>
    obtain ⟨hv, -⟩ := unlockUnder_asks suite x key v
    obtain ⟨hw, -⟩ := unlockUnder_asks suite x key' w
    rw [unlock, unlock, hv, hw, hsecret, fst_run_decryption, fst_run_decryption]
    refine congrArg ((SecretKey.secret key' w).1 >>= ·) (funext fun given => ?_)
    rw [hdecrypt v.calls w.calls (x.opening given) rfl]
  | value passphrase hsettings =>
    -- Both agree with unlocking by a key that is derived before.
    exact (unlockDerived_agrees hderive hdecrypt hsettings x passphrase).trans
      (unlockDerived_agrees hderive hdecrypt rfl x passphrase).symm

/-- **Equality is observational.** Let stored passwords be decoded or locked. They are equal exactly
if all fields coincide, and exactly if their texts do, with or without the marker or as the settings
decide. Then they are described alike, and unlocked alike with the same secret and a suite whose
answers depend on the call alone, whatever was asked of it before. What is decoded from the octets
or a text of a stored password is equal to it, and from 36 octets on every form is decoded. -/
theorem same_observational (ha : Obtained a) (hb : Obtained b) :
    (a.same b = true ↔ a.envelope = b.envelope) ∧
    (∀ marked, a.same b = true ↔ a.text marked = b.text marked) ∧
    (∀ marked v w, w.settings = v.settings →
      (a.same b = true ↔ (a.toText marked v).1 = (b.toText marked w).1)) ∧
    (a.same b = true →
      a.describe = b.describe ∧
      ∀ suite v w credential credential', suite.Repeats .deriveKey → suite.Repeats .decrypt →
        credential.Agrees v w credential' →
        (a.unlock suite credential v).1 = (b.unlock suite credential' w).1) ∧
    (∀ y, CopyOf a y → a.same y = true ∧ y.envelope = a.envelope) ∧
    (36 ≤ a.representation.length → ∃ y, CopyOf a y ∧
      (∀ form, decode (.octets form a.representation) = .ok y) ∧
      ∀ marked, decode (.text (a.text marked)) = .ok y) := by
  have heq : a.same b = true ↔ a = b := by
    constructor
    · exact ha.eq_of_same hb
    · rintro rfl
      exact same_iff.mpr rfl
  refine ⟨?_, ?_, ?_, ?_, ?_, ?_⟩
  · rw [heq]
    constructor
    · rintro rfl
      rfl
    · exact ha.eq_of_fields hb
  · intro marked
    rw [same_iff, text_eq_iff]
  · intro marked v w hsettings
    rw [same_iff, toText_eq_iff marked hsettings]
  · intro hsame
    obtain rfl := heq.mp hsame
    refine ⟨rfl, ?_⟩
    intro suite v w credential credential' hderive hdecrypt hagrees
    exact unlock_agrees hderive hdecrypt hagrees a
  · intro y hcopy
    have hsame : a.same y = true := same_iff.mpr hcopy.representation
    obtain rfl := ha.eq_of_same hcopy.obtained hsame
    exact ⟨hsame, rfl⟩
  · intro hlength
    have hreread := ha.reread hlength
    exact ⟨a, .octets (hreread.octets .constant), hreread.octets, hreread.text⟩

/-- What is locked under a key and its copy cannot be told apart, though one of them is unlocked
after the other was locked. -/
theorem same_observational_oneOctet :
    ∃ a b w, lockWith oneOctet (.key 0) (.ofBytes (.zeros 16)) (.text [104]) .oneKey = (.ok a, w) ∧
      decode (.octets .constant a.representation) = .ok b ∧ a.same b = true ∧
      a.describe = b.describe ∧ a.text false = b.text false ∧
      (a.unlock oneOctet (.key 0) .oneKey).1 = (b.unlock oneOctet (.key 0) w).1 := by
  have hlocked : ∃ a w, lockWith oneOctet (.key 0) (.ofBytes (.zeros 16)) (.text [104]) .oneKey =
      (.ok a, w) ∧ 36 ≤ a.representation.length ∧
        (SecretKey.secret 0 .oneKey).1 = (SecretKey.secret 0 w).1 :=
    ⟨_, _, by rfl, by decide, by rfl⟩
  obtain ⟨a, w, ha, hlength, hsecret⟩ := hlocked
  obtain ⟨-, -, -, -, hcopies, hreread⟩ := same_observational (.lockedWith ha) (.lockedWith ha)
  obtain ⟨b, hcopy, hoctets, -⟩ := hreread hlength
  obtain ⟨hsame, -⟩ := hcopies b hcopy
  obtain ⟨-, htext, -, halike, -⟩ :=
    same_observational (.lockedWith ha) (.decoded (hoctets .constant))
  obtain ⟨hdescribe, hunlock⟩ := halike hsame
  exact ⟨a, b, w, ha, hoctets .constant, hsame, hdescribe, (htext false).mp hsame,
    hunlock oneOctet .oneKey w _ _ (fun _ _ _ _ => rfl) (fun _ _ _ _ => rfl) (.key hsecret)⟩

end StoredPassword

end PasswordVault
