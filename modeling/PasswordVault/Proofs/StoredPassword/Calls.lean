import PasswordVault.Proofs.Argument.Secrets
import PasswordVault.Proofs.StoredPassword.Decoding
import PasswordVault.Proofs.StoredPassword.Dialogues

/-!
# The calls of locking and unlocking

Locking asks a suite for a salt and a vector where it was given none, for a key derived from the
passphrase and the salt, and for the encryption of the padded clear text under that key and the
vector, in this order and only as far as every step before succeeded. Unlocking asks for a key
derived from the stored salt, and for the decryption of what is stored.

## Main definitions

- `StoredPassword.Dealing` — the octets that go into the calls of a locking
- `StoredPassword.Supplied` — octets that were given, or that a suite answered to a draw
- `StoredPassword.Locks`, `StoredPassword.Unlocks` — how locking and unlocking deal with a suite

`StoredPassword.locks_locking` and `StoredPassword.unlocks_unlocking` say that their dialogues are
of this kind with every suite, and `StoredPassword.locking_refused` when nothing is asked.
-/

namespace PasswordVault.StoredPassword

open Suite (Call)

variable {suite : Suite}

/-- The octets that go into the calls of one locking. -/
structure Dealing where
  /-- The passphrase. -/
  secret : Bytes
  salt : Bytes
  key : Bytes
  vector : Bytes
  padded : Bytes
  deriving Inhabited

/-- The draw of sixteen octets that were not given. -/
def draws : Argument → List Call
  | .absent => [.randomBytes 16]
  | _ => []

/-- The calls of a locking after the draws. -/
def Dealing.uses (d : Dealing) (iterations : Argument) : List Call :=
  [.deriveKey d.secret d.salt iterations 32, .encrypt (.octets .buffer d.key) d.vector d.padded]

/-- All calls of a locking in order. -/
def Dealing.calls (d : Dealing) (iterations salt vector : Argument) : List Call :=
  draws salt ++ draws vector ++ d.uses iterations

/-- Octets are those of a given value or, where nothing was given, of what a suite answers to a
draw. -/
inductive Supplied (suite : Suite) (before : List Call) (octets : Bytes) : Argument → Prop
  | drawn {answer : Argument} (h : suite.answer before (.randomBytes 16) = .ok answer)
    (converted : answer.toBytes .constant = .ok octets) : Supplied suite before octets .absent
  | given {value : Argument} (h : value ≠ .absent)
    (converted : value.toBytes .constant = .ok octets) : Supplied suite before octets value

/-- A clear text has gone into a ciphertext that was stored: padded with as many zeros as are
recorded to whole blocks. -/
structure Padded (clearText : Argument) (padded : Bytes) (padding : Argument) : Prop where
  text : ∃ clear zeros, clearText.Spells clear ∧ padded = clear ++ Bytes.zeros zeros ∧
    padding = .integer zeros
  blocks : 16 ∣ padded.length

theorem padded_add {clearText : Argument} {clear : Bytes} (h : clearText.Spells clear) :
    Padded clearText (Padding.add clear).1 (.integer (Padding.add clear).2) := by
  obtain ⟨hlow, -, hblocks⟩ := Padding.needed_spec clear.length
  refine ⟨⟨clear, (Padding.add clear).2, h, rfl, rfl⟩, ?_⟩
  have hlength : (Padding.add clear).1.length =
      clear.length + (Padding.needed clear.length).toNat :=
    List.length_append.trans (congrArg (clear.length + ·) (Bytes.length_zeros _))
  rw [hlength]
  omega

/-! ### The steps of a locking -/

theorem snd_run_drawing (suite : Suite) (before : List Call) (given : Argument) :
    ((drawing 16 given).run suite before).2 = draws given := by
  cases given with
  | absent => exact congrArg Prod.snd (Dialogue.run_call suite before (.randomBytes 16))
  | _ => rfl

theorem supplied_of_drawing {before : List Call} {given value : Argument} {octets : Bytes}
    (h : ((drawing 16 given).run suite before).1 = .ok value)
    (hoctets : value.toBytes .constant = .ok octets) : Supplied suite before octets given := by
  cases given with
  | absent =>
    rw [drawing, Dialogue.run_call] at h
    exact .drawn h hoctets
  | _ =>
    cases h
    exact .given (by simp) hoctets

/-- A key is derived from the passphrase and sixteen octets of salt, or nothing is asked. -/
theorem derivation_asks (suite : Suite) (before : List Call) (settings : Settings)
    (keyId passphrase salt iterations : Argument) :
    (∃ failure, (SecretKey.derivation settings keyId passphrase salt iterations).run suite before =
        (.error failure, [])) ∨
      ∃ secret s, passphrase.Spells secret ∧ salt.toBytes .constant = .ok s ∧ s.length = 16 ∧
        ((SecretKey.derivation settings keyId passphrase salt iterations).run suite before).2 =
          [.deriveKey secret s (SecretKey.usedIterations settings iterations) 32] := by
  rw [SecretKey.derivation]
  cases KeyId.ofArgument keyId with
  | error failure => exact Or.inl ⟨failure, rfl⟩
  | ok id =>
  cases hsalt : salt.toBytesOf .constant Envelope.saltLength
      (fun length => .field (.keySaltLength length)) with
  | error failure => exact Or.inl ⟨failure, rfl⟩
  | ok s =>
  obtain ⟨octets, hoctets, hs⟩ := bind_eq_ok ((Argument.toBytesOf_eq ..).symm.trans hsalt)
  obtain ⟨hlength, rfl⟩ := ite_eq_ok hs
  cases hsecret : passphrase.secretOctets .passphrase with
  | error failure => exact Or.inl ⟨failure, rfl⟩
  | ok secret =>
  refine Or.inr ⟨secret, octets, Argument.secretOctets_eq_ok_iff.mp hsecret, hoctets, hlength, ?_⟩
  refine Dialogue.snd_run_call_bind fun derived => ?_
  cases SecretKey.derivedOctets derived <;> rfl

/-- What is known of a key that was derived. -/
theorem derived_of_derivation {before : List Call} {settings : Settings}
    {keyId passphrase salt iterations : Argument} {i : SecretKey.Ingredients} {secret s : Bytes}
    (hsecret : passphrase.Spells secret) (hs : salt.toBytes .constant = .ok s)
    (h : ((SecretKey.derivation settings keyId passphrase salt iterations).run suite before).1 =
      .ok i) :
    KeyId.ofArgument keyId = .ok i.keyId ∧ i.salt = s ∧ i.content.length = 32 ∧
      ∃ derived, suite.answer before
          (.deriveKey secret s (SecretKey.usedIterations settings iterations) 32) = .ok derived ∧
        SecretKey.derivedOctets derived = .ok i.content := by
  let asked : Vault := { Vault.ofSettings settings with calls := before }
  have hi : SecretKey.ingredients suite asked keyId passphrase salt iterations = .ok i :=
    (SecretKey.fst_run_derivation ..).symm.trans h
  obtain ⟨hid, hsalt, -, ⟨octets, derived, hoctets, hderived, hcontent⟩, hlength⟩ :=
    SecretKey.ingredients_eq_ok_iff.mp hi
  obtain rfl : s = i.salt := Except.ok.inj (hs.symm.trans hsalt)
  obtain rfl : secret = octets := Except.ok.inj
    ((Argument.secretOctets_eq_ok_iff.mpr hsecret).symm.trans hoctets)
  exact ⟨hid, rfl, hlength, derived, hderived, hcontent⟩

/-- The ciphertext of what is written is an octet string. -/
theorem exists_joinable_of_write {e : Envelope Argument Argument} {raw : Bytes}
    (h : e.write = .ok raw) : ∃ content, e.ciphertext.joinable = .ok content := by
  rw [Envelope.write] at h
  obtain ⟨saltLength, -, h⟩ := bind_eq_ok h
  obtain ⟨-, h⟩ := guard_eq_ok h
  obtain ⟨vectorLength, -, h⟩ := bind_eq_ok h
  obtain ⟨-, h⟩ := guard_eq_ok h
  obtain ⟨keyIdLength, -, h⟩ := bind_eq_ok h
  obtain ⟨-, h⟩ := guard_eq_ok h
  obtain ⟨-, h⟩ := guard_eq_ok h
  obtain ⟨header, -, h⟩ := bind_eq_ok h
  obtain ⟨salt, -, h⟩ := bind_eq_ok h
  obtain ⟨vector, -, h⟩ := bind_eq_ok h
  obtain ⟨keyId, -, h⟩ := bind_eq_ok h
  obtain ⟨ciphertext, hciphertext, -⟩ := bind_eq_ok h
  exact ⟨ciphertext, hciphertext⟩

/-- The fields of a stored password made under a key. -/
def fieldsUnder (record : KeyRecord) (vector : Bytes) (zeros : Nat) (ciphertext : Bytes) :
    Envelope Int Bytes :=
  { version := Envelope.currentVersion, padding := zeros, salt := record.salt, vector
    keyId := record.keyId, ciphertext }

/-- What is made of a key and a ciphertext has the fields of these, within the bounds of writing. -/
theorem written_eq_ok_iff {record : KeyRecord} {vector : Bytes} {zeros : Nat}
    {ciphertext : Argument} {x : StoredPassword} :
    written record vector zeros ciphertext = .ok x ↔
      ∃ form octets, ciphertext = .octets form octets ∧
        Envelope.Writable (fieldsUnder record vector zeros octets) ∧
        x = ofEnvelope (fieldsUnder record vector zeros octets) := by
  constructor
  · intro h
    obtain ⟨raw, hraw, hassembled⟩ := bind_eq_ok h
    obtain ⟨content, hcontent⟩ := exists_joinable_of_write hraw
    cases ciphertext with
    | octets form octets =>
      obtain ⟨hwritable, rfl⟩ := (Envelope.write_eq_ok_iff
        (carries_fieldsOf (fieldsUnder record vector zeros octets) form)).mp hraw
      exact ⟨form, octets, rfl, hwritable, (Except.ok.inj hassembled).symm⟩
    | _ => cases hcontent
  · rintro ⟨form, octets, rfl, hwritable, rfl⟩
    have hwrite := Envelope.write_eq_ok
      (carries_fieldsOf (fieldsUnder record vector zeros octets) form) hwritable
    show (fieldsOf (fieldsUnder record vector zeros octets) form).write >>= _ = _
    rw [hwrite]
    exact assemble_fieldsOf _ (fieldsUnder record vector zeros octets) form

/-- A stored password holds what it was written from, among its fields and in its octets. -/
theorem fields_of_written {record : KeyRecord} {vector : Bytes} {zeros : Nat}
    {ciphertext : Argument} {x : StoredPassword}
    (h : written record vector zeros ciphertext = .ok x) :
    x.envelope.salt = record.salt ∧ x.envelope.vector = vector ∧
      x.envelope.padding = .integer zeros ∧ ciphertext.octets? = some x.envelope.ciphertext ∧
      ∃ header count, x.Tiles x.representation header count := by
  obtain ⟨form, octets, rfl, hwritable, rfl⟩ := written_eq_ok_iff.mp h
  exact ⟨rfl, rfl, rfl, rfl, exists_tiles_layout hwritable⟩

/-- A clear text is padded and encrypted under a vector of sixteen octets, or nothing is asked. -/
theorem encryption_asks (suite : Suite) (before : List Call) (record : KeyRecord)
    (secret vector clearText : Argument) :
    (∃ failure, (encryption record (.ok secret) vector clearText).run suite before =
        (.error failure, [])) ∨
      ∃ clear iv, clearText.Spells clear ∧ vector.toBytes .constant = .ok iv ∧ iv.length = 16 ∧
        (encryption record (.ok secret) vector clearText).run suite before =
          (suite.answer before (.encrypt secret iv (Padding.add clear).1) >>=
              fun ciphertext => written record iv (Padding.add clear).2 ciphertext,
            [.encrypt secret iv (Padding.add clear).1]) := by
  rw [encryption]
  cases hvector : vector.toBytesOf .constant Envelope.vectorLength
      (fun length => .field (.vectorLength length)) with
  | error failure => exact Or.inl ⟨failure, rfl⟩
  | ok iv =>
  obtain ⟨octets, hoctets, hiv⟩ := bind_eq_ok ((Argument.toBytesOf_eq ..).symm.trans hvector)
  obtain ⟨hlength, rfl⟩ := ite_eq_ok hiv
  cases hclear : clearText.secretOctets .clearText with
  | error failure => exact Or.inl ⟨failure, rfl⟩
  | ok clear =>
  cases hempty : clear.isEmpty with
  | true =>
    refine Or.inl ⟨.field .emptyClearText, ?_⟩
    show (paddedEncryption (.ok secret) octets clear >>= _).run suite before = _
    rw [paddedEncryption, hempty]
    rfl
  | false =>
  refine Or.inr ⟨clear, octets, Argument.secretOctets_eq_ok_iff.mp hclear, hoctets, hlength, ?_⟩
  show (paddedEncryption (.ok secret) octets clear >>= _).run suite before = _
  rw [paddedEncryption, hempty]
  show (Dialogue.call _ >>= _).run suite before = _
  refine Prod.ext ?_ (Dialogue.snd_run_call_bind fun _ => rfl)
  rw [Dialogue.fst_run_call_bind]
  rfl

/-! ### Whole lockings -/

/-- How locking deals with a suite that has been called `before`: how it ends, the calls that it
makes, and the octets that have gone into them. -/
structure Locks (suite : Suite) (before : List Call)
    (iterations passphrase clearText salt vector : Argument) (d : Dealing)
    (run : Except Failure StoredPassword × List Call) : Prop where
  ordered : run.2 <+: d.calls iterations salt vector
  /-- A key is derived from the passphrase and the salt that was given or drawn. -/
  derived : .deriveKey d.secret d.salt iterations 32 ∈ run.2 →
    passphrase.Spells d.secret ∧ d.salt.length = 16 ∧ Supplied suite before d.salt salt
  /-- The padded clear text is encrypted under the derived key and the vector that was given or
  drawn. -/
  encrypted : .encrypt (.octets .buffer d.key) d.vector d.padded ∈ run.2 →
    (∃ derived, suite.answer (before ++ draws salt ++ draws vector)
        (.deriveKey d.secret d.salt iterations 32) = .ok derived ∧
      SecretKey.derivedOctets derived = .ok d.key) ∧
    d.key.length = 32 ∧ d.vector.length = 16 ∧
    Supplied suite (before ++ draws salt) d.vector vector ∧
    ∃ padding, Padded clearText d.padded padding
  /-- What is stored has gone into the calls, or was answered to the last of them, and it is stored
  as octets, one field after another. -/
  stored : ∀ x, run.1 = .ok x → run.2 = d.calls iterations salt vector ∧
    x.envelope.salt = d.salt ∧ x.envelope.vector = d.vector ∧
    Padded clearText d.padded x.envelope.padding ∧
    (∃ header count, x.Tiles x.representation header count) ∧
    ∃ ciphertext, suite.answer (before ++ draws salt ++ draws vector ++
        [.deriveKey d.secret d.salt iterations 32])
        (.encrypt (.octets .buffer d.key) d.vector d.padded) = .ok ciphertext ∧
      ciphertext.octets? = some x.envelope.ciphertext

theorem eq_of_mem_draws {call : Call} {given : Argument} (h : call ∈ draws given) :
    call = .randomBytes 16 := by
  cases given with
  | absent => exact List.mem_singleton.mp h
  | _ => cases h

variable {before made : List Call} {iterations passphrase clearText salt vector : Argument}

/-- A locking that does not get beyond its draws. -/
theorem locks_of_draws {failure : Failure} (d : Dealing) (h : made <+: draws salt ++ draws vector) :
    Locks suite before iterations passphrase clearText salt vector d (.error failure, made) := by
  have hdraw : ∀ call ∈ made, call = .randomBytes 16 := by
    intro call hcall
    rcases List.mem_append.mp (h.subset hcall) with hin | hin
    · exact eq_of_mem_draws hin
    · exact eq_of_mem_draws hin
  refine ⟨h.trans (List.prefix_append _ _), ?_, ?_, ?_⟩
  · intro hmem
    cases hdraw _ hmem
  · intro hmem
    cases hdraw _ hmem
  · intro x hx
    cases hx

/-- A locking that ends with the derivation of its key. -/
theorem locks_of_derivation {failure : Failure} {d : Dealing}
    (hsecret : passphrase.Spells d.secret) (hsalt : Supplied suite before d.salt salt)
    (hlength : d.salt.length = 16)
    (hmade : made = draws salt ++ draws vector ++ [.deriveKey d.secret d.salt iterations 32]) :
    Locks suite before iterations passphrase clearText salt vector d (.error failure, made) := by
  subst hmade
  refine ⟨?_, fun _ => ⟨hsecret, hlength, hsalt⟩, ?_, ?_⟩
  · exact (List.prefix_append_right_inj _).mpr (List.prefix_append _ _)
  · intro hmem
    rcases List.mem_append.mp hmem with hin | hin
    · rcases List.mem_append.mp hin with hdraw | hdraw
      · cases eq_of_mem_draws hdraw
      · cases eq_of_mem_draws hdraw
    · cases List.mem_singleton.mp hin
  · intro x hx
    cases hx

/-- With a salt and a vector at hand, a key is derived and the clear text is encrypted. -/
theorem locks_of_drawn {settings : Settings} {keyId givenSalt givenVector : Argument}
    (hsalt : ∀ octets, givenSalt.toBytes .constant = .ok octets →
      Supplied suite before octets salt)
    (hvector : ∀ octets, givenVector.toBytes .constant = .ok octets →
      Supplied suite (before ++ draws salt) octets vector)
    {run : Except Failure StoredPassword × List Call}
    (hrun : (SecretKey.derivation settings keyId passphrase givenSalt .absent >>= fun made =>
        encryption (made.record 0) (.ok (.octets .buffer made.content)) givenVector clearText).run
      suite (before ++ draws salt ++ draws vector) = run) :
    ∃ d, Locks suite before (settings.iterations (.integer SecretKey.standardIterations)) passphrase
      clearText salt vector d (run.1, draws salt ++ draws vector ++ run.2) := by
  subst hrun
  rcases derivation_asks suite (before ++ draws salt ++ draws vector) settings keyId passphrase
    givenSalt .absent with ⟨failure, hnone⟩ | ⟨secret, s, hsecret, hs, hlength, hasked⟩
  · rw [Dialogue.run_bind_of_error hnone, List.append_nil]
    exact ⟨default, locks_of_draws _ (List.prefix_refl _)⟩
  cases hderived : (SecretKey.derivation settings keyId passphrase givenSalt .absent).run suite
    (before ++ draws salt ++ draws vector) with
  | mk outcome calls =>
  obtain rfl : calls = _ := (congrArg Prod.snd hderived).symm.trans hasked
  cases outcome with
  | error failure =>
    rw [Dialogue.run_bind_of_error hderived]
    exact ⟨⟨secret, s, [], [], []⟩, locks_of_derivation hsecret (hsalt s hs) hlength rfl⟩
  | ok i =>
  obtain ⟨-, rfl, hkey, hanswered⟩ :=
    derived_of_derivation hsecret hs (congrArg Prod.fst hderived)
  rw [Dialogue.run_bind_of_ok hderived]
  rcases encryption_asks suite _ (i.record 0) (.octets .buffer i.content) givenVector clearText with
    ⟨failure, hnone⟩ | ⟨clear, iv, hclear, hiv, hivLength, hencrypted⟩
  · rw [hnone, List.append_nil]
    exact ⟨⟨secret, i.salt, [], [], []⟩, locks_of_derivation hsecret (hsalt i.salt hs) hlength rfl⟩
  rw [hencrypted]
  refine ⟨⟨secret, i.salt, i.content, iv, (Padding.add clear).1⟩, List.prefix_refl _,
    fun _ => ⟨hsecret, hlength, hsalt i.salt hs⟩,
    fun _ => ⟨hanswered, hkey, hivLength, hvector iv hiv, _, padded_add hclear⟩, ?_⟩
  intro x hx
  obtain ⟨ciphertext, hciphertext, hwritten⟩ := bind_eq_ok hx
  obtain ⟨hxsalt, hxvector, hpadding, hoctets, htiles⟩ := fields_of_written hwritten
  refine ⟨rfl, hxsalt, hxvector, ?_, htiles, ciphertext, hciphertext, hoctets⟩
  rw [hpadding]
  exact padded_add hclear

/-- **Every locking** deals with the suite in this way. -/
theorem locks_locking (suite : Suite) (before : List Call) (settings : Settings)
    (keyId passphrase clearText salt vector : Argument) :
    ∃ d, Locks suite before (settings.iterations (.integer SecretKey.standardIterations)) passphrase
      clearText salt vector d
      ((locking settings keyId passphrase clearText salt vector).run suite before) := by
  have hnothing : ∀ failure, ∃ d, Locks suite before
      (settings.iterations (.integer SecretKey.standardIterations)) passphrase clearText salt vector
      d (.error failure, []) :=
    fun _ => ⟨default, locks_of_draws _ List.nil_prefix⟩
  rw [locking]
  cases KeyId.ofArgument keyId with
  | error failure => exact hnothing failure
  | ok id =>
  show ∃ d, Locks _ _ _ _ _ _ _ d
    (Dialogue.run _ (Dialogue.done (if id.isEmpty then _ else _) >>= _) _)
  cases id.isEmpty with
  | true => exact hnothing _
  | false =>
  cases isEmptyClearText clearText with
  | true => exact hnothing _
  | false =>
  show ∃ d, Locks _ _ _ _ _ _ _ d (Dialogue.run _ (drawing 16 salt >>= _) _)
  have hdrawnSalt := snd_run_drawing suite before salt
  cases hsalt : (drawing 16 salt).run suite before with
  | mk outcome calls =>
  obtain rfl : calls = draws salt := (congrArg Prod.snd hsalt).symm.trans hdrawnSalt
  cases outcome with
  | error failure =>
    rw [Dialogue.run_bind_of_error hsalt]
    exact ⟨default, locks_of_draws _ (List.prefix_append _ _)⟩
  | ok givenSalt =>
  rw [Dialogue.run_bind_of_ok hsalt]
  have hdrawnVector := snd_run_drawing suite (before ++ draws salt) vector
  cases hvector : (drawing 16 vector).run suite (before ++ draws salt) with
  | mk outcome calls =>
  obtain rfl : calls = draws vector := (congrArg Prod.snd hvector).symm.trans hdrawnVector
  show ∃ d, Locks _ _ _ _ _ _ _ d
    ((Dialogue.run _ (drawing 16 vector >>= _) _).1,
      draws salt ++ (Dialogue.run _ (drawing 16 vector >>= _) _).2)
  cases outcome with
  | error failure =>
    rw [Dialogue.run_bind_of_error hvector]
    exact ⟨default, locks_of_draws _ (List.prefix_refl _)⟩
  | ok givenVector =>
  rw [Dialogue.run_bind_of_ok hvector, ← List.append_assoc]
  exact locks_of_drawn (fun _ => supplied_of_drawing (congrArg Prod.fst hsalt))
    (fun _ => supplied_of_drawing (congrArg Prod.fst hvector)) rfl

/-- Without a key ID or a clear text nothing is asked. -/
theorem locking_refused (suite : Suite) (before : List Call) (settings : Settings)
    {keyId clearText : Argument} (passphrase salt vector : Argument)
    (h : (∀ id, KeyId.ofArgument keyId = .ok id → id = []) ∨ isEmptyClearText clearText) :
    ∃ failure, (locking settings keyId passphrase clearText salt vector).run suite before =
      (.error failure, []) := by
  rw [locking]
  cases hid : KeyId.ofArgument keyId with
  | error failure => exact ⟨failure, rfl⟩
  | ok id =>
  rcases h with hnone | hempty
  · obtain rfl : id = [] := hnone id hid
    exact ⟨_, rfl⟩
  · rw [hempty]
    cases hidEmpty : id.isEmpty with
    | true =>
      refine ⟨.field .emptyKeyId, ?_⟩
      show (Dialogue.done (if id.isEmpty then _ else _) >>= _).run suite before = _
      rw [hidEmpty]
      rfl
    | false =>
      refine ⟨.field .emptyClearText, ?_⟩
      show (Dialogue.done (if id.isEmpty then _ else _) >>= _).run suite before = _
      rw [hidEmpty]
      rfl

/-! ### Unlocking -/

/-- How unlocking with a passphrase deals with a suite that has been called `before`: a key is
derived from the passphrase and the stored salt, and the stored ciphertext is decrypted under that
key and the stored vector. -/
structure Unlocks (suite : Suite) (before : List Call) (iterations passphrase : Argument)
    (password : StoredPassword) (secret key : Bytes) (run : Except Failure Bytes × List Call) :
    Prop where
  ordered : run.2 <+: [.deriveKey secret password.envelope.salt iterations 32,
    password.opening (.octets .buffer key)]
  derived : .deriveKey secret password.envelope.salt iterations 32 ∈ run.2 →
    passphrase.Spells secret
  decrypted : password.opening (.octets .buffer key) ∈ run.2 →
    ∃ derived, suite.answer before
        (.deriveKey secret password.envelope.salt iterations 32) = .ok derived ∧
      SecretKey.derivedOctets derived = .ok key
  unlocked : ∀ clear, run.1 = .ok clear → run.2.length = 2

theorem snd_run_decryption (suite : Suite) (before : List Call) (password : StoredPassword)
    (secret : Argument) :
    ((decryption password (.ok secret)).run suite before).2 = [password.opening secret] :=
  Dialogue.snd_run_call_bind fun _ => rfl

/-- Decryption comes out as the answer to its call says. -/
theorem fst_run_decryption (suite : Suite) (before : List Call) (password : StoredPassword)
    (secret : Except Failure Argument) :
    ((decryption password secret).run suite before).1 =
      secret >>= fun given => password.opened (suite.answer before (password.opening given)) := by
  rw [decryption, Dialogue.fst_run_done_bind]
  cases secret with
  | error failure => rfl
  | ok given =>
    show ((Dialogue.call _ >>= _).run suite before).1 =
      password.opened (suite.answer before (password.opening given))
    rw [Dialogue.fst_run_call_bind]
    cases suite.answer before (password.opening given) <;> rfl

/-- **Every unlocking** deals with the suite in this way. -/
theorem unlocks_unlocking (suite : Suite) (before : List Call) (settings : Settings)
    (password : StoredPassword) (passphrase : Argument) :
    ∃ secret key, Unlocks suite before
      (settings.iterations (.integer SecretKey.standardIterations)) passphrase password secret key
      ((unlocking settings password passphrase).run suite before) := by
  rw [unlocking]
  rcases derivation_asks suite before settings (.ofBytes password.envelope.keyId) passphrase
    (.ofBytes password.envelope.salt) .absent with
    ⟨failure, hnone⟩ | ⟨secret, s, hsecret, hs, -, hasked⟩
  · rw [Dialogue.run_bind_of_error hnone]
    refine ⟨[], [], List.nil_prefix, fun h => absurd h List.not_mem_nil,
      fun h => absurd h List.not_mem_nil, ?_⟩
    intro clear hclear
    cases hclear
  obtain rfl : password.envelope.salt = s := Except.ok.inj hs
  cases hderived : (SecretKey.derivation settings (.ofBytes password.envelope.keyId) passphrase
    (.ofBytes password.envelope.salt) .absent).run suite before with
  | mk outcome calls =>
  obtain rfl : calls = _ := (congrArg Prod.snd hderived).symm.trans hasked
  cases outcome with
  | error failure =>
    rw [Dialogue.run_bind_of_error hderived]
    refine ⟨secret, [], List.prefix_append _ _, fun _ => hsecret, ?_, ?_⟩
    · intro hmem
      cases List.mem_singleton.mp hmem
    · intro clear hclear
      cases hclear
  | ok i =>
    obtain ⟨-, -, -, hanswered⟩ := derived_of_derivation hsecret hs (congrArg Prod.fst hderived)
    rw [Dialogue.run_bind_of_ok hderived, snd_run_decryption]
    exact ⟨secret, i.content, List.prefix_refl _, fun _ => hsecret, fun _ => hanswered,
      fun _ _ => rfl⟩

end PasswordVault.StoredPassword
