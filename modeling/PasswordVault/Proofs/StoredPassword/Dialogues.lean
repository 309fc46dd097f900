import PasswordVault.Proofs.SecretKey.Derivation
import PasswordVault.Proofs.StoredPassword.Locking

/-!
# What locking and unlocking ask of a suite

Locking draws what it was not given, derives a key and encrypts; unlocking derives a key and
decrypts. With a key from a caller only the last of these calls is made.

## Main definitions

- `StoredPassword.drawing`, `StoredPassword.encryption`, `StoredPassword.decryption` — the dialogues
  of the parts
- `StoredPassword.locking`, `StoredPassword.unlocking` — the dialogues with a passphrase

`StoredPassword.lock_conducts`, `StoredPassword.unlock_conducts`,
`StoredPassword.lockUnder_conducts` and `StoredPassword.unlockUnder_conducts` say that the
operations deal with the suite in this way.
-/

namespace PasswordVault.StoredPassword

open SecretKey (Yields)

variable {suite : Suite} {v : Vault} {key : KeyRef} {record : KeyRecord}
variable {secret : Except Failure Argument}

/-- The given octets, or fresh random ones where none were given. -/
def drawing (length : Nat) : Argument → Dialogue Argument
  | .absent => .call (.randomBytes length)
  | given => pure given

/-- What is asked to encrypt a clear text with what a key yields: the ciphertext and the number of
zeros that padding added. -/
def paddedEncryption (secret : Except Failure Argument) (vector clear : Bytes) :
    Dialogue (Argument × Nat) := do
  .done (if clear.isEmpty then .error (.field .emptyClearText) else .ok ())
  let secret ← .done secret
  let ciphertext ← .call (.encrypt secret vector (Padding.add clear).1)
  return (ciphertext, (Padding.add clear).2)

/-- The same from arguments, and the stored password that comes of it. -/
def encryption (record : KeyRecord) (secret : Except Failure Argument)
    (vector clearText : Argument) : Dialogue StoredPassword := do
  let vector ← .done (vector.toBytesOf .constant Envelope.vectorLength
    fun length => .field (.vectorLength length))
  let clear ← .done (clearText.secretOctets .clearText)
  let answer ← paddedEncryption secret vector clear
  .done (written record vector answer.2 answer.1)

/-- What is asked to lock a clear text under a passphrase. -/
def locking (settings : Settings) (keyId passphrase clearText salt vector : Argument) :
    Dialogue StoredPassword := do
  let keyId ← .done (KeyId.ofArgument keyId)
  .done (if keyId.isEmpty then .error (.field .emptyKeyId) else .ok ())
  .done (if isEmptyClearText clearText then .error (.field .emptyClearText) else .ok ())
  let salt ← drawing Envelope.saltLength salt
  let vector ← drawing Envelope.vectorLength vector
  let made ← SecretKey.derivation settings (.ofBytes keyId) passphrase salt .absent
  encryption (made.record 0) (.ok (.octets .buffer made.content)) vector clearText

/-- What is asked to unlock a stored password with what a key yields. -/
def decryption (password : StoredPassword) (secret : Except Failure Argument) :
    Dialogue Bytes := do
  let secret ← .done secret
  let decrypted ← .call (password.opening secret)
  .done (password.opened (.ok decrypted))

/-- What is asked to unlock a stored password with a passphrase. -/
def unlocking (settings : Settings) (password : StoredPassword) (passphrase : Argument) :
    Dialogue Bytes := do
  let made ← SecretKey.derivation settings (.ofBytes password.envelope.keyId) passphrase
    (.ofBytes password.envelope.salt) .absent
  decryption password (.ok (.octets .buffer made.content))

theorem drawing_conducts (suite : Suite) (length : Nat) (value : Argument) (v : Vault) :
    Action.Conducts suite (givenOrDrawn suite length value) v (drawing length value) := by
  cases value with
  | absent => exact Action.conducts_ask suite _ v
  | _ => exact Action.conducts_done rfl rfl

/-- A padded clear text is encrypted with what the key yields. -/
theorem encryptPadded_conducts (suite : Suite) (h : Yields v key record secret)
    (vector clear : Bytes) :
    Action.Conducts suite (encryptPadded suite key vector clear) v
      (paddedEncryption secret vector clear) := by
  rw [encryptPadded, paddedEncryption]
  cases clear.isEmpty with
  | true => exact Action.conducts_done rfl rfl
  | false =>
  let padded : Vault := { v with cells := v.cells ++ [(Padding.add clear).1] }
  have hpadded : Yields padded key record secret :=
    h.mono (List.prefix_refl _) (List.prefix_append _ _) (List.prefix_refl _)
  have hcontent : Action.content v.cells.length padded = (.ok (Padding.add clear).1, padded) :=
    Action.content_allocated rfl
  refine Action.Conducts.of_silent (Action.allocate_apply _ v) rfl ?_
  refine Action.conducts_ensuring_wipe ?_
  refine Action.Conducts.bind (Action.conducts_done hpadded.secret_eq rfl) ?_
  intro given w hgiven
  obtain ⟨-, rfl⟩ := Prod.mk.inj (hpadded.secret_eq.symm.trans hgiven)
  refine Action.Conducts.of_silent hcontent rfl ?_
  exact Action.Conducts.bind (Action.conducts_ask suite _ _)
    fun ciphertext w _ => Action.conducts_done rfl rfl

theorem keys_ensuring_wipe {α : Type} (body : Action α) (cell : Cell) (v : Vault) :
    (Action.ensuring body (Action.wipe cell) v).2.keys = (body v).2.keys := by
  cases hbody : body v with
  | mk outcome w => rw [Action.ensuring_eq hbody (Action.wipe_apply cell w)]

/-- Encrypting a padded clear text leaves the keys alone. -/
theorem keys_encryptPadded (suite : Suite) (key : KeyRef) (vector clear : Bytes) (v : Vault) :
    (encryptPadded suite key vector clear v).2.keys = v.keys := by
  rw [encryptPadded]
  cases clear.isEmpty with
  | true => rfl
  | false =>
  let padded : Vault := { v with cells := v.cells ++ [(Padding.add clear).1] }
  rw [if_neg Bool.false_ne_true]
  dsimp only
  rw [Action.bind_of_ok (Action.allocate_apply _ v), keys_ensuring_wipe]
  have hsecret : (SecretKey.secret key padded).2 = padded := SecretKey.secret_snd key padded
  cases hgiven : SecretKey.secret key padded with
  | mk outcome w =>
  obtain rfl : w = padded := (congrArg Prod.snd hgiven).symm.trans hsecret
  cases outcome with
  | error failure => rw [Action.bind_of_error hgiven]
  | ok secret =>
    rw [Action.bind_of_ok hgiven, Action.bind_of_ok (Action.content_apply _ padded),
      Action.bind_pure (Action.ask_apply suite _ padded)]

/-- Neither does overwriting the copy of the clear text that is encrypted. -/
theorem keys_encryptCopied (suite : Suite) (key : KeyRef) (vector : Bytes) (cell : Cell)
    (v : Vault) :
    (Action.ensuring (do encryptPadded suite key vector (← Action.content cell))
      (Action.wipe cell) v).2.keys = v.keys := by
  rw [keys_ensuring_wipe, Action.bind_of_ok (Action.content_apply cell v), keys_encryptPadded]

/-- **Locking under a key** asks with what the key yields. -/
theorem lockUnder_conducts (suite : Suite) (h : Yields v key record secret)
    (vector clearText : Argument) :
    Action.Conducts suite (lockUnder suite key vector clearText) v
      (encryption record secret vector clearText) := by
  rw [lockUnder, encryption]
  refine Action.Conducts.lift_bind fun iv _ => ?_
  refine Action.Conducts.lift_bind fun clear _ => ?_
  let copied : Vault := { v with cells := v.cells ++ [clear] }
  have hcopied : Yields copied key record secret :=
    h.mono (List.prefix_refl _) (List.prefix_append _ _) (List.prefix_refl _)
  have hcontent : Action.content v.cells.length copied = (.ok clear, copied) :=
    Action.content_allocated rfl
  refine Action.Conducts.of_silent (Action.allocate_apply clear v) rfl ?_
  refine Action.Conducts.bind (Action.conducts_ensuring_wipe
    (Action.Conducts.of_silent hcontent rfl (encryptPadded_conducts suite hcopied iv clear))) ?_
  intro answer w hanswer
  -- The key ID and the salt are read from the key after the encryption.
  have hkeys : w.keys = v.keys := (congrArg (fun run => run.2.keys) hanswer).symm.trans
    (keys_encryptCopied suite key iv v.cells.length copied)
  have hrecord : SecretKey.record key w = (.ok record, w) :=
    SecretKey.record_eq (hkeys ▸ h.stored)
  refine Action.Conducts.of_silent hrecord rfl ?_
  exact Action.conducts_done (Action.lift_bind _ _ w) rfl

/-- What was encrypted is the padded clear text, with whatever the key gave for its secret. -/
theorem encrypted_of_encryptPadded {vector clear : Bytes} {answer : Argument × Nat} {w : Vault}
    (h : encryptPadded suite key vector clear v = (.ok answer, w)) :
    ∃ secret, encrypted suite v.calls secret vector clear = .ok answer := by
  obtain ⟨hne, hpadded⟩ := Action.guard_eq_ok h
  rw [Action.bind_of_ok (Action.allocate_apply _ v)] at hpadded
  obtain ⟨u, hasked⟩ := Action.ensuring_eq_ok hpadded
  let padded : Vault := { v with cells := v.cells ++ [(Padding.add clear).1] }
  obtain ⟨secret, given, hsecret, hasked⟩ := Action.bind_eq_ok hasked
  obtain rfl : given = padded :=
    (congrArg Prod.snd hsecret).symm.trans (SecretKey.secret_snd key padded)
  have hcontent : Action.content v.cells.length padded = (.ok (Padding.add clear).1, padded) :=
    Action.content_allocated rfl
  rw [Action.bind_of_ok hcontent, Action.bind_pure (Action.ask_apply suite _ padded)] at hasked
  refine ⟨secret, ?_⟩
  rw [encrypted, if_neg fun hempty => hne (List.isEmpty_iff.mpr hempty)]
  exact congrArg Prod.fst hasked

/-- **What is locked under a key** is made of the fields of that key, of the vector given and of the
answer to one call, by which the padded clear text is encrypted. -/
theorem exists_encrypted_of_lockUnder {vector clearText : Argument} {x : StoredPassword} {w : Vault}
    (h : lockUnder suite key vector clearText v = (.ok x, w)) :
    ∃ record secret iv clear ciphertext zeros, v.keys[key]? = some record ∧
      vector.toBytes .constant = .ok iv ∧ iv.length = Envelope.vectorLength ∧
      clearText.secretOctets .clearText = .ok clear ∧
      encrypted suite v.calls secret iv clear = .ok (ciphertext, zeros) ∧
      written record iv zeros ciphertext = .ok x := by
  obtain ⟨iv, hiv, hcopied⟩ := Action.lift_bind_eq_ok h
  obtain ⟨octets, hoctets, hsized⟩ := bind_eq_ok ((Argument.toBytesOf_eq ..).symm.trans hiv)
  obtain ⟨hlength, rfl⟩ := ite_eq_ok hsized
  obtain ⟨clear, hclear, hallocated⟩ := Action.lift_bind_eq_ok hcopied
  rw [Action.bind_of_ok (Action.allocate_apply clear v)] at hallocated
  obtain ⟨answer, u, hencrypted, hread⟩ := Action.bind_eq_ok hallocated
  obtain ⟨record, u', hrecord, hassembled⟩ := Action.bind_eq_ok hread
  have hkeys : u.keys = v.keys := (congrArg (fun run => run.2.keys) hencrypted).symm.trans
    (keys_encryptCopied suite key octets v.cells.length _)
  -- The copy of the clear text is what gets padded.
  obtain ⟨u'', hpadded⟩ := Action.ensuring_eq_ok hencrypted
  rw [Action.bind_of_ok (Action.content_allocated rfl)] at hpadded
  obtain ⟨secret, hanswer⟩ := encrypted_of_encryptPadded hpadded
  obtain ⟨raw, hraw, hassembled⟩ := Action.lift_bind_eq_ok hassembled
  refine ⟨record, secret, octets, clear, answer.1, answer.2, hkeys ▸ SecretKey.record_eq_ok hrecord,
    hoctets, hlength, hclear, hanswer, ?_⟩
  show Envelope.write _ >>= _ = _
  rw [hraw]
  exact congrArg Prod.fst hassembled

/-- What is locked under a key is made of the fields of that key and of the vector given. -/
theorem exists_written_of_lockUnder {vector clearText : Argument} {x : StoredPassword} {w : Vault}
    (h : lockUnder suite key vector clearText v = (.ok x, w)) :
    ∃ record iv zeros ciphertext, v.keys[key]? = some record ∧
      vector.toBytes .constant = .ok iv ∧ iv.length = Envelope.vectorLength ∧
      written record iv zeros ciphertext = .ok x := by
  obtain ⟨record, _, iv, _, ciphertext, zeros, hrecord, hiv, hlength, -, -, hwritten⟩ :=
    exists_encrypted_of_lockUnder h
  exact ⟨record, iv, zeros, ciphertext, hrecord, hiv, hlength, hwritten⟩

/-- **Unlocking under a key** asks with what the key gives for its secret, whatever that is. -/
theorem unlockUnder_asks (suite : Suite) (password : StoredPassword) (key : KeyRef) (v : Vault) :
    Action.Conducts suite (unlockUnder suite password key) v
      (decryption password (SecretKey.secret key v).1) := by
  have hsame : (SecretKey.secret key v).2 = v := SecretKey.secret_snd key v
  cases hsecret : SecretKey.secret key v with
  | mk outcome u =>
  obtain rfl : u = v := (congrArg Prod.snd hsecret).symm.trans hsame
  cases outcome with
  | error failure => exact Action.conducts_done (Action.bind_of_error hsecret) rfl
  | ok given =>
    obtain ⟨w, hw, htidy⟩ := unlockUnder_run suite password hsecret
    refine ⟨?_, ?_⟩ <;> rw [hw]
    · show _ = ((Dialogue.call _ >>= _).run suite u.calls).1
      rw [Dialogue.fst_run_call_bind]
      cases suite.answer u.calls (password.opening given) <;> rfl
    · show _ = u.calls ++ ((Dialogue.call _ >>= _).run suite u.calls).2
      rw [Dialogue.snd_run_call_bind fun _ => rfl]
      exact htidy.calls_eq

theorem unlockUnder_conducts (suite : Suite) (password : StoredPassword)
    (h : Yields v key record secret) :
    Action.Conducts suite (unlockUnder suite password key) v (decryption password secret) := by
  have hasks := unlockUnder_asks suite password key v
  rwa [h.secret_eq] at hasks

/-! ### With a passphrase -/

/-- An operation with a key of its own asks for the derivation of that key first. Destroying the key
at the end asks for nothing. -/
theorem generate_within_conducts {α : Type} {operation : KeyRef → Action α}
    {outcome : List Suite.Call → KeyRecord → Argument → Except Failure α}
    {more : SecretKey.Ingredients → Dialogue α} (huses : SecretKey.Uses operation outcome)
    (hmore : ∀ made i cell, SecretKey.Made v i cell made →
      Action.Conducts suite (operation v.keys.length) made (more i))
    (keyId passphrase salt iterations : Argument) :
    Action.Conducts suite (SecretKey.generate suite keyId passphrase salt iterations >>= fun key =>
        SecretKey.within key (operation key)) v
      (SecretKey.derivation v.settings keyId passphrase salt iterations >>= more) := by
  refine Action.Conducts.bind_of_map (SecretKey.generate_conducts ..) ?_
  intro i made hi hgenerate
  obtain ⟨i', cell, hi', -, hmade⟩ := SecretKey.made_of_generate hgenerate
  rw [SecretKey.fst_run_derivation, hi'] at hi
  obtain rfl : i' = i := Except.ok.inj hi
  refine (hmore made i' cell hmade).ensuring ?_
  intro result w hresult
  obtain ⟨calls, u, hu, htidy⟩ := huses made _ _ _ hmade.live.holds
  obtain rfl : u = w := congrArg Prod.snd (hu.symm.trans hresult)
  exact ⟨_, (hmade.live.of_tidy htidy).destroy_eq, rfl⟩

theorem lock_conducts (suite : Suite) (v : Vault)
    (keyId passphrase clearText salt vector : Argument) :
    Action.Conducts suite (lock suite keyId passphrase clearText salt vector) v
      (locking v.settings keyId passphrase clearText salt vector) := by
  have hsettings : ∀ length value w,
      (givenOrDrawn suite length value w).2.settings = w.settings := by
    intro length value w
    cases value <;> rfl
  rw [lock, locking]
  refine Action.Conducts.lift_bind fun id hid => ?_
  cases id.isEmpty with
  | true => exact Action.conducts_done rfl rfl
  | false =>
  cases isEmptyClearText clearText with
  | true => exact Action.conducts_done rfl rfl
  | false =>
  refine Action.Conducts.bind (drawing_conducts suite _ salt v) ?_
  intro givenSalt w hsalt
  refine Action.Conducts.bind (drawing_conducts suite _ vector w) ?_
  intro givenVector u hvector
  have hw := hsettings Envelope.saltLength salt v
  have hu := hsettings Envelope.vectorLength vector w
  rw [hsalt] at hw
  rw [hvector] at hu
  rw [← hw, ← hu]
  refine generate_within_conducts (uses_lockUnder suite givenVector clearText) ?_ _ _ _ _
  intro made i cell hmade
  exact lockUnder_conducts suite (.secret hmade.live.holds) givenVector clearText

theorem unlock_conducts (suite : Suite) (v : Vault) (password : StoredPassword)
    (passphrase : Argument) :
    Action.Conducts suite (unlock suite password (.value passphrase)) v
      (unlocking v.settings password passphrase) := by
  refine generate_within_conducts (uses_unlockUnder suite password) ?_ _ _ _ _
  intro made i cell hmade
  exact unlockUnder_conducts suite password (.secret hmade.live.holds)

end PasswordVault.StoredPassword
