import PasswordVault.Proofs.Envelope.Layout
import PasswordVault.Proofs.Padding
import PasswordVault.Proofs.SecretKey.Spending
import PasswordVault.StoredPassword

/-!
# Runs of locking and unlocking

Locking under a key asks for one encryption and unlocking for one decryption. What comes out is
decided by the arguments, by what the key holds and by the answer; every buffer that is used on the
way is overwritten, and the key stays as it is.

## Main definitions

- `StoredPassword.ofEnvelope` — the stored password with the given fields
- `StoredPassword.opening`, `StoredPassword.opened` — the call that unlocking makes, and what
  comes out when it is answered
- `StoredPassword.sealed` — what comes out of locking

`StoredPassword.lockUnder_run` and `StoredPassword.unlockUnder_run` run the two under a key, and
`StoredPassword.sealed_eq_ok` says what is locked when the suite answers with a ciphertext.
-/

namespace PasswordVault

variable {suite : Suite} {v : Vault} {key : KeyRef} {record : KeyRecord} {secret : Argument}

namespace StoredPassword

def ofEnvelope (e : Envelope Int Bytes) : StoredPassword :=
  ⟨Envelope.layout e, e.map .integer id⟩

/-- The fields of an envelope, with its ciphertext as an octet string of some form. -/
def fieldsOf (e : Envelope Int Bytes) (form : Form) : Envelope Argument Argument :=
  { e.map .integer .ofBytes with ciphertext := .octets form e.ciphertext }

theorem carries_fieldsOf (e : Envelope Int Bytes) (form : Form) : (fieldsOf e form).Carries e := rfl

theorem assemble_fieldsOf (raw : Bytes) (e : Envelope Int Bytes) (form : Form) :
    assemble (.ofBytes raw) (fieldsOf e form) = .ok ⟨raw, e.map .integer id⟩ := rfl

def lockedFields (keyId salt vector clear ciphertext : Bytes) : Envelope Int Bytes :=
  { version := Envelope.currentVersion, padding := (Padding.add clear).2
    salt, vector, keyId, ciphertext }

theorem writable_lockedFields {keyId salt vector clear ciphertext : Bytes}
    (hkeyId : keyId.length ≤ Envelope.maxKeyIdLength) (hsalt : salt.length = Envelope.saltLength)
    (hvector : vector.length = Envelope.vectorLength) (hciphertext : ciphertext ≠ []) :
    Envelope.Writable (lockedFields keyId salt vector clear ciphertext) := by
  obtain ⟨hhigh, -⟩ := Padding.add_spec clear
  refine ⟨hsalt, hvector, hkeyId, hciphertext, ?_, ?_⟩
  · show 0 ≤ Envelope.currentVersion ∧ Envelope.currentVersion ≤ Envelope.maxHalf
    decide
  · show 0 ≤ ((Padding.add clear).2 : Int) ∧ ((Padding.add clear).2 : Int) ≤ Envelope.maxHalf
    exact ⟨Int.natCast_nonneg _, Int.ofNat_le.mpr hhigh⟩

/-! ### Locking -/

/-- The stored password made of the fields of a key and of a ciphertext that a suite answered. -/
def written (record : KeyRecord) (vector : Bytes) (zeros : Nat) (ciphertext : Argument) :
    Except Failure StoredPassword := do
  let envelope : Envelope Argument Argument :=
    { version := .integer Envelope.currentVersion, padding := .integer zeros
      salt := .ofBytes record.salt, vector := .ofBytes vector
      keyId := .ofBytes record.keyId, ciphertext }
  let raw ← envelope.write
  assemble (.ofBytes raw) envelope

/-- A ciphertext and the number of zeros that padding added, as a suite answers that has answered
the given calls before. -/
def encrypted (suite : Suite) (calls : List Suite.Call) (secret : Argument) (vector clear : Bytes) :
    Except Failure (Argument × Nat) :=
  if clear = [] then .error (.field .emptyClearText)
  else (suite.answer calls (.encrypt secret vector (Padding.add clear).1)).map
    fun ciphertext => (ciphertext, (Padding.add clear).2)

theorem encrypted_eq_ok {calls : List Suite.Call} {secret ciphertext : Argument}
    {vector clear : Bytes} {zeros : Nat}
    (h : encrypted suite calls secret vector clear = .ok (ciphertext, zeros)) :
    clear ≠ [] ∧ zeros = (Padding.add clear).2 ∧
      suite.answer calls (.encrypt secret vector (Padding.add clear).1) = .ok ciphertext := by
  rw [encrypted] at h
  by_cases hempty : clear = []
  · rw [if_pos hempty] at h
    cases h
  · rw [if_neg hempty] at h
    obtain ⟨answer, hanswer, hpair⟩ := map_eq_ok h
    obtain ⟨rfl, rfl⟩ := Prod.mk.inj hpair
    exact ⟨hempty, rfl, hanswer⟩

/-- What comes out of locking under a key. -/
def sealed (suite : Suite) (calls : List Suite.Call) (record : KeyRecord)
    (secret vector clearText : Argument) : Except Failure StoredPassword := do
  let vector ← vector.toBytesOf .constant Envelope.vectorLength
    fun length => .field (.vectorLength length)
  let clear ← clearText.secretOctets .clearText
  let (ciphertext, zeros) ← encrypted suite calls secret vector clear
  written record vector zeros ciphertext

/-- A padded clear text is encrypted by one call, and its buffer is overwritten. -/
theorem encryptPadded_run (suite : Suite) (h : SecretKey.Holds v key record secret)
    (vector clear : Bytes) :
    ∃ calls w, encryptPadded suite key vector clear v =
      (encrypted suite v.calls secret vector clear, w) ∧ v.Tidy calls w := by
  rw [encryptPadded, encrypted]
  by_cases hne : clear = []
  · rw [if_pos hne, hne]
    exact ⟨[], v, rfl, Vault.tidy_self v⟩
  let call : Suite.Call := .encrypt secret vector (Padding.add clear).1
  let padded : Vault := { v with cells := v.cells ++ [(Padding.add clear).1] }
  have hpadded : SecretKey.Holds padded key record secret :=
    h.mono (List.prefix_refl _) (List.prefix_append _ _) (List.prefix_refl _)
  have hcontent : Action.content v.cells.length padded = (.ok (Padding.add clear).1, padded) :=
    Action.content_allocated rfl
  have hasked : (do
      let secret ← SecretKey.secret key
      let ciphertext ← Action.ask suite
        (.encrypt secret vector (← Action.content v.cells.length))
      return (ciphertext, (Padding.add clear).2)) padded =
      ((suite.answer v.calls call).map fun ciphertext => (ciphertext, (Padding.add clear).2),
        { padded with calls := v.calls ++ [call] }) := by
    rw [Action.bind_of_ok hpadded.secret_eq, Action.bind_of_ok hcontent]
    exact Action.bind_pure (Action.ask_apply suite call padded) _
  have hnotEmpty : clear.isEmpty = false := List.isEmpty_eq_false_iff.mpr hne
  rw [if_neg hne, hnotEmpty]
  dsimp only
  rw [if_neg (by decide), Action.bind_of_ok (Action.allocate_apply (Padding.add clear).1 v)]
  exact ⟨[call], Action.ensuring_wipe hasked (Vault.tidy_call padded call)⟩

/-- **Locking under a key** ends as its arguments and the answer to one call say, and every buffer
that was used holds zeros. -/
theorem lockUnder_run (suite : Suite) (h : SecretKey.Holds v key record secret)
    (vector clearText : Argument) :
    ∃ calls w, lockUnder suite key vector clearText v =
        (sealed suite v.calls record secret vector clearText, w) ∧ v.Tidy calls w := by
  rw [lockUnder, sealed]
  cases hvector : vector.toBytesOf .constant Envelope.vectorLength
      (fun length => .field (.vectorLength length)) with
  | error failure => exact ⟨[], v, Action.bind_of_error rfl, Vault.tidy_self v⟩
  | ok iv =>
  rw [Action.bind_of_ok (Action.lift_apply _ v)]
  cases hclear : clearText.secretOctets .clearText with
  | error failure => exact ⟨[], v, Action.bind_of_error rfl, Vault.tidy_self v⟩
  | ok clear =>
  rw [Action.bind_of_ok (Action.lift_apply _ v),
    Action.bind_of_ok (Action.allocate_apply clear v)]
  -- The copy of the clear text is overwritten after the padded one has been encrypted.
  let copied : Vault := { v with cells := v.cells ++ [clear] }
  have hcopied : SecretKey.Holds copied key record secret :=
    h.mono (List.prefix_refl _) (List.prefix_append _ _) (List.prefix_refl _)
  have hcontent : Action.content v.cells.length copied = (.ok clear, copied) :=
    Action.content_allocated rfl
  obtain ⟨calls, u, hencrypted, hcalls⟩ := encryptPadded_run suite hcopied iv clear
  obtain ⟨w, hwiped, htidy⟩ :=
    Action.ensuring_wipe ((Action.bind_of_ok hcontent).trans hencrypted) hcalls
  refine ⟨calls, w, ?_, htidy⟩
  show _ = (encrypted suite v.calls secret iv clear >>= _, w)
  cases hanswer : encrypted suite v.calls secret iv clear with
  | error failure =>
    rw [hanswer] at hwiped
    exact Action.bind_of_error hwiped
  | ok answer =>
    rw [hanswer] at hwiped
    refine (Action.bind_of_ok hwiped).trans ?_
    refine (Action.bind_of_ok (SecretKey.record_eq (h.of_tidy htidy).stored)).trans ?_
    exact Action.lift_bind _ _ w

theorem uses_lockUnder (suite : Suite) (vector clearText : Argument) :
    SecretKey.Uses (fun key => lockUnder suite key vector clearText)
      (fun calls record secret => sealed suite calls record secret vector clearText) :=
  fun _ _ _ _ h => lockUnder_run suite h vector clearText

/-- What is locked when the suite answers with a ciphertext. -/
theorem sealed_eq_ok {calls : List Suite.Call} {iv clear ciphertext : Bytes}
    {vector clearText : Argument} {form : Form} (hrecord : record.Bounded)
    (hvector : vector.toBytes .constant = .ok iv) (hlength : iv.length = Envelope.vectorLength)
    (hclear : clearText.secretOctets .clearText = .ok clear) (hne : clear ≠ [])
    (hciphertext : ciphertext ≠ [])
    (hanswer : suite.answer calls (.encrypt secret iv (Padding.add clear).1) =
      .ok (.octets form ciphertext)) :
    sealed suite calls record secret vector clearText =
      .ok (ofEnvelope (lockedFields record.keyId record.salt iv clear ciphertext)) := by
  have hiv : vector.toBytesOf .constant Envelope.vectorLength
      (fun length => .field (.vectorLength length)) = .ok iv := by
    rw [Argument.toBytesOf_eq, hvector]
    exact if_pos hlength
  have hencrypted : encrypted suite calls secret iv clear =
      .ok (.octets form ciphertext, (Padding.add clear).2) := by
    rw [encrypted, if_neg hne, hanswer]
    rfl
  have hwrite : (fieldsOf (lockedFields record.keyId record.salt iv clear ciphertext) form).write =
      .ok (Envelope.layout (lockedFields record.keyId record.salt iv clear ciphertext)) :=
    Envelope.write_eq_ok (carries_fieldsOf _ form)
      (writable_lockedFields hrecord.keyId hrecord.salt hlength hciphertext)
  rw [sealed, hiv, hclear]
  show encrypted suite calls secret iv clear >>= _ = _
  rw [hencrypted]
  show (fieldsOf (lockedFields record.keyId record.salt iv clear ciphertext) form).write >>= _ = _
  rw [hwrite]
  exact assemble_fieldsOf _ (lockedFields record.keyId record.salt iv clear ciphertext) form

/-! ### Unlocking -/

/-- The call by which a stored password is unlocked. -/
def opening (password : StoredPassword) (secret : Argument) : Suite.Call :=
  .decrypt secret password.envelope.vector password.envelope.ciphertext

/-- What comes out of unlocking when its call has been answered. -/
def opened (password : StoredPassword) (answer : Except Failure Argument) :
    Except Failure Bytes := do
  let decrypted ← answer
  let padded ← decrypted.toBytes .buffer
  Padding.removeFrom (.octets .buffer padded) password.envelope.padding

theorem opened_octets (e : Envelope Int Bytes) (form : Form) (padded : Bytes) :
    (ofEnvelope e).opened (.ok (.octets form padded)) = Padding.remove padded e.padding :=
  Padding.removeFrom_octets_integer .buffer padded e.padding

/-- A suite that fails ends the unlocking before the padding is looked at. -/
theorem unlockUnder_of_error (password : StoredPassword) {failure : Failure}
    (h : SecretKey.secret key v = (.ok secret, v))
    (hanswer : suite.answer v.calls (password.opening secret) = .error failure) :
    unlockUnder suite password key v =
      (.error failure, { v with calls := v.calls ++ [password.opening secret] }) := by
  have hasked := Action.ask_apply suite (password.opening secret) v
  rw [hanswer] at hasked
  rw [unlockUnder, Action.bind_of_ok h]
  exact Action.bind_of_error hasked

/-- **Unlocking under a key** makes one call and ends as the answer to it says, and every buffer
that was used holds zeros. -/
theorem unlockUnder_run (suite : Suite) (password : StoredPassword)
    (h : SecretKey.secret key v = (.ok secret, v)) :
    ∃ w, unlockUnder suite password key v =
        (password.opened (suite.answer v.calls (password.opening secret)), w) ∧
      v.Tidy [password.opening secret] w := by
  let asked : Vault := { v with calls := v.calls ++ [password.opening secret] }
  have hcall : v.Tidy [password.opening secret] asked := Vault.tidy_call v _
  have hasked : Action.ask suite (password.opening secret) v =
      (suite.answer v.calls (password.opening secret), asked) := Action.ask_apply suite _ v
  cases hanswer : suite.answer v.calls (password.opening secret) with
  | error failure => exact ⟨asked, unlockUnder_of_error password h hanswer, hcall⟩
  | ok decrypted =>
  rw [hanswer] at hasked
  rw [unlockUnder, opened, Action.bind_of_ok h,
    show (Suite.Call.decrypt secret _ _) = password.opening secret from rfl,
    Action.bind_of_ok hasked]
  show ∃ w, (Action.lift (decrypted.toBytes .buffer) >>= _) asked =
    (decrypted.toBytes .buffer >>= _, w) ∧ _
  cases decrypted.toBytes .buffer with
  | error failure => exact ⟨asked, Action.bind_of_error rfl, hcall⟩
  | ok padded =>
  -- The clear text is cut off in a second buffer, which is overwritten once its octets are taken.
  let copied : Vault := { asked with cells := v.cells ++ [padded] }
  have hcontent : Action.content v.cells.length copied = (.ok padded, copied) :=
    Action.content_allocated rfl
  have hcut : ∃ w, (do
      let padded ← Action.content v.cells.length
      let clear ← Action.allocate
        (← Action.lift (Padding.removeFrom (.octets .buffer padded) password.envelope.padding))
      Action.ensuring (Action.content clear) (Action.wipe clear)) copied =
      (Padding.removeFrom (.octets .buffer padded) password.envelope.padding, w) ∧
        copied.Tidy [] w := by
    rw [Action.bind_of_ok hcontent]
    cases Padding.removeFrom (.octets .buffer padded) password.envelope.padding with
    | error failure => exact ⟨copied, Action.bind_of_error rfl, Vault.tidy_self copied⟩
    | ok clear =>
      rw [Action.bind_of_ok (Action.lift_apply _ copied),
        Action.bind_of_ok (Action.allocate_apply clear copied)]
      exact Action.ensuring_wipe (Action.content_allocated rfl) (Vault.tidy_self _)
  obtain ⟨w, hw, htidy⟩ := hcut
  obtain ⟨u, hu, hclean⟩ := Action.ensuring_wipe (v := asked) hw htidy
  rw [Action.bind_of_ok (Action.lift_apply _ asked),
    Action.bind_of_ok (Action.allocate_apply padded asked)]
  exact ⟨u, hu, hcall.trans hclean⟩

theorem uses_unlockUnder (suite : Suite) (password : StoredPassword) :
    SecretKey.Uses (unlockUnder suite password)
      (fun calls _ secret => password.opened (suite.answer calls (password.opening secret))) := by
  intro v key record secret h
  obtain ⟨w, hw, htidy⟩ := unlockUnder_run suite password h.secret_eq
  exact ⟨_, w, hw, htidy⟩

end StoredPassword

end PasswordVault
