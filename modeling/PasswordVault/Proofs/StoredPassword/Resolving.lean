import PasswordVault.Proofs.SecretKey.Resolving
import PasswordVault.Proofs.StoredPassword.Calls

/-!
# Resolving the iterations of locking and unlocking

Locking and unlocking under a passphrase resolve the standard number of iterations once, when they
come to derive their key. With a key from a caller they resolve none.

## Main definitions

- `StoredPassword.supplied?` — the value that was given, or what a suite answered to a draw
- `StoredPassword.lockingStandard?`, `StoredPassword.unlockingStandard?` — the standard that locking
  and unlocking under a passphrase resolve

`StoredPassword.resolves_lock` and `StoredPassword.resolves_unlock` say what they leave in the
vault, however they end.
-/

namespace PasswordVault.StoredPassword

variable {suite : Suite} {iterations : Argument}

theorem unresolving_encryptPadded (suite : Suite) (key : KeyRef) (vector clear : Bytes) :
    (encryptPadded suite key vector clear).Unresolving iterations := by
  refine Action.Keeps.guard fun _ => ?_
  refine (Action.unresolving_allocate _).bind fun cell => ?_
  refine Action.Keeps.ensuring ?_ (Action.unresolving_wipe cell)
  refine (SecretKey.unresolving_secret key).bind fun secret => ?_
  refine (Action.keeps_content cell).bind fun padded => ?_
  exact (Action.unresolving_ask suite (by simp [Suite.Call.iterations?])).bind fun ciphertext =>
    Action.keeps_pure _

theorem unresolving_lockUnder (suite : Suite) (key : KeyRef) (vector clearText : Argument) :
    (lockUnder suite key vector clearText).Unresolving iterations := by
  refine (Action.keeps_lift _).bind fun iv => ?_
  refine (Action.keeps_lift _).bind fun clear => ?_
  refine (Action.unresolving_allocate clear).bind fun cell => ?_
  refine Action.Keeps.bind ?_ fun answer => ?_
  · exact ((Action.keeps_content cell).bind fun _ => unresolving_encryptPadded _ _ _ _).ensuring
      (Action.unresolving_wipe cell)
  refine (SecretKey.unresolving_record key).bind fun record => ?_
  exact (Action.keeps_lift _).bind fun raw => Action.keeps_lift _

theorem unresolving_lockWith (suite : Suite) (credential : Credential)
    (vector clearText : Argument) :
    (lockWith suite credential vector clearText).Unresolving iterations := by
  cases credential with
  | key ref => exact unresolving_lockUnder suite ref vector clearText
  | value argument => exact Action.keeps_fail _

theorem unresolving_unlockUnder (suite : Suite) (password : StoredPassword) (key : KeyRef) :
    (unlockUnder suite password key).Unresolving iterations := by
  refine (SecretKey.unresolving_secret key).bind fun secret => ?_
  refine (Action.unresolving_ask suite (by simp [Suite.Call.iterations?])).bind fun decrypted => ?_
  refine (Action.keeps_lift _).bind fun padded => ?_
  refine (Action.unresolving_allocate padded).bind fun cell => ?_
  refine Action.Keeps.ensuring ?_ (Action.unresolving_wipe cell)
  refine (Action.keeps_content cell).bind fun padded => ?_
  refine (Action.keeps_lift _).bind fun clear => ?_
  refine (Action.unresolving_allocate clear).bind fun cut => ?_
  exact (Action.keeps_content cut).ensuring (Action.unresolving_wipe cut)

/-- An operation under a key of its own resolves what generating that key resolves. -/
theorem resolves_generate_within {α : Type} {operation : KeyRef → Action α} (suite : Suite)
    (keyId passphrase salt given : Argument) (v : Vault)
    (h : ∀ key, (operation key).Unresolving (SecretKey.usedIterations v.settings given)) :
    Vault.Resolves (SecretKey.standard? keyId salt given)
      (SecretKey.usedIterations v.settings given) v
      ((SecretKey.generate suite keyId passphrase salt given >>=
        fun key => SecretKey.within key (operation key)) v).2 := by
  have hgenerated := SecretKey.resolves_generate suite keyId passphrase salt given v
  rcases hrun : SecretKey.generate suite keyId passphrase salt given v with ⟨failure | key, w⟩ <;>
    rw [hrun] at hgenerated
  · rw [Action.bind_of_error hrun]
    exact hgenerated
  · rw [Action.bind_of_ok hrun]
    exact hgenerated.before (SecretKey.unresolving_within (h key) w)

/-- The value that was given, or what a suite that has been called before answers to a draw. -/
def supplied? (suite : Suite) (before : List Suite.Call) : Argument → Option Argument
  | .absent => (suite.answer before (.randomBytes 16)).toOption
  | given => some given

/-- The standard that locking under a passphrase resolves. The key ID and the clear text have to
stand the checks that come first, and the salt and the vector have to be there. -/
def lockingStandard? (suite : Suite) (before : List Suite.Call)
    (keyId clearText salt vector : Argument) : Option Argument :=
  match KeyId.ofArgument keyId with
  | .error _ => none
  | .ok id =>
    if id.isEmpty || isEmptyClearText clearText then none
    else match supplied? suite before salt, supplied? suite (before ++ draws salt) vector with
      | some salt, some _ => SecretKey.standard? (.ofBytes id) salt .absent
      | _, _ => none

/-- The standard that unlocking resolves, if it derives a key of its own. -/
def unlockingStandard? (password : StoredPassword) : Credential → Option Argument
  | .key _ => none
  | .value _ =>
    SecretKey.standard? (.ofBytes password.envelope.keyId) (.ofBytes password.envelope.salt) .absent

theorem eq_of_lockingStandard? {before : List Suite.Call}
    {keyId clearText salt vector standard : Argument}
    (h : lockingStandard? suite before keyId clearText salt vector = some standard) :
    standard = .integer SecretKey.standardIterations := by
  rw [lockingStandard?] at h
  split at h
  · cases h
  split at h
  · cases h
  split at h
  · exact SecretKey.eq_of_standard? h
  · cases h

theorem eq_of_unlockingStandard? {password : StoredPassword} {credential : Credential}
    {standard : Argument} (h : password.unlockingStandard? credential = some standard) :
    standard = .integer SecretKey.standardIterations := by
  cases credential with
  | key => cases h
  | value => exact SecretKey.eq_of_standard? h

/-- A value is supplied, or the failure of the suite ends the operation. -/
theorem givenOrDrawn_cases (suite : Suite) {length : Nat} (hlength : length = 16)
    (given : Argument) (v : Vault) :
    (∃ failure, givenOrDrawn suite length given v =
        (.error failure, { v with calls := v.calls ++ draws given }) ∧
      supplied? suite v.calls given = none) ∨
    ∃ value, givenOrDrawn suite length given v =
        (.ok value, { v with calls := v.calls ++ draws given }) ∧
      supplied? suite v.calls given = some value := by
  subst hlength
  cases given with
  | absent =>
    rw [givenOrDrawn, Action.ask_apply, supplied?]
    cases suite.answer v.calls (.randomBytes 16) with
    | error failure => exact Or.inl ⟨failure, rfl, rfl⟩
    | ok value => exact Or.inr ⟨value, rfl, rfl⟩
  | _ => exact Or.inr ⟨_, by simp [givenOrDrawn, draws], rfl⟩

/-- A draw derives no key. -/
theorem resolves_draws (iterations given : Argument) (v : Vault) :
    Vault.Resolves none iterations v { v with calls := v.calls ++ draws given } := by
  refine ⟨rfl, by simp, by simp [Vault.replacements], draws given, rfl, fun call hcall => ?_⟩
  rw [eq_of_mem_draws hcall]
  simp [Suite.Call.iterations?]

/-- **Locking under a passphrase** resolves the standard once it has what it needs for the key. -/
theorem resolves_lock (suite : Suite) (keyId passphrase clearText salt vector : Argument)
    (v : Vault) :
    Vault.Resolves (lockingStandard? suite v.calls keyId clearText salt vector)
      (SecretKey.usedIterations v.settings .absent) v
      (lock suite keyId passphrase clearText salt vector v).2 := by
  rw [lock, lockingStandard?]
  cases KeyId.ofArgument keyId with
  | error failure => exact Std.Refl.refl v
  | ok id =>
  rw [Action.bind_of_ok (Action.lift_apply _ v)]
  dsimp only
  by_cases hid : id.isEmpty = true
  · simp only [hid, Bool.true_or, if_true]
    exact Std.Refl.refl v
  by_cases hclear : isEmptyClearText clearText = true
  · simp only [hid, hclear, Bool.or_true, if_true]
    exact Std.Refl.refl v
  simp only [hid, hclear, Bool.or_self, Bool.false_eq_true, if_false]
  let drawn : Vault := { v with calls := v.calls ++ draws salt }
  let ready : Vault := { drawn with calls := drawn.calls ++ draws vector }
  have hdrawn : Vault.Resolves none (SecretKey.usedIterations v.settings .absent) v drawn :=
    resolves_draws _ salt v
  have hready : Vault.Resolves none (SecretKey.usedIterations v.settings .absent) v ready :=
    hdrawn.after (resolves_draws _ vector drawn)
  rcases givenOrDrawn_cases suite (rfl : Envelope.saltLength = 16) salt v with
    ⟨failure, hsalt, hnone⟩ | ⟨givenSalt, hsalt, hsome⟩
  · rw [Action.bind_of_error hsalt, hnone]
    exact hdrawn
  rw [Action.bind_of_ok hsalt, hsome]
  rcases givenOrDrawn_cases suite (rfl : Envelope.vectorLength = 16) vector drawn with
    ⟨failure, hvector, hnone⟩ | ⟨givenVector, hvector, hsome⟩
  · rw [Action.bind_of_error hvector, show supplied? suite (v.calls ++ draws salt) vector = none
      from hnone]
    exact hready
  rw [Action.bind_of_ok hvector, show supplied? suite (v.calls ++ draws salt) vector = _ from hsome]
  exact hready.after (resolves_generate_within suite _ _ givenSalt .absent ready fun key =>
    unresolving_lockUnder suite key givenVector clearText)

/-- **Unlocking** resolves the standard if it derives a key of its own. -/
theorem resolves_unlock (suite : Suite) (password : StoredPassword) (credential : Credential)
    (v : Vault) :
    Vault.Resolves (password.unlockingStandard? credential)
      (SecretKey.usedIterations v.settings .absent) v
      (unlock suite password credential v).2 := by
  cases credential with
  | key ref => exact unresolving_unlockUnder suite password ref v
  | value passphrase =>
    exact resolves_generate_within suite _ _ _ .absent v fun key =>
      unresolving_unlockUnder suite password key

end PasswordVault.StoredPassword
