import PasswordVault.Proofs.StoredPassword.RoundTrip

/-!
# Passphrases and keys derived before

Locking and unlocking with a passphrase derive a key, use it and destroy it. Somebody who derives
the key once and uses it directly gets the same, and keeps the key.

## Main definitions

- `StoredPassword.unlockDerived`, `StoredPassword.lockDerived` — deriving a key, which is kept, and
  using it

`StoredPassword.derived_agrees` says that they have the same outcome as unlocking and locking with a
passphrase, and what becomes of the keys.
-/

namespace PasswordVault.StoredPassword

variable {suite : Suite} {v w : Vault} {keyId passphrase clearText salt vector : Argument}

/-- Unlocking with a key that is generated for it and kept. -/
def unlockDerived (suite : Suite) (password : StoredPassword) (passphrase : Argument) :
    Action Bytes := do
  let key ← SecretKey.generate suite (.ofBytes password.envelope.keyId) passphrase
    (.ofBytes password.envelope.salt) .absent
  password.unlock suite (.key key)

/-- Locking with a key that is generated for it and kept. -/
def lockDerived (suite : Suite) (keyId passphrase clearText salt vector : Argument) :
    Action StoredPassword := do
  let key ← SecretKey.generate suite keyId passphrase salt .absent
  lockWith suite (.key key) vector clearText

theorem givenOrDrawn_given {length : Nat} {given : Argument} (h : given ≠ .absent) :
    givenOrDrawn suite length given v = (.ok given, v) := by
  cases given with
  | absent => exact absurd rfl h
  | _ => rfl

theorem lock_given {id : Bytes} (hid : KeyId.ofArgument keyId = .ok id) (hne : id ≠ [])
    (hsalt : salt ≠ .absent) (hvector : vector ≠ .absent) :
    lock suite keyId passphrase clearText salt vector v =
      if isEmptyClearText clearText then (.error (.field .emptyClearText), v)
      else (SecretKey.generate suite (.ofBytes id) passphrase salt .absent >>= fun key =>
        SecretKey.within key (lockUnder suite key vector clearText)) v := by
  rw [lock_eq hid hne, Action.bind_of_ok (givenOrDrawn_given hsalt),
    Action.bind_of_ok (givenOrDrawn_given hvector)]

/-- What comes out of locking depends on a record by its key ID and its salt alone. -/
theorem sealed_congr (hsuite : suite.Repeats .encrypt) (calls calls' : List Suite.Call)
    (i : SecretKey.Ingredients) (cell cell' : Cell) (secret vector clearText : Argument) :
    sealed suite calls (i.record cell) secret vector clearText =
      sealed suite calls' (i.record cell') secret vector clearText := by
  have hencrypted : ∀ iv clear, encrypted suite calls secret iv clear =
      encrypted suite calls' secret iv clear := by
    intro iv clear
    rw [encrypted, encrypted, hsuite calls calls' _ rfl]
  simp only [sealed, hencrypted]
  rfl

/-- An empty clear text is not locked. -/
theorem sealed_ne_ok {calls : List Suite.Call} {record : KeyRecord} {secret : Argument}
    (h : isEmptyClearText clearText) (x : StoredPassword) :
    sealed suite calls record secret vector clearText ≠ .ok x := by
  intro hsealed
  obtain ⟨iv, -, hcleared⟩ := bind_eq_ok hsealed
  obtain ⟨clear, hclear, hencrypted⟩ := bind_eq_ok hcleared
  obtain ⟨answer, hanswer, -⟩ := bind_eq_ok hencrypted
  have hnone : clear = [] := by
    cases clearText with
    | octets form content =>
      rw [← Except.ok.inj hclear]
      exact List.isEmpty_iff.mp h
    | text content =>
      obtain rfl : content = [] := List.isEmpty_iff.mp h
      exact (Except.ok.inj hclear).symm
    | _ => cases hclear
  obtain ⟨hne, -⟩ := encrypted_eq_ok hanswer
  exact hne hnone

/-- With a key that was derived before, an empty clear text is not locked either. -/
theorem lockDerived_ne_ok (h : isEmptyClearText clearText) (x : StoredPassword) :
    (lockDerived suite keyId passphrase clearText salt vector w).1 ≠ .ok x := by
  intro hlocked
  cases hi : SecretKey.ingredients suite w keyId passphrase salt .absent with
  | error failure =>
    obtain ⟨after, hrun, -⟩ := SecretKey.generate_bind_of_error
      (fun key => lockUnder suite key vector clearText) hi
    cases (congrArg Prod.fst hrun).symm.trans hlocked
  | ok i =>
    obtain ⟨cell, made, after, -, hrun, -⟩ :=
      SecretKey.generate_bind_of_ok (uses_lockUnder suite vector clearText) hi
    exact sealed_ne_ok h x ((congrArg Prod.fst hrun).symm.trans hlocked)

theorem unlockDerived_agrees (hderive : suite.Repeats .deriveKey)
    (hdecrypt : suite.Repeats .decrypt) (hsettings : w.settings = v.settings) (x : StoredPassword)
    (passphrase : Argument) :
    (x.unlock suite (.value passphrase) v).1 = (x.unlockDerived suite passphrase w).1 := by
  refine SecretKey.within_agrees (uses_unlockUnder suite x)
    (SecretKey.ingredients_congr hderive hsettings.symm) ?_
  intro calls calls' i _ _
  rw [hdecrypt calls calls' _ rfl]

/-- A key ID that is checked first and then given to the derivation is the same key ID. -/
theorem lockDerived_agrees {id : Bytes} (hderive : suite.Repeats .deriveKey)
    (hencrypt : suite.Repeats .encrypt) (hsettings : w.settings = v.settings)
    (hid : KeyId.ofArgument keyId = .ok id) :
    ((SecretKey.generate suite (.ofBytes id) passphrase salt .absent >>= fun key =>
        SecretKey.within key (lockUnder suite key vector clearText)) v).1 =
      (lockDerived suite keyId passphrase clearText salt vector w).1 := by
  have hi : SecretKey.ingredients suite v (.ofBytes id) passphrase salt .absent =
      SecretKey.ingredients suite w keyId passphrase salt .absent :=
    (SecretKey.ingredients_ofBytes hid).trans (SecretKey.ingredients_congr hderive hsettings.symm)
  refine SecretKey.within_agrees (uses_lockUnder suite vector clearText) hi ?_
  intro calls calls' i cell cell'
  exact sealed_congr hencrypt calls calls' i cell cell' _ vector clearText

/-- **Deriving a key and using it agrees with using the passphrase**, with a suite whose answers
depend on the call alone, but for random octets, and under the same settings. Unlocking has the same
outcome, and so has locking with a salt and a vector and a key ID that is not empty, if one of the
two succeeds. A key that was derived by the way is spent; one that was derived before is kept. -/
theorem derived_agrees
    (hsuite : ∀ operation, operation ≠ .randomBytes → suite.Repeats operation)
    (hsettings : w.settings = v.settings) :
    (∀ (x : StoredPassword) (passphrase : Argument),
      (x.unlock suite (.value passphrase) v).1 = (x.unlockDerived suite passphrase w).1 ∧
      SecretKey.Settled v
        (SecretKey.generate suite (.ofBytes x.envelope.keyId) passphrase (.ofBytes x.envelope.salt)
          .absent w)
        (x.unlock suite (.value passphrase) v) (x.unlockDerived suite passphrase w)) ∧
    ∀ (keyId passphrase clearText salt vector : Argument) (id : Bytes),
      KeyId.ofArgument keyId = .ok id → id ≠ [] → salt ≠ .absent → vector ≠ .absent →
        (∀ x, (lock suite keyId passphrase clearText salt vector v).1 = .ok x ↔
          (lockDerived suite keyId passphrase clearText salt vector w).1 = .ok x) ∧
        SecretKey.Settled v (SecretKey.generate suite keyId passphrase salt .absent w)
          (lock suite keyId passphrase clearText salt vector v)
          (lockDerived suite keyId passphrase clearText salt vector w) := by
  have hderive : suite.Repeats .deriveKey := hsuite .deriveKey (by decide)
  have hencrypt : suite.Repeats .encrypt := hsuite .encrypt (by decide)
  have hdecrypt : suite.Repeats .decrypt := hsuite .decrypt (by decide)
  refine ⟨?_, ?_⟩
  · intro x passphrase
    exact ⟨unlockDerived_agrees hderive hdecrypt hsettings x passphrase,
      SecretKey.within_settled suite v w (uses_unlockUnder suite x)⟩
  · intro keyId passphrase clearText salt vector id hid hne hsalt hvector
    have hsettled : SecretKey.Settled v (SecretKey.generate suite keyId passphrase salt .absent w)
        ((SecretKey.generate suite (.ofBytes id) passphrase salt .absent >>= fun key =>
          SecretKey.within key (lockUnder suite key vector clearText)) v)
        (lockDerived suite keyId passphrase clearText salt vector w) :=
      SecretKey.within_settled suite v w (uses_lockUnder suite vector clearText)
    rw [lock_given hid hne hsalt hvector]
    by_cases hempty : isEmptyClearText clearText
    · -- Locking fails at once; a key that was derived before has been made all the same.
      rw [if_pos hempty]
      refine ⟨?_, Or.inl rfl, ?_, hsettled.kept⟩
      · intro x
        constructor
        · intro h
          cases h
        · intro hlocked
          exact absurd hlocked (lockDerived_ne_ok hempty x)
      · intro x h
        cases h
    · rw [if_neg hempty, lockDerived_agrees hderive hencrypt hsettings hid]
      exact ⟨fun x => Iff.rfl, hsettled⟩

/-- With the standard suite, locking under a key ID in hexadecimal and unlocking agree with using a
key that is derived in another vault. -/
theorem derived_agrees_standard :
    ∃ x, (lock (.standard (.ofSeed [7])) (.text (Text.ofString "0a FF")) (.ofBytes [112])
        (.ofBytes [104, 105]) (.ofBytes (.zeros 16)) (.ofBytes (.zeros 16))
        (.ofSettings (.ofEnvironment []))).1 = .ok x ∧
      (lockDerived (.standard (.ofSeed [7])) (.text (Text.ofString "0a FF")) (.ofBytes [112])
        (.ofBytes [104, 105]) (.ofBytes (.zeros 16)) (.ofBytes (.zeros 16)) .oneKey).1 = .ok x ∧
      (x.unlock (.standard (.ofSeed [7])) (.value (.ofBytes [112])) (.ofSettings (.ofEnvironment []))).1 =
        (x.unlockDerived (.standard (.ofSeed [7])) (.ofBytes [112]) .oneKey).1 := by
  have hfaithful : (Suite.standard (.ofSeed [7])).Faithful
      ((Vault.ofSettings (.ofEnvironment [])).settings.iterations
        (.integer SecretKey.standardIterations)) :=
    Suite.standard_faithful (fun draw => Entropy.length_ofSeed [7] draw 16) (by decide) (by decide)
  have hid : KeyId.ofArgument (.text (Text.ofString "0a FF")) = .ok [10, 255] := by rfl
  have hgiven : Argument.ofBytes (.zeros 16) ≠ .absent := by
    intro h
    cases h
  have hzeros : Argument.FixedOrDrawn (.ofBytes (.zeros 16)) := Or.inr ⟨.zeros 16, rfl, rfl⟩
  obtain ⟨derive, hderive⟩ := hfaithful.exists_derives
  obtain ⟨s, iv, ciphertext, after, hlock, -⟩ := lock_eq_ok hfaithful hderive hid (by decide)
    (.octets .constant [112]) (.octets .constant [104, 105]) (by decide) hzeros hzeros
  have hsuite : ∀ operation, operation ≠ .randomBytes →
      (Suite.standard (.ofSeed [7])).Repeats operation := by
    rintro operation hoperation history later call rfl
    cases call with
    | randomBytes => exact absurd rfl hoperation
    | _ => rfl
  obtain ⟨hunlock, hagree⟩ :=
    @derived_agrees (.standard (.ofSeed [7])) (.ofSettings (.ofEnvironment [])) .oneKey hsuite rfl
  obtain ⟨hlocked, -⟩ := hagree _ (.ofBytes [112]) (.ofBytes [104, 105]) (.ofBytes (.zeros 16))
    (.ofBytes (.zeros 16)) _ hid (by decide) hgiven hgiven
  exact ⟨_, congrArg Prod.fst hlock, (hlocked _).mp (congrArg Prod.fst hlock), (hunlock _ _).1⟩

end PasswordVault.StoredPassword
