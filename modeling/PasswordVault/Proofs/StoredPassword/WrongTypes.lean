import PasswordVault.Proofs.StoredPassword.Calls
import PasswordVault.Proofs.StoredPassword.KeyReuse

/-!
# Salts, vectors and representations of the wrong type

A salt, a vector or a representation goes through the general conversion to octets. It refuses text,
fractional numbers and nothing at all; a whole number it takes for a count of zeros and a list for
the octets that its items stand for, so these are refused for their length alone. Values of types
that no `Argument` has are not looked at: some of them are converted too.

## Main definitions

- `Argument.IsCounted` — a value of which the conversion makes octets though it is none
- `Argument.MakesUp` — what it makes of such a value
- `Refuses` — an outcome that is a failure of the wrong type

`StoredPassword.uncounted_refused` says that text, a fractional number and nothing are refused where
octets are wanted, and that what is accepted though it is no octets is a number or a list of the
right length.
-/

namespace PasswordVault

/-- An outcome is a failure of the wrong type. -/
def Refuses {α : Type} (outcome : Except Failure α) : Prop :=
  ∃ failure, outcome = .error failure ∧ failure.category = .wrongType

namespace Argument

/-- A value is no octets, but the general conversion makes octets of it. -/
def IsCounted : Argument → Prop
  | .flag _ => True
  | .integer _ => True
  | .list _ => True
  | _ => False

/-- What the general conversion makes of a number or a list: as many zeros, or the octets that the
items stand for. -/
inductive MakesUp (octets : Bytes) : Argument → Prop
  | zeros (h : octets = Bytes.zeros octets.length) : MakesUp octets (.integer octets.length)
  | items {values : List Argument} (h : Argument.items .constant values = .ok octets) :
    MakesUp octets (.list values)

variable {value : Argument}

theorem refuses_toBytes (container : Container) (hvalue : value.octets? = none)
    (h : ¬value.IsCounted) : Refuses (value.toBytes container) := by
  cases value with
  | octets form content => cases hvalue
  | flag _ => exact absurd trivial h
  | integer _ => exact absurd trivial h
  | list _ => exact absurd trivial h
  | _ => exact ⟨_, rfl, rfl⟩

theorem zeros_eq_ok {container : Container} {count : Int} {octets : Bytes}
    (h : zeros container count = .ok octets) :
    octets = Bytes.zeros octets.length ∧ count = octets.length := by
  obtain ⟨n, hn, rfl⟩ := map_eq_ok (show Bytes.zeros <$> zeroCount container count = _ from h)
  rw [zeroCount, roomFor] at hn
  split at hn
  · cases hn
  split at hn
  · cases hn
  next hsign =>
  split at hn
  · cases hn
  split at hn
  · cases hn
  cases hn
  rw [Bytes.length_zeros]
  exact ⟨rfl, (Int.toNat_of_nonneg (Int.not_lt.mp hsign)).symm⟩

/-- Two octets or more are made up of a number or of a list that says how many. -/
theorem makesUp_of_toBytes {octets : Bytes} (hvalue : value.octets? = none)
    (h : value.toBytes .constant = .ok octets) (hlength : 2 ≤ octets.length) :
    MakesUp octets value := by
  cases value with
  | octets form content => cases hvalue
  | integer count =>
    obtain ⟨hzeros, hcount⟩ := zeros_eq_ok h
    rw [hcount]
    exact .zeros hzeros
  | list values => exact .items h
  | flag set =>
    obtain ⟨-, hcount⟩ := zeros_eq_ok h
    cases set <;> simp at hcount <;> omega
  | _ => cases h

theorem refuses_toBytesOf {container : Container} {length : Nat} {refusal : Nat → Failure}
    (h : Refuses (value.toBytes container)) :
    Refuses (value.toBytesOf container length refusal) := by
  obtain ⟨failure, hfailure, hcategory⟩ := h
  rw [toBytesOf_eq, hfailure]
  exact ⟨failure, rfl, hcategory⟩

end Argument

namespace SecretKey

variable {suite : Suite} {v w : Vault} {keyId passphrase salt iterations : Argument}

theorem refuses_ingredients {id : Bytes} (hid : KeyId.ofArgument keyId = .ok id)
    (h : Refuses (salt.toBytes .constant)) :
    Refuses (ingredients suite v keyId passphrase salt iterations) := by
  obtain ⟨failure, hfailure, hcategory⟩ := Argument.refuses_toBytesOf h
  refine ⟨failure, ?_, hcategory⟩
  rw [ingredients, hid]
  show salt.toBytesOf .constant _ _ >>= _ = _
  rw [hfailure]
  rfl

theorem refuses_generate {id : Bytes} (hid : KeyId.ofArgument keyId = .ok id)
    (h : Refuses (salt.toBytes .constant)) :
    Refuses (generate suite keyId passphrase salt iterations v).1 := by
  obtain ⟨failure, hfailure, hcategory⟩ := refuses_ingredients hid h
  obtain ⟨w, hw, -⟩ := generate_of_error hfailure
  rw [hw]
  exact ⟨failure, rfl, hcategory⟩

/-- The salt of a key that was generated is what the conversion makes of what was given. -/
theorem salt_of_generate {key : KeyRef}
    (h : generate suite keyId passphrase salt iterations v = (.ok key, w)) :
    ∃ record, w.keys[key]? = some record ∧ salt.toBytes .constant = .ok record.salt ∧
      record.salt.length = 16 := by
  obtain ⟨i, cell, hi, rfl, hmade⟩ := made_of_generate h
  obtain ⟨-, hsalt, hlength, -⟩ := ingredients_eq_ok_iff.mp hi
  exact ⟨_, hmade.live.record, hsalt, hlength⟩

end SecretKey

namespace StoredPassword

variable {suite : Suite} {v w : Vault} {value : Argument}

/-- A vector of the wrong type is the first thing that locking under a key refuses. -/
theorem refuses_lockUnder (suite : Suite) (v : Vault) (key : KeyRef) (clearText : Argument)
    (h : Refuses (value.toBytes .constant)) :
    Refuses (lockUnder suite key value clearText v).1 := by
  obtain ⟨failure, hfailure, hcategory⟩ := Argument.refuses_toBytesOf h
  refine ⟨failure, ?_, hcategory⟩
  rw [lockUnder, hfailure]
  rfl

/-- The vector that locking under a key stores is what the conversion makes of what was given. -/
theorem vector_of_lockUnder {key : KeyRef} {vector clearText : Argument} {x : StoredPassword}
    (h : lockUnder suite key vector clearText v = (.ok x, w)) :
    vector.toBytes .constant = .ok x.envelope.vector ∧ x.envelope.vector.length = 16 := by
  obtain ⟨record, iv, zeros, ciphertext, -, hiv, hlength, hwritten⟩ :=
    exists_written_of_lockUnder h
  obtain ⟨-, rfl, -⟩ := fields_of_written hwritten
  exact ⟨hiv, hlength⟩

/-- The salt and the vector that locking with a passphrase stores are what the conversion makes of
what was given. -/
theorem given_of_lock {keyId passphrase clearText salt vector : Argument} {x : StoredPassword}
    (h : lock suite keyId passphrase clearText salt vector v = (.ok x, w)) :
    (salt ≠ .absent → salt.toBytes .constant = .ok x.envelope.salt ∧
      x.envelope.salt.length = 16) ∧
    (vector ≠ .absent → vector.toBytes .constant = .ok x.envelope.vector ∧
      x.envelope.vector.length = 16) := by
  have houtcome := (lock_conducts suite v keyId passphrase clearText salt vector).outcome
  obtain ⟨d, hlocks⟩ :=
    locks_locking suite v.calls v.settings keyId passphrase clearText salt vector
  rw [h] at houtcome
  obtain ⟨hall, hsalt, hvector, -⟩ := hlocks.stored x houtcome.symm
  obtain ⟨-, hsaltLength, hsupplied⟩ :=
    hlocks.derived (by rw [hall]; simp [Dealing.calls, Dealing.uses])
  obtain ⟨-, -, hvectorLength, hsupplied', -⟩ :=
    hlocks.encrypted (by rw [hall]; simp [Dealing.calls, Dealing.uses])
  rw [hsalt, hvector]
  refine ⟨fun hgiven => ⟨?_, hsaltLength⟩, fun hgiven => ⟨?_, hvectorLength⟩⟩
  · cases hsupplied with
    | drawn => exact absurd rfl hgiven
    | given _ converted => exact converted
  · cases hsupplied' with
    | drawn => exact absurd rfl hgiven
    | given _ converted => exact converted

/-- A salt of the wrong type is refused when the key is generated. -/
theorem refuses_lock_salt {iterations keyId clearText vector : Argument} {id clear : Bytes}
    (passphrase : Argument)
    (hsuite : suite.Faithful iterations) (hid : KeyId.ofArgument keyId = .ok id) (hne : id ≠ [])
    (hclear : clearText.Spells clear) (hnonempty : clear ≠ []) (hvector : vector.FixedOrDrawn)
    (hgiven : value ≠ .absent) (h : Refuses (value.toBytes .constant)) :
    Refuses (lock suite keyId passphrase clearText value vector v).1 := by
  obtain ⟨givenVector, iv, calls, hgivenVector, -, -⟩ :=
    @givenOrDrawn_eq suite v _ _ hsuite hvector
  obtain ⟨failure, hfailure, hcategory⟩ := @SecretKey.refuses_generate suite { v with calls }
    (.ofBytes id) passphrase value .absent id
    (KeyId.ofArgument_ofBytes (KeyId.length_le_of_ofArgument hid)) h
  refine ⟨failure, ?_, hcategory⟩
  rw [lock_eq hid hne, isEmptyClearText_of_spells hclear hnonempty, if_neg (by decide)]
  refine (congrArg Prod.fst ((Action.bind_of_ok (givenOrDrawn_given hgiven)).trans
    (Action.bind_of_ok hgivenVector))).trans ?_
  rw [Action.bind_of_error (Prod.ext hfailure rfl)]

/-- A vector of the wrong type is refused when the clear text is locked under the derived key. -/
theorem refuses_lock_vector {keyId passphrase clearText salt : Argument} {id secret clear : Bytes}
    (hsuite : suite.Faithful (v.settings.iterations (.integer SecretKey.standardIterations)))
    (hid : KeyId.ofArgument keyId = .ok id) (hne : id ≠ []) (hsecret : passphrase.Spells secret)
    (hclear : clearText.Spells clear) (hnonempty : clear ≠ []) (hsalt : salt.FixedOrDrawn)
    (hgiven : value ≠ .absent) (h : Refuses (value.toBytes .constant)) :
    Refuses (lock suite keyId passphrase clearText salt value v).1 := by
  obtain ⟨derive, hderive⟩ := hsuite.exists_derives
  obtain ⟨givenSalt, s, calls, hgivenSalt, hs, hlength⟩ :=
    @givenOrDrawn_eq suite v _ _ hsuite hsalt
  have hi := @SecretKey.ingredients_of_derives suite { v with calls } derive (.ofBytes id) _ _ _ _ _
    hderive (KeyId.ofArgument_ofBytes (KeyId.length_le_of_ofArgument hid)) hs hlength
    (Argument.secretOctets_eq_ok_iff.mpr hsecret)
  obtain ⟨cell, asked, after, hrun, -⟩ :=
    SecretKey.generate_within_of_ok (uses_lockUnder suite value clearText) hi
  obtain ⟨failure, hfailure, hcategory⟩ := @Argument.refuses_toBytesOf value .constant
    Envelope.vectorLength (fun length => .field (.vectorLength length)) h
  refine ⟨failure, ?_, hcategory⟩
  rw [lock_eq hid hne, isEmptyClearText_of_spells hclear hnonempty, if_neg (by decide)]
  refine (congrArg Prod.fst ((Action.bind_of_ok hgivenSalt).trans
    (Action.bind_of_ok (givenOrDrawn_given hgiven)))).trans ?_
  rw [hrun, sealed, hfailure]
  rfl

/-- **A value that is no octets** where a salt, a vector or a representation is wanted, with all
else in order. Text, a fractional number and nothing are refused for their type. A number or a list
is accepted only where it makes up as many octets as are wanted, which are then zeros or the items
of the list. This is about the types that an `Argument` has; the conversion takes values of others,
such as ranges and sets, for the octets that their items stand for. -/
theorem uncounted_refused {keyId passphrase clearText salt vector : Argument}
    {id secret clear : Bytes} (hvalue : value.octets? = none)
    (hsuite : suite.Faithful (v.settings.iterations (.integer SecretKey.standardIterations)))
    (hid : KeyId.ofArgument keyId = .ok id) (hne : id ≠ []) (hsecret : passphrase.Spells secret)
    (hclear : clearText.Spells clear) (hnonempty : clear ≠ []) (hsalt : salt.FixedOrDrawn)
    (hvector : vector.FixedOrDrawn) :
    (¬value.IsCounted →
      (∀ iterations, Refuses (SecretKey.generate suite keyId passphrase value iterations v).1) ∧
      (value ≠ .absent → Refuses (lock suite keyId passphrase clearText value vector v).1 ∧
        Refuses (lock suite keyId passphrase clearText salt value v).1) ∧
      (∀ key, Refuses (lockWith suite (.key key) value clearText v).1) ∧
      Refuses (Envelope.readFrom value)) ∧
    (∀ iterations key w,
      SecretKey.generate suite keyId passphrase value iterations v = (.ok key, w) →
      ∃ record, w.keys[key]? = some record ∧ record.salt.length = 16 ∧
        value.MakesUp record.salt) ∧
    (∀ x w, value ≠ .absent →
      (lock suite keyId passphrase clearText value vector v = (.ok x, w) →
        x.envelope.salt.length = 16 ∧ value.MakesUp x.envelope.salt) ∧
      (lock suite keyId passphrase clearText salt value v = (.ok x, w) →
        x.envelope.vector.length = 16 ∧ value.MakesUp x.envelope.vector)) ∧
    (∀ key x w, lockWith suite (.key key) value clearText v = (.ok x, w) →
      x.envelope.vector.length = 16 ∧ value.MakesUp x.envelope.vector) ∧
    ∀ e, Envelope.readFrom value = .ok e →
      ∃ raw, Envelope.read raw = .ok e ∧ 36 ≤ raw.length ∧ value.MakesUp raw := by
  have hmade : ∀ octets : Bytes, value.toBytes .constant = .ok octets → 2 ≤ octets.length →
      value.MakesUp octets :=
    fun octets hoctets hlength => Argument.makesUp_of_toBytes hvalue hoctets hlength
  refine ⟨?_, ?_, ?_, ?_, ?_⟩
  · intro huncounted
    have hrefuses := Argument.refuses_toBytes .constant hvalue huncounted
    refine ⟨fun _ => SecretKey.refuses_generate hid hrefuses, ?_, ?_, ?_⟩
    · intro hgiven
      exact ⟨refuses_lock_salt passphrase hsuite hid hne hclear hnonempty hvector hgiven hrefuses,
        refuses_lock_vector hsuite hid hne hsecret hclear hnonempty hsalt hgiven hrefuses⟩
    · exact fun key => refuses_lockUnder suite v key clearText hrefuses
    · obtain ⟨failure, hfailure, hcategory⟩ := hrefuses
      rw [Envelope.readFrom, hfailure]
      exact ⟨failure, rfl, hcategory⟩
  · intro iterations key w h
    obtain ⟨record, hrecord, hoctets, hlength⟩ := SecretKey.salt_of_generate h
    exact ⟨record, hrecord, hlength, hmade _ hoctets (by omega)⟩
  · intro x w hgiven
    refine ⟨?_, ?_⟩
    · intro h
      obtain ⟨hoctets, hlength⟩ := (given_of_lock h).1 hgiven
      exact ⟨hlength, hmade _ hoctets (by omega)⟩
    · intro h
      obtain ⟨hoctets, hlength⟩ := (given_of_lock h).2 hgiven
      exact ⟨hlength, hmade _ hoctets (by omega)⟩
  · intro key x w h
    obtain ⟨hoctets, hlength⟩ := vector_of_lockUnder h
    exact ⟨hlength, hmade _ hoctets (by omega)⟩
  · intro e h
    obtain ⟨raw, hraw, hread⟩ := bind_eq_ok h
    have hlength : 36 ≤ raw.length := by
      rw [Envelope.read] at hread
      by_cases hshort : raw.length < Envelope.minLength
      · rw [if_pos hshort] at hread
        cases hread
      · exact Nat.le_of_not_lt hshort
    exact ⟨raw, hread, hlength, hmade raw hraw (by omega)⟩

/-- Text is refused as a salt of a key, as a salt and a vector of a stored password, and as a
representation. -/
theorem uncounted_refused_text :
    Refuses (SecretKey.generate (.standard (.ofSeed [7])) (.ofBytes [1]) (.ofBytes [112])
      (.text (Text.ofString "0123456789abcdef")) .absent (.ofSettings (.ofEnvironment []))).1 ∧
    Refuses (lock (.standard (.ofSeed [7])) (.ofBytes [1]) (.ofBytes [112]) (.ofBytes [104])
      (.text (Text.ofString "0123456789abcdef")) .absent (.ofSettings (.ofEnvironment []))).1 ∧
    Refuses (lock (.standard (.ofSeed [7])) (.ofBytes [1]) (.ofBytes [112]) (.ofBytes [104]) .absent
      (.text (Text.ofString "0123456789abcdef")) (.ofSettings (.ofEnvironment []))).1 := by
  have hsuite : (Suite.standard (.ofSeed [7])).Faithful
      ((Vault.ofSettings (.ofEnvironment [])).settings.iterations
        (.integer SecretKey.standardIterations)) :=
    Suite.standard_faithful (fun draw => Entropy.length_ofSeed [7] draw 16) (by decide) (by decide)
  obtain ⟨hrefused, -⟩ := @uncounted_refused _ _ (.text (Text.ofString "0123456789abcdef"))
    (.ofBytes [1]) (.ofBytes [112]) (.ofBytes [104]) .absent .absent [1] [112] [104] rfl hsuite
    (by rfl) (by decide) (.octets .constant [112]) (.octets .constant [104]) (by decide)
    (Or.inl rfl) (Or.inl rfl)
  obtain ⟨hgenerate, hlock, -⟩ := hrefused (fun h => h)
  exact ⟨hgenerate .absent, hlock (by simp)⟩

/-- The number sixteen is taken for a salt and for a vector of zeros, and the number thirty-six for
a representation. -/
theorem counted_accepted :
    (∃ key after record, SecretKey.generate (.standard (.ofSeed [7])) (.ofBytes [1])
        (.ofBytes [112]) (.integer 16) .absent (.ofSettings (.ofEnvironment [])) = (.ok key, after) ∧
      after.keys[key]? = some record ∧ record.salt = Bytes.zeros 16) ∧
    (∃ x after, lock (.standard (.ofSeed [7])) (.ofBytes [1]) (.ofBytes [112]) (.ofBytes [104])
        (.integer 16) (.integer 16) (.ofSettings (.ofEnvironment [])) = (.ok x, after) ∧
      x.envelope.salt = Bytes.zeros 16 ∧ x.envelope.vector = Bytes.zeros 16) ∧
    ∃ e, Envelope.readFrom (.integer 36) = .ok e := by
  have hsuite : (Suite.standard (.ofSeed [7])).Faithful
      ((Vault.ofSettings (.ofEnvironment [])).settings.iterations
        (.integer SecretKey.standardIterations)) :=
    Suite.standard_faithful (fun draw => Entropy.length_ofSeed [7] draw 16) (by decide) (by decide)
  obtain ⟨derive, hderive⟩ := hsuite.exists_derives
  have hzeros : (Argument.integer 16).toBytes .constant = .ok (Bytes.zeros 16) := rfl
  refine ⟨?_, ?_, ?_⟩
  · obtain ⟨cell, made, hgenerate, hmade⟩ := SecretKey.generate_of_ok
      (@SecretKey.ingredients_of_derives _ _ derive (.ofBytes [1]) (.ofBytes [112]) (.integer 16)
        [1] _ [112] hderive rfl hzeros rfl rfl)
    exact ⟨_, made, _, hgenerate, hmade.live.record, rfl⟩
  · have hfixed : (Argument.integer 16).FixedOrDrawn := Or.inr ⟨_, hzeros, rfl⟩
    obtain ⟨s, iv, ciphertext, after, hlock, -⟩ := @lock_eq_ok _ _ derive (.ofBytes [1])
      (.ofBytes [112]) (.ofBytes [104]) (.integer 16) (.integer 16) [1] [112] [104] hsuite hderive
      (by rfl) (by decide) (.octets .constant [112]) (.octets .constant [104]) (by decide) hfixed
      hfixed
    obtain ⟨hsalt, hvector⟩ := given_of_lock hlock
    refine ⟨_, after, hlock, ?_, ?_⟩
    · exact Except.ok.inj ((hsalt (by simp)).1.symm.trans hzeros)
    · exact Except.ok.inj ((hvector (by simp)).1.symm.trans hzeros)
  · exact ⟨⟨0, 0, Bytes.zeros 16, Bytes.zeros 16, [], [0, 0]⟩, by rfl⟩

end StoredPassword

end PasswordVault
