import PasswordVault.Proofs.SecretKey.Holding

/-!
# How generating a key ends

Whether a key is generated, and from what, is decided by the arguments, the settings and the answer
of the suite to one call.

## Main definitions

- `SecretKey.ingredients` — what a key is made of, or why none is made
- `SecretKey.Made` — the vault after a key was generated
- `SecretKey.Ends` — the two ways in which generating a key ends

`SecretKey.ends_generate` says how generating a key ends in every case, and
`SecretKey.ingredients_congr` when two of them have the same outcome.
-/

namespace PasswordVault

/-- The answers to calls of an operation depend on the call alone. -/
def Suite.Repeats (suite : Suite) (operation : Suite.Operation) : Prop :=
  ∀ history later call, call.operation = operation →
    suite.answer history call = suite.answer later call

namespace SecretKey

variable {suite : Suite} {v w : Vault} {keyId passphrase salt iterations : Argument}

structure Ingredients where
  keyId : Bytes
  salt : Bytes
  content : Bytes

/-- The record of a key that was made of ingredients. -/
def Ingredients.record (i : Ingredients) (cell : Cell) : KeyRecord :=
  { keyId := i.keyId, salt := i.salt, material := .buffer cell, destroyed := false }

def usedIterations (settings : Settings) : Argument → Argument
  | .absent => settings.iterations (.integer standardIterations)
  | given => given

/-- What a key is made of when it is generated in a vault, or the first reason to refuse it. -/
def ingredients (suite : Suite) (v : Vault) (keyId passphrase salt iterations : Argument) :
    Except Failure Ingredients := do
  let keyId ← KeyId.ofArgument keyId
  let salt ← salt.toBytesOf .constant Envelope.saltLength
    fun length => .field (.keySaltLength length)
  let secret ← passphrase.secretOctets .passphrase
  let derived ← suite.answer v.calls
    (.deriveKey secret salt (usedIterations v.settings iterations) keyLength)
  let content ← derivedOctets derived
  if content.length = keyLength then return { keyId, salt, content }
  else throw (.field (.keyLength content.length))

/-- A key has been generated: it is the last one, and its secret is in the last buffer. Any other
buffer that was made on the way holds zeros. -/
structure Made (v : Vault) (i : Ingredients) (cell : Cell) (w : Vault) : Prop where
  settings : w.settings = v.settings
  lists : w.lists = v.lists
  length : i.content.length = keyLength
  keys : w.keys = v.keys ++ [i.record cell]
  cells : ∃ spent, w.cells = v.cells ++ spent ++ [i.content] ∧ (v.cells ++ spent).length = cell ∧
    ∀ content ∈ spent, content = content.cleared

theorem Made.live {i : Ingredients} {cell : Cell} (h : Made v i cell w) :
    Live w v.keys.length cell i.keyId i.salt i.content := by
  obtain ⟨spent, hcells, rfl, -⟩ := h.cells
  refine ⟨?_, ?_⟩
  · rw [h.keys]
    exact List.getElem?_concat_length
  · rw [hcells]
    exact List.getElem?_concat_length

theorem shown_standardIterations :
    (Argument.integer standardIterations).shown = .ok "32768" :=
  Argument.shown_integer (Numeral.lt_limit 5 (by decide) (by decide))

theorem chooseIterations_eq (iterations : Argument) (v : Vault) :
    ∃ reported warnings, chooseIterations iterations v =
      (.ok (usedIterations v.settings iterations), { v with reported, warnings }) := by
  cases iterations with
  | absent => exact Action.resolveIterations_eq shown_standardIterations v
  | _ => exact ⟨v.reported, v.warnings, rfl⟩

theorem ingredients_eq_ok_iff {i : Ingredients} :
    ingredients suite v keyId passphrase salt iterations = .ok i ↔
      KeyId.ofArgument keyId = .ok i.keyId ∧
      salt.toBytes .constant = .ok i.salt ∧ i.salt.length = Envelope.saltLength ∧
      (∃ secret derived, passphrase.secretOctets .passphrase = .ok secret ∧
        suite.answer v.calls
          (.deriveKey secret i.salt (usedIterations v.settings iterations) keyLength) =
            .ok derived ∧
        derivedOctets derived = .ok i.content) ∧
      i.content.length = keyLength := by
  rw [ingredients, Argument.toBytesOf_eq]
  constructor
  · intro h
    obtain ⟨id, hid, h⟩ := bind_eq_ok h
    obtain ⟨s, hs, h⟩ := bind_eq_ok h
    obtain ⟨secret, hsecret, h⟩ := bind_eq_ok h
    obtain ⟨derived, hderived, h⟩ := bind_eq_ok h
    obtain ⟨content, hcontent, h⟩ := bind_eq_ok h
    obtain ⟨octets, hoctets, hs⟩ := bind_eq_ok hs
    obtain ⟨hlength, hs⟩ := ite_eq_ok hs
    cases hs
    obtain ⟨hfull, h⟩ := ite_eq_ok h
    cases h
    exact ⟨hid, hoctets, hlength, ⟨secret, derived, hsecret, hderived, hcontent⟩, hfull⟩
  · rintro ⟨hid, hsalt, hs, ⟨secret, derived, hsecret, hderived, hcontent⟩, hlength⟩
    rw [hid, hsalt]
    show (if i.salt.length = _ then _ else _ : Except Failure Bytes) >>= _ = _
    rw [if_pos hs, hsecret]
    show suite.answer _ _ >>= _ = _
    rw [hderived]
    show derivedOctets derived >>= _ = _
    rw [hcontent]
    exact if_pos hlength

/-- The key ID does not enter the derivation, and neither does the form of the salt. -/
theorem ingredients_relabel {i : Ingredients} {id : Bytes} (hsuite : suite.Repeats .deriveKey)
    (hsettings : w.settings = v.settings) (hid : id.length ≤ Envelope.maxKeyIdLength)
    (hi : ingredients suite v keyId passphrase salt iterations = .ok i) :
    ingredients suite w (.ofBytes id) passphrase (.ofBytes i.salt) iterations =
      .ok { i with keyId := id } := by
  obtain ⟨-, -, hs, ⟨secret, derived, hsecret, hderived, hcontent⟩, hlength⟩ :=
    ingredients_eq_ok_iff.mp hi
  refine ingredients_eq_ok_iff.mpr ⟨KeyId.ofArgument_ofBytes hid, rfl, hs,
    ⟨secret, derived, hsecret, ?_, hcontent⟩, hlength⟩
  rw [hsettings, hsuite w.calls v.calls _ rfl]
  exact hderived

/-- A key ID can be given as what it denotes. -/
theorem ingredients_ofBytes {id : Bytes} (hid : KeyId.ofArgument keyId = .ok id) :
    ingredients suite v (.ofBytes id) passphrase salt iterations =
      ingredients suite v keyId passphrase salt iterations := by
  rw [ingredients, ingredients, hid, KeyId.ofArgument_ofBytes (KeyId.length_le_of_ofArgument hid)]

/-- Two vaults with the same settings give the same ingredients, if the suite derives alike. -/
theorem ingredients_congr (hsuite : suite.Repeats .deriveKey)
    (hsettings : w.settings = v.settings) :
    ingredients suite w keyId passphrase salt iterations =
      ingredients suite v keyId passphrase salt iterations := by
  have hanswer : ∀ secret s n, suite.answer w.calls (.deriveKey secret s n keyLength) =
      suite.answer v.calls (.deriveKey secret s n keyLength) :=
    fun _ _ _ => hsuite w.calls v.calls _ rfl
  simp only [ingredients, hsettings, hanswer]

/-- Generating a key ends with the key that its ingredients make, or with the reason why there are
none. -/
inductive Ends (v : Vault) : Except Failure Ingredients → Except Failure KeyRef × Vault → Prop
  | made {i : Ingredients} {cell : Cell} {w : Vault} (h : Made v i cell w) :
    Ends v (.ok i) (.ok v.keys.length, w)
  | refused {failure : Failure} {w : Vault} (h : w.keys = v.keys) :
    Ends v (.error failure) (.error failure, w)

/-- What was derived is stored and made into a key. -/
theorem ends_create {id s content : Bytes} {reported : Bool} {warnings : List Warning}
    {calls : List Suite.Call} (hid : id.length ≤ Envelope.maxKeyIdLength)
    (hs : s.length = Envelope.saltLength)
    (h : Vault.Tidy { v with reported, warnings } calls w) :
    Ends v
      (if content.length = keyLength then .ok ⟨id, s, content⟩
        else .error (.field (.keyLength content.length)))
      (create (.ofBytes id) (.ofBytes s) (.buffer w.cells.length)
        { w with cells := w.cells ++ [content] }) := by
  let stored : Vault := { w with cells := w.cells ++ [content] }
  have hplace : stored.cells[w.cells.length]? = some content := List.getElem?_concat_length
  rw [create_eq hid hs hplace]
  by_cases hfull : content.length = keyLength
  · obtain ⟨spent, rfl, hspent⟩ := h
    rw [if_pos hfull, if_pos hfull]
    exact .made ⟨rfl, rfl, hfull, rfl, spent, rfl, rfl, hspent⟩
  · rw [if_neg hfull, if_neg hfull]
    exact .refused h.keys

/-- **How generating a key ends** in every case. -/
theorem ends_generate (suite : Suite) (v : Vault) (keyId passphrase salt iterations : Argument) :
    Ends v (ingredients suite v keyId passphrase salt iterations)
      (generate suite keyId passphrase salt iterations v) := by
  -- The two run side by side: each check that fails ends both.
  rw [ingredients, generate]
  cases hid : KeyId.ofArgument keyId with
  | error failure =>
    rw [Action.bind_of_error (Action.lift_apply _ v)]
    exact .refused rfl
  | ok id =>
  rw [Action.bind_of_ok (Action.lift_apply _ v)]
  cases hsalt : salt.toBytesOf .constant Envelope.saltLength
      (fun length => .field (.keySaltLength length)) with
  | error failure =>
    rw [Action.bind_of_error (Action.lift_apply _ v)]
    exact .refused rfl
  | ok s =>
  obtain ⟨octets, -, hs⟩ := bind_eq_ok ((Argument.toBytesOf_eq ..).symm.trans hsalt)
  obtain ⟨hlength, rfl⟩ := ite_eq_ok hs
  obtain ⟨reported, warnings, hchosen⟩ := chooseIterations_eq iterations v
  let chosen : Vault := { v with reported, warnings }
  rw [Action.bind_of_ok (Action.lift_apply _ v), Action.bind_of_ok hchosen]
  cases passphrase.secretOctets .passphrase with
  | error failure =>
    rw [Action.bind_of_error (Action.lift_apply _ chosen)]
    exact .refused rfl
  | ok secret =>
  -- The copy of the passphrase is overwritten, whatever the suite answers.
  obtain ⟨asked, hensured, htidy⟩ := Action.ensuring_ask suite
    (fun secret => .deriveKey secret octets (usedIterations v.settings iterations) keyLength) secret
    chosen
  rw [Action.bind_of_ok (Action.lift_apply _ chosen),
    Action.bind_of_ok (Action.allocate_apply secret chosen)]
  show Ends v (suite.answer v.calls
    (.deriveKey secret octets (usedIterations v.settings iterations) keyLength) >>= _) _
  cases hderived : suite.answer v.calls
      (.deriveKey secret octets (usedIterations v.settings iterations) keyLength) with
  | error failure =>
    rw [Action.bind_of_error (hensured.trans (congrArg (·, asked) hderived))]
    exact .refused htidy.keys
  | ok derived =>
  rw [Action.bind_of_ok (hensured.trans (congrArg (·, asked) hderived))]
  show Ends v (derivedOctets derived >>= _) _
  cases derivedOctets derived with
  | error failure =>
    rw [Action.bind_of_error (Action.lift_apply _ asked)]
    exact .refused htidy.keys
  | ok content =>
  rw [Action.bind_of_ok (Action.lift_apply _ asked),
    Action.bind_of_ok (Action.allocate_apply content asked)]
  exact ends_create (KeyId.length_le_of_ofArgument hid) hlength htidy

theorem generate_of_ok {i : Ingredients}
    (h : ingredients suite v keyId passphrase salt iterations = .ok i) :
    ∃ cell w, generate suite keyId passphrase salt iterations v = (.ok v.keys.length, w) ∧
      Made v i cell w := by
  have hends := ends_generate suite v keyId passphrase salt iterations
  rw [h] at hends
  generalize generate suite keyId passphrase salt iterations v = run at hends
  cases hends with
  | made hmade => exact ⟨_, _, rfl, hmade⟩

theorem generate_of_error {failure : Failure}
    (h : ingredients suite v keyId passphrase salt iterations = .error failure) :
    ∃ w, generate suite keyId passphrase salt iterations v = (.error failure, w) ∧
      w.keys = v.keys := by
  have hends := ends_generate suite v keyId passphrase salt iterations
  rw [h] at hends
  generalize generate suite keyId passphrase salt iterations v = run at hends
  cases hends with
  | refused hkeys => exact ⟨_, rfl, hkeys⟩

theorem made_of_generate {key : KeyRef}
    (h : generate suite keyId passphrase salt iterations v = (.ok key, w)) :
    ∃ i cell, ingredients suite v keyId passphrase salt iterations = .ok i ∧
      key = v.keys.length ∧ Made v i cell w := by
  have hends := ends_generate suite v keyId passphrase salt iterations
  rw [h] at hends
  generalize ingredients suite v keyId passphrase salt iterations = made at hends
  cases hends with
  | made hmade => exact ⟨_, _, rfl, rfl, hmade⟩

end SecretKey

end PasswordVault
