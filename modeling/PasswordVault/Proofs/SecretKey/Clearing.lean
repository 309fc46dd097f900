import PasswordVault.Proofs.SecretKey.Growth
import PasswordVault.Proofs.SecretKey.Spending
import PasswordVault.Proofs.Vault.Keeping

/-!
# What is left in the buffers that an operation makes

An operation overwrites every buffer that it makes for a secret before it ends. Only the buffer of a
key that is generated for a caller stays as it is. There is one way out on which a buffer is
forgotten: octets that a suite derived get into a buffer before they are counted, and those of the
wrong number are left there.

## Main definitions

- `Vault.ClearsBut`, `Vault.Clears` — the buffers that were added hold zeros, all but some or all
- `Action.Clears` — an action that overwrites every buffer that it makes
- `Suite.Missizes` — a suite derives octets that are not as many as a key has
- `Leaves` — an operation clears its buffers, or refuses what was derived and leaves that
- `SecretKey.Returned` — the buffer of a key that was returned

`Action.clears_scratch` is the rule for a buffer with one purpose, `SecretKey.leaves_generate` says
what generating a key leaves, and `SecretKey.leaves_generate_within` the same for an operation with
a key of its own.
-/

namespace PasswordVault

namespace Vault

/-- Buffers were only added, and those that were added hold zeros, but for some. -/
structure ClearsBut (kept : Cell → Prop) (v w : Vault) : Prop where
  cells : v.cells <+: w.cells
  cleared : ∀ {cell : Cell} {content : Bytes}, v.cells.length ≤ cell → ¬kept cell →
    w.cells[cell]? = some content → content = content.cleared

/-- Buffers were only added, and those that were added hold zeros. -/
def Clears : Vault → Vault → Prop :=
  ClearsBut fun _ => False

variable {kept more : Cell → Prop} {v w u : Vault}

theorem clears_of_cells (h : w.cells = v.cells) : v.Clears w := by
  refine ⟨h ▸ List.prefix_refl _, fun hhigh _ hcontent => ?_⟩
  rw [h, List.getElem?_eq_none hhigh] at hcontent
  cases hcontent

theorem ClearsBut.mono (h : v.ClearsBut kept w)
    (hmore : ∀ cell, kept cell → more cell) : v.ClearsBut more w where
  cells := h.cells
  cleared hhigh hcell hcontent := h.cleared hhigh (fun hkept => hcell (hmore _ hkept)) hcontent

theorem Clears.but (h : v.Clears w) : v.ClearsBut kept w :=
  ClearsBut.mono h fun _ hfalse => hfalse.elim

theorem Clears.trans (h : v.Clears w) (hn : w.ClearsBut kept u) : v.ClearsBut kept u := by
  refine ⟨h.cells.trans hn.cells, ?_⟩
  intro cell content hhigh hcell hcontent
  by_cases hlow : cell < w.cells.length
  · rw [getElem?_eq_of_lt hn.cells hlow] at hcontent
    exact h.cleared hhigh not_false hcontent
  · exact hn.cleared (Nat.le_of_not_lt hlow) hcell hcontent

instance : Std.Refl Clears :=
  ⟨fun _ => clears_of_cells rfl⟩

instance : Trans Clears Clears Clears :=
  ⟨Clears.trans⟩

/-- A buffer that is added is the last one. -/
theorem clearsBut_push (v : Vault) (content : Bytes) :
    v.ClearsBut (· = v.cells.length) { v with cells := v.cells ++ [content] } := by
  refine ⟨List.prefix_append _ _, ?_⟩
  intro cell other hhigh hcell hother
  have hbound := (List.getElem?_eq_some_iff.mp hother).1
  simp only [List.length_append, List.length_singleton] at hbound
  exact absurd (Nat.le_antisymm (Nat.le_of_lt_succ hbound) hhigh) hcell

/-- The buffer that was kept is overwritten. -/
theorem ClearsBut.wipe {cell : Cell} (h : v.ClearsBut (· = cell) w)
    (hcell : v.cells.length ≤ cell) :
    v.Clears { w with cells := w.cells.set cell (w.cells.getD cell []).cleared } := by
  refine ⟨prefix_set _ h.cells hcell, ?_⟩
  intro other content hhigh _ hcontent
  by_cases hsame : other = cell
  · subst hsame
    rw [List.getElem?_set] at hcontent
    simp only [if_true] at hcontent
    split at hcontent
    · rw [← Option.some.inj hcontent]
      exact (Bytes.cleared_cleared _).symm
    · cases hcontent
  · rw [List.getElem?_set_ne (Ne.symm hsame)] at hcontent
    exact h.cleared hhigh hsame hcontent

theorem clears_of_tidy {calls : List Suite.Call} (h : v.Tidy calls w) : v.Clears w := by
  obtain ⟨added, rfl, hadded⟩ := h
  refine ⟨List.prefix_append _ _, ?_⟩
  intro cell content hhigh _ hcontent
  rw [List.getElem?_append_right hhigh] at hcontent
  exact hadded content (List.mem_of_getElem? hcontent)

end Vault

namespace Action

variable {α β : Type} {action : Action α}

/-- An action overwrites every buffer that it makes. -/
def Clears (action : Action α) : Prop :=
  action.Keeps Vault.Clears

theorem clears_of_cells (h : ∀ v, (action v).2.cells = v.cells) : action.Clears :=
  fun v => Vault.clears_of_cells (h v)

theorem clears_ask (suite : Suite) (call : Suite.Call) : (ask suite call).Clears :=
  clears_of_cells fun _ => rfl

/-- **A buffer for one purpose.** A buffer that is overwritten however the work in it ends is not
left behind. -/
theorem clears_scratch {body : Cell → Action α} (h : ∀ cell, (body cell).Clears)
    (content : Bytes) :
    (allocate content >>= fun cell => ensuring (body cell) (wipe cell)).Clears := by
  intro v
  let copied : Vault := { v with cells := v.cells ++ [content] }
  have hbody : copied.Clears (body v.cells.length copied).2 := h v.cells.length copied
  rw [bind_of_ok (allocate_apply content v), ensuring_snd, wipe_apply]
  refine Vault.ClearsBut.wipe ⟨?_, ?_⟩ (Nat.le_refl _)
  · exact (List.prefix_append _ _).trans hbody.cells
  · intro cell other hhigh hcell hother
    refine hbody.cleared ?_ not_false hother
    simp only [copied, List.length_append, List.length_singleton]
    exact Nat.lt_of_le_of_ne hhigh (Ne.symm hcell)

/-- The same where the operation goes on afterwards. -/
theorem clears_scratch_bind {body : Cell → Action α} {next : α → Action β}
    (h : ∀ cell, (body cell).Clears) (hnext : ∀ value, (next value).Clears) (content : Bytes) :
    (allocate content >>= fun cell => ensuring (body cell) (wipe cell) >>= next).Clears := by
  rw [← bind_assoc]
  exact (clears_scratch h content).bind hnext

end Action

/-- A suite derives octets for a key that are not as many as a key has. -/
def Suite.Missizes (suite : Suite) (content : Bytes) : Prop :=
  content.length ≠ SecretKey.keyLength ∧
    ∃ history passphrase salt iterations derived,
      suite.answer history (.deriveKey passphrase salt iterations SecretKey.keyLength) =
        .ok derived ∧ SecretKey.derivedOctets derived = .ok content

/-- How an operation leaves the buffers that it made. It clears all but those that it is entitled to
keep; or it refuses what the suite derived for a key, and leaves one buffer with that. -/
inductive Leaves {α : Type} (suite : Suite) (kept : Except Failure α → Vault → Cell → Prop)
    (v : Vault) : Except Failure α × Vault → Prop
  | cleared {outcome : Except Failure α} {w : Vault} (h : v.ClearsBut (kept outcome w) w) :
    Leaves suite kept v (outcome, w)
  | missized {content : Bytes} {cell : Cell} {w : Vault} (hmissizes : suite.Missizes content)
    (hcontent : w.cells[cell]? = some content) (h : v.ClearsBut (· = cell) w) :
    Leaves suite kept v (.error (.field (.keyLength content.length)), w)

/-- An operation is not entitled to keep any buffer. -/
def Unkept {α : Type} : Except Failure α → Vault → Cell → Prop :=
  fun _ _ _ => False

variable {α β : Type} {suite : Suite} {v w : Vault}
variable {kept : Except Failure α → Vault → Cell → Prop}

theorem leaves_of_clears {run : Except Failure α × Vault} (h : v.Clears run.2) :
    Leaves suite kept v run :=
  .cleared h.but

theorem Leaves.after {run : Except Failure α × Vault} (h : v.Clears w)
    (hrun : Leaves suite kept w run) : Leaves suite kept v run := by
  cases hrun with
  | cleared hlast => exact .cleared (h.trans hlast)
  | missized hmissizes hcontent hlast => exact .missized hmissizes hcontent (h.trans hlast)

/-- What is done before has cleared its buffers, and what comes after decides. -/
theorem leaves_bind {first : Action β} {next : β → Action α} (h : v.Clears (first v).2)
    (hnext : ∀ value w, first v = (.ok value, w) → Leaves suite kept w (next value w)) :
    Leaves suite kept v ((first >>= next) v) := by
  rcases hfirst : first v with ⟨failure | value, w⟩ <;> rw [hfirst] at h
  · rw [Action.bind_of_error hfirst]
    exact leaves_of_clears h
  · rw [Action.bind_of_ok hfirst]
    exact (hnext value w hfirst).after h

/-- What failed has left the same behind, whatever it was meant to give. -/
theorem Leaves.of_error {failure : Failure} (hkept : ∀ cell, ¬kept (.error failure) w cell)
    (h : Leaves suite kept v (.error failure, w)) :
    Leaves suite (Unkept (α := β)) v (.error failure, w) := by
  cases h with
  | cleared h => exact .cleared (h.mono hkept)
  | missized hmissizes hcontent h => exact .missized hmissizes hcontent h

namespace SecretKey

variable {key : KeyRef} {keyId passphrase salt iterations : Argument}

/-- The buffer of a key that was returned. -/
def Returned (outcome : Except Failure KeyRef) (w : Vault) (cell : Cell) : Prop :=
  ∃ key record, outcome = .ok key ∧ w.keys[key]? = some record ∧ record.material = .buffer cell

theorem not_returned_of_error {failure : Failure} {cell : Cell} :
    ¬Returned (.error failure) w cell := by
  rintro ⟨key, record, hkey, -⟩
  cases hkey

theorem clears_chooseIterations (iterations : Argument) : (chooseIterations iterations).Clears := by
  refine Action.clears_of_cells fun v => ?_
  obtain ⟨reported, warnings, hchosen⟩ := chooseIterations_eq iterations v
  rw [hchosen]

theorem clears_secret (key : KeyRef) : (secret key).Clears :=
  Action.keeps_of_silent (secret_snd key)

theorem clears_record (key : KeyRef) : (record key).Clears :=
  Action.keeps_of_silent (record_snd key)

/-- What was derived is in a buffer before it is counted. It stays there if it is made into a key,
and also if it is not. -/
theorem leaves_create {id s content : Bytes} (hid : id.length ≤ Envelope.maxKeyIdLength)
    (hs : s.length = Envelope.saltLength)
    (hcontent : content.length ≠ keyLength → suite.Missizes content) :
    Leaves suite Returned v (create (.ofBytes id) (.ofBytes s) (.buffer v.cells.length)
      { v with cells := v.cells ++ [content] }) := by
  have hplace : (v.cells ++ [content])[v.cells.length]? = some content :=
    List.getElem?_concat_length
  have hpush := Vault.clearsBut_push v content
  rw [create_eq hid hs hplace]
  by_cases hfull : content.length = keyLength
  · rw [if_pos hfull]
    refine .cleared (Vault.ClearsBut.mono ⟨hpush.cells, hpush.cleared⟩ fun cell hcell => ?_)
    exact ⟨_, _, rfl, List.getElem?_concat_length, congrArg Material.buffer hcell.symm⟩
  · rw [if_neg hfull]
    exact .missized (hcontent hfull) hplace hpush

/-- **Generating a key** leaves the buffer of the key alone, unless the suite derived octets that
are not as many as a key has. -/
theorem leaves_generate (suite : Suite) (v : Vault)
    (keyId passphrase salt iterations : Argument) :
    Leaves suite Returned v (generate suite keyId passphrase salt iterations v) := by
  refine leaves_bind (Vault.clears_of_cells rfl) fun id _ hid => ?_
  refine leaves_bind (Vault.clears_of_cells rfl) fun s u hs => ?_
  refine leaves_bind (clears_chooseIterations iterations u) fun n _ _ => ?_
  refine leaves_bind (Vault.clears_of_cells rfl) fun secret ready _ => ?_
  have hid : KeyId.ofArgument keyId = .ok id := congrArg Prod.fst hid
  have hs : salt.toBytesOf .constant Envelope.saltLength _ = .ok s := congrArg Prod.fst hs
  obtain ⟨octets, -, hsized⟩ := bind_eq_ok ((Argument.toBytesOf_eq ..).symm.trans hs)
  obtain ⟨hlength, rfl⟩ := ite_eq_ok hsized
  -- The copy of the passphrase is overwritten, whatever the suite answers.
  obtain ⟨asked, hasked, htidy⟩ := Action.ensuring_ask suite
    (fun secret => .deriveKey secret octets n keyLength) secret ready
  refine Leaves.after (Vault.clears_of_tidy htidy) ?_
  rw [Action.bind_of_ok (Action.allocate_apply secret ready)]
  cases hanswer : suite.answer ready.calls (.deriveKey secret octets n keyLength) with
  | error failure =>
    rw [Action.bind_of_error (hasked.trans (congrArg (·, asked) hanswer))]
    exact leaves_of_clears (Vault.clears_of_cells rfl)
  | ok derived =>
    rw [Action.bind_of_ok (hasked.trans (congrArg (·, asked) hanswer))]
    refine leaves_bind (Vault.clears_of_cells rfl) fun content counted hcontent => ?_
    rw [Action.bind_of_ok (Action.allocate_apply content counted)]
    exact leaves_create (KeyId.length_le_of_ofArgument hid) hlength fun hmissized =>
      ⟨hmissized, _, _, _, _, _, hanswer, congrArg Prod.fst hcontent⟩

/-- A key that is spent has cleared its buffer too. -/
theorem Spent.clears (h : Spent v w) : v.Clears w := by
  obtain ⟨added, hcells, hadded⟩ := h.cells
  refine ⟨hcells ▸ List.prefix_append _ _, ?_⟩
  intro cell content hhigh _ hcontent
  rw [hcells, List.getElem?_append_right hhigh] at hcontent
  exact hadded content (List.mem_of_getElem? hcontent)

/-- **A key for one operation** is overwritten with everything else, if it comes to be. -/
theorem leaves_generate_within {operation : KeyRef → Action α}
    {outcome : List Suite.Call → KeyRecord → Argument → Except Failure α}
    (h : Uses operation outcome) (suite : Suite) (v : Vault)
    (keyId passphrase salt iterations : Argument) :
    Leaves suite Unkept v ((generate suite keyId passphrase salt iterations >>=
      fun key => within key (operation key)) v) := by
  cases hi : ingredients suite v keyId passphrase salt iterations with
  | error failure =>
    obtain ⟨w, hgenerate, -⟩ := generate_of_error hi
    have hleaves := leaves_generate suite v keyId passphrase salt iterations
    rw [hgenerate] at hleaves
    rw [Action.bind_of_error hgenerate]
    exact hleaves.of_error fun _ => not_returned_of_error
  | ok i =>
    obtain ⟨cell, calls, w, hrun, hspent⟩ := generate_within_of_ok h hi
    rw [hrun]
    exact leaves_of_clears hspent.clears

end SecretKey

end PasswordVault
