import PasswordVault.Vault

/-!
# Runs of actions

The outcome of an action and the vault after it, for the actions of which all others are made. A
buffer that an action allocates is the last one, and stays where it is while others are added
behind it.

`Action.ensuring_eq` runs a clean-up, `Action.content_allocated` and `Action.wipe_allocated` say
what a fresh buffer holds and leaves, and `Action.resolveIterations_eq` resolves a number of
iterations. `bind_eq_ok` takes a conversion that succeeded apart, and `Action.bind_eq_ok` an action.
-/

namespace PasswordVault

theorem bind_eq_ok {α β : Type} {first : Except Failure α} {next : α → Except Failure β} {value : β}
    (h : first >>= next = .ok value) : ∃ a, first = .ok a ∧ next a = .ok value := by
  cases first with
  | error failure => cases h
  | ok a => exact ⟨a, rfl, h⟩

theorem map_eq_ok {α β : Type} {first : Except Failure α} {f : α → β} {value : β}
    (h : f <$> first = .ok value) : ∃ a, first = .ok a ∧ f a = value := by
  cases first with
  | error failure => cases h
  | ok a => exact ⟨a, rfl, Except.ok.inj h⟩

theorem ite_eq_ok {α : Type} {condition : Prop} [Decidable condition] {value other : α}
    {failure : Failure}
    (h : (if condition then .ok value else .error failure : Except Failure α) = .ok other) :
    condition ∧ value = other := by
  by_cases hc : condition
  · rw [if_pos hc] at h
    exact ⟨hc, Except.ok.inj h⟩
  · rw [if_neg hc] at h
    cases h

theorem guard_eq_ok {α β : Type} {condition : Prop} [Decidable condition] {failure : Failure}
    {refused : β → Except Failure α} {next : Except Failure α} {value : α}
    (h : (if condition then throw failure >>= refused else next) = .ok value) :
    ¬condition ∧ next = .ok value := by
  by_cases hc : condition
  · rw [if_pos hc] at h
    cases h
  · rw [if_neg hc] at h
    exact ⟨hc, h⟩

/-- What is in a place stays there while more is added behind it. -/
theorem Vault.getElem?_of_prefix {α : Type} {before after : List α} {place : Nat} {value : α}
    (h : before <+: after) (hvalue : before[place]? = some value) : after[place]? = some value := by
  obtain ⟨added, rfl⟩ := h
  rw [List.getElem?_append_left (List.getElem?_eq_some_iff.mp hvalue).1]
  exact hvalue

namespace Action

variable {α β : Type} {v w u : Vault}

@[simp] theorem pure_apply (value : α) (v : Vault) : (pure value : Action α) v = (.ok value, v) :=
  rfl

@[simp] theorem lift_apply (outcome : Except Failure α) (v : Vault) :
    lift outcome v = (outcome, v) := rfl

@[simp] theorem vault_apply (v : Vault) : vault v = (.ok v, v) := rfl

@[simp] theorem allocate_apply (content : Bytes) (v : Vault) :
    allocate content v = (.ok v.cells.length, { v with cells := v.cells ++ [content] }) := rfl

@[simp] theorem content_apply (cell : Cell) (v : Vault) :
    content cell v = (.ok (v.cells.getD cell []), v) := rfl

@[simp] theorem wipe_apply (cell : Cell) (v : Vault) :
    wipe cell v =
      (.ok (), { v with cells := v.cells.set cell (v.cells.getD cell []).cleared }) := rfl

@[simp] theorem ask_apply (suite : Suite) (call : Suite.Call) (v : Vault) :
    ask suite call v = (suite.answer v.calls call, { v with calls := v.calls ++ [call] }) := rfl

theorem bind_of_ok {first : Action α} {next : α → Action β} {value : α}
    (h : first v = (.ok value, w)) : (first >>= next) v = next value w := by
  show andThen first next v = next value w
  rw [andThen, h]

theorem bind_of_error {first : Action α} {next : α → Action β} {failure : Failure}
    (h : first v = (.error failure, w)) : (first >>= next) v = (.error failure, w) := by
  show andThen first next v = (.error failure, w)
  rw [andThen, h]

theorem andThen_succeed (action : Action α) : action.andThen succeed = action := by
  funext v
  rcases haction : action v with ⟨failure | value, w⟩ <;> simp only [andThen, haction, succeed]

theorem andThen_assoc {γ : Type} (first : Action α) (next : α → Action β) (last : β → Action γ) :
    (first.andThen next).andThen last = first.andThen fun value => (next value).andThen last := by
  funext v
  rcases hfirst : first v with ⟨failure | value, w⟩ <;> simp only [andThen, hfirst]

instance : LawfulMonad Action :=
  LawfulMonad.mk' Action andThen_succeed (fun _ _ => rfl) andThen_assoc

theorem bind_eq_ok {first : Action α} {next : α → Action β} {value : β}
    (h : (first >>= next) v = (.ok value, w)) :
    ∃ a u, first v = (.ok a, u) ∧ next a u = (.ok value, w) := by
  cases hfirst : first v with
  | mk outcome u =>
    cases outcome with
    | ok a => exact ⟨a, u, rfl, (bind_of_ok hfirst).symm.trans h⟩
    | error failure => cases (bind_of_error hfirst).symm.trans h

theorem lift_bind_eq_ok {first : Except Failure α} {next : α → Action β} {value : β}
    (h : (lift first >>= next) v = (.ok value, w)) :
    ∃ a, first = .ok a ∧ next a v = (.ok value, w) := by
  obtain ⟨a, u, hfirst, hnext⟩ := bind_eq_ok h
  obtain ⟨rfl, rfl⟩ := Prod.mk.inj hfirst
  exact ⟨a, rfl, hnext⟩

theorem guard_eq_ok {condition : Prop} [Decidable condition] {failure : Failure}
    {refused : β → Action α} {next : Action α} {value : α}
    (h : (if condition then fail failure >>= refused else next) v = (.ok value, w)) :
    ¬condition ∧ next v = (.ok value, w) := by
  by_cases hc : condition
  · rw [if_pos hc] at h
    cases (bind_of_error rfl).symm.trans h
  · rw [if_neg hc] at h
    exact ⟨hc, h⟩

theorem bind_pure {first : Action α} {outcome : Except Failure α} (h : first v = (outcome, w))
    (f : α → β) : (first >>= fun value => pure (f value)) v = (outcome.map f, w) := by
  cases outcome with
  | ok value => exact bind_of_ok h
  | error failure => exact bind_of_error h

theorem lift_bind (first : Except Failure α) (next : α → Except Failure β) (v : Vault) :
    (lift first >>= fun value => lift (next value)) v = (first >>= next, v) := by
  cases first with
  | ok value => exact bind_of_ok (lift_apply (.ok value) v)
  | error failure => exact bind_of_error (lift_apply (.error failure) v)

/-- A clean-up that succeeds leaves the outcome as it is. -/
theorem ensuring_eq {body : Action α} {cleanup : Action Unit} {outcome : Except Failure α}
    (hb : body v = (outcome, w)) (hc : cleanup w = (.ok (), u)) :
    ensuring body cleanup v = (outcome, u) := by
  rw [ensuring, hb]
  simp only [hc]

theorem ensuring_snd (action : Action α) (cleanup : Action Unit) (v : Vault) :
    (ensuring action cleanup v).2 = (cleanup (action v).2).2 := by
  rcases ha : action v with ⟨outcome, w⟩
  rcases hc : cleanup w with ⟨_ | _, u⟩ <;> simp only [ensuring, ha, hc]

theorem ensuring_eq_ok {body : Action α} {cleanup : Action Unit} {value : α}
    (h : ensuring body cleanup v = (.ok value, w)) : ∃ u, body v = (.ok value, u) := by
  rw [ensuring] at h
  rcases hbody : body v with ⟨outcome, u⟩
  rw [hbody] at h
  dsimp only at h
  rcases hcleanup : cleanup u with ⟨failure | _, x⟩ <;> rw [hcleanup] at h
  · cases h
  · obtain ⟨rfl, -⟩ := Prod.mk.inj h
    exact ⟨u, rfl⟩

/-- What a fresh buffer holds while others are added behind it. -/
theorem content_allocated {content : Bytes} {more : List Bytes}
    (hw : w.cells = v.cells ++ content :: more) :
    Action.content v.cells.length w = (.ok content, w) := by
  rw [content_apply, hw, List.getD_eq_getElem?_getD, List.getElem?_append_right (Nat.le_refl _),
    Nat.sub_self]
  rfl

/-- What a fresh buffer leaves when it is overwritten. -/
theorem wipe_allocated {content : Bytes} {more : List Bytes}
    (hw : w.cells = v.cells ++ content :: more) :
    wipe v.cells.length w = (.ok (), { w with cells := v.cells ++ content.cleared :: more }) := by
  have hcontent : w.cells.getD v.cells.length [] = content :=
    Except.ok.inj (congrArg Prod.fst (content_allocated hw))
  rw [wipe_apply, hcontent, hw, List.set_append_right _ _ (Nat.le_refl _), Nat.sub_self]
  rfl

/-- Resolving the iterations changes nothing but what has been reported. -/
theorem resolveIterations_snd (standard : Argument) (v : Vault) :
    ∃ reported warnings, (resolveIterations standard v).2 = { v with reported, warnings } := by
  rw [resolveIterations]
  split
  · dsimp only
    split
    · exact ⟨_, _, rfl⟩
    · exact ⟨true, v.warnings, rfl⟩
  · exact ⟨v.reported, v.warnings, rfl⟩

/-- A standard that can be shown gives what the settings give. -/
theorem resolveIterations_eq {standard : Argument} {shown : String} (h : standard.shown = .ok shown)
    (v : Vault) :
    ∃ reported warnings, resolveIterations standard v =
      (.ok (v.settings.iterations standard), { v with reported, warnings }) := by
  obtain ⟨reported, warnings, hv⟩ := resolveIterations_snd standard v
  refine ⟨reported, warnings, Prod.ext ?_ hv⟩
  rw [resolveIterations, h]
  split <;> rfl

end Action

end PasswordVault
