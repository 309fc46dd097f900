import PasswordVault.Proofs.Vault.Runs

/-!
# What actions keep

A relation between the vault before an action and the vault after it, however the action ends. If it
holds between a vault and itself and carries on from one vault to the next, then it holds for a
sequence of actions as soon as it holds for each of them.

## Main definitions

- `Action.Keeps` — the vault before an action is related to the vault after it

There is one rule for each combinator of actions, and one for the actions that only look.
-/

namespace PasswordVault.Action

variable {α β : Type} {R : Vault → Vault → Prop} {action : Action α}

/-- However an action ends, the vault before it is related to the vault after it. -/
def Keeps (R : Vault → Vault → Prop) (action : Action α) : Prop :=
  ∀ v, R v (action v).2

theorem Keeps.bind [Trans R R R] {next : α → Action β} (h : action.Keeps R)
    (hnext : ∀ value, (next value).Keeps R) : (action >>= next).Keeps R := by
  intro v
  have hfirst := h v
  rcases hrun : action v with ⟨failure | value, w⟩ <;> rw [hrun] at hfirst
  · rw [bind_of_error hrun]
    exact hfirst
  · rw [bind_of_ok hrun]
    exact Trans.trans hfirst (hnext value w)

theorem Keeps.ensuring [Trans R R R] {cleanup : Action Unit} (h : action.Keeps R)
    (hcleanup : cleanup.Keeps R) : (Action.ensuring action cleanup).Keeps R := by
  intro v
  rw [ensuring_snd]
  exact Trans.trans (h v) (hcleanup _)

/-! ### Actions that only look -/

section Looking

variable [Std.Refl R]

theorem keeps_of_silent (h : ∀ v, (action v).2 = v) : action.Keeps R := by
  intro v
  rw [h v]
  exact Std.Refl.refl v

theorem keeps_pure (value : α) : (pure value : Action α).Keeps R :=
  keeps_of_silent fun _ => rfl

theorem keeps_lift (outcome : Except Failure α) : (lift outcome).Keeps R :=
  keeps_of_silent fun _ => rfl

theorem keeps_fail (failure : Failure) : (fail failure : Action α).Keeps R :=
  keeps_of_silent fun _ => rfl

theorem keeps_content (cell : Cell) : (content cell).Keeps R :=
  keeps_of_silent fun _ => rfl

/-- Whatever follows a check that fails is not done. -/
theorem Keeps.guard {condition : Prop} [Decidable condition] {failure : Failure}
    {refused : β → Action α} (h : ¬condition → action.Keeps R) :
    (if condition then fail failure >>= refused else action).Keeps R := by
  by_cases hc : condition
  · rw [if_pos hc]
    exact keeps_of_silent fun v => congrArg Prod.snd (bind_of_error rfl)
  · rw [if_neg hc]
    exact h hc

end Looking

end PasswordVault.Action
