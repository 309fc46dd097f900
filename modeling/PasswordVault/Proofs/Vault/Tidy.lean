import PasswordVault.Proofs.Vault.Runs

/-!
# What operations leave behind

An operation that works with buffers of its own leaves each of them overwritten. Its calls to a
suite are on record, and everything else in the vault is as it was before.

## Main definitions

- `Vault.Tidy` — the vault after such an operation, with the calls that it made

`Vault.Tidy.trans` runs one such operation after another, and `Action.ensuring_wipe` says that one
which works in a fresh buffer and overwrites it at the end is of this kind.
-/

namespace PasswordVault

namespace Vault

/-- What began with `v` has ended with `w`: calls have been made, and buffers have been added that
hold zeros by now. -/
def Tidy (v : Vault) (calls : List Suite.Call) (w : Vault) : Prop :=
  ∃ added, w = { v with calls := v.calls ++ calls, cells := v.cells ++ added } ∧
    ∀ content ∈ added, content = content.cleared

variable {v w u : Vault} {calls more : List Suite.Call}

theorem tidy_self (v : Vault) : v.Tidy [] v :=
  ⟨[], by simp, fun _ h => absurd h List.not_mem_nil⟩

theorem tidy_call (v : Vault) (call : Suite.Call) :
    v.Tidy [call] { v with calls := v.calls ++ [call] } :=
  ⟨[], by simp, fun _ h => absurd h List.not_mem_nil⟩

theorem Tidy.trans (h : v.Tidy calls w) (hn : w.Tidy more u) : v.Tidy (calls ++ more) u := by
  obtain ⟨added, rfl, hadded⟩ := h
  obtain ⟨later, rfl, hlater⟩ := hn
  refine ⟨added ++ later, by simp, ?_⟩
  intro content hcontent
  rcases List.mem_append.mp hcontent with hin | hin
  · exact hadded content hin
  · exact hlater content hin

theorem Tidy.calls_eq (h : v.Tidy calls w) : w.calls = v.calls ++ calls := by
  obtain ⟨added, rfl, -⟩ := h
  rfl

theorem Tidy.keys (h : v.Tidy calls w) : w.keys = v.keys := by
  obtain ⟨added, rfl, -⟩ := h
  rfl

theorem Tidy.lists (h : v.Tidy calls w) : w.lists = v.lists := by
  obtain ⟨added, rfl, -⟩ := h
  rfl

theorem Tidy.settings (h : v.Tidy calls w) : w.settings = v.settings := by
  obtain ⟨added, rfl, -⟩ := h
  rfl

theorem Tidy.cells_prefix (h : v.Tidy calls w) : v.cells <+: w.cells := by
  obtain ⟨added, rfl, -⟩ := h
  exact List.prefix_append v.cells added

end Vault

namespace Action

variable {α : Type} {v w : Vault} {calls : List Suite.Call}

/-- An operation that works in a fresh buffer, and leaves the vault tidy but for that one, leaves it
tidy once the buffer is overwritten. -/
theorem ensuring_wipe {content : Bytes} {body : Action α} {outcome : Except Failure α}
    (hb : body { v with cells := v.cells ++ [content] } = (outcome, w))
    (h : Vault.Tidy { v with cells := v.cells ++ [content] } calls w) :
    ∃ u, ensuring body (wipe v.cells.length) { v with cells := v.cells ++ [content] } =
      (outcome, u) ∧ v.Tidy calls u := by
  obtain ⟨added, rfl, hadded⟩ := h
  have hcells : v.cells ++ [content] ++ added = v.cells ++ content :: added :=
    List.append_assoc ..
  refine ⟨_, ensuring_eq hb (wipe_allocated hcells), content.cleared :: added, rfl, ?_⟩
  intro other hother
  rcases List.mem_cons.mp hother with rfl | hin
  · exact congrArg Bytes.zeros (Bytes.length_cleared content).symm
  · exact hadded other hin

/-- A suite is asked with a copy of some octets, which is overwritten whatever it answers. -/
theorem ensuring_ask (suite : Suite) (call : Bytes → Suite.Call) (content : Bytes) (v : Vault) :
    ∃ w, ensuring (do ask suite (call (← Action.content v.cells.length))) (wipe v.cells.length)
        { v with cells := v.cells ++ [content] } = (suite.answer v.calls (call content), w) ∧
      v.Tidy [call content] w := by
  let copied : Vault := { v with cells := v.cells ++ [content] }
  have hcontent : Action.content v.cells.length copied = (.ok content, copied) :=
    content_allocated rfl
  have hasked : (do ask suite (call (← Action.content v.cells.length))) copied =
      (suite.answer v.calls (call content), { copied with calls := v.calls ++ [call content] }) :=
    bind_of_ok hcontent
  exact ensuring_wipe hasked (Vault.tidy_call copied (call content))

end Action

end PasswordVault
