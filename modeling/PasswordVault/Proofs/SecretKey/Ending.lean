import PasswordVault.Proofs.StoredPassword.Aging

/-!
# How a key ends

A key that was made from a buffer is destroyed by overwriting the buffer, as often as one likes. A
key that nobody refers to any more is destroyed too, with a warning if that had not happened before.

## Main definitions

- `Vault.Wiped` — a key that was made from a buffer, after it was destroyed
- `Vault.abandonment` — the warning that a key is given up

`SecretKey.destroy_of_sized` destroys a key, and `SecretKey.abandon_of_live` and
`SecretKey.abandon_of_not_live` say what becomes of one that is given up.
-/

namespace PasswordVault

namespace Vault

/-- The warning that a key is given up. -/
def abandonment (v : Vault) (key : KeyRef) : Warning :=
  .keyAbandoned ((v.keys[key]?.map (·.keyId)).getD [])

/-- A key has been destroyed, and its whole buffer holds zeros. -/
structure Wiped (v : Vault) (key : KeyRef) (record : KeyRecord) (cell : Cell) : Prop where
  key : v.keys[key]? = some { record with destroyed := true }
  cell : v.cells[cell]? = some (Bytes.zeros SecretKey.keyLength)

variable {v w : Vault} {key : KeyRef} {record : KeyRecord} {cell : Cell}

/-- A key keeps its key ID, and so the warning stays the same. -/
theorem Ages.abandonment_eq {written : List Cell} (h : v.Ages written w)
    (hkey : key < v.keys.length) : w.abandonment key = v.abandonment key := by
  obtain ⟨destroyed, hlater, -⟩ := h.keys (List.getElem?_eq_getElem hkey)
  rw [abandonment, abandonment, hlater, List.getElem?_eq_getElem hkey]
  rfl

end Vault

namespace SecretKey

variable {v w : Vault} {key : KeyRef} {record : KeyRecord} {cell : Cell}

/-- **Destroying a key** that was made from a buffer overwrites the buffer and marks the key,
whether or not that has been done before. -/
theorem destroy_of_sized (hsized : v.Sized) (hrecord : v.keys[key]? = some record)
    (hmaterial : record.material = .buffer cell) :
    ∃ cells keys, destroy key v = (.ok (), { v with cells, keys }) ∧
      Vault.Wiped { v with cells, keys } key record cell := by
  obtain ⟨content, hcontent, hlength⟩ := hsized hrecord hmaterial
  have hcell : v.cells.getD cell [] = content := by
    rw [List.getD_eq_getElem?_getD, hcontent]
    rfl
  have hwiped : wipeMaterial record.material v =
      (.ok (), { v with cells := v.cells.set cell content.cleared }) := by
    rw [hmaterial, ← hcell]
    exact Action.wipe_apply cell v
  have hdestroyed : destroy key v = (.ok (),
      { v with
        cells := v.cells.set cell content.cleared
        keys := v.keys.modify key fun record => { record with destroyed := true } }) := by
    rw [destroy, Action.bind_of_ok (record_eq hrecord), Action.bind_of_ok hwiped]
    rfl
  refine ⟨_, _, hdestroyed, ?_, ?_⟩
  · show (v.keys.modify key _)[key]? = _
    rw [List.getElem?_modify, hrecord]
    simp
  · show (v.cells.set cell content.cleared)[cell]? = _
    rw [List.getElem?_set_self (List.getElem?_eq_some_iff.mp hcontent).1, Bytes.cleared, hlength]

/-- A live key that is given up is destroyed with a warning. -/
theorem abandon_of_live (hsized : v.Sized) (hrecord : v.keys[key]? = some record)
    (hmaterial : record.material = .buffer cell) (hlive : record.destroyed = false) :
    ∃ cells keys, (abandon key v).2 =
        { v with cells, keys, warnings := v.warnings ++ [.keyAbandoned record.keyId] } ∧
      Vault.Wiped { v with cells, keys } key record cell := by
  obtain ⟨cells, keys, hdestroyed, hwiped⟩ := destroy_of_sized hsized hrecord hmaterial
  refine ⟨cells, keys, ?_, hwiped⟩
  rw [abandon, record_eq hrecord]
  dsimp only
  rw [hlive, if_neg Bool.false_ne_true, hdestroyed]
  rfl

/-- Any other key is left as it is. -/
theorem abandon_of_not_live (h : v.isLive key = false) : (abandon key v).2 = v := by
  cases hrecord : v.keys[key]? with
  | none =>
    rw [abandon, record_eq_of_none hrecord]
  | some record =>
    rw [Vault.isLive_eq hrecord] at h
    rw [abandon, record_eq hrecord]
    dsimp only
    cases hdestroyed : record.destroyed with
    | true => rfl
    | false =>
      rw [hdestroyed] at h
      have hrefused : ∃ failure, destroy key v = (.error failure, v) := by
        rw [destroy, Action.bind_of_ok (record_eq hrecord)]
        cases hmaterial : record.material with
        | buffer cell =>
          rw [hmaterial] at h
          cases h
        | _ => exact ⟨_, rfl⟩
      obtain ⟨failure, hfailed⟩ := hrefused
      rw [if_neg Bool.false_ne_true, hfailed]

/-- Giving a key up destroys it or does nothing. -/
theorem abandon_snd (key : KeyRef) (v : Vault) :
    (abandon key v).2 = v ∨
      ∃ warnings, (abandon key v).2 = { (destroy key v).2 with warnings } := by
  rw [abandon]
  rcases SecretKey.record key v with ⟨failure | record, w⟩
  · exact Or.inl rfl
  dsimp only
  cases record.destroyed with
  | true => exact Or.inl rfl
  | false =>
    rw [if_neg Bool.false_ne_true]
    rcases destroy key v with ⟨failure | _, u⟩
    · exact Or.inr ⟨u.warnings, rfl⟩
    · exact Or.inr ⟨_, rfl⟩

theorem ages_abandon {written : List Cell} (key : KeyRef) (v : Vault) :
    v.Ages written (abandon key v).2 := by
  rcases abandon_snd key v with h | ⟨warnings, h⟩ <;> rw [h]
  · exact Vault.ages_of_eq rfl rfl
  · exact ((sparing_destroy key).ages v).trans (Vault.ages_of_eq rfl rfl)

/-- Giving a key up brings none to life. -/
theorem not_isLive_abandon {other : KeyRef} (key : KeyRef) (h : v.isLive other = false) :
    (abandon key v).2.isLive other = false := by
  rcases abandon_snd key v with ha | ⟨warnings, ha⟩ <;> rw [ha]
  · exact h
  · have hdestroy := @sparing_destroy [] key
    exact (hdestroy.ages v).not_isLive h (hdestroy.spare v)

end SecretKey

end PasswordVault
