import PasswordVault.Proofs.SecretKey.Generation

/-!
# Keys for one operation

An operation that needs a key is given one by its caller, or one is derived for it from a passphrase
and destroyed at the end. Either way it ends as what the key holds decides.

## Main definitions

- `SecretKey.Uses` — an operation that ends as what its key holds decides
- `SecretKey.Spent` — the vault after an operation with a key of its own
- `SecretKey.Settled` — what becomes of a key of its own, and of a key that a caller keeps

`SecretKey.generate_bind_of_ok` and `SecretKey.generate_within_of_ok` run such an operation with a
key that is kept and with one that is destroyed, `SecretKey.within_agrees` says that the outcome is
the same, and `SecretKey.within_settled` what becomes of the keys.
-/

namespace PasswordVault.SecretKey

variable {α : Type} {suite : Suite} {v w : Vault} {keyId passphrase salt iterations : Argument}
variable {operation : KeyRef → Action α}
variable {outcome : List Suite.Call → KeyRecord → Argument → Except Failure α}

/-- An operation ends as the calls before it and what its key holds decide, and leaves the vault
tidy. -/
def Uses (operation : KeyRef → Action α)
    (outcome : List Suite.Call → KeyRecord → Argument → Except Failure α) : Prop :=
  ∀ (v : Vault) (key : KeyRef) (record : KeyRecord) (secret : Argument),
    Holds v key record secret →
      ∃ calls w, operation key v = (outcome v.calls record secret, w) ∧ v.Tidy calls w

/-- An operation has made one key for itself and destroyed it: the key is marked, and its buffer
holds zeros, as every other buffer does that was added. -/
structure Spent (v w : Vault) : Prop where
  settings : w.settings = v.settings
  key : ∃ record cell, w.keys = v.keys ++ [record] ∧ record.destroyed = true ∧
    record.material = .buffer cell ∧ w.cells[cell]? = some (Bytes.zeros keyLength)
  cells : ∃ added, w.cells = v.cells ++ added ∧ ∀ content ∈ added, content = content.cleared

theorem modify_last {α : Type} (f : α → α) (items : List α) (last : α) :
    (items ++ [last]).modify items.length f = items ++ [f last] := by
  induction items with
  | nil => rfl
  | cons first items ih => exact congrArg (first :: ·) ih

/-- A key that was generated for an operation is spent after it, however it ends. -/
theorem Made.within_eq {body : Action α} {outcome : Except Failure α} {i : Ingredients}
    {cell : Cell} {made : Vault} {calls : List Suite.Call}
    (h : Made v i cell made) (hb : body made = (outcome, w)) (ht : made.Tidy calls w) :
    ∃ u, within v.keys.length body made = (outcome, u) ∧ Spent v u := by
  have hlive : Live w v.keys.length cell i.keyId i.salt i.content :=
    h.live.of_tidy ht
  obtain ⟨spent, hcells, hplace, hspent⟩ := h.cells
  obtain ⟨added, rfl, hadded⟩ := ht
  have hset : (v.cells ++ spent ++ [i.content] ++ added).set cell i.content.cleared =
      v.cells ++ (spent ++ i.content.cleared :: added) := by
    rw [List.append_assoc, ← hplace, List.set_append_right _ _ (Nat.le_refl _), Nat.sub_self,
      ← List.append_assoc]
    rfl
  let record : KeyRecord := { i.record cell with destroyed := true }
  refine ⟨_, SecretKey.within_eq hb hlive, h.settings, ⟨record, cell, ?_, rfl, rfl, ?_⟩,
    spent ++ i.content.cleared :: added, ?_, ?_⟩
  · show made.keys.modify v.keys.length _ = _
    rw [h.keys, modify_last]
  · show ((made.cells ++ added).set cell i.content.cleared)[cell]? = _
    rw [List.getElem?_set_self (List.getElem?_eq_some_iff.mp hlive.content).1, Bytes.cleared,
      h.length]
  · show (made.cells ++ added).set cell i.content.cleared = _
    rw [hcells, hset]
  · intro content hcontent
    rcases List.mem_append.mp hcontent with hin | hin
    · exact hspent content hin
    rcases List.mem_cons.mp hin with rfl | hin
    · exact congrArg Bytes.zeros (Bytes.length_cleared i.content).symm
    · exact hadded content hin

variable {i : Ingredients}

/-- **A key that is kept.** The operation ends as what the key was made of decides, and the key is
live before and after. -/
theorem generate_bind_of_ok (h : Uses operation outcome)
    (hi : ingredients suite v keyId passphrase salt iterations = .ok i) :
    ∃ cell made w, generate suite keyId passphrase salt iterations v = (.ok v.keys.length, made) ∧
      (generate suite keyId passphrase salt iterations >>= operation) v =
        (outcome made.calls (i.record cell) (.octets .buffer i.content), w) ∧
      Live made v.keys.length cell i.keyId i.salt i.content ∧
      Live w v.keys.length cell i.keyId i.salt i.content := by
  obtain ⟨cell, made, hgenerate, hmade⟩ := generate_of_ok hi
  obtain ⟨calls, w, hw, htidy⟩ := h made _ _ _ hmade.live.holds
  exact ⟨cell, made, w, hgenerate, (Action.bind_of_ok hgenerate).trans hw, hmade.live,
    hmade.live.of_tidy htidy⟩

/-- **A key that is destroyed at the end.** The operation ends as what the key was made of decides,
and the key is spent. -/
theorem generate_within_of_ok (h : Uses operation outcome)
    (hi : ingredients suite v keyId passphrase salt iterations = .ok i) :
    ∃ cell calls w, (generate suite keyId passphrase salt iterations >>=
        fun key => within key (operation key)) v =
      (outcome calls (i.record cell) (.octets .buffer i.content), w) ∧ Spent v w := by
  obtain ⟨cell, made, hgenerate, hmade⟩ := generate_of_ok hi
  obtain ⟨calls, w, hw, htidy⟩ := h made _ _ _ hmade.live.holds
  obtain ⟨u, hu, hspent⟩ := hmade.within_eq hw htidy
  exact ⟨cell, made.calls, u, (Action.bind_of_ok hgenerate).trans hu, hspent⟩

/-- Without a key nothing is done. -/
theorem generate_bind_of_error {failure : Failure} (next : KeyRef → Action α)
    (hi : ingredients suite v keyId passphrase salt iterations = .error failure) :
    ∃ w, (generate suite keyId passphrase salt iterations >>= next) v = (.error failure, w) ∧
      w.keys = v.keys := by
  obtain ⟨w, hgenerate, hkeys⟩ := generate_of_error hi
  exact ⟨w, Action.bind_of_error hgenerate, hkeys⟩

/-- Two runs of an operation, one with a key of its own and one with a key that was generated before
and is kept. The first leaves no key behind: it made none, or that one is spent, as it is after a
success. The second leaves its key with what it has held since it was generated. -/
structure Settled (v : Vault) (generated : Except Failure KeyRef × Vault)
    (own kept : Except Failure α × Vault) : Prop where
  noneLeft : own.2.keys = v.keys ∨ Spent v own.2
  spent : ∀ value, own.1 = .ok value → Spent v own.2
  kept : ∀ key made, generated = (.ok key, made) →
    ∃ record secret, Holds made key record secret ∧ Holds kept.2 key record secret

variable {keyId' passphrase' salt' iterations' : Argument}

/-- **The outcome is the same** whether the key is kept or destroyed, if it is made of the same and
the operation does not depend on the calls before or on where the secret is. -/
theorem within_agrees (h : Uses operation outcome)
    (hi : ingredients suite v keyId passphrase salt iterations =
      ingredients suite w keyId' passphrase' salt' iterations')
    (hsame : ∀ calls calls' (i : Ingredients) cell cell',
      outcome calls (i.record cell) (.octets .buffer i.content) =
        outcome calls' (i.record cell') (.octets .buffer i.content)) :
    ((generate suite keyId passphrase salt iterations >>=
        fun key => within key (operation key)) v).1 =
      ((generate suite keyId' passphrase' salt' iterations' >>= operation) w).1 := by
  cases hkept : ingredients suite w keyId' passphrase' salt' iterations' with
  | error failure =>
    obtain ⟨after, hown, -⟩ := generate_bind_of_error
      (fun key => within key (operation key)) (hi.trans hkept)
    obtain ⟨after', hrun, -⟩ := generate_bind_of_error operation hkept
    rw [hown, hrun]
  | ok i =>
    obtain ⟨cell, calls, after, hown, -⟩ := generate_within_of_ok h (hi.trans hkept)
    obtain ⟨cell', made, after', -, hrun, -⟩ := generate_bind_of_ok h hkept
    rw [hown, hrun]
    exact hsame calls made.calls i cell cell'

/-- **What becomes of the keys** of such an operation. -/
theorem within_settled (suite : Suite) (v w : Vault) (h : Uses operation outcome) :
    Settled v (generate suite keyId' passphrase' salt' iterations' w)
      ((generate suite keyId passphrase salt iterations >>=
        fun key => within key (operation key)) v)
      ((generate suite keyId' passphrase' salt' iterations' >>= operation) w) := by
  have hkept : ∀ key made, generate suite keyId' passphrase' salt' iterations' w = (.ok key, made) →
      ∃ record secret, Holds made key record secret ∧
        Holds ((generate suite keyId' passphrase' salt' iterations' >>= operation) w).2 key record
          secret := by
    intro key made hgenerate
    obtain ⟨i, cell, hi, -⟩ := made_of_generate hgenerate
    obtain ⟨cell, made', after, hgenerate', hrun, hmade, hafter⟩ := generate_bind_of_ok h hi
    cases hgenerate.symm.trans hgenerate'
    rw [hrun]
    exact ⟨_, _, hmade.holds, hafter.holds⟩
  cases hi : ingredients suite v keyId passphrase salt iterations with
  | error failure =>
    obtain ⟨after, hown, hkeys⟩ := generate_bind_of_error
      (fun key => within key (operation key)) hi
    rw [hown]
    refine ⟨Or.inl hkeys, ?_, hkept⟩
    intro value hvalue
    cases hvalue
  | ok i =>
    obtain ⟨cell, calls, after, hown, hspent⟩ := generate_within_of_ok h hi
    rw [hown]
    exact ⟨Or.inr hspent, fun _ _ => hspent, hkept⟩

end PasswordVault.SecretKey
