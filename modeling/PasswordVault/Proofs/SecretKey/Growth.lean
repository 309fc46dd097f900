import PasswordVault.Proofs.SecretKey.Ending

/-!
# What operations add

Most operations leave all keys, buffers and lists as they are and add others behind them. The
buffers that they overwrite at their end are among those that they added. Ending a key is different:
it marks that key and overwrites its buffer, and nothing else.

## Main definitions

- `Material.IsNew` — a secret that is in none of the buffers that were there
- `Vault.Grows` — what was there is as it was, and more has been added
- `Action.Grows` — an action under which every vault grows
- `Vault.KeepsBut` — what was there is as it was, but for some keys and their buffers

`Action.Grows.scratch` lets an operation overwrite a buffer of its own,
`SecretKey.grows_generate_within` lets it destroy a key of its own, and `SecretKey.keepsBut_destroy`
and `SecretKey.keepsBut_abandon` say what the end of a key leaves alone.
-/

namespace PasswordVault

/-- A secret is in none of the buffers of a vault. -/
def Material.IsNew (v : Vault) (material : Material) : Prop :=
  ∀ cell, material = .buffer cell → v.cells.length ≤ cell

/-- Places within a prefix hold what they hold in it. -/
theorem getElem?_eq_of_lt {α : Type} {before after : List α} {place : Nat} (h : before <+: after)
    (hplace : place < before.length) : after[place]? = before[place]? := by
  obtain ⟨added, rfl⟩ := h
  exact List.getElem?_append_left hplace

/-- A prefix is still one when something behind it is replaced. -/
theorem prefix_set {α : Type} {before after : List α} {place : Nat} (value : α)
    (h : before <+: after) (hplace : before.length ≤ place) : before <+: after.set place value := by
  obtain ⟨added, rfl⟩ := h
  rw [List.set_append_right _ _ hplace]
  exact List.prefix_append ..

/-- A prefix is still one when something behind it is changed. -/
theorem prefix_modify {α : Type} {before after : List α} {place : Nat} (change : α → α)
    (h : before <+: after) (hplace : before.length ≤ place) :
    before <+: after.modify place change := by
  rw [List.modify_eq_set_getElem?]
  cases after[place]? with
  | none => exact h
  | some value => exact prefix_set _ h hplace

namespace Vault

/-- All that was there is as it was. A key that was added has a salt and a key ID of the right
lengths. Its secret is new and its own, unless it is one of those given. -/
structure Grows (v : Vault) (given : List Material) (w : Vault) : Prop where
  keys : v.keys <+: w.keys
  cells : v.cells <+: w.cells
  lists : v.lists <+: w.lists
  made : ∀ {key : KeyRef} {record : KeyRecord}, v.keys.length ≤ key → w.keys[key]? = some record →
    record.Bounded ∧ (record.material ∈ given ∨ record.material.IsNew v)
  whole : ∀ {key : KeyRef} {record : KeyRecord} {cell : Cell}, v.keys.length ≤ key →
    w.keys[key]? = some record → record.material = .buffer cell → cell < w.cells.length
  apart : ∀ {key later : KeyRef} {record other : KeyRecord} {cell : Cell}, v.keys.length ≤ key →
    key < later → w.keys[key]? = some record → w.keys[later]? = some other →
    record.material = .buffer cell → other.material = .buffer cell → .buffer cell ∈ given

variable {given more : List Material} {v w u : Vault} {key : KeyRef} {cell : Cell}

theorem grows_of_keys (hkeys : w.keys = v.keys) (hcells : v.cells <+: w.cells)
    (hlists : v.lists <+: w.lists) : v.Grows given w := by
  have hnone : ∀ {key : KeyRef}, v.keys.length ≤ key → w.keys[key]? = none := by
    intro key hhigh
    rw [hkeys]
    exact List.getElem?_eq_none hhigh
  refine ⟨hkeys ▸ List.prefix_refl _, hcells, hlists, ?_, ?_, ?_⟩
  · intro key record hhigh hrecord
    cases (hnone hhigh).symm.trans hrecord
  · intro key record cell hhigh hrecord
    cases (hnone hhigh).symm.trans hrecord
  · intro key later record other cell hhigh _ hrecord
    cases (hnone hhigh).symm.trans hrecord

theorem grows_self (v : Vault) : v.Grows given v :=
  grows_of_keys rfl (List.prefix_refl _) (List.prefix_refl _)

/-- Where one key was added. -/
theorem grows_of_key {record : KeyRecord} (hkeys : w.keys = v.keys ++ [record])
    (hcells : v.cells <+: w.cells) (hlists : v.lists <+: w.lists) (hbounded : record.Bounded)
    (hmaterial : record.material ∈ given ∨ record.material.IsNew v)
    (hwhole : ∀ cell, record.material = .buffer cell → cell < w.cells.length) :
    v.Grows given w := by
  have hone : ∀ {key : KeyRef} {found : KeyRecord}, v.keys.length ≤ key →
      w.keys[key]? = some found → key = v.keys.length ∧ found = record := by
    intro key found hhigh hfound
    have hlow : key < w.keys.length := (List.getElem?_eq_some_iff.mp hfound).1
    rw [hkeys, List.length_append] at hlow
    obtain rfl : key = v.keys.length := Nat.le_antisymm (Nat.le_of_lt_succ hlow) hhigh
    rw [hkeys, List.getElem?_concat_length] at hfound
    exact ⟨rfl, (Option.some.inj hfound).symm⟩
  refine ⟨hkeys ▸ List.prefix_append _ _, hcells, hlists, ?_, ?_, ?_⟩
  · intro key found hhigh hfound
    obtain ⟨-, rfl⟩ := hone hhigh hfound
    exact ⟨hbounded, hmaterial⟩
  · intro key found cell hhigh hfound
    obtain ⟨-, rfl⟩ := hone hhigh hfound
    exact hwhole cell
  · intro key later found other cell hhigh hless hfound hother
    obtain ⟨rfl, -⟩ := hone hhigh hfound
    obtain ⟨rfl, -⟩ := hone hless.le hother
    exact absurd hless (Nat.lt_irrefl _)

theorem Grows.trans (h : v.Grows given w) (hn : w.Grows given u) : v.Grows given u := by
  -- A key below the length of the middle was added in the first part.
  have hfirst : ∀ {key : KeyRef} {record : KeyRecord}, key < w.keys.length →
      u.keys[key]? = some record → w.keys[key]? = some record :=
    fun hlow hrecord => (getElem?_eq_of_lt hn.keys hlow).symm.trans hrecord
  refine ⟨h.keys.trans hn.keys, h.cells.trans hn.cells, h.lists.trans hn.lists, ?_, ?_, ?_⟩
  · intro key record hhigh hrecord
    by_cases hlow : key < w.keys.length
    · exact h.made hhigh (hfirst hlow hrecord)
    · obtain ⟨hbounded, hmaterial⟩ := hn.made (Nat.le_of_not_lt hlow) hrecord
      exact ⟨hbounded, hmaterial.imp_right fun hnew cell hcell =>
        h.cells.length_le.trans (hnew cell hcell)⟩
  · intro key record cell hhigh hrecord hmaterial
    by_cases hlow : key < w.keys.length
    · exact Nat.lt_of_lt_of_le (h.whole hhigh (hfirst hlow hrecord) hmaterial) hn.cells.length_le
    · exact hn.whole (Nat.le_of_not_lt hlow) hrecord hmaterial
  · intro key later record other cell hhigh hless hrecord hother hmaterial hshared
    by_cases hlate : later < w.keys.length
    · exact h.apart hhigh hless (hfirst (hless.trans hlate) hrecord) (hfirst hlate hother) hmaterial
        hshared
    by_cases hlow : key < w.keys.length
    · -- The buffer of the first key was there when the second one was made.
      have hplace := h.whole hhigh (hfirst hlow hrecord) hmaterial
      obtain ⟨-, hin | hnew⟩ := hn.made (Nat.le_of_not_lt hlate) hother
      · exact hshared ▸ hin
      · exact absurd hplace (Nat.not_lt.mpr (hnew cell hshared))
    · exact hn.apart (Nat.le_of_not_lt hlow) hless hrecord hother hmaterial hshared

theorem Grows.mono (h : v.Grows given w) (hmore : given ⊆ more) : v.Grows more w where
  keys := h.keys
  cells := h.cells
  lists := h.lists
  made hhigh hrecord := (h.made hhigh hrecord).imp_right fun hmaterial =>
    hmaterial.imp_left fun hin => hmore hin
  whole := h.whole
  apart hhigh hless hrecord hother hmaterial hshared :=
    hmore (h.apart hhigh hless hrecord hother hmaterial hshared)

/-- A buffer that was added may be overwritten. -/
theorem Grows.set (h : v.Grows given w) (hcell : v.cells.length ≤ cell) (content : Bytes) :
    v.Grows given { w with cells := w.cells.set cell content } where
  keys := h.keys
  cells := prefix_set content h.cells hcell
  lists := h.lists
  made := h.made
  whole hhigh hrecord hmaterial := by
    rw [List.length_set]
    exact h.whole hhigh hrecord hmaterial
  apart := h.apart

theorem exists_of_mark {other : KeyRef} {record : KeyRecord}
    (h : (w.keys.modify key fun record => { record with destroyed := true })[other]? =
      some record) : ∃ destroyed, w.keys[other]? = some { record with destroyed } := by
  rw [List.getElem?_modify] at h
  cases hbefore : w.keys[other]? with
  | none =>
    rw [hbefore] at h
    cases h
  | some before =>
    rw [hbefore] at h
    split at h <;> obtain rfl := Option.some.inj h <;> exact ⟨before.destroyed, rfl⟩

/-- A key that was added may be marked as destroyed. -/
theorem Grows.mark (h : v.Grows given w) (hkey : v.keys.length ≤ key) :
    v.Grows given { w with
      keys := w.keys.modify key fun record => { record with destroyed := true } } where
  keys := prefix_modify _ h.keys hkey
  cells := h.cells
  lists := h.lists
  made hhigh hrecord := by
    obtain ⟨destroyed, hbefore⟩ := exists_of_mark hrecord
    obtain ⟨hbounded, hmaterial⟩ := h.made hhigh hbefore
    exact ⟨⟨hbounded.salt, hbounded.keyId⟩, hmaterial⟩
  whole hhigh hrecord hmaterial := by
    obtain ⟨destroyed, hbefore⟩ := exists_of_mark hrecord
    exact h.whole hhigh hbefore hmaterial
  apart hhigh hless hrecord hother hmaterial hshared := by
    obtain ⟨destroyed, hbefore⟩ := exists_of_mark hrecord
    obtain ⟨destroyed', hbefore'⟩ := exists_of_mark hother
    exact h.apart hhigh hless hbefore hbefore' hmaterial hshared

/-- A vault that has grown during one action grows on during the next. -/
theorem Grows.bind {α β : Type} {first : Action α} {next : α → Action β}
    (h : v.Grows given (first v).2)
    (hnext : ∀ value w, first v = (.ok value, w) → w.Grows given (next value w).2) :
    v.Grows given ((first >>= next) v).2 := by
  rcases hfirst : first v with ⟨failure | value, w⟩ <;> rw [hfirst] at h
  · rw [Action.bind_of_error hfirst]
    exact h
  · rw [Action.bind_of_ok hfirst]
    exact h.trans (hnext value w hfirst)

end Vault

namespace Action

variable {α β : Type} {given : List Material} {action : Action α}

/-- Every vault grows under an action. -/
def Grows (given : List Material) (action : Action α) : Prop :=
  ∀ v : Vault, v.Grows given (action v).2

theorem grows_of_silent (h : ∀ v, (action v).2 = v) : action.Grows given := by
  intro v
  rw [h v]
  exact Vault.grows_self v

theorem grows_lift (outcome : Except Failure α) : (lift outcome).Grows given :=
  grows_of_silent fun _ => rfl

theorem grows_pure (value : α) : (pure value : Action α).Grows given :=
  grows_of_silent fun _ => rfl

theorem grows_fail (failure : Failure) : (fail failure : Action α).Grows given :=
  grows_of_silent fun _ => rfl

theorem grows_content (cell : Cell) : (content cell).Grows given :=
  grows_of_silent fun _ => rfl

theorem Grows.bind {next : α → Action β} (h : action.Grows given)
    (hnext : ∀ value, (next value).Grows given) : (action >>= next).Grows given :=
  fun v => (h v).bind fun value w _ => hnext value w

theorem grows_allocate (content : Bytes) : (allocate content).Grows given :=
  fun _ => Vault.grows_of_keys rfl (List.prefix_append _ _) (List.prefix_refl _)

theorem grows_allocateList (items : List Argument) : (allocateList items).Grows given :=
  fun _ => Vault.grows_of_keys rfl (List.prefix_refl _) (List.prefix_append _ _)

theorem grows_ask (suite : Suite) (call : Suite.Call) : (ask suite call).Grows given :=
  fun _ => Vault.grows_of_keys rfl (List.prefix_refl _) (List.prefix_refl _)

theorem grows_configure (environment : Environment) : (configure environment).Grows given :=
  fun _ => Vault.grows_of_keys rfl (List.prefix_refl _) (List.prefix_refl _)

theorem grows_resolveIterations (standard : Argument) :
    (resolveIterations standard).Grows given := by
  intro v
  obtain ⟨reported, warnings, hv⟩ := resolveIterations_snd standard v
  rw [hv]
  exact Vault.grows_of_keys rfl (List.prefix_refl _) (List.prefix_refl _)

/-- **A buffer for one purpose.** An operation may overwrite a buffer that it has allocated, however
its work in there ends. -/
theorem Grows.scratch {body : Cell → Action α} (h : ∀ cell, (body cell).Grows given)
    (content : Bytes) :
    (allocate content >>= fun cell => ensuring (body cell) (wipe cell)).Grows given := by
  intro v
  rw [bind_of_ok (allocate_apply content v), ensuring_snd, wipe_apply]
  exact ((grows_allocate content v).trans (h _ _)).set (Nat.le_refl _) _

/-- The same where the operation goes on afterwards. -/
theorem Grows.scratch_bind {body : Cell → Action α} {next : α → Action β}
    (h : ∀ cell, (body cell).Grows given) (hnext : ∀ value, (next value).Grows given)
    (content : Bytes) :
    (allocate content >>= fun cell => ensuring (body cell) (wipe cell) >>= next).Grows given := by
  rw [← bind_assoc]
  exact (Grows.scratch h content).bind hnext

end Action

namespace SecretKey

variable {given : List Material} {v w : Vault} {key : KeyRef}

theorem grows_record (key : KeyRef) : (record key).Grows given :=
  Action.grows_of_silent (record_snd key)

theorem grows_present (material : Material) : (present material).Grows given := by
  refine Action.grows_of_silent fun v => ?_
  obtain ⟨value, hpresent⟩ := exists_present material v
  rw [hpresent]

theorem grows_secret (key : KeyRef) : (secret key).Grows given :=
  Action.grows_of_silent (secret_snd key)

theorem grows_materialOf (value : Argument) : (materialOf value).Grows given := by
  cases value with
  | octets form content =>
    cases form with
    | buffer => exact (Action.grows_allocate content).bind fun _ => Action.grows_pure _
    | _ => exact Action.grows_pure _
  | list items => exact (Action.grows_allocateList items).bind fun _ => Action.grows_pure _
  | _ => exact Action.grows_pure _

/-- What a key is given for a value handed in is new. -/
theorem isNew_of_materialOf {value : Argument} {material : Material}
    (h : materialOf value v = (.ok material, w)) : material.IsNew v := by
  -- A value that is kept as it is, and a list, are in no buffer at all.
  intro cell hcell
  subst hcell
  cases value with
  | octets form content =>
    cases form with
    | buffer =>
      cases h
      exact Nat.le_refl _
    | _ => cases h
  | _ => cases h

/-- One key is added, with the secret that it was given. -/
theorem grows_of_create {material : Material} (keyId salt : Argument) (h : v.Grows [] w)
    (hkeys : w.keys = v.keys) (hmaterial : material ∈ given ∨ material.IsNew v) :
    v.Grows given (create keyId salt material w).2 := by
  rcases create_cases keyId salt material w with ⟨failure, hrefused⟩ | ⟨key, u, hmade⟩
  · rw [hrefused]
    exact h.mono (List.nil_subset _)
  rw [hmade]
  obtain ⟨id, s, secret, hid, -, hs, hshows, -, -, rfl⟩ := create_eq_ok hmade
  refine Vault.grows_of_key (congrArg (· ++ _) hkeys) h.cells h.lists
    ⟨hs, KeyId.length_le_of_ofArgument hid⟩ hmaterial ?_
  -- A buffer that shows a whole secret is there.
  rintro cell rfl
  cases hshows with
  | buffer hcell => exact (List.getElem?_eq_some_iff.mp hcell).1

theorem grows_create (keyId salt : Argument) (material : Material) :
    (create keyId salt material).Grows [material] := fun v =>
  grows_of_create keyId salt (Vault.grows_self v) rfl (Or.inl (List.mem_singleton.mpr rfl))

/-- A key whose secret was made for it has a new one. -/
theorem grows_bind_create (source : Action Material) (keyId salt : Argument)
    (h : v.Grows [] (source v).2) (hkeys : (source v).2.keys = v.keys)
    (hnew : ∀ {material w}, source v = (.ok material, w) → material.IsNew v) :
    v.Grows [] ((source >>= create keyId salt) v).2 := by
  rcases hsource : source v with ⟨failure | material, w⟩ <;> rw [hsource] at h hkeys
  · rw [Action.bind_of_error hsource]
    exact h
  · rw [Action.bind_of_ok hsource]
    exact grows_of_create keyId salt h hkeys (Or.inr (hnew hsource))

theorem grows_chooseIterations (iterations : Argument) :
    (chooseIterations iterations).Grows given := by
  cases iterations with
  | absent => exact Action.grows_resolveIterations _
  | _ => exact Action.grows_pure _

/-- A key that is generated has a new secret. -/
theorem grows_generate (suite : Suite) (keyId passphrase salt iterations : Argument) :
    (generate suite keyId passphrase salt iterations).Grows [] := by
  refine (Action.grows_lift _).bind fun id => ?_
  refine (Action.grows_lift _).bind fun s => ?_
  refine (grows_chooseIterations iterations).bind fun n => ?_
  refine (Action.grows_lift _).bind fun octets => ?_
  refine Action.Grows.scratch_bind (fun cell => ?_) (fun derived => ?_) octets
  · exact (Action.grows_content cell).bind fun _ => Action.grows_ask _ _
  refine (Action.grows_lift _).bind fun content v => ?_
  refine grows_bind_create (Action.allocate content >>= fun cell => pure (.buffer cell)) _ _ ?_ rfl
    ?_
  · exact ((Action.grows_allocate content).bind fun _ => Action.grows_pure _) v
  · intro material w hmaterial cell hcell
    cases hmaterial
    exact Nat.le_of_eq (Material.buffer.inj hcell)

/-! ### The end of a key -/

/-- Destroying a key that was not made from a buffer fails and changes nothing. Otherwise the buffer
is overwritten and the key is marked. -/
theorem destroy_cases (key : KeyRef) (v : Vault) :
    (∃ failure, destroy key v = (.error failure, v) ∧
        ∀ record, v.keys[key]? = some record → record.material.isBuffer = false) ∨
      ∃ record cell, v.keys[key]? = some record ∧ record.material = .buffer cell ∧
        destroy key v = (.ok (),
          { v with
            cells := v.cells.set cell (v.cells.getD cell []).cleared
            keys := v.keys.modify key fun record => { record with destroyed := true } }) := by
  cases hrecord : v.keys[key]? with
  | none =>
    exact Or.inl ⟨_, Action.bind_of_error (record_eq_of_none hrecord),
      fun _ hsome => by cases hsome⟩
  | some record =>
    rw [destroy, Action.bind_of_ok (record_eq hrecord)]
    have hother : ∀ found, some record = some found → found.material = record.material := by
      intro found hfound
      rw [Option.some.inj hfound]
    cases hmaterial : record.material with
    | buffer cell => exact Or.inr ⟨record, cell, rfl, hmaterial, rfl⟩
    | list place =>
      exact Or.inl ⟨_, rfl, fun found hfound => by rw [hother found hfound, hmaterial]; rfl⟩
    | fixed value =>
      exact Or.inl ⟨_, rfl, fun found hfound => by rw [hother found hfound, hmaterial]; rfl⟩

/-- A key that was added may be destroyed. -/
theorem grows_destroy (h : v.Grows [] w) (hkey : v.keys.length ≤ key) :
    v.Grows [] (destroy key w).2 := by
  rcases destroy_cases key w with ⟨failure, hrefused, -⟩ | ⟨record, cell, hrecord, hmaterial, hdone⟩
  · rw [hrefused]
    exact h
  · obtain ⟨-, hnew⟩ := h.made hkey hrecord
    have hcell : v.cells.length ≤ cell := hnew.resolve_left List.not_mem_nil cell hmaterial
    rw [hdone]
    exact (h.set hcell _).mark hkey

/-- **A key for one operation.** An operation may destroy the key that was derived for it. -/
theorem grows_generate_within {α : Type} {operation : KeyRef → Action α}
    (h : ∀ key, (operation key).Grows []) (suite : Suite)
    (keyId passphrase salt iterations : Argument) :
    (generate suite keyId passphrase salt iterations >>=
      fun key => within key (operation key)).Grows [] := by
  intro v
  have hgrows := grows_generate suite keyId passphrase salt iterations v
  rcases hgenerate : generate suite keyId passphrase salt iterations v with
    ⟨failure | key, w⟩ <;> rw [hgenerate] at hgrows
  · rw [Action.bind_of_error hgenerate]
    exact hgrows
  · obtain ⟨-, -, -, rfl, -⟩ := made_of_generate hgenerate
    rw [Action.bind_of_ok hgenerate, within, Action.ensuring_snd]
    exact grows_destroy (hgrows.trans (h _ w)) (Nat.le_refl _)

end SecretKey

/-! ### What the end of a key leaves alone -/

namespace Vault

variable {given : List Material} {ended : List KeyRef} {v w u : Vault}

/-- All is as it was, except for the given keys and the buffers that held their secrets. -/
structure KeepsBut (v : Vault) (ended : List KeyRef) (w : Vault) : Prop where
  keys : ∀ {key : KeyRef} {record : KeyRecord}, key ∉ ended → v.keys[key]? = some record →
    w.keys[key]? = some record
  cells : ∀ {cell : Cell} {content : Bytes}, (∀ key ∈ ended, ∀ record,
      v.keys[key]? = some record → record.material ≠ .buffer cell) →
    v.cells[cell]? = some content → w.cells[cell]? = some content
  lists : v.lists <+: w.lists

theorem Grows.keepsBut (h : v.Grows given w) : v.KeepsBut ended w where
  keys _ hrecord := Vault.getElem?_of_prefix h.keys hrecord
  cells _ hcontent := Vault.getElem?_of_prefix h.cells hcontent
  lists := h.lists

theorem keepsBut_self (v : Vault) : v.KeepsBut ended v :=
  (@grows_self [] v).keepsBut

theorem Grows.trans_keepsBut (h : v.Grows given w) (hn : w.KeepsBut ended u)
    (hended : ∀ key ∈ ended, key < v.keys.length) : v.KeepsBut ended u where
  keys hkey hrecord := hn.keys hkey (Vault.getElem?_of_prefix h.keys hrecord)
  cells hcell hcontent := by
    refine hn.cells (fun key hin record hrecord => hcell key hin record ?_)
      (Vault.getElem?_of_prefix h.cells hcontent)
    exact (getElem?_eq_of_lt h.keys (hended key hin)).symm.trans hrecord
  lists := h.lists.trans hn.lists

theorem KeepsBut.mono {more : List KeyRef} (h : v.KeepsBut ended w) (hmore : ended ⊆ more) :
    v.KeepsBut more w where
  keys hkey hrecord := h.keys (fun hin => hkey (hmore hin)) hrecord
  cells hcell hcontent := h.cells (fun key hin => hcell key (hmore hin)) hcontent
  lists := h.lists

/-- A secret is as it was unless a key with that buffer has come to its end. -/
theorem KeepsBut.shows {material : Material} {value : Argument} (h : v.KeepsBut ended w)
    (hother : ∀ key ∈ ended, ∀ record cell, v.keys[key]? = some record →
      record.material = .buffer cell → material ≠ .buffer cell)
    (hshows : material.Shows v value) : material.Shows w value := by
  cases hshows with
  | buffer hcell =>
    exact .buffer (h.cells (fun key hin record hrecord hmaterial =>
      hother key hin record _ hrecord hmaterial rfl) hcell)
  | list hplace => exact .list (Vault.getElem?_of_prefix h.lists hplace)
  | fixed value => exact .fixed value

end Vault

namespace SecretKey

theorem keepsBut_destroy (key : KeyRef) (v : Vault) : v.KeepsBut [key] (destroy key v).2 := by
  rcases destroy_cases key v with ⟨failure, hrefused, -⟩ | ⟨record, cell, hrecord, hmaterial, hdone⟩
  · rw [hrefused]
    exact Vault.keepsBut_self v
  rw [hdone]
  refine ⟨?_, ?_, List.prefix_refl _⟩
  · intro other found hother hfound
    have hne : key ≠ other := fun hsame => hother (hsame ▸ List.mem_singleton.mpr rfl)
    exact (List.getElem?_modify_ne _ _ hne).trans hfound
  · intro other content hother hcontent
    have hne : cell ≠ other := by
      rintro rfl
      exact hother key (List.mem_singleton.mpr rfl) record hrecord hmaterial
    exact (List.getElem?_set_ne hne).trans hcontent

theorem keepsBut_abandon (key : KeyRef) (v : Vault) : v.KeepsBut [key] (abandon key v).2 := by
  rcases abandon_snd key v with h | ⟨warnings, h⟩ <;> rw [h]
  · exact Vault.keepsBut_self v
  · have hdestroyed := keepsBut_destroy key v
    exact ⟨hdestroyed.keys, hdestroyed.cells, hdestroyed.lists⟩

end SecretKey

end PasswordVault
