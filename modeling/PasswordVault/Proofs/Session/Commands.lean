import PasswordVault.Proofs.SecretKey.Ending
import PasswordVault.Proofs.SecretKey.Generation
import PasswordVault.Session

/-!
# What a command does to keys

A command runs one action, and may name a new key or remove a name. A key that loses its last
reference in this way is given up; no other key is.

## Main definitions

- `Names.Distinct` — no two entries have one name
- `Session.losing` — the live keys that lose their last reference between two sessions
- `Session.Settles` — what becomes of the keys between two sessions
- `Session.Loosens` — references to one key were removed, which has still to be released
- `Session.writes` — the buffer that a caller wrote into

`Session.settles_perform` says that this is what becomes of them under every command.
-/

namespace PasswordVault

namespace Names

variable {α : Type} {names : Names α} {name : String} {value : α}

/-- No two entries have one name. -/
def Distinct (names : Names α) : Prop :=
  (names.map Prod.fst).Nodup

theorem mem_unset {entry : String × α} :
    entry ∈ names.unset name ↔ entry ∈ names ∧ entry.1 ≠ name := by
  rw [unset, List.mem_filter, bne_iff_ne]

theorem mem_set {entry : String × α} :
    entry ∈ names.set name value ↔ entry = (name, value) ∨ entry ∈ names ∧ entry.1 ≠ name := by
  rw [set, List.mem_cons, List.mem_filter, bne_iff_ne]

theorem Distinct.unset (h : names.Distinct) : (names.unset name).Distinct :=
  h.sublist (List.filter_sublist.map Prod.fst)

theorem Distinct.set (h : names.Distinct) : (names.set name value).Distinct := by
  refine List.nodup_cons.mpr ⟨?_, h.unset⟩
  intro hmem
  obtain ⟨entry, hentry, hname⟩ := List.mem_map.mp hmem
  exact (mem_unset.mp hentry).2 hname

theorem mem_of_lookup (h : names.lookup name = some value) : (name, value) ∈ names := by
  induction names with
  | nil => cases h
  | cons entry rest ih =>
    rw [List.lookup_cons] at h
    split at h
    · next hname =>
      cases h
      rw [eq_of_beq hname]
      exact List.mem_cons_self
    · exact List.mem_cons_of_mem _ (ih h)

/-- The entry with a name is the one that is found. -/
theorem Distinct.lookup_eq (h : names.Distinct) (hmem : (name, value) ∈ names) :
    names.lookup name = some value := by
  induction names with
  | nil => cases hmem
  | cons entry rest ih =>
    obtain ⟨hfresh, hrest⟩ := List.nodup_cons.mp h
    rw [List.lookup_cons]
    rcases List.mem_cons.mp hmem with rfl | hin
    · rw [beq_self_eq_true]
    · have hother : (name == entry.1) = false := by
        refine beq_false_of_ne ?_
        rintro rfl
        exact hfresh (List.mem_map.mpr ⟨_, hin, rfl⟩)
      rw [hother]
      exact ih hrest hin

end Names

namespace Session

variable {s t : Session} {key old : KeyRef} {written : List Cell}

theorem find_eq_ok_iff {α : Type} {names : Names α} {name : String} {value : α} :
    find names name = .ok value ↔ names.lookup name = some value := by
  rw [find]
  cases names.lookup name with
  | none =>
    constructor <;> intro h <;> cases h
  | some found =>
    constructor <;> intro h <;> cases h <;> rfl

theorem refersTo_iff :
    s.refersTo key = true ↔ (∃ name, (name, key) ∈ s.keys) ∨ key ∈ s.entered := by
  rw [refersTo, Bool.or_eq_true, List.any_eq_true, List.contains_iff_mem]
  refine or_congr_left ⟨?_, ?_⟩
  · rintro ⟨⟨name, other⟩, hmem, hkey⟩
    exact ⟨name, eq_of_beq hkey ▸ hmem⟩
  · rintro ⟨name, hmem⟩
    exact ⟨(name, key), hmem, beq_self_eq_true key⟩

theorem refersTo_of_mem {name : String} (h : (name, key) ∈ s.keys) : s.refersTo key = true :=
  refersTo_iff.mpr (Or.inl ⟨name, h⟩)

theorem refersTo_of_lookup {name : String} (h : s.keys.lookup name = some key) :
    s.refersTo key = true :=
  refersTo_of_mem (Names.mem_of_lookup h)

/-- A key is still referred to if neither its names nor its open blocks are all lost. -/
theorem refersTo_of_refersTo (h : s.refersTo key = true)
    (hnamed : ∀ {name}, (name, key) ∈ s.keys → t.refersTo key = true)
    (hentered : key ∈ s.entered → key ∈ t.entered) : t.refersTo key = true := by
  rcases refersTo_iff.mp h with ⟨name, hmem⟩ | hin
  · exact hnamed hmem
  · exact refersTo_iff.mpr (Or.inr (hentered hin))

/-- The live keys that something refers to in one session, and nothing in the other. -/
def losing (s t : Session) : List KeyRef :=
  (List.range s.vault.keys.length).filter fun key =>
    s.vault.isLive key && s.refersTo key && !t.refersTo key

theorem mem_losing : key ∈ s.losing t ↔
    s.vault.isLive key = true ∧ s.refersTo key = true ∧ t.refersTo key = false := by
  rw [losing, List.mem_filter, List.mem_range, Bool.and_eq_true, Bool.and_eq_true,
    Bool.not_eq_true', and_assoc]
  refine ⟨fun h => h.2, fun h => ⟨?_, h⟩⟩
  exact Vault.lt_of_isLive h.1

theorem nodup_losing (s t : Session) : (s.losing t).Nodup :=
  List.nodup_range.filter _

theorem losing_eq_nil (h : ∀ key, s.refersTo key = true → t.refersTo key = true) :
    s.losing t = [] := by
  refine List.eq_nil_iff_forall_not_mem.mpr fun key hkey => ?_
  obtain ⟨-, hs, ht⟩ := mem_losing.mp hkey
  rw [h key hs] at ht
  cases ht

/-- Where one key alone lost its last reference. -/
theorem losing_eq_singleton (hold : old ∈ s.losing t) (h : ∀ key ∈ s.losing t, key = old) :
    s.losing t = [old] := by
  refine List.perm_singleton.mp ((List.perm_ext_iff_of_nodup (nodup_losing s t)
    (List.nodup_cons.mpr ⟨List.not_mem_nil, List.nodup_nil⟩)).mpr fun key => ?_)
  rw [List.mem_singleton]
  constructor
  · exact h key
  · rintro rfl
    exact hold

/-- What holds of a session at any time: no two keys have one name, the keys that were made from
buffers have whole secrets, and something refers to every live key. -/
structure Sound (s : Session) : Prop where
  distinct : s.keys.Distinct
  sized : s.vault.Sized
  kept : ∀ {key}, s.vault.isLive key = true → s.refersTo key = true

/-- What becomes of the keys between two sessions: they have aged, and the one that lost its last
reference while it was live, if there is one, has been given up with one warning. -/
structure Settles (s : Session) (written : List Cell) (t : Session) : Prop where
  ages : s.vault.Ages written t.vault
  /-- A key that nothing refers to stays so. -/
  refers : ∀ {key}, key < s.vault.keys.length → t.refersTo key = true → s.refersTo key = true
  /-- Something refers to every new live key. -/
  fresh : ∀ {key}, s.vault.keys.length ≤ key → t.vault.isLive key = true → t.refersTo key = true
  distinct : s.keys.Distinct → t.keys.Distinct
  alone : ∀ {key other}, key ∈ s.losing t → other ∈ s.losing t → key = other
  warned : t.vault.abandonments = s.vault.abandonments ++ (s.losing t).map s.vault.abandonment
  wiped : ∀ {key record cell}, key ∈ s.losing t → s.vault.keys[key]? = some record →
    record.material = .buffer cell → t.vault.Wiped key record cell

theorem Settles.sound (h : s.Settles written t) (hs : s.Sound) : t.Sound := by
  refine ⟨h.distinct hs.distinct, h.ages.sized hs.sized, fun {key} hlive => ?_⟩
  by_cases hlow : key < s.vault.keys.length
  · cases ht : t.refersTo key with
    | true => rfl
    | false =>
      -- The key would be lost, and so destroyed.
      have hbefore : s.vault.isLive key = true := by
        cases hs : s.vault.isLive key with
        | true => rfl
        | false =>
          rw [h.ages.not_isLive hs fun hhigh => absurd hlow (Nat.not_lt.mpr hhigh)] at hlive
          cases hlive
      obtain ⟨record, cell, hrecord, hmaterial, -⟩ := Vault.exists_of_isLive hbefore
      have hwiped := h.wiped (mem_losing.mpr ⟨hbefore, hs.kept hbefore, ht⟩) hrecord hmaterial
      rw [Vault.isLive_eq hwiped.key] at hlive
      cases hlive
  · exact h.fresh (Nat.le_of_not_lt hlow) hlive

/-- Where no live key loses its last reference. -/
theorem settles_of_kept (hages : s.vault.Ages written t.vault)
    (hwarned : t.vault.abandonments = s.vault.abandonments)
    (hrefers : ∀ {key}, key < s.vault.keys.length → t.refersTo key = true → s.refersTo key = true)
    (hfresh : ∀ {key}, s.vault.keys.length ≤ key → t.vault.isLive key = true →
      t.refersTo key = true)
    (hdistinct : s.keys.Distinct → t.keys.Distinct) (hnone : s.losing t = []) :
    s.Settles written t := by
  have hnot : ∀ {key}, key ∉ s.losing t := fun hin => List.not_mem_nil (hnone ▸ hin)
  refine ⟨hages, hrefers, hfresh, hdistinct, fun hin => absurd hin hnot, ?_,
    fun hin => absurd hin hnot⟩
  rw [hnone, List.map_nil, List.append_nil]
  exact hwarned

/-- Where no reference is added or removed. -/
theorem settles_of_acted (hages : s.vault.Ages written t.vault)
    (hwarned : t.vault.abandonments = s.vault.abandonments)
    (hspare : ∀ {key}, s.vault.keys.length ≤ key → t.vault.isLive key = false)
    (hkeys : t.keys = s.keys) (hentered : t.entered = s.entered) : s.Settles written t := by
  have hrefers : ∀ key, t.refersTo key = s.refersTo key := by
    intro key
    rw [refersTo, refersTo, hkeys, hentered]
  refine settles_of_kept hages hwarned (fun _ ht => (hrefers _).symm.trans ht) ?_
    (fun h => hkeys ▸ h) (losing_eq_nil fun key hs => (hrefers key).trans hs)
  intro key hhigh hlive
  rw [hspare hhigh] at hlive
  cases hlive

/-- Where the vault stays as it is, but for lists and what is not about keys. -/
theorem settles_of_eq (hwarned : t.vault.abandonments = s.vault.abandonments)
    (hrecords : t.vault.keys = s.vault.keys) (hcells : t.vault.cells = s.vault.cells)
    (hkeys : t.keys = s.keys) (hentered : t.entered = s.entered) : s.Settles written t := by
  refine settles_of_acted (Vault.ages_of_eq hrecords hcells) hwarned (fun hhigh => ?_) hkeys
    hentered
  rw [Vault.isLive, hrecords, List.getElem?_eq_none hhigh]

theorem refersTo_releaseKey (s : Session) (old key : KeyRef) :
    (s.releaseKey old).refersTo key = s.refersTo key := by
  rw [releaseKey]
  split <;> rfl

theorem keys_releaseKey (s : Session) (old : KeyRef) : (s.releaseKey old).keys = s.keys := by
  rw [releaseKey]
  split <;> rfl

theorem releaseKey_of_not_isLive (h : s.vault.isLive old = false) : s.releaseKey old = s := by
  rw [releaseKey]
  split
  · rfl
  · rw [SecretKey.abandon_of_not_live h]

theorem ages_releaseKey (s : Session) (old : KeyRef) :
    s.vault.Ages written (s.releaseKey old).vault := by
  rw [releaseKey]
  split
  · exact Vault.ages_of_eq rfl rfl
  · exact SecretKey.ages_abandon old s.vault

/-- Releasing a key brings none to life. -/
theorem isLive_of_releaseKey (h : (s.releaseKey old).vault.isLive key = true) :
    s.vault.isLive key = true := by
  rw [releaseKey] at h
  split at h
  · exact h
  · cases hs : s.vault.isLive key with
    | true => rfl
    | false =>
      rw [SecretKey.not_isLive_abandon old hs] at h
      cases h

/-- Between two sessions references to one key at most were removed, and no key was given up. -/
structure Loosens (s : Session) (written : List Cell) (old : KeyRef) (t : Session) : Prop where
  ages : s.vault.Ages written t.vault
  warned : t.vault.abandonments = s.vault.abandonments
  refers : ∀ {key}, key < s.vault.keys.length → t.refersTo key = true → s.refersTo key = true
  fresh : ∀ {key}, s.vault.keys.length ≤ key → t.vault.isLive key = true → t.refersTo key = true
  distinct : s.keys.Distinct → t.keys.Distinct
  kept : ∀ {key}, key ≠ old → s.refersTo key = true → t.refersTo key = true
  held : s.refersTo old = true
  same : t.refersTo old = false → t.vault.keys[old]? = s.vault.keys[old]?

namespace Loosens

variable (h : s.Loosens written old t)

include h

theorem eq_of_mem_losing (hin : key ∈ s.losing t) : key = old := by
  obtain ⟨-, hs, ht⟩ := mem_losing.mp hin
  by_cases hkey : key = old
  · exact hkey
  · rw [h.kept hkey hs] at ht
    cases ht

/-- A key that was live, and that nothing refers to any more, is given up when it is released. -/
theorem releaseKey_of_mem_losing (hsized : s.vault.Sized) (hlost : old ∈ s.losing t) :
    ∃ record cell, s.vault.keys[old]? = some record ∧ record.material = .buffer cell ∧
      (t.releaseKey old).vault.Wiped old record cell ∧
      (t.releaseKey old).vault.warnings = t.vault.warnings ++ [.keyAbandoned record.keyId] := by
  obtain ⟨hlive, -, ht⟩ := mem_losing.mp hlost
  obtain ⟨record, cell, hrecord, hmaterial, hdestroyed⟩ := Vault.exists_of_isLive hlive
  obtain ⟨cells, keys, habandoned, hwiped⟩ := SecretKey.abandon_of_live (h.ages.sized hsized)
    ((h.same ht).trans hrecord) hmaterial hdestroyed
  refine ⟨record, cell, hrecord, hmaterial, ?_⟩
  rw [releaseKey, ht, if_neg Bool.false_ne_true, habandoned]
  exact ⟨⟨hwiped.key, hwiped.cell⟩, rfl⟩

/-- A key that something else refers to, or that was not live, is not given up. -/
theorem releaseKey_of_not_mem_losing (hkept : old ∉ s.losing t) : t.releaseKey old = t := by
  cases ht : t.refersTo old with
  | true => rw [releaseKey, if_pos ht]
  | false =>
    refine releaseKey_of_not_isLive ?_
    rw [Vault.isLive, h.same ht]
    cases hlive : s.vault.isLive old with
    | true => exact absurd (mem_losing.mpr ⟨hlive, h.held, ht⟩) hkept
    | false => exact hlive

/-- The key is released, and with that all is settled. -/
theorem settles_releaseKey (hsized : s.vault.Sized) : s.Settles written (t.releaseKey old) := by
  by_cases hlost : old ∈ s.losing t
  · obtain ⟨record, cell, hrecord, hmaterial, hwiped, hwarnings⟩ :=
      h.releaseKey_of_mem_losing hsized hlost
    have hlosing : s.losing (t.releaseKey old) = [old] := by
      simp only [losing, refersTo_releaseKey]
      exact losing_eq_singleton hlost fun _ => h.eq_of_mem_losing
    refine ⟨?_, ?_, ?_, ?_, ?_, ?_, ?_⟩
    · exact h.ages.trans (ages_releaseKey t old)
    · intro key hlow hreferred
      exact h.refers hlow (refersTo_releaseKey t old key ▸ hreferred)
    · intro key hhigh hkey
      rw [refersTo_releaseKey]
      exact h.fresh hhigh (isLive_of_releaseKey hkey)
    · rw [keys_releaseKey]
      exact h.distinct
    · intro key other hkey hother
      rw [hlosing] at hkey hother
      exact (List.mem_singleton.mp hkey).trans (List.mem_singleton.mp hother).symm
    · rw [hlosing, List.map_singleton, ← h.warned, Vault.abandonment, hrecord,
        Vault.abandonments, hwarnings]
      exact List.filter_append ..
    · intro key record' cell' hkey hrecord' hmaterial'
      rw [hlosing] at hkey
      obtain rfl := List.mem_singleton.mp hkey
      obtain rfl := Option.some.inj (hrecord.symm.trans hrecord')
      obtain rfl := Material.buffer.inj (hmaterial.symm.trans hmaterial')
      exact hwiped
  · rw [h.releaseKey_of_not_mem_losing hlost]
    refine settles_of_kept h.ages h.warned h.refers h.fresh h.distinct ?_
    refine List.eq_nil_iff_forall_not_mem.mpr fun key hin => hlost ?_
    exact h.eq_of_mem_losing hin ▸ hin

end Loosens

/-- A name is taken from a key, and the key is given up if nothing else refers to it. -/
theorem settles_dropKey {name : String} (hs : s.Sound) (hname : s.keys.lookup name = some key) :
    s.Settles written (s.dropKey name key) := by
  refine Loosens.settles_releaseKey ⟨Vault.ages_of_eq rfl rfl, rfl, ?_, ?_, fun h => h.unset, ?_,
    refersTo_of_lookup hname, fun _ => rfl⟩ hs.sized
  · intro other _ hother
    exact refersTo_of_refersTo hother (fun hkept => refersTo_of_mem (Names.mem_unset.mp hkept).1) id
  · intro other hhigh hlive
    exact absurd (Vault.lt_of_isLive hlive) (Nat.not_lt.mpr hhigh)
  · intro other hne hother
    refine refersTo_of_refersTo hother (fun {kept} hkept => ?_) id
    refine refersTo_of_mem (Names.mem_unset.mpr ⟨hkept, ?_⟩)
    rintro rfl
    exact hne (Option.some.inj ((hs.distinct.lookup_eq hkept).symm.trans hname))

theorem storeKey_of_none {name : String} (key : KeyRef) (h : s.keys.lookup name = none) :
    s.storeKey name key = { s with keys := s.keys.set name key } := by
  rw [storeKey, h]

theorem storeKey_of_some {name : String} (key : KeyRef) {old : KeyRef}
    (h : s.keys.lookup name = some old) :
    s.storeKey name key = { s with keys := s.keys.set name key }.releaseKey old := by
  rw [storeKey, h]

/-- A new key is named, and the key that had the name is given up if nothing else refers to it. -/
theorem settles_storeKey {w : Vault} {record : KeyRecord} (name : String) (hs : s.Sound)
    (hages : s.vault.Ages written w) (hwarned : w.abandonments = s.vault.abandonments)
    (hkeys : w.keys = s.vault.keys ++ [record]) :
    s.Settles written ({ s with vault := w }.storeKey name s.vault.keys.length) := by
  let named : Session := { s with vault := w, keys := s.keys.set name s.vault.keys.length }
  have hnew : named.refersTo s.vault.keys.length = true :=
    refersTo_of_mem (Names.mem_set.mpr (Or.inl rfl))
  have hrefers : ∀ {key}, key < s.vault.keys.length → named.refersTo key = true →
      s.refersTo key = true := by
    intro other hlow hother
    refine refersTo_of_refersTo hother (fun hkept => ?_) id
    rcases Names.mem_set.mp hkept with hentry | ⟨hin, -⟩
    · obtain ⟨-, rfl⟩ := Prod.mk.inj hentry
      exact absurd hlow (Nat.lt_irrefl _)
    · exact refersTo_of_mem hin
  have hfresh : ∀ {key}, s.vault.keys.length ≤ key → w.isLive key = true →
      named.refersTo key = true := by
    intro other hhigh hlive
    have hlow := Vault.lt_of_isLive hlive
    rw [hkeys, List.length_append] at hlow
    obtain rfl : other = s.vault.keys.length := Nat.le_antisymm (Nat.le_of_lt_succ hlow) hhigh
    exact hnew
  have hkept : ∀ {key}, s.keys.lookup name ≠ some key → s.refersTo key = true →
      named.refersTo key = true := by
    intro other hne hother
    refine refersTo_of_refersTo hother (fun {kept} hkept => ?_) id
    refine refersTo_of_mem (Names.mem_set.mpr (Or.inr ⟨hkept, ?_⟩))
    rintro rfl
    exact hne (hs.distinct.lookup_eq hkept)
  cases hname : s.keys.lookup name with
  | some old =>
    rw [storeKey_of_some (s := { s with vault := w }) s.vault.keys.length hname]
    refine Loosens.settles_releaseKey ⟨hages, hwarned, hrefers, hfresh, fun h => h.set, ?_,
      refersTo_of_lookup hname, ?_⟩ hs.sized
    · intro other hne
      refine hkept fun hlookup => hne ?_
      exact Option.some.inj (hlookup.symm.trans hname)
    · intro hlost
      have hother : old ≠ s.vault.keys.length := by
        rintro rfl
        rw [hnew] at hlost
        cases hlost
      show w.keys[old]? = _
      rw [hkeys, List.getElem?_append]
      split
      · rfl
      · next hhigh =>
        rw [List.getElem?_eq_none (Nat.le_of_not_lt hhigh), List.getElem?_eq_none]
        rw [List.length_singleton]
        exact Nat.sub_pos_of_lt (Nat.lt_of_le_of_ne (Nat.le_of_not_lt hhigh) (Ne.symm hother))
  | none =>
    rw [storeKey_of_none (s := { s with vault := w }) s.vault.keys.length hname]
    refine settles_of_kept hages hwarned hrefers hfresh (fun h => h.set)
      (losing_eq_nil fun other => hkept ?_)
    rw [hname]
    intro hsome
    cases hsome

/-! ### Commands -/

section Commands

variable {α : Type}

/-- Where an action was run that makes no key and gives none up. -/
theorem settles_of_sparing {action : Action α} (h : action.Sparing written)
    (hvault : t.vault = (action s.vault).2) (hkeys : t.keys = s.keys)
    (hentered : t.entered = s.entered) : s.Settles written t := by
  refine settles_of_acted ?_ ?_ ?_ hkeys hentered <;> rw [hvault]
  · exact h.ages s.vault
  · exact h.abandonments s.vault
  · exact h.spare s.vault

theorem settles_act {action : Action α} (h : action.Sparing written) :
    s.Settles written (s.act action).2 :=
  settles_of_sparing h rfl rfl rfl

theorem settles_answerPassword {target : String} {action : Action StoredPassword}
    (h : action.Sparing written) : s.Settles written (s.answerPassword target action).2 := by
  rw [answerPassword, act]
  rcases hrun : action s.vault with ⟨failure | password, w⟩ <;>
    exact settles_of_sparing h (congrArg Prod.snd hrun).symm rfl rfl

theorem settles_answerHolding {target : String} {action : Action Material}
    (h : action.Sparing written) : s.Settles written (s.answerHolding target action).2 := by
  let shown : Action (Material × Argument) := do
    let held ← action
    return (held, ← SecretKey.present held)
  have hshown : shown.Sparing written :=
    h.bind fun held => (SecretKey.sparing_present held).bind fun _ => Action.sparing_pure _
  rw [answerHolding, act, show (do
    let held ← action
    return (held, ← SecretKey.present held) : Action (Material × Argument)) = shown from rfl]
  rcases hrun : shown s.vault with ⟨failure | value, w⟩ <;>
    exact settles_of_sparing hshown (congrArg Prod.snd hrun).symm rfl rfl

theorem view_eq {v : Vault} {record : KeyRecord} (h : v.keys[key]? = some record) :
    view key v = (.ok ⟨record.keyId, record.salt, record.destroyed⟩, v) := by
  rw [view, Action.bind_of_ok (SecretKey.record_eq h)]
  rfl

theorem view_snd (key : KeyRef) (v : Vault) : (view key v).2 = v := by
  have hrecord := SecretKey.record_snd key v
  rcases hrun : SecretKey.record key v with ⟨failure | record, w⟩ <;> rw [hrun] at hrecord
  · rw [view, Action.bind_of_error hrun]
    exact hrecord
  · rw [view, Action.bind_of_ok hrun]
    exact hrecord

/-- An action that makes a key, which it adds behind the others, or else adds none. -/
structure Makes (action : Action KeyRef) : Prop where
  ages : ∀ written, action.Ages written
  adds : ∀ {v key w}, action v = (.ok key, w) →
    key = v.keys.length ∧ ∃ record, w.keys = v.keys ++ [record]
  refused : ∀ {v failure w}, action v = (.error failure, w) → w.keys = v.keys

theorem settles_answerKey {target : String} {action : Action KeyRef} (h : Makes action)
    (hs : s.Sound) : s.Settles written (s.answerKey target action).2 := by
  have hages := (h.ages written).ages s.vault
  have hwarned := (h.ages written).abandonments s.vault
  rw [answerKey, act]
  rcases hrun : action s.vault with ⟨failure | key, w⟩ <;> rw [hrun] at hages hwarned
  · rw [Action.bind_of_error hrun]
    refine settles_of_acted hages hwarned (fun hhigh => ?_) rfl rfl
    show w.isLive _ = false
    rw [Vault.isLive, h.refused hrun, List.getElem?_eq_none hhigh]
  · obtain ⟨rfl, record, hkeys⟩ := h.adds hrun
    have hnew : w.keys[s.vault.keys.length]? = some record := by
      rw [hkeys]
      exact List.getElem?_concat_length
    rw [Action.bind_of_ok hrun, Action.bind_of_ok (view_eq hnew)]
    exact settles_storeKey target hs hages hwarned hkeys

/-- The buffer that a caller wrote into. -/
def writes (s : Session) (command : Command) (outcome : Except Failure Reply) : List Cell :=
  match command, outcome with
  | .poke name _ _, .ok _ =>
    match s.holdings.lookup name with
    | some (.buffer cell) => [cell]
    | _ => []
  | _, _ => []

theorem makes_generate (suite : Suite) (keyId passphrase salt iterations : Argument) :
    Makes (SecretKey.generate suite keyId passphrase salt iterations) where
  ages _ := SecretKey.ages_generate ..
  adds h := by
    obtain ⟨i, cell, -, hkey, hmade⟩ := SecretKey.made_of_generate h
    exact ⟨hkey, _, hmade.keys⟩
  refused {v failure w} h := by
    have hends := SecretKey.ends_generate suite v keyId passphrase salt iterations
    rw [h] at hends
    generalize SecretKey.ingredients suite v keyId passphrase salt iterations = made at hends
    cases hends with
    | refused hkeys => exact hkeys

theorem sparing_material (source : KeySource) : (s.material source).Sparing written := by
  cases source with
  | value argument => exact SecretKey.sparing_materialOf argument
  | held name => exact Action.sparing_lift _

/-- Where a secret comes from does not matter for the keys. -/
theorem keys_material (source : KeySource) (v : Vault) : (s.material source v).2.keys = v.keys := by
  cases source with
  | held name => rfl
  | value argument =>
    cases argument with
    | octets form content => cases form <;> rfl
    | _ => rfl

theorem makes_create (source : KeySource) (keyId salt : Argument) :
    Makes (do SecretKey.create keyId salt (← s.material source)) where
  ages _ := (sparing_material source).toAges.bind fun material => SecretKey.ages_create ..
  adds {v key w} h := by
    obtain ⟨material, u, hmaterial, hcreated⟩ := Action.bind_eq_ok h
    have hkeys := keys_material (s := s) source v
    rw [hmaterial] at hkeys
    obtain ⟨id, s', secret, -, -, -, -, -, hkey, rfl⟩ := SecretKey.create_eq_ok hcreated
    rw [← show u.keys = v.keys from hkeys]
    exact ⟨hkey, _, rfl⟩
  refused {v failure w} h := by
    have hkeys := keys_material (s := s) source v
    rcases hmaterial : s.material source v with ⟨other | material, u⟩ <;> rw [hmaterial] at hkeys
    · obtain ⟨-, rfl⟩ := Prod.mk.inj ((Action.bind_of_error hmaterial).symm.trans h)
      exact hkeys
    · have hcreated := (Action.bind_of_ok hmaterial).symm.trans h
      rcases SecretKey.create_cases keyId salt material u with
        ⟨other, hrefused⟩ | ⟨key, made, hmade⟩
      · obtain ⟨-, rfl⟩ := Prod.mk.inj (hrefused.symm.trans hcreated)
        exact hkeys
      · cases hmade.symm.trans hcreated

theorem sparing_credential (choice : KeyChoice) : (s.credential choice).Sparing written := by
  cases choice with
  | named name => exact (Action.sparing_lift _).bind fun _ => Action.sparing_pure _
  | value argument => exact Action.sparing_pure _

theorem length_setOctet {octets changed : Bytes} {place value : Argument}
    (h : Alteration.setOctet octets place value = .ok changed) :
    changed.length = octets.length := by
  obtain ⟨index, -, h⟩ := bind_eq_ok h
  obtain ⟨octet, -, h⟩ := bind_eq_ok h
  obtain ⟨spot, -, h⟩ := bind_eq_ok h
  obtain rfl := Except.ok.inj h
  exact List.length_set

/-- Setting an item of what a caller holds fails, or it changes a list, or it changes a buffer,
which keeps its length. -/
theorem setIn_cases (held : Material) (place value : Argument) (v : Vault) :
    (∃ failure, setIn held place value v = (.error failure, v)) ∨
      (∃ lists, setIn held place value v = (.ok (), { v with lists })) ∨
      ∃ cell content, held = .buffer cell ∧ content.length = (v.cells.getD cell []).length ∧
        setIn held place value v = (.ok (), { v with cells := v.cells.set cell content }) := by
  cases held with
  | fixed other => exact Or.inl ⟨_, rfl⟩
  | list list =>
    have hitems : Action.itemsAt list v = (.ok (v.lists.getD list []), v) := rfl
    rw [setIn, Action.bind_of_ok hitems]
    cases Alteration.setItem (v.lists.getD list []) place value with
    | error failure => exact Or.inl ⟨failure, rfl⟩
    | ok items => exact Or.inr (Or.inl ⟨_, rfl⟩)
  | buffer cell =>
    rw [setIn, Action.bind_of_ok (Action.content_apply cell v)]
    cases hset : Alteration.setOctet (v.cells.getD cell []) place value with
    | error failure => exact Or.inl ⟨failure, rfl⟩
    | ok content => exact Or.inr (Or.inr ⟨cell, content, rfl, length_setOctet hset, rfl⟩)

/-- A caller who sets an octet of a buffer writes into it, if that succeeds. -/
theorem settles_poke (name : String) (place value : Argument) :
    s.Settles (s.writes (.poke name place value) (s.perform (.poke name place value)).1)
      (s.perform (.poke name place value)).2 := by
  cases hheld : find s.holdings name with
  | error failure =>
    have hperform : s.perform (.poke name place value) = (.error failure, s) := by
      rw [perform, answer, act, hheld]
      rfl
    rw [hperform]
    exact settles_of_eq rfl rfl rfl rfl rfl
  | ok held =>
  let body : Action Reply := do
    setIn held place value
    return .value (← SecretKey.present held)
  have hperform : s.perform (.poke name place value) =
      ((body s.vault).1, { s with vault := (body s.vault).2 }) := by
    rw [perform, answer, act, hheld]
    rfl
  have hdone : ∀ {w : Vault}, setIn held place value s.vault = (.ok (), w) →
      ∃ reply, body s.vault = (.ok reply, w) := by
    intro w hset
    obtain ⟨shown, hshown⟩ := SecretKey.exists_present held w
    exact ⟨.value shown, (Action.bind_of_ok hset).trans (Action.bind_of_ok hshown)⟩
  rw [hperform]
  rcases setIn_cases held place value s.vault with
    ⟨failure, hset⟩ | ⟨lists, hset⟩ | ⟨cell, content, rfl, hlength, hset⟩
  · rw [show body s.vault = (.error failure, s.vault) from Action.bind_of_error hset]
    exact settles_of_eq rfl rfl rfl rfl rfl
  · obtain ⟨reply, hbody⟩ := hdone hset
    rw [hbody]
    exact settles_of_eq rfl rfl rfl rfl rfl
  · obtain ⟨reply, hbody⟩ := hdone hset
    have hwrites : s.writes (.poke name place value) (.ok reply) = [cell] := by
      rw [writes, find_eq_ok_iff.mp hheld]
    rw [hbody, hwrites]
    refine settles_of_acted (Action.ages_set hlength fun hother => ?_) rfl (fun hhigh => ?_) rfl rfl
    · exact absurd (List.mem_singleton.mpr rfl) hother
    · rw [Vault.isLive, List.getElem?_eq_none hhigh]

/-- **What becomes of the keys under a command.** -/
theorem settles_perform (command : Command) (hs : s.Sound) :
    s.Settles (s.writes command (s.perform command).1) (s.perform command).2 := by
  cases command with
  | generate suite target keyId passphrase salt iterations =>
    exact settles_answerKey (makes_generate suite keyId passphrase salt iterations) hs
  | create target keyId salt source => exact settles_answerKey (makes_create source keyId salt) hs
  | inspect key =>
    exact settles_act ((Action.sparing_lift _).bind fun ref =>
      (Action.sparing_of_silent (view_snd ref)).bind fun _ => Action.sparing_pure _)
  | reveal key =>
    exact settles_act ((Action.sparing_lift _).bind fun ref =>
      (SecretKey.sparing_secret ref).bind fun _ => Action.sparing_pure _)
  | destroy key =>
    exact settles_act ((Action.sparing_lift _).bind fun ref =>
      (SecretKey.sparing_destroy ref).bind fun _ => Action.sparing_pure _)
  | describeKey key =>
    exact settles_act ((Action.sparing_lift _).bind fun ref =>
      (SecretKey.sparing_record ref).bind fun _ => Action.sparing_pure _)
  | drop name =>
    rw [perform]
    cases hname : find s.keys name with
    | error failure => exact settles_of_eq rfl rfl rfl rfl rfl
    | ok key => exact settles_dropKey hs (find_eq_ok_iff.mp hname)
  | newBuffer target digits =>
    exact settles_answerHolding ((Action.sparing_lift _).bind fun content =>
      (Action.sparing_allocate content).bind fun _ => Action.sparing_pure _)
  | hold key target =>
    exact settles_answerHolding ((Action.sparing_lift _).bind fun ref =>
      (SecretKey.sparing_secret ref).bind fun _ =>
        (SecretKey.sparing_record ref).bind fun _ => Action.sparing_pure _)
  | readHeld name =>
    exact settles_act ((Action.sparing_lift _).bind fun held =>
      (SecretKey.sparing_present held).bind fun _ => Action.sparing_pure _)
  | poke name place value => exact settles_poke name place value
  | wipeHeld name =>
    exact settles_act ((Action.sparing_lift _).bind fun held =>
      (SecretKey.sparing_wipeMaterial held).bind fun _ =>
        (SecretKey.sparing_present held).bind fun _ => Action.sparing_pure _)
  | lock suite target keyId passphrase clearText salt vector =>
    exact settles_answerPassword (StoredPassword.sparing_lock ..)
  | lockWith suite target key vector clearText =>
    exact settles_answerPassword ((sparing_credential key).bind fun credential =>
      StoredPassword.sparing_lockWith suite credential vector clearText)
  | decode target encoded => exact settles_answerPassword (Action.sparing_lift _)
  | assemble target representation envelope => exact settles_answerPassword (Action.sparing_lift _)
  | alter source target alteration =>
    exact settles_answerPassword ((Action.sparing_lift _).bind fun _ =>
      (Action.sparing_lift _).bind fun _ => Action.sparing_lift _)
  | fields password =>
    exact settles_act ((Action.sparing_lift _).bind fun _ => Action.sparing_pure _)
  | toText password marked =>
    exact settles_act ((Action.sparing_lift _).bind fun stored =>
      (Action.sparing_of_silent fun _ => rfl).bind fun _ => Action.sparing_pure _)
  | describe password =>
    exact settles_act ((Action.sparing_lift _).bind fun _ =>
      (Action.sparing_lift _).bind fun _ => Action.sparing_pure _)
  | unlock suite password key =>
    exact settles_act ((sparing_credential key).bind fun credential =>
      (Action.sparing_lift _).bind fun stored =>
        (StoredPassword.sparing_unlock suite stored credential).bind fun _ => Action.sparing_pure _)
  | compare password other =>
    exact settles_act ((Action.sparing_lift _).bind fun _ =>
      (Action.sparing_lift _).bind fun _ => Action.sparing_pure _)
  | compareValue password =>
    exact settles_act ((Action.sparing_lift _).bind fun _ => Action.sparing_pure _)
  | setField password =>
    exact settles_act ((Action.sparing_lift _).bind fun _ => Action.sparing_fail _)
  | restore source target =>
    exact settles_answerPassword ((Action.sparing_lift _).bind fun _ => Action.sparing_lift _)
  | configure environment =>
    exact settles_act ((Action.sparing_configure environment).bind fun _ => Action.sparing_pure _)
  | resolve standard =>
    exact settles_act ((Action.sparing_resolveIterations standard).bind fun _ =>
      Action.sparing_pure _)

end Commands

end Session

end PasswordVault
