import PasswordVault.Proofs.StoredPassword.Locking

/-!
# How keys and buffers age

Whatever an operation does, keys that were there keep what they were made of, and a key that was
destroyed stays destroyed. A buffer keeps its length; its content stays, or becomes zeros, unless a
caller writes into it.

## Main definitions

- `Vault.Sized` — every key in a buffer has a whole secret there
- `Vault.Ages` — what may have become of keys and buffers
- `Action.Ages` — an action after which keys and buffers have aged, and which gives up no key
- `Action.Sparing` — such an action that leaves no live key of its own behind

Making a key is of the first kind, and every other operation is of the second:
`StoredPassword.sparing_lock` and `StoredPassword.sparing_unlock` come last.
-/

namespace PasswordVault

theorem Bytes.cleared_cleared (content : Bytes) : content.cleared.cleared = content.cleared :=
  congrArg Bytes.zeros (Bytes.length_cleared content)

def Material.isBuffer : Material → Bool
  | .buffer _ => true
  | _ => false

/-- A warning that a key was given up. -/
def Warning.isAbandonment : Warning → Bool
  | .keyAbandoned _ => true
  | .iterationsReplaced _ _ => false

namespace Vault

/-- The warnings that keys were given up, oldest first. -/
def abandonments (v : Vault) : List Warning :=
  v.warnings.filter (·.isAbandonment)

/-- A key was made from a buffer and has not been destroyed. -/
def isLive (v : Vault) (key : KeyRef) : Bool :=
  match v.keys[key]? with
  | some record => !record.destroyed && record.material.isBuffer
  | none => false

/-- The secret of every key that was made from a buffer is there, and has the length of one. -/
def Sized (v : Vault) : Prop :=
  ∀ {key : KeyRef} {record : KeyRecord} {cell : Cell}, v.keys[key]? = some record →
    record.material = .buffer cell →
    ∃ content, v.cells[cell]? = some content ∧ content.length = SecretKey.keyLength

/-- What becomes of keys and buffers, if callers write into the given ones. -/
structure Ages (written : List Cell) (v w : Vault) : Prop where
  /-- A key stays what it is, except that it may be destroyed. -/
  keys : ∀ {key : KeyRef} {record : KeyRecord}, v.keys[key]? = some record →
    ∃ destroyed, w.keys[key]? = some { record with destroyed } ∧
      (record.destroyed = true → destroyed = true)
  /-- A buffer keeps its length, and its content unless that is overwritten. -/
  cells : ∀ {cell : Cell} {content : Bytes}, v.cells[cell]? = some content →
    ∃ later, w.cells[cell]? = some later ∧ later.length = content.length ∧
      (cell ∉ written → later = content ∨ later = content.cleared)
  sized : v.Sized → w.Sized

variable {written : List Cell} {v w u : Vault} {key : KeyRef} {record : KeyRecord}

theorem isLive_eq (h : v.keys[key]? = some record) :
    v.isLive key = (!record.destroyed && record.material.isBuffer) := by
  rw [isLive, h]

theorem exists_of_isLive (h : v.isLive key = true) :
    ∃ record cell, v.keys[key]? = some record ∧ record.material = .buffer cell ∧
      record.destroyed = false := by
  cases hrecord : v.keys[key]? with
  | none =>
    rw [isLive, hrecord] at h
    cases h
  | some record =>
    rw [isLive_eq hrecord, Bool.and_eq_true, Bool.not_eq_true'] at h
    obtain ⟨hdestroyed, hbuffer⟩ := h
    cases hmaterial : record.material with
    | buffer cell => exact ⟨record, cell, rfl, hmaterial, hdestroyed⟩
    | list place =>
      rw [hmaterial] at hbuffer
      cases hbuffer
    | fixed value =>
      rw [hmaterial] at hbuffer
      cases hbuffer

theorem lt_of_isLive (h : v.isLive key = true) : key < v.keys.length := by
  obtain ⟨record, cell, hrecord, -⟩ := exists_of_isLive h
  exact (List.getElem?_eq_some_iff.mp hrecord).1

/-- Where only buffers are changed. -/
theorem ages_of_cells (hkeys : w.keys = v.keys)
    (hcells : ∀ {cell : Cell} {content : Bytes}, v.cells[cell]? = some content →
      ∃ later, w.cells[cell]? = some later ∧ later.length = content.length ∧
        (cell ∉ written → later = content ∨ later = content.cleared)) : v.Ages written w where
  keys {_ record} h := ⟨record.destroyed, hkeys.symm ▸ h, id⟩
  cells := hcells
  sized h := by
    intro key record cell hrecord hmaterial
    rw [hkeys] at hrecord
    obtain ⟨content, hcontent, hlength⟩ := h hrecord hmaterial
    obtain ⟨later, hlater, hsame, -⟩ := hcells hcontent
    exact ⟨later, hlater, hsame.trans hlength⟩

theorem ages_of_eq (hkeys : w.keys = v.keys) (hcells : w.cells = v.cells) : v.Ages written w :=
  ages_of_cells hkeys fun {_ content} h =>
    ⟨content, hcells.symm ▸ h, rfl, fun _ => Or.inl rfl⟩

theorem Ages.trans (h : v.Ages written w) (hn : w.Ages written u) : v.Ages written u where
  keys hrecord := by
    obtain ⟨destroyed, hlater, hstays⟩ := h.keys hrecord
    obtain ⟨destroyed', hlast, hstays'⟩ := hn.keys hlater
    exact ⟨destroyed', hlast, fun hd => hstays' (hstays hd)⟩
  cells hcontent := by
    obtain ⟨later, hlater, hlength, hkept⟩ := h.cells hcontent
    obtain ⟨last, hlast, hlength', hkept'⟩ := hn.cells hlater
    refine ⟨last, hlast, hlength'.trans hlength, fun hcell => ?_⟩
    rcases hkept hcell with rfl | rfl
    · exact hkept' hcell
    · rcases hkept' hcell with rfl | rfl
      · exact Or.inr rfl
      · exact Or.inr (Bytes.cleared_cleared _)
  sized hsized := hn.sized (h.sized hsized)

/-- No key goes away. -/
theorem Ages.length_le (h : v.Ages written w) : v.keys.length ≤ w.keys.length := by
  cases hlength : v.keys.length with
  | zero => exact Nat.zero_le _
  | succ n =>
    have hlast : n < v.keys.length := hlength ▸ Nat.lt_succ_self n
    obtain ⟨destroyed, hlater, -⟩ := h.keys (List.getElem?_eq_getElem hlast)
    exact (List.getElem?_eq_some_iff.mp hlater).1

theorem Ages.mono {more : List Cell} (h : v.Ages written w) (hmore : written ⊆ more) :
    v.Ages more w where
  keys := h.keys
  cells hcontent := by
    obtain ⟨later, hlater, hlength, hkept⟩ := h.cells hcontent
    exact ⟨later, hlater, hlength, fun hcell => hkept fun hin => hcell (hmore hin)⟩
  sized := h.sized

/-- No key comes back to life. -/
theorem Ages.not_isLive (h : v.Ages written w) (hkey : v.isLive key = false)
    (hnew : v.keys.length ≤ key → w.isLive key = false) : w.isLive key = false := by
  by_cases hlow : key < v.keys.length
  · have hrecord := List.getElem?_eq_getElem hlow
    obtain ⟨destroyed, hlater, hstays⟩ := h.keys hrecord
    rw [isLive_eq hrecord] at hkey
    rw [isLive_eq hlater]
    cases hdestroyed : v.keys[key].destroyed with
    | true => rw [hstays hdestroyed]; rfl
    | false =>
      rw [hdestroyed, Bool.not_false, Bool.true_and] at hkey
      show (!destroyed && v.keys[key].material.isBuffer) = false
      rw [hkey, Bool.and_false]
  · exact hnew (Nat.le_of_not_lt hlow)

end Vault

namespace Action

variable {α β : Type} {written : List Cell} {action : Action α}

/-- An action after which keys and buffers have aged. It gives up no key. -/
structure Ages (written : List Cell) (action : Action α) : Prop where
  ages : ∀ v : Vault, v.Ages written (action v).2
  abandonments : ∀ v : Vault, (action v).2.abandonments = v.abandonments

/-- Such an action that leaves no live key behind which was not there before. -/
structure Sparing (written : List Cell) (action : Action α) : Prop extends Ages written action where
  spare : ∀ (v : Vault) {key : KeyRef}, v.keys.length ≤ key → (action v).2.isLive key = false

/-- Where no key is added. -/
theorem Ages.sparing (h : action.Ages written)
    (hlength : ∀ v : Vault, (action v).2.keys.length = v.keys.length) :
    action.Sparing written where
  toAges := h
  spare v key hkey := by
    rw [Vault.isLive, List.getElem?_eq_none ((hlength v).symm ▸ hkey)]

theorem sparing_of_silent (h : ∀ v, (action v).2 = v) : action.Sparing written := by
  refine Ages.sparing ⟨fun v => ?_, fun v => ?_⟩ fun v => ?_ <;> rw [h v]
  exact Vault.ages_of_eq rfl rfl

theorem sparing_lift (outcome : Except Failure α) : (lift outcome).Sparing written :=
  sparing_of_silent fun _ => rfl

theorem sparing_pure (value : α) : (pure value : Action α).Sparing written :=
  sparing_of_silent fun _ => rfl

theorem sparing_fail (failure : Failure) : (fail failure : Action α).Sparing written :=
  sparing_of_silent fun _ => rfl

theorem Ages.bind {next : α → Action β} (h : action.Ages written)
    (hnext : ∀ value, (next value).Ages written) : (action >>= next).Ages written := by
  have hrun : ∀ v : Vault, v.Ages written ((action >>= next) v).2 ∧
      ((action >>= next) v).2.abandonments = v.abandonments := by
    intro v
    have hfirst := h.ages v
    have hwarned := h.abandonments v
    cases ha : action v with
    | mk outcome w =>
    rw [ha] at hfirst hwarned
    cases outcome with
    | error failure =>
      rw [bind_of_error ha]
      exact ⟨hfirst, hwarned⟩
    | ok value =>
      rw [bind_of_ok ha]
      exact ⟨hfirst.trans ((hnext value).ages w), ((hnext value).abandonments w).trans hwarned⟩
  exact ⟨fun v => (hrun v).1, fun v => (hrun v).2⟩

theorem Sparing.bind {next : α → Action β} (h : action.Sparing written)
    (hnext : ∀ value, (next value).Sparing written) : (action >>= next).Sparing written where
  toAges := h.toAges.bind fun value => (hnext value).toAges
  spare v key hkey := by
    have hfirst := h.spare v hkey
    cases ha : action v with
    | mk outcome w =>
    rw [ha] at hfirst
    cases outcome with
    | error failure =>
      rw [bind_of_error ha]
      exact hfirst
    | ok value =>
      rw [bind_of_ok ha]
      exact ((hnext value).ages w).not_isLive hfirst ((hnext value).spare w)

theorem Ages.ensuring {cleanup : Action Unit} (h : action.Ages written)
    (hcleanup : cleanup.Ages written) : (Action.ensuring action cleanup).Ages written := by
  constructor <;> intro v <;> rw [ensuring_snd]
  · exact (h.ages v).trans (hcleanup.ages _)
  · exact (hcleanup.abandonments _).trans (h.abandonments v)

theorem Sparing.ensuring {cleanup : Action Unit} (h : action.Sparing written)
    (hcleanup : cleanup.Sparing written) : (Action.ensuring action cleanup).Sparing written where
  toAges := h.toAges.ensuring hcleanup.toAges
  spare v key hkey := by
    rw [ensuring_snd]
    exact (hcleanup.ages _).not_isLive (h.spare v hkey) (hcleanup.spare _)

theorem sparing_allocate (content : Bytes) : (allocate content).Sparing written := by
  refine Ages.sparing ⟨fun v => ?_, fun _ => rfl⟩ fun _ => rfl
  exact Vault.ages_of_cells rfl fun {_ held} h =>
    ⟨held, Vault.getElem?_of_prefix (List.prefix_append _ _) h, rfl, fun _ => Or.inl rfl⟩

theorem sparing_content (cell : Cell) : (content cell).Sparing written :=
  sparing_of_silent fun _ => rfl

/-- A buffer is set to something of the same length. -/
theorem ages_set {v : Vault} {cell : Cell} {content : Bytes}
    (hlength : content.length = (v.cells.getD cell []).length)
    (hkept : cell ∉ written → content = (v.cells.getD cell []).cleared) :
    v.Ages written { v with cells := v.cells.set cell content } := by
  refine Vault.ages_of_cells rfl ?_
  intro other held hheld
  by_cases hsame : cell = other
  · subst hsame
    have hcell : v.cells.getD cell [] = held := by
      rw [List.getD_eq_getElem?_getD, hheld]
      rfl
    rw [hcell] at hlength hkept
    exact ⟨content, List.getElem?_set_self (List.getElem?_eq_some_iff.mp hheld).1, hlength,
      fun hcell => Or.inr (hkept hcell)⟩
  · exact ⟨held, (List.getElem?_set_ne hsame).trans hheld, rfl, fun _ => Or.inl rfl⟩

theorem sparing_wipe (cell : Cell) : (wipe cell).Sparing written :=
  Ages.sparing ⟨fun _ => ages_set (Bytes.length_cleared _) fun _ => rfl, fun _ => rfl⟩ fun _ => rfl

theorem sparing_ask (suite : Suite) (call : Suite.Call) : (ask suite call).Sparing written :=
  Ages.sparing ⟨fun _ => Vault.ages_of_eq rfl rfl, fun _ => rfl⟩ fun _ => rfl

theorem sparing_resolveIterations (standard : Argument) :
    (resolveIterations standard).Sparing written := by
  have hrun : ∀ v : Vault, ∃ reported warnings,
      (resolveIterations standard v).2 = { v with reported, warnings } ∧
        warnings.filter (·.isAbandonment) = v.abandonments := by
    intro v
    rw [resolveIterations]
    split
    · dsimp only
      split
      · exact ⟨_, _, rfl, by simp [Vault.abandonments, Warning.isAbandonment]⟩
      · exact ⟨true, v.warnings, rfl, rfl⟩
    · exact ⟨v.reported, v.warnings, rfl, rfl⟩
  refine Ages.sparing ⟨fun v => ?_, fun v => ?_⟩ fun v => ?_ <;>
    obtain ⟨reported, warnings, hv, hsame⟩ := hrun v <;> rw [hv]
  · exact Vault.ages_of_eq rfl rfl
  · exact hsame

theorem sparing_configure (environment : Environment) : (configure environment).Sparing written :=
  Ages.sparing ⟨fun _ => Vault.ages_of_eq rfl rfl, fun _ => rfl⟩ fun _ => rfl

end Action

namespace SecretKey

variable {written : List Cell}

theorem record_snd (key : KeyRef) (v : Vault) : (record key v).2 = v := by
  rw [record, Action.bind_of_ok (Action.vault_apply v)]
  cases v.keys[key]? <;> rfl

theorem sparing_record (key : KeyRef) : (record key).Sparing written :=
  Action.sparing_of_silent (record_snd key)

theorem exists_present (material : Material) (v : Vault) :
    ∃ value, present material v = (.ok value, v) := by
  cases material <;> exact ⟨_, rfl⟩

theorem sparing_present (material : Material) : (present material).Sparing written := by
  refine Action.sparing_of_silent fun v => ?_
  obtain ⟨value, hpresent⟩ := exists_present material v
  rw [hpresent]

theorem sparing_secret (key : KeyRef) : (secret key).Sparing written :=
  Action.sparing_of_silent (secret_snd key)

theorem sparing_materialOf (value : Argument) : (materialOf value).Sparing written := by
  have hlist : ∀ items, (Action.allocateList items).Sparing written := fun items =>
    Action.Ages.sparing ⟨fun _ => Vault.ages_of_eq rfl rfl, fun _ => rfl⟩ fun _ => rfl
  cases value with
  | octets form content =>
    cases form with
    | buffer => exact (Action.sparing_allocate content).bind fun _ => Action.sparing_pure _
    | _ => exact Action.sparing_pure _
  | list items => exact (hlist items).bind fun _ => Action.sparing_pure _
  | _ => exact Action.sparing_pure _

/-- A key is made, or nothing has changed. -/
theorem create_cases (keyId salt : Argument) (material : Material) (v : Vault) :
    (∃ failure, create keyId salt material v = (.error failure, v)) ∨
      ∃ key w, create keyId salt material v = (.ok key, w) := by
  obtain ⟨secret, hpresent⟩ := exists_present material v
  rw [create]
  cases salt.length with
  | error failure => exact Or.inl ⟨failure, Action.bind_of_error rfl⟩
  | ok saltLength =>
  rw [Action.bind_of_ok (Action.lift_apply _ v)]
  by_cases hsalt : saltLength ≠ Envelope.saltLength
  · rw [if_pos hsalt]
    exact Or.inl ⟨_, Action.bind_of_error rfl⟩
  rw [if_neg hsalt]
  dsimp only
  rw [Action.bind_of_ok hpresent]
  cases secret.length with
  | error failure => exact Or.inl ⟨failure, Action.bind_of_error rfl⟩
  | ok length =>
  rw [Action.bind_of_ok (Action.lift_apply _ v)]
  by_cases hlength : length ≠ keyLength
  · rw [if_pos hlength]
    exact Or.inl ⟨_, Action.bind_of_error rfl⟩
  rw [if_neg hlength]
  cases KeyId.ofArgument keyId with
  | error failure => exact Or.inl ⟨failure, Action.bind_of_error rfl⟩
  | ok id =>
  rw [Action.bind_of_ok (Action.lift_apply _ v)]
  cases salt.toBytes .constant with
  | error failure => exact Or.inl ⟨failure, Action.bind_of_error rfl⟩
  | ok s =>
  rw [Action.bind_of_ok (Action.lift_apply _ v)]
  exact Or.inr ⟨_, _, rfl⟩

theorem ages_create (keyId salt : Argument) (material : Material) :
    (create keyId salt material).Ages written := by
  have hrun : ∀ v : Vault, v.Ages written (create keyId salt material v).2 ∧
      (create keyId salt material v).2.abandonments = v.abandonments := by
    intro v
    rcases create_cases keyId salt material v with ⟨failure, hrefused⟩ | ⟨key, w, hmade⟩
    · rw [hrefused]
      exact ⟨Vault.ages_of_eq rfl rfl, rfl⟩
    rw [hmade]
    obtain ⟨id, s, secret, -, -, -, hshows, hlength, -, rfl⟩ := create_eq_ok hmade
    refine ⟨⟨?_, ?_, ?_⟩, rfl⟩
    · intro key record hrecord
      exact ⟨record.destroyed, Vault.getElem?_of_prefix (List.prefix_append _ _) hrecord,
        fun hd => hd⟩
    · intro cell content hcontent
      exact ⟨content, hcontent, rfl, fun _ => Or.inl rfl⟩
    · intro hsized key record cell hrecord hmaterial
      rcases Nat.lt_trichotomy key v.keys.length with hlow | rfl | hhigh
      · exact hsized ((List.getElem?_append_left hlow).symm.trans hrecord) hmaterial
      · -- The new key shows a value of the length of a secret.
        obtain rfl := Option.some.inj (List.getElem?_concat_length.symm.trans hrecord)
        obtain rfl : material = .buffer cell := hmaterial
        cases hshows with
        | buffer hcell => exact ⟨_, hcell, Except.ok.inj hlength⟩
      · rw [List.getElem?_eq_none (by simp; omega)] at hrecord
        cases hrecord
  exact ⟨fun v => (hrun v).1, fun v => (hrun v).2⟩

theorem ages_generate (suite : Suite) (keyId passphrase salt iterations : Argument) :
    (generate suite keyId passphrase salt iterations).Ages written := by
  have hchosen : (chooseIterations iterations).Sparing written := by
    cases iterations with
    | absent => exact Action.sparing_resolveIterations _
    | _ => exact Action.sparing_pure _
  refine (Action.sparing_lift _).toAges.bind fun id => ?_
  refine (Action.sparing_lift _).toAges.bind fun s => ?_
  refine hchosen.toAges.bind fun n => ?_
  refine (Action.sparing_lift _).toAges.bind fun secret => ?_
  refine (Action.sparing_allocate secret).toAges.bind fun cell => ?_
  refine Action.Ages.bind ?_ fun derived => ?_
  · exact (((Action.sparing_content cell).bind fun _ => Action.sparing_ask _ _).ensuring
      (Action.sparing_wipe cell)).toAges
  refine (Action.sparing_lift _).toAges.bind fun content => ?_
  exact (Action.sparing_allocate content).toAges.bind fun _ => ages_create _ _ _

theorem sparing_wipeMaterial (material : Material) : (wipeMaterial material).Sparing written := by
  cases material with
  | buffer cell => exact Action.sparing_wipe cell
  | _ => exact (sparing_present _).bind fun _ => Action.sparing_fail _

theorem sparing_markDestroyed (key : KeyRef) : (markDestroyed key).Sparing written := by
  have hkeys : ∀ (v : Vault) (other : KeyRef) (record : KeyRecord), v.keys[other]? = some record →
      ∃ destroyed, (markDestroyed key v).2.keys[other]? = some { record with destroyed } ∧
        (record.destroyed = true → destroyed = true) := by
    intro v other record hrecord
    show ∃ destroyed, (v.keys.modify key _)[other]? = _ ∧ _
    rw [List.getElem?_modify, hrecord]
    by_cases hkey : key = other
    · exact ⟨true, by simp [hkey], fun _ => rfl⟩
    · exact ⟨record.destroyed, by simp [hkey], id⟩
  have hmaterial : ∀ (v : Vault) (other : KeyRef) (record : KeyRecord),
      (markDestroyed key v).2.keys[other]? = some record →
        ∃ before, v.keys[other]? = some before ∧ before.material = record.material := by
    intro v other record hrecord
    have hmodified : (v.keys.modify key fun record => { record with destroyed := true })[other]? =
        some record := hrecord
    rw [List.getElem?_modify] at hmodified
    cases hbefore : v.keys[other]? with
    | none =>
      rw [hbefore] at hmodified
      cases hmodified
    | some before =>
      rw [hbefore] at hmodified
      refine ⟨before, rfl, ?_⟩
      split at hmodified <;> cases hmodified <;> rfl
  refine Action.Ages.sparing ⟨fun v => ⟨fun h => hkeys v _ _ h, fun {_ content} h => ?_, ?_⟩,
    fun _ => rfl⟩ fun v => List.length_modify ..
  · exact ⟨content, h, rfl, fun _ => Or.inl rfl⟩
  · intro hsized other record cell hrecord hcell
    obtain ⟨before, hbefore, hsame⟩ := hmaterial v other record hrecord
    exact hsized hbefore (hsame.trans hcell)

theorem sparing_destroy (key : KeyRef) : (destroy key).Sparing written := by
  refine (sparing_record key).bind fun record => ?_
  exact (sparing_wipeMaterial record.material).bind fun _ => sparing_markDestroyed key

/-- An operation with a key of its own leaves no live key behind. -/
theorem sparing_generate_within {α : Type} {operation : KeyRef → Action α}
    {outcome : List Suite.Call → KeyRecord → Argument → Except Failure α}
    (huses : Uses operation outcome) (h : ∀ key, (operation key).Ages written) (suite : Suite)
    (keyId passphrase salt iterations : Argument) :
    (generate suite keyId passphrase salt iterations >>=
      fun key => within key (operation key)).Sparing written where
  toAges := (ages_generate ..).bind fun key => (h key).ensuring (sparing_destroy key).toAges
  spare v key hkey := by
    cases hi : ingredients suite v keyId passphrase salt iterations with
    | error failure =>
      obtain ⟨w, hrun, hkeys⟩ := generate_bind_of_error (fun key => within key (operation key)) hi
      rw [hrun, Vault.isLive, hkeys, List.getElem?_eq_none hkey]
    | ok i =>
      obtain ⟨cell, calls, w, hrun, hspent⟩ := generate_within_of_ok huses hi
      obtain ⟨record, cell, hkeys, hdestroyed, -, -⟩ := hspent.key
      rw [hrun]
      show w.isLive key = false
      rcases Nat.eq_or_lt_of_le hkey with rfl | hhigh
      · rw [Vault.isLive_eq (hkeys ▸ List.getElem?_concat_length), hdestroyed]
        rfl
      · rw [Vault.isLive, List.getElem?_eq_none]
        rw [hkeys, List.length_append]
        exact hhigh

end SecretKey

namespace StoredPassword

variable {written : List Cell}

theorem sparing_encryptPadded (suite : Suite) (key : KeyRef) (vector clear : Bytes) :
    (encryptPadded suite key vector clear).Sparing written := by
  rw [encryptPadded]
  cases clear.isEmpty with
  | true => exact Action.sparing_of_silent fun _ => rfl
  | false =>
  refine (Action.sparing_allocate _).bind fun cell => ?_
  refine Action.Sparing.ensuring ?_ (Action.sparing_wipe cell)
  refine (SecretKey.sparing_secret key).bind fun secret => ?_
  refine (Action.sparing_content cell).bind fun padded => ?_
  exact (Action.sparing_ask _ _).bind fun ciphertext => Action.sparing_pure _

theorem sparing_lockUnder (suite : Suite) (key : KeyRef) (vector clearText : Argument) :
    (lockUnder suite key vector clearText).Sparing written := by
  refine (Action.sparing_lift _).bind fun iv => ?_
  refine (Action.sparing_lift _).bind fun clear => ?_
  refine (Action.sparing_allocate clear).bind fun cell => ?_
  refine Action.Sparing.bind ?_ fun answer => ?_
  · exact ((Action.sparing_content cell).bind fun _ => sparing_encryptPadded _ _ _ _).ensuring
      (Action.sparing_wipe cell)
  refine (SecretKey.sparing_record key).bind fun record => ?_
  exact (Action.sparing_lift _).bind fun raw => Action.sparing_lift _

theorem sparing_lockWith (suite : Suite) (credential : Credential) (vector clearText : Argument) :
    (lockWith suite credential vector clearText).Sparing written := by
  cases credential with
  | key ref => exact sparing_lockUnder suite ref vector clearText
  | value argument => exact Action.sparing_fail _

theorem sparing_lock (suite : Suite) (keyId passphrase clearText salt vector : Argument) :
    (lock suite keyId passphrase clearText salt vector).Sparing written := by
  have hdrawn : ∀ length given, (givenOrDrawn suite length given).Sparing written := by
    intro length given
    cases given with
    | absent => exact Action.sparing_ask _ _
    | _ => exact Action.sparing_pure _
  rw [lock]
  refine (Action.sparing_lift _).bind fun id => ?_
  cases id.isEmpty with
  | true => exact Action.sparing_of_silent fun _ => rfl
  | false =>
  cases isEmptyClearText clearText with
  | true => exact Action.sparing_of_silent fun _ => rfl
  | false =>
  refine (hdrawn _ salt).bind fun givenSalt => ?_
  refine (hdrawn _ vector).bind fun givenVector => ?_
  exact SecretKey.sparing_generate_within (uses_lockUnder suite givenVector clearText)
    (fun key => (sparing_lockUnder suite key givenVector clearText).toAges) suite _ _ _ _

theorem sparing_unlockUnder (suite : Suite) (password : StoredPassword) (key : KeyRef) :
    (unlockUnder suite password key).Sparing written := by
  refine (SecretKey.sparing_secret key).bind fun secret => ?_
  refine (Action.sparing_ask _ _).bind fun decrypted => ?_
  refine (Action.sparing_lift _).bind fun padded => ?_
  refine (Action.sparing_allocate padded).bind fun cell => ?_
  refine Action.Sparing.ensuring ?_ (Action.sparing_wipe cell)
  refine (Action.sparing_content cell).bind fun padded => ?_
  refine (Action.sparing_lift _).bind fun clear => ?_
  refine (Action.sparing_allocate clear).bind fun cut => ?_
  exact (Action.sparing_content cut).ensuring (Action.sparing_wipe cut)

theorem sparing_unlock (suite : Suite) (password : StoredPassword) (credential : Credential) :
    (unlock suite password credential).Sparing written := by
  cases credential with
  | key ref => exact sparing_unlockUnder suite password ref
  | value passphrase =>
    exact SecretKey.sparing_generate_within (uses_unlockUnder suite password)
      (fun key => (sparing_unlockUnder suite password key).toAges) suite _ _ _ _

end StoredPassword

end PasswordVault
