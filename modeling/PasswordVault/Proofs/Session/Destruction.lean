import PasswordVault.Proofs.Session.Routes

/-!
# Which keys can be destroyed

A key keeps what it was given as its secret, and only a buffer can be overwritten. A key around a
buffer is destroyed whenever that is asked for, at the end of every block on it, and when nothing
refers to it any more. A key around anything else is made all the same, and it can never be
destroyed.

## Main definitions

- `Material.typeName`, `Material.refusal` — why a secret that is no buffer is not overwritten
- `Session.Perishable`, `Session.Imperishable` — what becomes of the two kinds of keys

`Session.destroyable_iff_buffer` says that every key is of one of the two kinds, and which of them
are made from what.
-/

namespace PasswordVault

namespace Material

/-- The name of the type of a secret. -/
def typeName : Material → String
  | .buffer _ => (Argument.octets .buffer []).typeName
  | .list _ => (Argument.list []).typeName
  | .fixed value => value.typeName

/-- The failure to overwrite a secret that is no buffer. -/
def refusal (material : Material) : Failure :=
  .argument (.notWipeable material.typeName)

end Material

namespace SecretKey

variable {v : Vault} {key : KeyRef} {record : KeyRecord} {α : Type}

theorem wipeMaterial_of_not_buffer {material : Material} (h : material.isBuffer = false)
    (v : Vault) : wipeMaterial material v = (.error material.refusal, v) := by
  cases material with
  | buffer cell => cases h
  | _ => rfl

/-- Destroying a key that was not made from a buffer fails, and the key stays as it is. -/
theorem destroy_of_not_buffer (hrecord : v.keys[key]? = some record)
    (hmaterial : record.material.isBuffer = false) :
    destroy key v = (.error record.material.refusal, v) := by
  rw [destroy, Action.bind_of_ok (record_eq hrecord),
    Action.bind_of_error (wipeMaterial_of_not_buffer hmaterial v)]

/-- The failure to destroy a key takes the place of whatever an action ends with. -/
theorem within_of_not_buffer {body : Action α} (hrecord : (body v).2.keys[key]? = some record)
    (hmaterial : record.material.isBuffer = false) :
    within key body v = (.error record.material.refusal, (body v).2) := by
  have hdestroy := destroy_of_not_buffer hrecord hmaterial
  rw [within, Action.ensuring]
  rcases hrun : body v with ⟨outcome, w⟩
  rw [hrun] at hdestroy
  simp only [hdestroy]

/-- A key that was made from a buffer is destroyed after an action, whose outcome stays as it is,
a failure too. -/
theorem within_of_sized {cell : Cell} {written : List Cell} {body : Action α}
    (hbody : body.Ages written) (hsized : v.Sized) (hrecord : v.keys[key]? = some record)
    (hmaterial : record.material = .buffer cell) :
    ∃ w, within key body v = ((body v).1, w) ∧ w.Wiped key record cell := by
  obtain ⟨destroyed, hlater, -⟩ := (hbody.ages v).keys hrecord
  obtain ⟨cells, keys, hdestroy, hwiped⟩ :=
    destroy_of_sized ((hbody.ages v).sized hsized) hlater hmaterial
  exact ⟨_, Action.ensuring_eq (Prod.ext rfl rfl) hdestroy, hwiped.key, hwiped.cell⟩

/-- What a new key holds is what it was given, and it is live. -/
theorem exists_record_of_create {keyId salt : Argument} {material : Material} {w : Vault}
    (h : create keyId salt material v = (.ok key, w)) :
    ∃ record, w.keys[key]? = some record ∧ record.material = material ∧
      record.destroyed = false := by
  obtain ⟨id, s, secret, -, -, -, -, -, rfl, rfl⟩ := create_eq_ok h
  exact ⟨_, List.getElem?_concat_length, rfl, rfl⟩

/-- A key that was generated is live, and its secret is in a buffer. -/
theorem exists_record_of_generate {suite : Suite} {keyId passphrase salt iterations : Argument}
    {w : Vault} (h : generate suite keyId passphrase salt iterations v = (.ok key, w)) :
    ∃ record cell, w.keys[key]? = some record ∧ record.material = .buffer cell ∧
      record.destroyed = false := by
  obtain ⟨i, cell, -, rfl, hmade⟩ := made_of_generate h
  exact ⟨_, cell, hmade.live.record, rfl, rfl⟩

/-- A value that is handed in gives a key a buffer if it is one. -/
theorem isBuffer_of_materialOf {value : Argument} {material : Material} {w : Vault}
    (h : materialOf value v = (.ok material, w)) :
    material.isBuffer = true ↔ ∃ content, value = .octets .buffer content := by
  cases value with
  | octets form content =>
    cases form with
    | buffer =>
      cases h
      exact ⟨fun _ => ⟨content, rfl⟩, fun _ => rfl⟩
    | _ =>
      cases h
      constructor
      · rintro ⟨⟩
      · rintro ⟨other, ⟨⟩⟩
  | _ =>
    cases h
    constructor
    · rintro ⟨⟩
    · rintro ⟨other, ⟨⟩⟩

end SecretKey

namespace Session

variable {s t : Session} {key : KeyRef} {record : KeyRecord} {cell : Cell} {name : String}

/-- What becomes of a key that was made from a buffer: all that can happen to a key, and it is
destroyed after every action that is run in a block on it, whatever that ends with. -/
structure Perishable (s : Session) (key : KeyRef) (record : KeyRecord) (cell : Cell) : Prop where
  life : s.KeyLife key record cell
  pending : ∀ {α : Type} (body : Action α) (written : List Cell), body.Ages written →
    ∃ w, SecretKey.within key body s.vault = ((body s.vault).1, w) ∧ w.Wiped key record cell

/-- What becomes of any other key: nothing. -/
structure Imperishable (s : Session) (key : KeyRef) (record : KeyRecord) : Prop where
  /-- It is never marked as destroyed. -/
  later : ∀ {j t}, s.Path j t → t.vault.keys[key]? = some record
  destroy : ∀ {name}, find s.keys name = .ok key → run (.command (.destroy name)) s =
    (⟨.error record.material.refusal, [], [], none⟩, s.quiet)
  /-- A block on it ends with the failure to destroy it, also if its body failed. -/
  leave : ∀ {name}, find s.keys name = .ok key → ∀ body failing?, ∃ reports t,
    run (.within name body failing?) s =
        (⟨.error record.material.refusal, [], [], some reports⟩, t) ∧
      t.vault.keys[key]? = some record
  pending : ∀ {α : Type} (body : Action α) (written : List Cell), body.Ages written →
    SecretKey.within key body s.vault = (.error record.material.refusal, (body s.vault).2)
  /-- It loses its last reference without a warning. -/
  drop : ∀ {name}, find s.keys name = .ok key → ∃ t,
    run (.command (.drop name)) s = (⟨.ok .nothing, [], [], none⟩, t) ∧ t.vault = s.quiet.vault

theorem perishable_of_buffer (hs : s.Sound) (hrecord : s.vault.keys[key]? = some record)
    (hmaterial : record.material = .buffer cell) : s.Perishable key record cell where
  life := keyLife hs hrecord hmaterial
  pending _ _ hbody := SecretKey.within_of_sized hbody hs.sized hrecord hmaterial

/-- A block on a key that cannot be destroyed. -/
theorem run_within_of_not_buffer (hrecord : s.vault.keys[key]? = some record)
    (hmaterial : record.material.isBuffer = false) (hname : find s.keys name = .ok key)
    (body : List Step) (failing? : Option String) :
    ∃ reports t, run (.within name body failing?) s =
        (⟨.error record.material.refusal, [], [], some reports⟩, t) ∧
      t.vault.keys[key]? = some record := by
  -- The body may use any command: none of them touches a key that is not around a buffer.
  have hroute := @route_runAll (fun _ => True) body (s.enter key) fun _ _ => trivial
  rcases hbody : runAll body (s.enter key) with ⟨reports, ended⟩
  rw [hbody] at hroute
  have hlater : ended.quiet.vault.keys[key]? = some record := hroute.stays hrecord hmaterial
  have hending : (ending failing? ended.quiet.vault).2 = ended.quiet.vault := by
    cases failing? <;> rfl
  have hwithin : SecretKey.within key (ending failing?) ended.quiet.vault =
      (.error record.material.refusal, ended.quiet.vault) := by
    have hrun := @SecretKey.within_of_not_buffer ended.quiet.vault key record Unit (ending failing?)
      (hending.symm ▸ hlater) hmaterial
    rwa [hending] at hrun
  -- Only a key that can be destroyed counts as live, so none is abandoned at the end.
  have hdead : ended.quiet.vault.isLive key = false := by
    rw [Vault.isLive_eq hlater, hmaterial, Bool.and_false]
  have hleave : ended.quiet.leave key failing? = (.error record.material.refusal,
      { ended.quiet with entered := ended.entered.drop 1 }) := by
    rw [leave_eq hwithin (view_eq hlater)]
    exact Prod.ext rfl (releaseKey_of_not_isLive hdead)
  refine ⟨reports, { ended.quiet with entered := ended.entered.drop 1 }, ?_, hlater⟩
  rw [run, hname]
  dsimp only
  rw [hbody]
  dsimp only
  rw [hleave]
  rfl

theorem imperishable_of_not_buffer (hrecord : s.vault.keys[key]? = some record)
    (hmaterial : record.material.isBuffer = false) : s.Imperishable key record where
  later hpath := hpath.route.stays hrecord hmaterial
  destroy {name} hname := by
    have hrefused := @SecretKey.destroy_of_not_buffer s.quiet.vault key record hrecord hmaterial
    have hfound := lift_find s.quiet.vault (show find s.quiet.keys name = .ok key from hname)
    have hperform : s.quiet.perform (.destroy name) =
        (.error record.material.refusal, s.quiet) := by
      rw [perform, answer, act, Action.bind_of_ok hfound,
        Action.bind_of_error hrefused]
    exact run_command hperform
  leave hname := run_within_of_not_buffer hrecord hmaterial hname
  pending body written hbody := by
    obtain ⟨destroyed, hlater, -⟩ := (hbody.ages s.vault).keys hrecord
    exact @SecretKey.within_of_not_buffer _ _ { record with destroyed } _ _ hlater hmaterial
  drop {name} hname := by
    have hdead : s.vault.isLive key = false := by
      rw [Vault.isLive_eq hrecord, hmaterial, Bool.and_false]
    have hperform : s.quiet.perform (.drop name) =
        (.ok .nothing, { s.quiet with keys := s.keys.unset name }) := by
      rw [perform, show find s.quiet.keys name = .ok key from hname]
      exact Prod.ext rfl (releaseKey_of_not_isLive hdead)
    exact ⟨_, run_command hperform, rfl⟩

/-- **Which keys can be destroyed.** In every session that is reached, the keys that were made from
buffers can be, and the others cannot. Generating a key makes one of the first kind. Creating one
keeps what it is given, and a value that is handed in makes one of the first kind only if it is a
buffer. -/
theorem destroyable_iff_buffer (environment : Environment) :
    (∀ j s, (ofEnvironment environment).Path j s → ∀ key record,
      s.vault.keys[key]? = some record →
        (∀ cell, record.material = .buffer cell → s.Perishable key record cell) ∧
        (record.material.isBuffer = false → s.Imperishable key record)) ∧
    (∀ suite keyId passphrase salt iterations v key w,
      SecretKey.generate suite keyId passphrase salt iterations v = (.ok key, w) →
        ∃ record cell, w.keys[key]? = some record ∧ record.material = .buffer cell ∧
          record.destroyed = false) ∧
    (∀ keyId salt material v key w, SecretKey.create keyId salt material v = (.ok key, w) →
      ∃ record, w.keys[key]? = some record ∧ record.material = material ∧
        record.destroyed = false) ∧
    ∀ value v material w, SecretKey.materialOf value v = (.ok material, w) →
      (material.isBuffer = true ↔ ∃ content, value = .octets .buffer content) := by
  refine ⟨fun j s hpath key record hrecord => ⟨fun cell hmaterial => ?_, fun hother => ?_⟩,
    fun _ _ _ _ _ _ _ _ h => SecretKey.exists_record_of_generate h,
    fun _ _ _ _ _ _ h => SecretKey.exists_record_of_create h,
    fun _ _ _ _ h => SecretKey.isBuffer_of_materialOf h⟩
  · exact perishable_of_buffer ((hpath.passes (sound_ofEnvironment environment)).sound
      (sound_ofEnvironment environment)) hrecord hmaterial
  · exact imperishable_of_not_buffer hrecord hother

/-- The steps that make one key, around octets that cannot change. -/
def makeConstantKey : List Step :=
  [.command (.create "k" (.ofBytes [1]) (.ofBytes (.zeros 16))
    (.value (.ofBytes (List.replicate 32 7))))]

/-- Of a key around a buffer and a key around constant octets, the first is destroyed. -/
theorem destroyable_iff_buffer_makeKey :
    (∃ t, run (.command (.destroy "k")) (runAll makeKey (ofEnvironment [])).2 =
        (⟨.ok .nothing, [], [], none⟩, t) ∧
      t.vault.Wiped 0 ⟨[1], .zeros 16, .buffer 0, false⟩ 0) ∧
    (runAll makeConstantKey (ofEnvironment [])).2.Imperishable 0
      ⟨[1], .zeros 16, .fixed (.ofBytes (List.replicate 32 7)), false⟩ := by
  obtain ⟨hkinds, -⟩ := destroyable_iff_buffer []
  obtain ⟨j, hmade, -, -⟩ := path_runAll makeKey (ofEnvironment [])
  obtain ⟨k, hconstant, -, -⟩ := path_runAll makeConstantKey (ofEnvironment [])
  have hperishable := (hkinds j _ hmade 0 ⟨[1], .zeros 16, .buffer 0, false⟩ (by rfl)).1 0 rfl
  exact ⟨hperishable.life.destroy (by rfl), (hkinds k _ hconstant 0 _ (by rfl)).2 rfl⟩

/-- A key around constant octets is accepted, and is live after it was to be destroyed. A block on
it that is left with one failure ends with another, and it loses its last reference without a
warning. -/
theorem constant_key_not_destroyed :
    (∃ t, run (.command (.destroy "k")) (runAll makeConstantKey (ofEnvironment [])).2 =
        (⟨.error (.argument (.notWipeable "bytes")), [], [], none⟩, t) ∧
      t.vault.keys[0]? =
        some ⟨[1], .zeros 16, .fixed (.ofBytes (List.replicate 32 7)), false⟩) ∧
    (run (.within "k" [] (some "stop")) (runAll makeConstantKey (ofEnvironment [])).2).1 =
      ⟨.error (.argument (.notWipeable "bytes")), [], [], some []⟩ ∧
    (run (.command (.drop "k")) (runAll makeConstantKey (ofEnvironment [])).2).1 =
      ⟨.ok .nothing, [], [], none⟩ :=
  ⟨⟨_, by rfl, by rfl⟩, by rfl, by rfl⟩

end Session

end PasswordVault
