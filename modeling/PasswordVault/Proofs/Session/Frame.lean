import PasswordVault.Proofs.Session.KeyLife
import PasswordVault.Proofs.StoredPassword.Growth

/-!
# What commands leave alone

Apart from those that destroy a key or write into what a caller holds, commands only add to the
vault, and may give up one key. A command that fails adds at most buffers of its own, and names
nothing.

## Main definitions

- `Kind`, `Command.target?` — the name that a command gives or takes away
- `Command.disturbs` — the commands that change what is there
- `Session.handed` — the secret that a caller hands to a new key
- `Session.Outgrows` — the vault has grown, and one live key at most was given up
- `Session.Framed` — what is as it was between two sessions

`Session.outgrows_perform` says that this is what becomes of the vault under every other command,
and `Session.frame` what a step leaves alone in every session.
-/

namespace PasswordVault

/-- What a name can stand for. -/
inductive Kind
  | key
  | password
  | holding
  deriving DecidableEq, Repr

namespace Command

/-- A command that destroys a key, or writes into what a caller holds. -/
def disturbs : Command → Bool
  | .destroy _ => true
  | .poke _ _ _ => true
  | .wipeHeld _ => true
  | _ => false

/-- The name that a command gives or takes away. -/
def target? : Command → Option (Kind × String)
  | .generate _ target _ _ _ _ => some (.key, target)
  | .create target _ _ _ => some (.key, target)
  | .drop key => some (.key, key)
  | .newBuffer target _ => some (.holding, target)
  | .hold _ target => some (.holding, target)
  | .lock _ target _ _ _ _ _ => some (.password, target)
  | .lockWith _ target _ _ _ => some (.password, target)
  | .decode target _ => some (.password, target)
  | .assemble target _ _ => some (.password, target)
  | .alter _ target _ => some (.password, target)
  | .restore _ target => some (.password, target)
  | _ => none

theorem disturbs_of_target? {command : Command} {place : Kind × String}
    (h : command.target? = some place) : command.disturbs = false := by
  cases command with
  | destroy => cases h
  | poke => cases h
  | wipeHeld => cases h
  | _ => rfl

end Command

namespace Names

variable {α : Type} {names : Names α} {name other : String}

theorem lookup_unset (h : name ≠ other) : (names.unset other).lookup name = names.lookup name := by
  rw [unset]
  induction names with
  | nil => rfl
  | cons entry rest ih =>
    by_cases hentry : entry.1 = other
    · -- The entry that is removed is not the one that is looked for.
      have hskip : (name == entry.1) = false := beq_false_of_ne fun hname => h (hname.trans hentry)
      rw [List.filter_cons_of_neg (by simp [hentry]), List.lookup_cons, hskip]
      exact ih
    · rw [List.filter_cons_of_pos (by simp [hentry]), List.lookup_cons, List.lookup_cons, ih]

theorem lookup_set (value : α) (h : name ≠ other) :
    (names.set other value).lookup name = names.lookup name := by
  rw [set, List.lookup_cons, beq_false_of_ne h]
  exact lookup_unset h

end Names

namespace Vault

/-- Whether a key is live does not depend on the keys behind it. -/
theorem isLive_of_prefix {v w : Vault} {key : KeyRef} (h : v.keys <+: w.keys)
    (hkey : key < v.keys.length) : w.isLive key = v.isLive key := by
  rw [isLive, isLive, getElem?_eq_of_lt h hkey]

end Vault

namespace Session

variable {s t : Session} {key old : KeyRef} {given : List Material}

/-- The secret that a caller hands to a new key, which shares it from then on. -/
def handed (s : Session) : Command → List Material
  | .create _ _ _ (.held name) => (s.holdings.lookup name).toList
  | _ => []

/-- The vault has grown, and after that one key at most was given up, which was live. -/
inductive Outgrows (s : Session) (given : List Material) (t : Session) : Prop
  | kept (h : s.vault.Grows given t.vault)
  | lost {old : KeyRef} {w : Vault} (h : s.vault.Grows given w) (hlost : old ∈ s.losing t)
    (hvault : t.vault = (SecretKey.abandon old w).2)

theorem Outgrows.keepsBut (h : s.Outgrows given t) : s.vault.KeepsBut (s.losing t) t.vault := by
  cases h with
  | kept h => exact h.keepsBut
  | @lost old w h hlost hvault =>
    rw [hvault]
    -- Giving one key up leaves alone what any longer list of keys leaves alone.
    have hgivenUp : w.KeepsBut (s.losing t) (SecretKey.abandon old w).2 :=
      (SecretKey.keepsBut_abandon old w).mono (List.cons_subset.mpr ⟨hlost, List.nil_subset _⟩)
    exact h.trans_keepsBut hgivenUp fun key hkey => Vault.lt_of_isLive (mem_losing.mp hkey).1

/-- A key that lost its last reference is released. -/
theorem outgrows_releaseKey (h : s.vault.Grows given t.vault) (hheld : s.refersTo old = true)
    (hlow : t.refersTo old = false → t.vault.isLive old = true → old < s.vault.keys.length) :
    s.Outgrows given (t.releaseKey old) := by
  cases href : t.refersTo old with
  | true =>
    rw [releaseKey, if_pos href]
    exact .kept h
  | false =>
    cases hlive : t.vault.isLive old with
    | false =>
      rw [releaseKey_of_not_isLive hlive]
      exact .kept h
    | true =>
      refine .lost h (mem_losing.mpr ⟨?_, hheld, ?_⟩) ?_
      · rw [← Vault.isLive_of_prefix h.keys (hlow href hlive)]
        exact hlive
      · rw [refersTo_releaseKey]
        exact href
      · rw [releaseKey, href, if_neg Bool.false_ne_true]

theorem outgrows_dropKey {name : String} (hname : s.keys.lookup name = some key) :
    s.Outgrows given (s.dropKey name key) :=
  outgrows_releaseKey (Vault.grows_self s.vault) (refersTo_of_lookup hname)
    fun _ hlive => Vault.lt_of_isLive hlive

/-- A new key is named, and the key that had the name is released. -/
theorem outgrows_storeKey {w : Vault} {record : KeyRecord} (name : String)
    (h : s.vault.Grows given w) (hkeys : w.keys = s.vault.keys ++ [record]) :
    s.Outgrows given ({ s with vault := w }.storeKey name s.vault.keys.length) := by
  let named : Session := { s with vault := w, keys := s.keys.set name s.vault.keys.length }
  cases hname : s.keys.lookup name with
  | none =>
    rw [storeKey_of_none (s := { s with vault := w }) s.vault.keys.length hname]
    exact .kept h
  | some old =>
    rw [storeKey_of_some (s := { s with vault := w }) s.vault.keys.length hname]
    refine outgrows_releaseKey (t := named) h (refersTo_of_lookup hname) fun hlost hlive => ?_
    -- It cannot be the new key, which has the name.
    have hlow : old < s.vault.keys.length + 1 := by
      have hplace := Vault.lt_of_isLive hlive
      have hnamed : named.vault.keys = s.vault.keys ++ [record] := hkeys
      rwa [hnamed, List.length_append] at hplace
    refine Nat.lt_of_le_of_ne (Nat.le_of_lt_succ hlow) ?_
    rintro rfl
    rw [refersTo_of_mem (Names.mem_set.mpr (Or.inl rfl))] at hlost
    cases hlost

/-! ### Commands -/

section Commands

variable {α : Type}

theorem outgrows_act {action : Action α} (h : action.Grows given) :
    s.Outgrows given (s.act action).2 :=
  .kept (h s.vault)

theorem outgrows_answerPassword {target : String} {action : Action StoredPassword}
    (h : action.Grows given) : s.Outgrows given (s.answerPassword target action).2 := by
  have hgrows := h s.vault
  rw [answerPassword, act]
  rcases hrun : action s.vault with ⟨failure | password, w⟩ <;> rw [hrun] at hgrows <;>
    exact .kept hgrows

theorem outgrows_answerHolding {target : String} {action : Action Material}
    (h : action.Grows given) : s.Outgrows given (s.answerHolding target action).2 := by
  let shown : Action (Material × Argument) := do
    let held ← action
    return (held, ← SecretKey.present held)
  have hshown : shown.Grows given :=
    h.bind fun held => (SecretKey.grows_present held).bind fun _ => Action.grows_pure _
  have hgrows := hshown s.vault
  rw [answerHolding, act, show (do
    let held ← action
    return (held, ← SecretKey.present held) : Action (Material × Argument)) = shown from rfl]
  rcases hrun : shown s.vault with ⟨failure | value, w⟩ <;> rw [hrun] at hgrows <;>
    exact .kept hgrows

theorem outgrows_answerKey {target : String} {action : Action KeyRef} (hmakes : Makes action)
    (h : s.vault.Grows given (action s.vault).2) :
    s.Outgrows given (s.answerKey target action).2 := by
  rw [answerKey, act]
  rcases hrun : action s.vault with ⟨failure | key, w⟩ <;> rw [hrun] at h
  · rw [Action.bind_of_error hrun]
    exact .kept h
  · obtain ⟨rfl, record, hkeys⟩ := hmakes.adds hrun
    have hnew : w.keys[s.vault.keys.length]? = some record := by
      rw [hkeys]
      exact List.getElem?_concat_length
    rw [Action.bind_of_ok hrun, Action.bind_of_ok (view_eq hnew)]
    exact outgrows_storeKey target h hkeys

/-- A key is made around what a name holds, or around a value of its own. -/
theorem grows_create (target : String) (keyId salt : Argument) (source : KeySource) :
    s.vault.Grows (s.handed (.create target keyId salt source))
      ((do SecretKey.create keyId salt (← s.material source) : Action KeyRef) s.vault).2 := by
  cases source with
  | value argument =>
    exact SecretKey.grows_bind_create (SecretKey.materialOf argument) keyId salt
      (SecretKey.grows_materialOf argument s.vault)
      (@keys_material s (.value argument) s.vault) SecretKey.isNew_of_materialOf
  | held name =>
    show s.vault.Grows (s.holdings.lookup name).toList
      ((Action.lift (find s.holdings name) >>= SecretKey.create keyId salt) s.vault).2
    rw [find]
    cases s.holdings.lookup name with
    | none => exact Vault.grows_self s.vault
    | some material => exact SecretKey.grows_create keyId salt material s.vault

theorem grows_credential (choice : KeyChoice) : (s.credential choice).Grows given := by
  cases choice with
  | named name => exact (Action.grows_lift _).bind fun _ => Action.grows_pure _
  | value argument => exact Action.grows_pure _

/-- **What becomes of the vault under a command** that neither destroys a key nor writes into what a
caller holds. -/
theorem outgrows_perform (command : Command) (hcalm : command.disturbs = false) :
    s.Outgrows (s.handed command) (s.perform command).2 := by
  cases command with
  | generate suite target keyId passphrase salt iterations =>
    exact outgrows_answerKey (makes_generate suite keyId passphrase salt iterations)
      (SecretKey.grows_generate suite keyId passphrase salt iterations s.vault)
  | create target keyId salt source =>
    exact outgrows_answerKey (makes_create source keyId salt)
      (grows_create target keyId salt source)
  | inspect key =>
    exact outgrows_act ((Action.grows_lift _).bind fun ref =>
      (Action.grows_of_silent (view_snd ref)).bind fun _ => Action.grows_pure _)
  | reveal key =>
    exact outgrows_act ((Action.grows_lift _).bind fun ref =>
      (SecretKey.grows_secret ref).bind fun _ => Action.grows_pure _)
  | describeKey key =>
    exact outgrows_act ((Action.grows_lift _).bind fun ref =>
      (SecretKey.grows_record ref).bind fun _ => Action.grows_pure _)
  | drop name =>
    rw [perform]
    cases hname : find s.keys name with
    | error failure => exact .kept (Vault.grows_self s.vault)
    | ok key => exact outgrows_dropKey (find_eq_ok_iff.mp hname)
  | newBuffer target digits =>
    exact outgrows_answerHolding ((Action.grows_lift _).bind fun content =>
      (Action.grows_allocate content).bind fun _ => Action.grows_pure _)
  | hold key target =>
    exact outgrows_answerHolding ((Action.grows_lift _).bind fun ref =>
      (SecretKey.grows_secret ref).bind fun _ =>
        (SecretKey.grows_record ref).bind fun _ => Action.grows_pure _)
  | readHeld name =>
    exact outgrows_act ((Action.grows_lift _).bind fun held =>
      (SecretKey.grows_present held).bind fun _ => Action.grows_pure _)
  | lock suite target keyId passphrase clearText salt vector =>
    exact outgrows_answerPassword
      (StoredPassword.grows_lock suite keyId passphrase clearText salt vector)
  | lockWith suite target key vector clearText =>
    exact outgrows_answerPassword ((grows_credential key).bind fun credential =>
      StoredPassword.grows_lockWith suite credential vector clearText)
  | decode target encoded => exact outgrows_answerPassword (Action.grows_lift _)
  | assemble target representation envelope => exact outgrows_answerPassword (Action.grows_lift _)
  | alter source target alteration =>
    exact outgrows_answerPassword ((Action.grows_lift _).bind fun _ =>
      (Action.grows_lift _).bind fun _ => Action.grows_lift _)
  | fields password =>
    exact outgrows_act ((Action.grows_lift _).bind fun _ => Action.grows_pure _)
  | toText password marked =>
    exact outgrows_act ((Action.grows_lift _).bind fun stored =>
      (Action.grows_of_silent fun _ => rfl).bind fun _ => Action.grows_pure _)
  | describe password =>
    exact outgrows_act ((Action.grows_lift _).bind fun _ =>
      (Action.grows_lift _).bind fun _ => Action.grows_pure _)
  | unlock suite password key =>
    exact outgrows_act ((grows_credential key).bind fun credential =>
      (Action.grows_lift _).bind fun stored =>
        (StoredPassword.grows_unlock suite stored credential).bind fun _ => Action.grows_pure _)
  | compare password other =>
    exact outgrows_act ((Action.grows_lift _).bind fun _ =>
      (Action.grows_lift _).bind fun _ => Action.grows_pure _)
  | compareValue password =>
    exact outgrows_act ((Action.grows_lift _).bind fun _ => Action.grows_pure _)
  | setField password =>
    exact outgrows_act ((Action.grows_lift _).bind fun _ => Action.grows_fail _)
  | restore source target =>
    exact outgrows_answerPassword ((Action.grows_lift _).bind fun _ => Action.grows_lift _)
  | configure environment =>
    exact outgrows_act ((Action.grows_configure environment).bind fun _ => Action.grows_pure _)
  | resolve standard =>
    exact outgrows_act ((Action.grows_resolveIterations standard).bind fun _ =>
      Action.grows_pure _)
  | destroy => cases hcalm
  | poke => cases hcalm
  | wipeHeld => cases hcalm

/-! ### Commands that fail -/

variable {failure : Failure}

theorem eq_of_answer_error {action : Action Reply} (h : s.answer action = (.error failure, t)) :
    t = { s with vault := t.vault } := by
  obtain rfl : _ = t := congrArg Prod.snd h
  rfl

theorem eq_of_answerPassword_error {target : String} {action : Action StoredPassword}
    (h : s.answerPassword target action = (.error failure, t)) :
    t = { s with vault := t.vault } := by
  rw [answerPassword, act] at h
  rcases hrun : action s.vault with ⟨other | password, w⟩ <;> rw [hrun] at h <;> cases h
  rfl

theorem eq_of_answerHolding_error {target : String} {action : Action Material}
    (h : s.answerHolding target action = (.error failure, t)) :
    t = { s with vault := t.vault } := by
  rw [answerHolding, act] at h
  rcases hrun : (do let held ← action; return (held, ← SecretKey.present held) :
    Action (Material × Argument)) s.vault with ⟨other | value, w⟩ <;> rw [hrun] at h <;> cases h
  rfl

theorem eq_of_answerKey_error {target : String} {action : Action KeyRef}
    (h : s.answerKey target action = (.error failure, t)) : t = { s with vault := t.vault } := by
  rw [answerKey, act] at h
  rcases hrun : (do let key ← action; return (key, ← view key) :
    Action (KeyRef × KeyView)) s.vault with ⟨other | value, w⟩ <;> rw [hrun] at h <;> cases h
  rfl

/-- A command that fails names nothing, removes no name, and opens and closes no block. -/
theorem eq_of_perform_error {command : Command} (h : s.perform command = (.error failure, t)) :
    t = { s with vault := t.vault } := by
  cases command with
  | generate => exact eq_of_answerKey_error h
  | create => exact eq_of_answerKey_error h
  | drop name =>
    rw [perform] at h
    cases hname : find s.keys name <;> rw [hname] at h <;> cases h
    rfl
  | newBuffer => exact eq_of_answerHolding_error h
  | hold => exact eq_of_answerHolding_error h
  | lock => exact eq_of_answerPassword_error h
  | lockWith => exact eq_of_answerPassword_error h
  | decode => exact eq_of_answerPassword_error h
  | assemble => exact eq_of_answerPassword_error h
  | alter => exact eq_of_answerPassword_error h
  | restore => exact eq_of_answerPassword_error h
  | _ => exact eq_of_answer_error h

/-- An action that cannot fail once it has changed something. -/
theorem eq_of_bind_error {β : Type} {first : Action α} {next : α → Action β} {v w : Vault}
    (hfirst : (∃ failure, first v = (.error failure, v)) ∨
      ∃ value u, first v = (.ok value, u) ∧ ∃ reply x, next value u = (.ok reply, x))
    (h : (first >>= next) v = (.error failure, w)) : w = v := by
  rcases hfirst with ⟨other, hrefused⟩ | ⟨value, u, hdone, reply, x, hnext⟩
  · exact (congrArg Prod.snd ((Action.bind_of_error hrefused).symm.trans h)).symm
  · cases ((Action.bind_of_ok hdone).trans hnext).symm.trans h

/-- Those that change what is there do it at their end. -/
theorem vault_of_disturbing_error {command : Command} (hdisturbs : command.disturbs = true)
    (h : s.perform command = (.error failure, t)) : t.vault = s.vault := by
  have hpresent : ∀ (held : Material) (v : Vault), ∃ reply x,
      (do return Reply.value (← SecretKey.present held) : Action Reply) v = (.ok reply, x) := by
    intro held v
    obtain ⟨value, hvalue⟩ := SecretKey.exists_present held v
    exact ⟨_, _, Action.bind_of_ok hvalue⟩
  have hanswer : ∀ {β : Type} {names : Names β} {name : String} {next : β → Action Reply},
      (∀ value w, next value s.vault = (.error failure, w) → w = s.vault) →
      s.answer (Action.lift (find names name) >>= next) = (.error failure, t) →
      t.vault = s.vault := by
    intro β names name next hnext hrun
    rw [answer, act] at hrun
    cases hfound : find names name with
    | error other =>
      rw [hfound, Action.bind_of_error (Action.lift_apply _ s.vault)] at hrun
      obtain rfl := congrArg Prod.snd hrun
      rfl
    | ok value =>
      rw [hfound, Action.bind_of_ok (Action.lift_apply _ s.vault)] at hrun
      obtain ⟨houtcome, rfl⟩ := Prod.mk.inj hrun
      exact hnext value _ (Prod.ext houtcome rfl)
  cases command with
  | destroy name =>
    refine hanswer (fun key w hrun => eq_of_bind_error ?_ hrun) h
    rcases SecretKey.destroy_cases key s.vault with
      ⟨other, hrefused, -⟩ | ⟨record, cell, -, -, hdone⟩
    · exact Or.inl ⟨other, hrefused⟩
    · exact Or.inr ⟨_, _, hdone, _, _, rfl⟩
  | poke name place value =>
    refine hanswer (fun held w hrun => eq_of_bind_error ?_ hrun) h
    rcases setIn_cases held place value s.vault with
      hrefused | ⟨lists, hdone⟩ | ⟨cell, content, -, -, hdone⟩
    · exact Or.inl hrefused
    · exact Or.inr ⟨_, _, hdone, hpresent held _⟩
    · exact Or.inr ⟨_, _, hdone, hpresent held _⟩
  | wipeHeld name =>
    refine hanswer (fun held w hrun => eq_of_bind_error ?_ hrun) h
    cases held with
    | buffer cell => exact Or.inr ⟨_, _, Action.wipe_apply cell s.vault, hpresent _ _⟩
    | _ => exact Or.inl ⟨_, rfl⟩
  | _ => cases hdisturbs

/-- A command that fails has added to the vault at most. -/
theorem grows_of_perform_error {command : Command} (h : s.perform command = (.error failure, t)) :
    s.vault.Grows (s.handed command) t.vault := by
  cases hdisturbs : command.disturbs with
  | true =>
    rw [vault_of_disturbing_error hdisturbs h]
    exact Vault.grows_self s.vault
  | false =>
    have houtgrows := outgrows_perform (s := s) command hdisturbs
    rw [h] at houtgrows
    cases houtgrows with
    | kept hgrows => exact hgrows
    | @lost old w hgrows hlost hvault =>
      -- It has removed no name, so no key has lost its last reference.
      obtain ⟨-, hheld, hnone⟩ := mem_losing.mp hlost
      rw [eq_of_perform_error h] at hnone
      cases hheld.symm.trans hnone

end Commands

/-! ### Names -/

/-- All names but the target stand for what they stood for. -/
structure KeepsNames (s : Session) (target? : Option (Kind × String)) (t : Session) : Prop where
  keys : ∀ {name}, target? ≠ some (.key, name) → t.keys.lookup name = s.keys.lookup name
  passwords : ∀ {name}, target? ≠ some (.password, name) →
    t.passwords.lookup name = s.passwords.lookup name
  holdings : ∀ {name}, target? ≠ some (.holding, name) →
    t.holdings.lookup name = s.holdings.lookup name

theorem keepsNames_of_eq {target? : Option (Kind × String)} (hkeys : t.keys = s.keys)
    (hpasswords : t.passwords = s.passwords) (hholdings : t.holdings = s.holdings) :
    s.KeepsNames target? t where
  keys _ := hkeys ▸ rfl
  passwords _ := hpasswords ▸ rfl
  holdings _ := hholdings ▸ rfl

theorem keepsNames_answerPassword (target : String) (action : Action StoredPassword) :
    s.KeepsNames (some (.password, target)) (s.answerPassword target action).2 := by
  rw [answerPassword, act]
  rcases action s.vault with ⟨failure | password, w⟩
  · exact keepsNames_of_eq rfl rfl rfl
  · exact ⟨fun _ => rfl, fun hname => Names.lookup_set _ fun hsame => hname (hsame ▸ rfl),
      fun _ => rfl⟩

theorem keepsNames_answerHolding (target : String) (action : Action Material) :
    s.KeepsNames (some (.holding, target)) (s.answerHolding target action).2 := by
  rw [answerHolding, act]
  rcases (do let held ← action; return (held, ← SecretKey.present held) :
    Action (Material × Argument)) s.vault with ⟨failure | ⟨held, value⟩, w⟩
  · exact keepsNames_of_eq rfl rfl rfl
  · exact ⟨fun _ => rfl, fun _ => rfl,
      fun hname => Names.lookup_set _ fun hsame => hname (hsame ▸ rfl)⟩

/-- Releasing a key removes no name. -/
theorem KeepsNames.releaseKey {target? : Option (Kind × String)} (h : s.KeepsNames target? t)
    (old : KeyRef) : s.KeepsNames target? (t.releaseKey old) := by
  rw [Session.releaseKey]
  split
  · exact h
  · exact ⟨h.keys, h.passwords, h.holdings⟩

theorem keepsNames_answerKey (target : String) (action : Action KeyRef) :
    s.KeepsNames (some (.key, target)) (s.answerKey target action).2 := by
  rw [answerKey, act]
  rcases (do let key ← action; return (key, ← view key) :
    Action (KeyRef × KeyView)) s.vault with ⟨failure | ⟨key, shown⟩, w⟩
  · exact keepsNames_of_eq rfl rfl rfl
  · have hnamed : s.KeepsNames (some (.key, target))
        { s with vault := w, keys := s.keys.set target key } :=
      ⟨fun hname => Names.lookup_set _ fun hsame => hname (hsame ▸ rfl), fun _ => rfl, fun _ => rfl⟩
    show s.KeepsNames _ (storeKey { s with vault := w } target key)
    rw [storeKey]
    split
    · exact hnamed.releaseKey _
    · exact hnamed

/-- A command gives or takes away no name but its target. -/
theorem keepsNames_perform (s : Session) (command : Command) :
    s.KeepsNames command.target? (s.perform command).2 := by
  cases command with
  | generate => exact keepsNames_answerKey ..
  | create => exact keepsNames_answerKey ..
  | drop name =>
    rw [perform]
    cases find s.keys name with
    | error failure => exact keepsNames_of_eq rfl rfl rfl
    | ok key =>
      have hunnamed : s.KeepsNames (some (.key, name)) { s with keys := s.keys.unset name } :=
        ⟨fun hname => Names.lookup_unset fun hsame => hname (hsame ▸ rfl), fun _ => rfl,
          fun _ => rfl⟩
      exact hunnamed.releaseKey key
  | newBuffer => exact keepsNames_answerHolding ..
  | hold => exact keepsNames_answerHolding ..
  | lock => exact keepsNames_answerPassword ..
  | lockWith => exact keepsNames_answerPassword ..
  | decode => exact keepsNames_answerPassword ..
  | assemble => exact keepsNames_answerPassword ..
  | alter => exact keepsNames_answerPassword ..
  | restore => exact keepsNames_answerPassword ..
  | _ => exact keepsNames_of_eq rfl rfl rfl

/-- A command that takes the last reference from a key gives its name to another one, or takes it
away. -/
theorem exists_name_of_mem_losing {command : Command} (hdistinct : s.keys.Distinct)
    (hkey : key ∈ s.losing (s.perform command).2) :
    ∃ name, command.target? = some (.key, name) ∧ s.keys.lookup name = some key := by
  obtain ⟨-, hheld, hlost⟩ := mem_losing.mp hkey
  rcases refersTo_iff.mp hheld with ⟨name, hname⟩ | hopen
  · have hlookup := hdistinct.lookup_eq hname
    refine ⟨name, Decidable.byContradiction fun hother => ?_, hlookup⟩
    have hkept := ((keepsNames_perform s command).keys hother).trans hlookup
    cases (refersTo_of_lookup hkept).symm.trans hlost
  · have hentered : key ∈ (s.perform command).2.entered := (entered_perform s command).symm ▸ hopen
    cases (refersTo_iff.mpr (Or.inr hentered)).symm.trans hlost

/-! ### The frame -/

/-- All is as it was between two sessions, except for the live keys that lost their last reference,
the buffers that held their secrets, and what the target stands for. -/
structure Framed (s : Session) (target? : Option (Kind × String)) (t : Session) : Prop where
  vault : s.vault.KeepsBut (s.losing t) t.vault
  names : s.KeepsNames target? t

/-- **What a step leaves alone.** A command that neither destroys a key nor writes into what a
caller holds leaves every key, buffer and stored password as it is, whether it succeeds or fails,
but for a key whose name it gives to another one or takes away. A command that fails leaves all of
them as they are, and so does the opening of a block. No field of a stored password can be set. -/
theorem frame {environment : Environment} {j : Journal} {s : Session}
    (hreached : (ofEnvironment environment).Path j s) :
    (∀ command report t, run (.command command) s = (report, t) →
      (command.disturbs = false → s.Framed command.target? t) ∧
      (∀ key ∈ s.losing t, ∃ name,
        command.target? = some (.key, name) ∧ s.keys.lookup name = some key) ∧
      (∀ failure, report.outcome = .error failure →
        s.Framed none t ∧ s.losing t = [] ∧ t.entered = s.entered)) ∧
    (∀ key, s.Framed none (s.enter key) ∧ s.losing (s.enter key) = []) ∧
    ∀ name x, find s.passwords name = .ok x →
      run (.command (.setField name)) s = (⟨.error .immutable, [], [], none⟩, s.quiet) := by
  have hs := (hreached.passes (sound_ofEnvironment environment)).sound
    (sound_ofEnvironment environment)
  refine ⟨fun command report t hrun => ?_, fun key => ?_, fun name x hx => ?_⟩
  · rcases hperform : s.quiet.perform command with ⟨outcome, u⟩
    obtain ⟨rfl, rfl⟩ := Prod.mk.inj ((run_command hperform).symm.trans hrun)
    refine ⟨fun hcalm => ?_, fun key hkey => ?_, fun failure houtcome => ?_⟩
    · have hkeeps := (@outgrows_perform s.quiet command hcalm).keepsBut
      have hnames := keepsNames_perform s.quiet command
      rw [hperform] at hkeeps hnames
      exact ⟨⟨hkeeps.keys, hkeeps.cells, hkeeps.lists⟩, hnames.keys, hnames.passwords,
        hnames.holdings⟩
    · have hquiet : key ∈ s.quiet.losing (s.quiet.perform command).2 := hperform ▸ hkey
      exact @exists_name_of_mem_losing s.quiet key command hs.distinct hquiet
    · obtain rfl : outcome = .error failure := houtcome
      have hsame := eq_of_perform_error hperform
      have hgrows := grows_of_perform_error hperform
      rw [hsame]
      refine ⟨⟨?_, keepsNames_of_eq rfl rfl rfl⟩, losing_eq_nil fun _ hheld => hheld, rfl⟩
      exact ⟨hgrows.keepsBut.keys, hgrows.keepsBut.cells, hgrows.lists⟩
  · have hnone : s.losing (s.enter key) = [] := losing_eq_nil fun other hother =>
      refersTo_of_refersTo hother (fun hkept => refersTo_of_mem hkept) (List.mem_cons_of_mem _)
    exact ⟨⟨Vault.keepsBut_self s.vault, keepsNames_of_eq rfl rfl rfl⟩, hnone⟩
  · have hrefused : (do
        let _ ← Action.lift (find s.quiet.passwords name)
        Action.fail .immutable : Action Reply) s.quiet.vault =
          (.error .immutable, s.quiet.vault) :=
      Action.bind_of_ok (lift_find _ hx)
    have hperform : s.quiet.perform (.setField name) = (.error .immutable, s.quiet) := by
      rw [perform, answer, act, hrefused]
    exact run_command hperform

/-- The key that was made is live, and its buffer holds what it held, after a suite that can do
nothing was asked to encrypt under it. -/
theorem frame_makeKey :
    ∃ report t, run (.command (.lockWith .declared "p" (.named "k") (.ofBytes (.zeros 16))
        (.ofBytes [104, 105]))) (runAll makeKey (ofEnvironment [])).2 = (report, t) ∧
      report.outcome = .error (.reported .notImplemented "") ∧
      t.vault.keys[0]? = some ⟨[1], .zeros 16, .buffer 0, false⟩ ∧
      t.vault.cells[0]? = some (List.replicate 32 7) := by
  obtain ⟨j, hmade, -, -⟩ := path_runAll makeKey (ofEnvironment [])
  rcases hrun : run (.command (.lockWith .declared "p" (.named "k") (.ofBytes (.zeros 16))
    (.ofBytes [104, 105]))) (runAll makeKey (ofEnvironment [])).2 with ⟨report, t⟩
  have houtcome : report.outcome = .error (.reported .notImplemented "") :=
    (congrArg (fun run => run.1.outcome) hrun).symm
  obtain ⟨hframed, hnone, -⟩ := ((frame hmade).1 _ _ _ hrun).2.2 _ houtcome
  refine ⟨report, t, rfl, houtcome, hframed.vault.keys ?_ (by rfl),
    hframed.vault.cells (fun key hkey => ?_) (by rfl)⟩
  · rw [hnone]
    exact List.not_mem_nil
  · rw [hnone] at hkey
    cases hkey

end Session

end PasswordVault
