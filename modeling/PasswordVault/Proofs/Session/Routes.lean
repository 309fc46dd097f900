import Mathlib.Logic.Relation
import PasswordVault.Proofs.Session.Frame

/-!
# Routes

A route is a way through the states of a session on which some commands only are used, in blocks
and outside. One move adds to the vault and destroys one key at most, unless a caller writes into
what it holds. What every such move keeps is kept on every route.

## Main definitions

- `Command.isWrite`, `Command.isShare` — writing into what a name holds, and handing it to a key
- `Session.Onward`, `Session.Route` — one move by allowed commands, and any number of them
- `Vault.Turns` — what one move does to a vault
- `Vault.origins` — what the keys were made of
- `Material.Voided` — a secret in the buffer of a key that has been destroyed
- `Vault.Unshared` — no two keys have one buffer

`Session.Onward.turns` says what a move does, `Session.route_runAll` that running steps takes a
route, and the lemmas on `Session.Route` what every route keeps.
-/

namespace PasswordVault

mutual

/-- The commands of a step, those in a block too. -/
def Step.commands (step : Step) : List Command :=
  match step with
  | .command command => [command]
  | .within _ body _ => commandsAll body

def commandsAll (steps : List Step) : List Command :=
  match steps with
  | [] => []
  | step :: rest => step.commands ++ commandsAll rest

end

namespace Command

/-- A command by which a caller writes into what it holds. -/
def isWrite : Command → Bool
  | .poke _ _ _ => true
  | .wipeHeld _ => true
  | _ => false

/-- A command that makes a key around what a name holds. -/
def isShare : Command → Bool
  | .create _ _ _ (.held _) => true
  | _ => false

end Command

/-- A key has been destroyed that had its secret in the same buffer. -/
def Material.Voided (v : Vault) (material : Material) : Prop :=
  ∃ (key : KeyRef) (record : KeyRecord) (cell : Cell), v.keys[key]? = some record ∧
    record.destroyed = true ∧ record.material = .buffer cell ∧ material = .buffer cell

namespace Vault

variable {given : List Material} {v w u : Vault} {key : KeyRef} {record : KeyRecord}

/-- What the keys were made of, whether or not they have been destroyed. -/
def origins (v : Vault) : List KeyRecord :=
  v.keys.map fun record => { record with destroyed := false }

theorem exists_of_origins (h : u.origins = w.origins) (hrecord : u.keys[key]? = some record) :
    ∃ destroyed, w.keys[key]? = some { record with destroyed } := by
  have hsame : w.origins[key]? = some { record with destroyed := false } := by
    rw [← h, origins, List.getElem?_map, hrecord]
    rfl
  rw [origins, List.getElem?_map] at hsame
  cases hfound : w.keys[key]? with
  | none =>
    rw [hfound] at hsame
    cases hsame
  | some found =>
    rw [hfound] at hsame
    obtain ⟨keyId, salt, material, destroyed⟩ := found
    cases hsame
    exact ⟨destroyed, rfl⟩

theorem origins_destroy (key : KeyRef) (v : Vault) :
    (SecretKey.destroy key v).2.origins = v.origins := by
  rcases SecretKey.destroy_cases key v with ⟨failure, hrefused, -⟩ | ⟨record, cell, -, -, hdone⟩
  · rw [hrefused]
  · rw [hdone, origins, origins]
    refine List.ext_getElem? fun other => ?_
    rw [List.getElem?_map, List.getElem?_map, List.getElem?_modify]
    by_cases hkey : key = other <;> cases v.keys[other]? <;> simp [hkey]

/-- What one move does to a vault: it adds to it, and may then destroy one key that was there. -/
inductive Turns (v : Vault) (given : List Material) (u : Vault) : Prop
  | grown (h : v.Grows given u)
  | ended {key : KeyRef} {w : Vault} (h : v.Grows given w)
    (hkeys : u.keys = (SecretKey.destroy key w).2.keys)
    (hcells : u.cells = (SecretKey.destroy key w).2.cells)
    (hlists : u.lists = (SecretKey.destroy key w).2.lists)

theorem turns_self (v : Vault) : v.Turns given v :=
  .grown (grows_self v)

theorem turns_destroy (key : KeyRef) (v : Vault) : v.Turns given (SecretKey.destroy key v).2 :=
  .ended (grows_self v) rfl rfl rfl

theorem Grows.turns (h : v.Grows given w) (hn : w.Turns given u) : v.Turns given u := by
  cases hn with
  | grown hn => exact .grown (h.trans hn)
  | ended hn hkeys hcells hlists => exact .ended (h.trans hn) hkeys hcells hlists

/-- No key is made of anything else than before. -/
theorem Turns.origins (h : v.Turns given u) : ∃ w, v.Grows given w ∧ u.origins = w.origins := by
  cases h with
  | grown h => exact ⟨u, h, rfl⟩
  | @ended key w h hkeys =>
    refine ⟨w, h, ?_⟩
    rw [← origins_destroy key w, Vault.origins, Vault.origins, hkeys]

/-- A key that was not made from a buffer stays as it is. -/
theorem Turns.stays (h : v.Turns given u) (hrecord : v.keys[key]? = some record)
    (hmaterial : record.material.isBuffer = false) : u.keys[key]? = some record := by
  cases h with
  | grown h => exact Vault.getElem?_of_prefix h.keys hrecord
  | @ended other w h hkeys =>
    have hw := Vault.getElem?_of_prefix h.keys hrecord
    rw [hkeys]
    rcases SecretKey.destroy_cases other w with
      ⟨failure, hrefused, -⟩ | ⟨found, cell, hfound, hbuffer, -⟩
    · rw [hrefused]
      exact hw
    · refine (SecretKey.keepsBut_destroy other w).keys (fun hin => ?_) hw
      obtain rfl := List.mem_singleton.mp hin
      obtain rfl := Option.some.inj (hw.symm.trans hfound)
      rw [hbuffer] at hmaterial
      cases hmaterial

/-- A secret stays what it is until a key with its buffer is destroyed. -/
theorem Turns.shows {material : Material} {value : Argument} (h : v.Turns given u)
    (hshows : material.Shows v value) : material.Shows u value ∨ material.Voided u := by
  have hsame : ∀ {x : Vault}, u.cells = x.cells → u.lists = x.lists → material.Shows x value →
      material.Shows u value :=
    fun hc hl hx => hx.mono (hc ▸ List.prefix_refl _) (hl ▸ List.prefix_refl _)
  cases h with
  | grown h => exact Or.inl (hshows.mono h.cells h.lists)
  | @ended key w h hkeys hcells hlists =>
    have hw : material.Shows w value := hshows.mono h.cells h.lists
    rcases SecretKey.destroy_cases key w with
      ⟨failure, hrefused, -⟩ | ⟨record, cell, hrecord, hmaterial, hdone⟩
    · rw [hrefused] at hcells hlists
      exact Or.inl (hsame hcells hlists hw)
    by_cases hshared : material = .buffer cell
    · refine Or.inr ⟨key, { record with destroyed := true }, cell, ?_, rfl, hmaterial, hshared⟩
      rw [hkeys, hdone]
      show (w.keys.modify key _)[key]? = _
      rw [List.getElem?_modify_eq, hrecord]
      rfl
    · refine Or.inl (hsame hcells hlists ((SecretKey.keepsBut_destroy key w).shows ?_ hw))
      intro other hin found place hfound hplace hother
      obtain rfl := List.mem_singleton.mp hin
      obtain rfl := Option.some.inj (hrecord.symm.trans hfound)
      exact hshared (hother.trans (hplace.symm.trans hmaterial))

/-- No two keys have one buffer. -/
def Unshared (v : Vault) : Prop :=
  ∀ {key other : KeyRef} {record found : KeyRecord} {cell : Cell}, key ≠ other →
    v.keys[key]? = some record → v.keys[other]? = some found → record.material = .buffer cell →
    found.material ≠ .buffer cell

/-- Of two keys with one buffer the later one would have been given that of the other. -/
theorem Unshared.of_origins (h : v.Unshared) (hsized : v.Sized) (hg : v.Grows [] w)
    (ho : u.origins = w.origins) : u.Unshared := by
  have hless : ∀ {key later : KeyRef} {record found : KeyRecord} {cell : Cell}, key < later →
      w.keys[key]? = some record → w.keys[later]? = some found → record.material = .buffer cell →
      found.material ≠ .buffer cell := by
    intro key later record found cell hless hrecord hfound hmaterial hshared
    have hold : ∀ {other : KeyRef} {r : KeyRecord}, other < v.keys.length →
        w.keys[other]? = some r → v.keys[other]? = some r :=
      fun hlow hr => (getElem?_eq_of_lt hg.keys hlow).symm.trans hr
    by_cases hlate : later < v.keys.length
    · exact h (Nat.ne_of_lt hless) (hold (hless.trans hlate) hrecord) (hold hlate hfound) hmaterial
        hshared
    by_cases hlow : key < v.keys.length
    · -- The first key was there, and so was its buffer.
      obtain ⟨content, hcontent, -⟩ := hsized (hold hlow hrecord) hmaterial
      have hplace := (List.getElem?_eq_some_iff.mp hcontent).1
      have hnew := (hg.made (Nat.le_of_not_lt hlate) hfound).2.resolve_left List.not_mem_nil
      exact absurd hplace (Nat.not_lt.mpr (hnew cell hshared))
    · cases hg.apart (Nat.le_of_not_lt hlow) hless hrecord hfound hmaterial hshared
  intro key other record found cell hne hrecord hfound hmaterial hshared
  obtain ⟨destroyed, hrecord'⟩ := exists_of_origins ho hrecord
  obtain ⟨destroyed', hfound'⟩ := exists_of_origins ho hfound
  rcases Nat.lt_or_gt_of_ne hne with hlow | hhigh
  · exact hless hlow hrecord' hfound' hmaterial hshared
  · exact hless hhigh hfound' hrecord' hshared hmaterial

end Vault

/-! ### Moves -/

namespace Session

variable {allowed : Command → Prop} {s t u : Session} {key : KeyRef} {record : KeyRecord}

/-- One move of a session, by an allowed command or by a block that is opened or closed. -/
inductive Onward (allowed : Command → Prop) (s : Session) : Session → Prop
  | performed {outcome : Except Failure Reply} {t : Session} (command : Command)
    (hallowed : allowed command) (h : s.quiet.perform command = (outcome, t)) : Onward allowed s t
  | missed : Onward allowed s s.quiet
  | entered {name : String} {key : KeyRef} (h : find s.keys name = .ok key) :
    Onward allowed s (s.enter key)
  | left {key : KeyRef} {rest : List KeyRef} {failing? : Option String}
    {outcome : Except Failure Reply} {t : Session} (hopen : s.entered = key :: rest)
    (h : s.quiet.leave key failing? = (outcome, t)) : Onward allowed s t

/-- Any number of moves by allowed commands. -/
def Route (allowed : Command → Prop) : Session → Session → Prop :=
  Relation.ReflTransGen (Onward allowed)

theorem Onward.exists_move (h : s.Onward allowed t) : ∃ j, s.Move j t := by
  cases h with
  | performed command _ h => exact ⟨_, .performed command h⟩
  | missed => exact ⟨_, .missed⟩
  | entered h => exact ⟨_, .entered h⟩
  | left hopen h => exact ⟨_, .left hopen rfl h⟩

theorem Route.exists_path (h : s.Route allowed t) : ∃ j, s.Path j t := by
  induction h with
  | refl => exact ⟨_, .nothing⟩
  | tail _ hmove ih =>
    obtain ⟨j, hpath⟩ := ih
    obtain ⟨k, hmove⟩ := hmove.exists_move
    exact ⟨_, .more hpath hmove⟩

theorem Route.sound (h : s.Route allowed t) (hs : s.Sound) : t.Sound := by
  obtain ⟨j, hpath⟩ := h.exists_path
  exact (hpath.passes hs).sound hs

/-- Every path is a route on which all commands are allowed. -/
theorem Path.route {j : Journal} (h : s.Path j t) : s.Route (fun _ => True) t := by
  induction h with
  | nothing => exact .refl
  | more _ hmove ih =>
    refine ih.tail ?_
    cases hmove with
    | performed command h => exact .performed command trivial h
    | missed => exact .missed
    | entered h => exact .entered h
    | left hopen _ h => exact .left hopen h

mutual

/-- Running a step takes a route by its commands. -/
theorem route_run (step : Step) (s : Session) (h : ∀ command ∈ step.commands, allowed command) :
    s.Route allowed (run step s).2 := by
  match step with
  | .command command =>
    rw [run]
    rcases hrun : s.quiet.perform command with ⟨outcome, t⟩
    rw [Step.commands] at h
    exact .single (.performed command (h command (List.mem_singleton.mpr rfl)) hrun)
  | .within name body failing? =>
    rw [run]
    cases hname : find s.keys name with
    | error failure => exact .single .missed
    | ok key =>
      rw [Step.commands] at h
      have hroute := route_runAll body (s.enter key) h
      obtain ⟨-, -, -, hentered⟩ := path_runAll body (s.enter key)
      dsimp only
      rcases hbody : runAll body (s.enter key) with ⟨reports, ended⟩
      rw [hbody] at hroute hentered
      dsimp only
      rcases hleave : ended.quiet.leave key failing? with ⟨outcome, t⟩
      exact (Relation.ReflTransGen.head (.entered hname) hroute).tail (.left hentered hleave)

theorem route_runAll (steps : List Step) (s : Session)
    (h : ∀ command ∈ commandsAll steps, allowed command) :
    s.Route allowed (runAll steps s).2 := by
  match steps with
  | [] => exact .refl
  | step :: rest =>
    rw [commandsAll] at h
    rw [runAll]
    exact (route_run step s fun command hin => h command (List.mem_append_left _ hin)).trans
      (route_runAll rest (run step s).2 fun command hin => h command (List.mem_append_right _ hin))

end

/-! ### What a move does -/

theorem not_isLive_destroy (key : KeyRef) (v : Vault) :
    (SecretKey.destroy key v).2.isLive key = false := by
  rcases SecretKey.destroy_cases key v with
    ⟨failure, hrefused, hother⟩ | ⟨record, cell, hrecord, hmaterial, hdone⟩
  · rw [hrefused]
    cases hrecord : v.keys[key]? with
    | none => rw [Vault.isLive, hrecord]
    | some record => rw [Vault.isLive_eq hrecord, hother record hrecord, Bool.and_false]
  · have hmarked : (SecretKey.destroy key v).2.keys[key]? =
        some { record with destroyed := true } := by
      rw [hdone]
      show (v.keys.modify key _)[key]? = _
      rw [List.getElem?_modify_eq, hrecord]
      rfl
    rw [Vault.isLive_eq hmarked]
    rfl

/-- A block that ends destroys its key, and does nothing else to the vault. -/
theorem vault_leave (s : Session) (key : KeyRef) (failing? : Option String) :
    (s.leave key failing?).2.vault = (SecretKey.destroy key s.vault).2 := by
  rw [leave_snd, releaseKey_of_not_isLive]
  · rfl
  · exact not_isLive_destroy key s.vault

/-- A command by which a caller writes into what it holds leaves the keys as they are. -/
theorem keys_of_isWrite {command : Command} (h : command.isWrite = true) :
    (s.perform command).2.vault.keys = s.vault.keys := by
  have hanswer : ∀ {name : String} {next : Material → Action Reply},
      (∀ held v, (next held v).2.keys = v.keys) →
      (s.answer (Action.lift (find s.holdings name) >>= next)).2.vault.keys = s.vault.keys := by
    intro name next hnext
    cases hfound : find s.holdings name with
    | error failure => rfl
    | ok held => exact hnext held s.vault
  have hshown : ∀ {first : Action Unit} {held : Material},
      (∀ v, (first v).2.keys = v.keys) →
      ∀ v, ((do first; return Reply.value (← SecretKey.present held) : Action Reply) v).2.keys =
        v.keys := by
    intro first held hfirst v
    have hkeys := hfirst v
    rcases hdone : first v with ⟨failure | _, w⟩ <;> rw [hdone] at hkeys
    · rw [Action.bind_of_error hdone]
      exact hkeys
    · obtain ⟨value, hvalue⟩ := SecretKey.exists_present held w
      rw [Action.bind_of_ok hdone, Action.bind_of_ok hvalue]
      exact hkeys
  cases command with
  | poke name place value =>
    refine hanswer fun held v => hshown (fun v => ?_) v
    rcases setIn_cases held place value v with
      ⟨failure, hset⟩ | ⟨lists, hset⟩ | ⟨cell, content, -, -, hset⟩ <;> rw [hset]
  | wipeHeld name =>
    refine hanswer fun held v => hshown (fun v => ?_) v
    cases held <;> rfl
  | _ => cases h

theorem Outgrows.turns {given : List Material} (h : s.Outgrows given t) :
    s.vault.Turns given t.vault := by
  cases h with
  | kept h => exact .grown h
  | @lost old w h _ hvault =>
    rw [hvault]
    rcases SecretKey.abandon_snd old w with hsame | ⟨warnings, hdestroyed⟩
    · rw [hsame]
      exact .grown h
    · rw [hdestroyed]
      exact .ended h rfl rfl rfl

theorem vault_perform_destroy {name : String} (hname : find s.keys name = .ok key) :
    (s.perform (.destroy name)).2.vault = (SecretKey.destroy key s.vault).2 := by
  rw [perform, answer, act, Action.bind_of_ok (lift_find s.vault hname)]
  rcases hdestroyed : SecretKey.destroy key s.vault with ⟨failure | _, w⟩
  · rw [Action.bind_of_error hdestroyed]
  · rw [Action.bind_of_ok hdestroyed]
    rfl

/-- **What a command does to the vault**, unless a caller writes into what it holds. -/
theorem turns_perform {command : Command} (h : command.isWrite = false) :
    s.vault.Turns (s.handed command) (s.perform command).2.vault := by
  cases hdisturbs : command.disturbs with
  | false => exact (outgrows_perform command hdisturbs).turns
  | true =>
    -- What is left is the command that destroys a key.
    cases command with
    | destroy name =>
      cases hname : find s.keys name with
      | error failure =>
        rw [perform, answer, act, hname]
        exact Vault.turns_self s.vault
      | ok key =>
        rw [vault_perform_destroy hname]
        exact Vault.turns_destroy key s.vault
    | poke => cases h
    | wipeHeld => cases h
    | _ => cases hdisturbs

theorem handed_eq_nil {command : Command} (h : command.isShare = false) :
    s.handed command = [] := by
  cases command with
  | create target keyId salt source =>
    cases source with
    | value argument => rfl
    | held name => cases h
  | _ => rfl

/-- **What a move does to the vault.** It adds to it and may destroy one key, and a new key is given
nothing that a caller holds if no allowed command does so. Or else a caller writes into what it
holds, which leaves the keys as they are. -/
theorem Onward.turns (h : s.Onward allowed t) :
    ∃ given, ((∀ command, allowed command → command.isShare = false) → given = []) ∧
      (s.vault.Turns given t.vault ∨
        t.vault.keys = s.vault.keys ∧ ∃ command, allowed command ∧ command.isWrite = true) := by
  have hquiet : ∀ given, s.vault.Grows given s.quiet.vault := fun given =>
    Vault.grows_of_keys rfl (List.prefix_refl _) (List.prefix_refl _)
  cases h with
  | missed => exact ⟨[], fun _ => rfl, Or.inl (.grown (hquiet []))⟩
  | entered => exact ⟨[], fun _ => rfl, Or.inl (Vault.turns_self _)⟩
  | @left key _ failing? _ _ hopen h =>
    have hvault := vault_leave s.quiet key failing?
    rw [h] at hvault
    rw [show t.vault = _ from hvault]
    exact ⟨[], fun _ => rfl, Or.inl ((hquiet []).turns (Vault.turns_destroy key _))⟩
  | performed command hallowed h =>
    cases hwrite : command.isWrite with
    | true =>
      have hkeys := @keys_of_isWrite s.quiet command hwrite
      rw [h] at hkeys
      exact ⟨[], fun _ => rfl, Or.inr ⟨hkeys, command, hallowed, hwrite⟩⟩
    | false =>
      have hturns := @turns_perform s.quiet command hwrite
      rw [h] at hturns
      exact ⟨_, fun hnone => handed_eq_nil (hnone command hallowed),
        Or.inl ((hquiet _).turns hturns)⟩

/-! ### What every route keeps -/

theorem Onward.origins (h : s.Onward allowed t) :
    ∃ given w, ((∀ command, allowed command → command.isShare = false) → given = []) ∧
      s.vault.Grows given w ∧ t.vault.origins = w.origins := by
  obtain ⟨given, hgiven, hturns | ⟨hkeys, -⟩⟩ := h.turns
  · obtain ⟨w, hgrows, horigins⟩ := hturns.origins
    exact ⟨given, w, hgiven, hgrows, horigins⟩
  · exact ⟨given, s.vault, hgiven, Vault.grows_self s.vault, congrArg (List.map _) hkeys⟩

/-- No two keys have one buffer on a route on which no key is made around what a name holds. -/
theorem Route.unshared (h : s.Route allowed t) (hnone : ∀ command, allowed command →
    command.isShare = false) (hs : s.Sound) (hunshared : s.vault.Unshared) : t.vault.Unshared := by
  induction h with
  | refl => exact hunshared
  | @tail t u hroute hmove ih =>
    obtain ⟨given, w, hgiven, hgrows, horigins⟩ := hmove.origins
    obtain rfl := hgiven hnone
    exact ih.of_origins (Route.sound hroute hs).sized hgrows horigins

/-- A key that was not made from a buffer stays as it is on every route. -/
theorem Route.stays (h : s.Route allowed t) (hrecord : s.vault.keys[key]? = some record)
    (hmaterial : record.material.isBuffer = false) : t.vault.keys[key]? = some record := by
  induction h with
  | refl => exact hrecord
  | tail _ hmove ih =>
    obtain ⟨given, -, hturns | ⟨hkeys, -⟩⟩ := hmove.turns
    · exact hturns.stays ih hmaterial
    · rw [hkeys]
      exact ih

/-- A secret stays what it is on a route on which no caller writes into what it holds, until a key
with its buffer is destroyed. -/
theorem Route.shows {material : Material} {value : Argument} (h : s.Route allowed t)
    (hnone : ∀ command, allowed command → command.isWrite = false) (hs : s.Sound)
    (hshows : material.Shows s.vault value) :
    material.Shows t.vault value ∨ material.Voided t.vault := by
  induction h with
  | refl => exact Or.inl hshows
  | @tail t u hroute hmove ih =>
    rcases ih with hkept | ⟨key, record, cell, hrecord, hdestroyed, hmaterial, hshared⟩
    · obtain ⟨given, -, hturns | ⟨-, command, hallowed, hwrite⟩⟩ := hmove.turns
      · exact hturns.shows hkept
      · cases (hnone command hallowed).symm.trans hwrite
    · -- A key that was destroyed stays so.
      obtain ⟨j, hj⟩ := hmove.exists_move
      obtain ⟨destroyed, hlater, hstays⟩ :=
        (hj.passes (Route.sound hroute hs)).ages.keys hrecord
      exact Or.inr ⟨key, _, cell, hlater, hstays hdestroyed, hmaterial, hshared⟩

end Session

end PasswordVault
