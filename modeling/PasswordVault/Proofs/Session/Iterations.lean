import PasswordVault.Proofs.SecretKey.Growth
import PasswordVault.Proofs.Session.Paths
import PasswordVault.Proofs.StoredPassword.Resolving

/-!
# Iterations over whole runs

The settings stay as they are from one reading of an environment to the next, and so does the number
of iterations for which keys are derived when none is given. Over such a stretch of a session one
replacement of a standard number is reported at most, by the first command that resolves one which
differs. If that number is too long to be shown, none is reported at all.

## Main definitions

- `Session.standard?`, `Command.iterations` — the standard that a command resolves, and the
  iterations that it is given
- `Performance` — a command of a session, where it was performed
- `Session.performed`, `Session.performedAll` — the commands that steps perform, in order
- `Chain` — performances of which each starts from the settings that the one before left
- `Session.Loaded` — the performances up to the reading of an environment
- `Session.Stretch` — what the performances do from there to the next reading

`Session.resolves_perform` says what one command leaves, `Session.traces_runAll` that running
steps goes from command to command, and `Session.iterations_over_run` what follows for a stretch.
`Session.unshown_standard_unreported` has the standard that cannot be shown.
-/

namespace PasswordVault

/-- The iterations that a command is given. -/
def Command.iterations : Command → Argument
  | .generate _ _ _ _ _ iterations => iterations
  | _ => .absent

/-- Whether a command reads the settings afresh. -/
def Command.isConfigure : Command → Bool
  | .configure _ => true
  | _ => false

namespace Session

variable {s : Session} {resolved? : Option Argument} {iterations : Argument}

/-- The standard that a command resolves. -/
def standard? (s : Session) : Command → Option Argument
  | .generate _ _ keyId _ salt iterations => SecretKey.standard? keyId salt iterations
  | .lock suite _ keyId _ clearText salt vector =>
    StoredPassword.lockingStandard? suite s.vault.calls keyId clearText salt vector
  | .unlock _ password (.value passphrase) =>
    (find s.passwords password).toOption.bind (·.unlockingStandard? (.value passphrase))
  | .resolve standard => some standard
  | _ => none

/-- A command resolves the standard that it is handed, or the one of all keys. -/
theorem standard?_cases {command : Command} {standard : Argument}
    (h : s.standard? command = some standard) :
    command = .resolve standard ∨ standard = .integer SecretKey.standardIterations := by
  cases command with
  | generate => exact Or.inr (SecretKey.eq_of_standard? h)
  | lock => exact Or.inr (StoredPassword.eq_of_lockingStandard? h)
  | unlock suite password key =>
    cases key with
    | named => cases h
    | value passphrase =>
      obtain ⟨stored, -, hstored⟩ := Option.bind_eq_some_iff.mp h
      exact Or.inr (StoredPassword.eq_of_unlockingStandard? hstored)
  | resolve => exact Or.inl (congrArg Command.resolve (Option.some.inj h))
  | _ => cases h

/-! ### One command -/

theorem resolves_releaseKey (s : Session) (key : KeyRef) :
    Vault.Resolves none iterations s.vault (s.releaseKey key).vault := by
  rw [releaseKey]
  split
  · exact Std.Refl.refl s.vault
  · exact SecretKey.unresolving_abandon key s.vault

theorem resolves_storeKey (s : Session) (name : String) (key : KeyRef) :
    Vault.Resolves none iterations s.vault (s.storeKey name key).vault := by
  rw [storeKey]
  split
  · exact resolves_releaseKey { s with keys := s.keys.set name key } _
  · exact Std.Refl.refl s.vault

theorem resolves_answerKey {target : String} {action : Action KeyRef}
    (h : Vault.Resolves resolved? iterations s.vault (action s.vault).2) :
    Vault.Resolves resolved? iterations s.vault (s.answerKey target action).2.vault := by
  rw [answerKey, act]
  rcases hrun : action s.vault with ⟨failure | key, w⟩ <;> rw [hrun] at h
  · rw [Action.bind_of_error hrun]
    exact h
  have hview := view_snd key w
  rcases hviewed : view key w with ⟨failure | shown, u⟩ <;> rw [hviewed] at hview <;>
    obtain rfl : u = w := hview
  · rw [Action.bind_of_ok hrun, Action.bind_of_error hviewed]
    exact h
  · rw [Action.bind_of_ok hrun, Action.bind_of_ok hviewed]
    exact h.before (resolves_storeKey { s with vault := u } target key)

theorem vault_answerPassword (s : Session) (target : String) (action : Action StoredPassword) :
    (s.answerPassword target action).2.vault = (action s.vault).2 := by
  rw [answerPassword, act]
  rcases action s.vault with ⟨_ | _, w⟩ <;> rfl

theorem unresolving_answer {action : Action Reply} (h : action.Unresolving iterations) :
    Vault.Resolves none iterations s.vault (s.answer action).2.vault :=
  h s.vault

theorem unresolving_answerPassword {target : String} {action : Action StoredPassword}
    (h : action.Unresolving iterations) :
    Vault.Resolves none iterations s.vault (s.answerPassword target action).2.vault := by
  rw [vault_answerPassword]
  exact h s.vault

theorem unresolving_answerHolding {target : String} {action : Action Material}
    (h : action.Unresolving iterations) :
    Vault.Resolves none iterations s.vault (s.answerHolding target action).2.vault := by
  have hshown := (h.bind fun held => (SecretKey.unresolving_present held).bind fun value =>
    Action.keeps_pure (held, value)) s.vault
  rw [answerHolding, act]
  rcases hrun : (do let held ← action; return (held, ← SecretKey.present held) :
    Action (Material × Argument)) s.vault with ⟨failure | shown, w⟩ <;> rw [hrun] at hshown
  · exact hshown
  · exact hshown

theorem unresolving_credential (choice : KeyChoice) :
    (s.credential choice).Unresolving iterations := by
  cases choice with
  | named name => exact (Action.keeps_lift _).bind fun _ => Action.keeps_pure _
  | value argument => exact Action.keeps_pure _

theorem unresolving_material (source : KeySource) : (s.material source).Unresolving iterations := by
  cases source with
  | value argument => exact SecretKey.unresolving_materialOf argument
  | held name => exact Action.keeps_lift _

theorem unresolving_setIn (held : Material) (place value : Argument) :
    (setIn held place value).Unresolving iterations := by
  refine Action.unresolving_of_eq fun v => ?_
  rcases setIn_cases held place value v with
    ⟨failure, hset⟩ | ⟨lists, hset⟩ | ⟨cell, content, -, -, hset⟩ <;> rw [hset]
  · exact ⟨v.cells, v.lists, v.keys, rfl⟩
  · exact ⟨v.cells, lists, v.keys, rfl⟩
  · exact ⟨_, v.lists, v.keys, rfl⟩

/-- Unlocking resolves the standard if the stored password is found and a key is derived for it. -/
theorem resolves_perform_unlock (s : Session) (suite : Suite) (password : String)
    (key : KeyChoice) :
    Vault.Resolves (s.standard? (.unlock suite password key))
      (SecretKey.usedIterations s.vault.settings .absent) s.vault
      (s.perform (.unlock suite password key)).2.vault := by
  have hunlocked : ∀ credential, Vault.Resolves
      ((find s.passwords password).toOption.bind (·.unlockingStandard? credential))
      (SecretKey.usedIterations s.vault.settings .absent) s.vault
      ((do
        let password ← Action.lift (find s.passwords password)
        return .value (.ofBytes (← password.unlock suite credential)) : Action Reply)
        s.vault).2 := by
    intro credential
    cases find s.passwords password with
    | error failure => exact Vault.resolves_of_eq rfl rfl rfl rfl
    | ok stored =>
      have hstored := StoredPassword.resolves_unlock suite stored credential s.vault
      rw [Action.bind_of_ok (Action.lift_apply _ s.vault)]
      rcases hrun : stored.unlock suite credential s.vault with ⟨failure | clear, w⟩ <;>
        rw [hrun] at hstored
      · rw [Action.bind_of_error hrun]
        exact hstored
      · rw [Action.bind_of_ok hrun]
        exact hstored
  cases key with
  | value argument => exact hunlocked (.value argument)
  | named name =>
    rw [perform, answer, act]
    cases hname : find s.keys name with
    | error failure =>
      have hfailed : s.credential (.named name) s.vault = (.error failure, s.vault) := by
        rw [credential, hname]
        rfl
      rw [Action.bind_of_error hfailed]
      exact Vault.resolves_of_eq rfl rfl rfl rfl
    | ok ref =>
      have hnamed : s.credential (.named name) s.vault = (.ok (.key ref), s.vault) := by
        rw [credential, hname]
        rfl
      have hnone : (find s.passwords password).toOption.bind
          (·.unlockingStandard? (.key ref)) = none := by
        cases find s.passwords password <;> rfl
      have hkey := hunlocked (.key ref)
      rw [hnone] at hkey
      rw [Action.bind_of_ok hnamed]
      exact hkey

theorem perform_resolve (s : Session) (standard : Argument) :
    s.perform (.resolve standard) =
      ((Action.resolveIterations standard s.vault).1.map .value,
        { s with vault := (Action.resolveIterations standard s.vault).2 }) := by
  rw [perform, answer, act, Action.bind_pure (Prod.eta _).symm]

/-- **What one command leaves**: it resolves the standard that it comes to, and derives keys with
the iterations that it is given or else with those that the settings give. -/
theorem resolves_perform (s : Session) {command : Command} (h : command.isConfigure = false) :
    Vault.Resolves (s.standard? command)
      (SecretKey.usedIterations s.vault.settings command.iterations) s.vault
      (s.perform command).2.vault := by
  cases command with
  | generate suite target keyId passphrase salt iterations =>
    exact resolves_answerKey (SecretKey.resolves_generate suite keyId passphrase salt iterations _)
  | create target keyId salt source =>
    exact resolves_answerKey (((unresolving_material source).bind fun material =>
      SecretKey.unresolving_create keyId salt material) s.vault)
  | inspect key =>
    exact unresolving_answer ((Action.keeps_lift _).bind fun ref =>
      (Action.keeps_of_silent (view_snd ref)).bind fun _ => Action.keeps_pure _)
  | reveal key =>
    exact unresolving_answer ((Action.keeps_lift _).bind fun ref =>
      (SecretKey.unresolving_secret ref).bind fun _ => Action.keeps_pure _)
  | destroy key =>
    exact unresolving_answer ((Action.keeps_lift _).bind fun ref =>
      (SecretKey.unresolving_destroy ref).bind fun _ => Action.keeps_pure _)
  | describeKey key =>
    exact unresolving_answer ((Action.keeps_lift _).bind fun ref =>
      (SecretKey.unresolving_record ref).bind fun _ => Action.keeps_pure _)
  | drop name =>
    rw [perform]
    cases find s.keys name with
    | error failure => exact Vault.resolves_of_eq rfl rfl rfl rfl
    | ok key => exact resolves_releaseKey { s with keys := s.keys.unset name } key
  | newBuffer target digits =>
    exact unresolving_answerHolding ((Action.keeps_lift _).bind fun content =>
      (Action.unresolving_allocate content).bind fun _ => Action.keeps_pure _)
  | hold key target =>
    exact unresolving_answerHolding ((Action.keeps_lift _).bind fun ref =>
      (SecretKey.unresolving_secret ref).bind fun _ =>
        (SecretKey.unresolving_record ref).bind fun _ => Action.keeps_pure _)
  | readHeld name =>
    exact unresolving_answer ((Action.keeps_lift _).bind fun held =>
      (SecretKey.unresolving_present held).bind fun _ => Action.keeps_pure _)
  | poke name place value =>
    exact unresolving_answer ((Action.keeps_lift _).bind fun held =>
      (unresolving_setIn held place value).bind fun _ =>
        (SecretKey.unresolving_present held).bind fun _ => Action.keeps_pure _)
  | wipeHeld name =>
    exact unresolving_answer ((Action.keeps_lift _).bind fun held =>
      (SecretKey.unresolving_wipeMaterial held).bind fun _ =>
        (SecretKey.unresolving_present held).bind fun _ => Action.keeps_pure _)
  | lock suite target keyId passphrase clearText salt vector =>
    rw [perform, vault_answerPassword]
    exact StoredPassword.resolves_lock suite keyId passphrase clearText salt vector s.vault
  | lockWith suite target key vector clearText =>
    exact unresolving_answerPassword ((unresolving_credential key).bind fun credential =>
      StoredPassword.unresolving_lockWith suite credential vector clearText)
  | decode target encoded => exact unresolving_answerPassword (Action.keeps_lift _)
  | assemble target representation envelope =>
    exact unresolving_answerPassword (Action.keeps_lift _)
  | alter source target alteration =>
    exact unresolving_answerPassword ((Action.keeps_lift _).bind fun _ =>
      (Action.keeps_lift _).bind fun _ => Action.keeps_lift _)
  | fields password =>
    exact unresolving_answer ((Action.keeps_lift _).bind fun _ => Action.keeps_pure _)
  | toText password marked =>
    exact unresolving_answer ((Action.keeps_lift _).bind fun stored =>
      (Action.keeps_of_silent fun _ => rfl).bind fun _ => Action.keeps_pure _)
  | describe password =>
    exact unresolving_answer ((Action.keeps_lift _).bind fun _ =>
      (Action.keeps_lift _).bind fun _ => Action.keeps_pure _)
  | unlock suite password key => exact resolves_perform_unlock s suite password key
  | compare password other =>
    exact unresolving_answer ((Action.keeps_lift _).bind fun _ =>
      (Action.keeps_lift _).bind fun _ => Action.keeps_pure _)
  | compareValue password =>
    exact unresolving_answer ((Action.keeps_lift _).bind fun _ => Action.keeps_pure _)
  | setField password =>
    exact unresolving_answer ((Action.keeps_lift _).bind fun _ => Action.keeps_fail _)
  | restore source target =>
    exact unresolving_answerPassword ((Action.keeps_lift _).bind fun _ => Action.keeps_lift _)
  | configure environment => cases h
  | resolve standard =>
    have hresolved := Action.resolves_resolveIterations standard
      (SecretKey.usedIterations s.vault.settings .absent) s.vault
    rw [perform_resolve]
    exact hresolved

end Session

/-! ### The commands of a run -/

/-- What decides about the next resolution: the settings, and whether a replacement was reported. -/
def Vault.standing (v : Vault) : Settings × Bool :=
  (v.settings, v.reported)

/-- A command of a session, and the session in which it was performed. -/
structure Performance where
  session : Session
  command : Command

namespace Performance

variable {p : Performance} {settings : Settings}

def outcome (p : Performance) : Except Failure Reply :=
  (p.session.quiet.perform p.command).1

/-- The session afterwards, with what this command alone gave and asked on record. -/
def after (p : Performance) : Session :=
  (p.session.quiet.perform p.command).2

def calls (p : Performance) : List Suite.Call :=
  p.after.vault.calls

/-- The warnings given that a standard number was replaced. -/
def replacements (p : Performance) : List Warning :=
  p.after.vault.replacements

/-- Whether the command resolves a standard that the given settings replace. -/
def replaces (p : Performance) (settings : Settings) : Bool :=
  settings.replaces (p.session.quiet.standard? p.command)

/-- The warning that the command calls for under the given settings. -/
def notice (p : Performance) (settings : Settings) : List Warning :=
  settings.notice (p.session.quiet.standard? p.command)

theorem resolves (h : p.command.isConfigure = false) :
    Vault.Resolves (p.session.quiet.standard? p.command)
      (SecretKey.usedIterations p.session.vault.settings p.command.iterations)
      p.session.quiet.vault p.after.vault :=
  Session.resolves_perform p.session.quiet h

/-- A command gives the warning that it calls for, unless a replacement was reported before. -/
theorem replacements_eq (h : p.command.isConfigure = false) :
    p.replacements =
      if p.session.vault.reported then [] else p.notice p.session.vault.settings :=
  (resolves h).replacements

theorem standing_after (h : p.command.isConfigure = false) :
    p.after.vault.standing = (p.session.vault.settings,
      p.session.vault.reported || p.replaces p.session.vault.settings) :=
  Prod.ext (resolves h).settings (resolves h).reported

theorem standing_after_configure {environment : Environment}
    (h : p.command = .configure environment) :
    p.after.vault.standing = (.ofEnvironment environment, false) := by
  rw [after, h]
  rfl

/-- Resolving a standard gives what the settings give, unless the warning that it calls for cannot
show it. -/
theorem outcome_resolve {standard : Argument} (h : p.command = .resolve standard) :
    p.outcome =
      if p.session.vault.reported || !p.replaces p.session.vault.settings then
        .ok (.value (p.session.vault.settings.iterations standard))
      else standard.shown.map fun _ => .value (p.session.vault.settings.iterations standard) := by
  rw [outcome, replaces, h, Session.perform_resolve, Action.fst_resolveIterations,
    apply_ite (Except.map Reply.value)]
  cases standard.shown <;> rfl

/-- A command derives keys with the iterations that it is given, or else with those that the
settings give. -/
theorem iterations_eq (h : p.command.isConfigure = false) {call : Suite.Call}
    (hcall : call ∈ p.calls) {n : Argument} (hn : call.iterations? = some n) :
    n = SecretKey.usedIterations p.session.vault.settings p.command.iterations := by
  obtain ⟨made, hmade, hderived⟩ := (resolves h).derived
  have hcalls : p.calls = made := hmade
  exact hderived call (hcalls ▸ hcall) n hn

end Performance

/-- Performances one after another: each starts from the settings that the one before left. -/
inductive Chain : Settings × Bool → List Performance → Settings × Bool → Prop
  | nothing (standing : Settings × Bool) : Chain standing [] standing
  | next {p : Performance} {rest : List Performance} {last : Settings × Bool}
    (h : Chain p.after.vault.standing rest last) : Chain p.session.vault.standing (p :: rest) last

namespace Chain

variable {a b c : Settings × Bool} {ps qs : List Performance}

theorem append (h : Chain a ps b) (hn : Chain b qs c) : Chain a (ps ++ qs) c := by
  induction h with
  | nothing => exact hn
  | next _ ih => exact .next (ih hn)

theorem of_append (h : Chain a (ps ++ qs) c) : ∃ b, Chain a ps b ∧ Chain b qs c := by
  induction ps generalizing a with
  | nil => exact ⟨a, .nothing a, h⟩
  | cons p rest ih =>
    cases h with
    | next h =>
      obtain ⟨b, hfirst, hrest⟩ := ih h
      exact ⟨b, .next hfirst, hrest⟩

theorem eq_of_nothing (h : Chain a [] b) : b = a := by
  cases h
  rfl

theorem eq_of_first {p : Performance} (h : Chain a (p :: ps) b) : a = p.session.vault.standing := by
  cases h
  rfl

theorem eq_of_last {p : Performance} (h : Chain a [p] b) : b = p.after.vault.standing := by
  cases h with
  | next h => exact h.eq_of_nothing

/-- Without a reading of an environment the settings stay, and a replacement counts as reported once
a command has resolved a standard that is replaced. -/
theorem standing_eq (h : Chain a ps b) (hps : ∀ p ∈ ps, p.command.isConfigure = false) :
    b = (a.1, a.2 || ps.any (·.replaces a.1)) := by
  induction h with
  | nothing standing => simp
  | @next p rest last _ ih =>
    have hp := hps p List.mem_cons_self
    rw [ih fun q hq => hps q (List.mem_cons_of_mem _ hq), p.standing_after hp]
    simp only [Vault.standing, List.any_cons, Bool.or_assoc]

/-- The first command that resolves a standard which is replaced gives the warning that it calls
for, and no other gives one. -/
theorem replacements_eq (h : Chain a ps b) (hps : ∀ p ∈ ps, p.command.isConfigure = false) :
    ps.flatMap (·.replacements) =
      if a.2 then [] else (ps.find? (·.replaces a.1)).elim [] (·.notice a.1) := by
  induction h with
  | nothing standing => simp
  | @next p rest last _ ih =>
    have hp := hps p List.mem_cons_self
    have hrest := ih fun q hq => hps q (List.mem_cons_of_mem _ hq)
    rw [p.standing_after hp] at hrest
    rw [List.flatMap_cons, p.replacements_eq hp, hrest]
    simp only [Vault.standing]
    cases hreplaced : p.replaces p.session.vault.settings with
    | true => by_cases hreported : p.session.vault.reported = true <;> simp [hreplaced, hreported]
    | false =>
      have hnone : p.notice p.session.vault.settings = [] := Settings.notice_eq_nil hreplaced
      by_cases hreported : p.session.vault.reported = true <;>
        simp [hreplaced, hreported, hnone]

end Chain

mutual

/-- All calls of a report, those of the steps in a block first. -/
def Report.made (report : Report) : List Suite.Call :=
  match report with
  | ⟨_, _, calls, none⟩ => calls
  | ⟨_, _, calls, some inner⟩ => madeAll inner ++ calls

def madeAll (reports : List Report) : List Suite.Call :=
  match reports with
  | [] => []
  | report :: rest => report.made ++ madeAll rest

end

namespace Session

mutual

/-- The commands that a step performs, in order. -/
def performed (step : Step) (s : Session) : List Performance :=
  match step with
  | .command command => [⟨s, command⟩]
  | .within name body _ =>
    match find s.keys name with
    | .error _ => []
    | .ok key => performedAll body (s.enter key)

def performedAll (steps : List Step) (s : Session) : List Performance :=
  match steps with
  | [] => []
  | step :: rest => performed step s ++ performedAll rest (run step s).2

end

/-- The end of a block resolves nothing and asks nothing. -/
theorem resolves_leave (s : Session) (key : KeyRef) (failing? : Option String)
    (iterations : Argument) :
    Vault.Resolves none iterations s.vault (s.leave key failing?).2.vault := by
  rw [leave_snd]
  exact (SecretKey.unresolving_destroy key s.vault).before (resolves_releaseKey
    { (s.act (SecretKey.destroy key)).2 with entered := s.entered.drop 1 } key)

theorem calls_leave (s : Session) (key : KeyRef) (failing? : Option String) :
    (s.leave key failing?).2.vault.calls = s.vault.calls := by
  have hdestroy : ∀ v : Vault, (SecretKey.destroy key v).2.calls = v.calls := by
    intro v
    rcases SecretKey.destroy_cases key v with ⟨failure, h, -⟩ | ⟨record, cell, -, -, h⟩ <;> rw [h]
  have habandon : ∀ v : Vault, (SecretKey.abandon key v).2.calls = v.calls := by
    intro v
    rcases SecretKey.abandon_snd key v with h | ⟨warnings, h⟩ <;> rw [h]
    exact hdestroy v
  rw [leave_snd, releaseKey]
  split
  · exact hdestroy s.vault
  · exact (habandon _).trans (hdestroy s.vault)

/-- Performances are those of a run: they go from one standing to the next, and what its reports
show of replacements and calls is what the performances gave and made. -/
structure Traces (s : Session) (performances : List Performance) (warnings : List Warning)
    (calls : List Suite.Call) (t : Session) : Prop where
  chain : Chain s.vault.standing performances t.vault.standing
  warnings : warnings.filter (·.isReplacement) = performances.flatMap (·.replacements)
  calls : calls = performances.flatMap (·.calls)

theorem Traces.append {s t u : Session} {ps qs : List Performance} {warnings more : List Warning}
    {calls others : List Suite.Call} (h : s.Traces ps warnings calls t)
    (hn : t.Traces qs more others u) :
    s.Traces (ps ++ qs) (warnings ++ more) (calls ++ others) u where
  chain := h.chain.append hn.chain
  warnings := by rw [List.filter_append, h.warnings, hn.warnings, List.flatMap_append]
  calls := by rw [h.calls, hn.calls, List.flatMap_append]

mutual

/-- **Running a step** goes from command to command. -/
theorem traces_run (step : Step) (s : Session) :
    s.Traces (performed step s) (run step s).1.given (run step s).1.made (run step s).2 := by
  match step with
  | .command command =>
    refine ⟨.next (p := ⟨s, command⟩) (.nothing _), ?_, ?_⟩
    · exact (List.append_nil _).symm
    · exact (List.append_nil _).symm
  | .within name body failing? =>
    cases hname : find s.keys name with
    | error failure =>
      have hrun : run (.within name body failing?) s =
          (s.quiet.report (.error failure) (some []), s.quiet) := by
        rw [run, hname]
      rw [hrun, performed, hname]
      exact ⟨.nothing _, rfl, rfl⟩
    | ok key =>
      have hbody := traces_runAll body (s.enter key)
      rcases hended : runAll body (s.enter key) with ⟨reports, ended⟩
      rw [hended] at hbody
      rcases hleave : ended.quiet.leave key failing? with ⟨outcome, t⟩
      have hleft := resolves_leave ended.quiet key failing? .absent
      have hcalls := calls_leave ended.quiet key failing?
      rw [hleave] at hleft hcalls
      have hrun : run (.within name body failing?) s = (t.report outcome (some reports), t) := by
        rw [run, hname]
        dsimp only
        rw [hended]
        dsimp only
        rw [hleave]
      have hend : ended.Traces [] t.vault.warnings t.vault.calls t := by
        have hstanding : t.vault.standing = ended.vault.standing :=
          Prod.ext hleft.settings (hleft.reported.trans (Bool.or_false _))
        refine ⟨hstanding ▸ .nothing _, ?_, hcalls⟩
        have hwarned := hleft.replacements
        simp only [Settings.notice_none, ite_self, List.append_nil] at hwarned
        exact hwarned
      rw [hrun, performed, hname]
      dsimp only
      have hall := hbody.append hend
      rw [List.append_nil] at hall
      exact ⟨hall.chain, hall.warnings, hall.calls⟩

theorem traces_runAll (steps : List Step) (s : Session) :
    s.Traces (performedAll steps s) (givenAll (runAll steps s).1) (madeAll (runAll steps s).1)
      (runAll steps s).2 := by
  match steps with
  | [] => exact ⟨.nothing _, rfl, rfl⟩
  | step :: rest =>
    rw [performedAll, runAll]
    exact (traces_run step s).append (traces_runAll rest (run step s).2)

end

/-- The performances up to the reading of an environment: there are none if the session started with
its settings, and else the last one reads it. -/
inductive Loaded (environment : Environment) (s : Session) : List Performance → Prop
  | start (settings : s.vault.settings = .ofEnvironment environment)
    (unreported : s.vault.reported = false) : Loaded environment s []
  | configured (before : List Performance) (session : Session) :
    Loaded environment s (before ++ [⟨session, .configure environment⟩])

theorem loaded_ofEnvironment (environment : Environment) :
    Loaded environment (.ofEnvironment environment) [] :=
  .start rfl rfl

theorem Loaded.standing {s : Session} {environment : Environment} {before : List Performance}
    {standing : Settings × Bool} (h : Loaded environment s before)
    (hchain : Chain s.vault.standing before standing) :
    standing = (.ofEnvironment environment, false) := by
  cases h with
  | start settings unreported => exact hchain.eq_of_nothing.trans (Prod.ext settings unreported)
  | configured before session =>
    obtain ⟨between, -, hlast⟩ := hchain.of_append
    exact hlast.eq_of_last.trans (Performance.standing_after_configure rfl)

/-- What the commands of a stretch do under settings that stay as they are. -/
structure Stretch (settings : Settings) (segment : List Performance) : Prop where
  /-- The first command that resolves a standard which is replaced gives the warning that it calls
  for, and no other command gives one. -/
  first : segment.flatMap (·.replacements) =
    (segment.find? (·.replaces settings)).elim [] (·.notice settings)
  given : ∀ earlier p rest, segment = earlier ++ p :: rest →
    p.replacements = if earlier.any (·.replaces settings) then [] else p.notice settings
  replaced : ∀ p ∈ segment, p.replaces settings = true ↔
    ∃ standard override, p.session.quiet.standard? p.command = some standard ∧
      settings.override? = some override ∧ standard.equalsInt override = false
  /-- A warning is called for where the standard that is replaced can be shown. -/
  called : ∀ p ∈ segment, (p.notice settings).length ≤ 1 ∧
    ∀ warning, warning ∈ p.notice settings ↔
      ∃ standard override shown, p.session.quiet.standard? p.command = some standard ∧
        settings.override? = some override ∧ standard.equalsInt override = false ∧
        standard.shown = .ok shown ∧ warning = .iterationsReplaced override shown
  /-- Keys are derived with the iterations that a command is given, or else with the number that is
  set or with 32768. -/
  derived : ∀ p ∈ segment, ∀ call ∈ p.calls, ∀ n ∈ call.iterations?,
    n = if p.command.iterations.isAbsent then .integer (settings.override?.getD 32768)
      else p.command.iterations
  /-- Resolving a standard fails where the warning cannot show it. -/
  resolved : ∀ earlier p rest standard, segment = earlier ++ p :: rest →
    p.command = .resolve standard →
      p.outcome =
        if earlier.any (·.replaces settings) || !p.replaces settings then
          .ok (.value (settings.iterations standard))
        else standard.shown.map fun _ => .value (settings.iterations standard)

namespace Stretch

variable {settings : Settings} {segment : List Performance}

/-- A stretch starts where the settings have been read and nothing has been reported. -/
theorem of_chain {last : Settings × Bool} (h : Chain (settings, false) segment last)
    (hsegment : ∀ p ∈ segment, p.command.isConfigure = false) : Stretch settings segment := by
  -- The standing in which a command of the stretch is performed.
  have hstanding : ∀ earlier p rest, segment = earlier ++ p :: rest →
      p.session.vault.standing = (settings, earlier.any (·.replaces settings)) := by
    rintro earlier p rest rfl
    obtain ⟨between, hearlier, hp⟩ := h.of_append
    rw [← hp.eq_of_first]
    exact hearlier.standing_eq fun q hq => hsegment q (List.mem_append_left _ hq)
  refine ⟨h.replacements_eq hsegment, ?_, fun p _ => Settings.replaces_iff, ?_, ?_, ?_⟩
  · intro earlier p rest hsplit
    have hp : p ∈ segment := hsplit ▸ List.mem_append_right _ List.mem_cons_self
    obtain ⟨hsettings, hreported⟩ := Prod.mk.inj (hstanding earlier p rest hsplit)
    rw [p.replacements_eq (hsegment p hp), hsettings, hreported]
  · exact fun p _ => ⟨Settings.length_notice_le _ _, fun warning => Settings.mem_notice_iff⟩
  · intro p hp call hcall n hn
    obtain ⟨earlier, rest, hsplit⟩ := List.append_of_mem hp
    obtain ⟨hsettings, -⟩ := Prod.mk.inj (hstanding earlier p rest hsplit)
    rw [p.iterations_eq (hsegment p hp) hcall hn, hsettings]
    cases p.command.iterations with
    | absent => exact settings.iterations_integer SecretKey.standardIterations
    | _ => rfl
  · intro earlier p rest standard hsplit hcommand
    obtain ⟨hsettings, hreported⟩ := Prod.mk.inj (hstanding earlier p rest hsplit)
    rw [Performance.outcome_resolve hcommand, hsettings, hreported]

/-- The standards that a stretch is handed can be shown. -/
def Shown (segment : List Performance) : Prop :=
  ∀ p ∈ segment, ∀ standard, p.command = .resolve standard → ∃ shown, standard.shown = .ok shown

/-- Where the standards can be shown, a command calls for a warning exactly if it resolves one that
is replaced. -/
theorem isEmpty_notice (settings : Settings) (hshown : Shown segment) {p : Performance}
    (hp : p ∈ segment) :
    (p.notice settings).isEmpty = !p.replaces settings := by
  cases hreplaced : p.replaces settings with
  | false => simp [Performance.notice, Settings.notice_eq_nil hreplaced]
  | true =>
    obtain ⟨standard, override, hstandard, -⟩ := Settings.replaces_iff.mp hreplaced
    have hspelled : ∃ shown, standard.shown = .ok shown := by
      rcases standard?_cases hstandard with hcommand | rfl
      · exact hshown p hp standard hcommand
      · exact ⟨_, SecretKey.shown_standardIterations⟩
    obtain ⟨shown, hstandardShown⟩ := hspelled
    rw [Performance.replaces, hstandard] at hreplaced
    obtain ⟨warning, hone⟩ := Settings.exists_notice_eq hstandardShown hreplaced
    simp [Performance.notice, hstandard, hone]

/-- Then a replacement counts as reported once a warning has been called for. -/
theorem any_replaces (hshown : Shown segment) {earlier : List Performance}
    (hearlier : ∀ p ∈ earlier, p ∈ segment) :
    earlier.any (·.replaces settings) = !(earlier.flatMap (·.notice settings)).isEmpty := by
  induction earlier with
  | nil => rfl
  | cons p rest ih =>
    have hp := isEmpty_notice settings hshown (hearlier p List.mem_cons_self)
    have hrest := ih fun q hq => hearlier q (List.mem_cons_of_mem _ hq)
    rw [List.any_cons, List.flatMap_cons, hrest]
    cases hnotice : p.notice settings <;> simp [hnotice] at hp <;> simp [hp]

/-- And the first warning that is called for is the first command's that replaces a standard. -/
theorem take_notices (hshown : Shown segment) {rest : List Performance}
    (hrest : ∀ p ∈ rest, p ∈ segment) :
    (rest.flatMap (·.notice settings)).take 1 =
      (rest.find? (·.replaces settings)).elim [] (·.notice settings) := by
  induction rest with
  | nil => rfl
  | cons p rest ih =>
    have hp := isEmpty_notice settings hshown (hrest p List.mem_cons_self)
    have hlater := ih fun q hq => hrest q (List.mem_cons_of_mem _ hq)
    rw [List.flatMap_cons]
    cases hreplaced : p.replaces settings with
    | false =>
      rw [hreplaced, Bool.not_false, List.isEmpty_iff] at hp
      simpa [hreplaced, hp] using hlater
    | true =>
      rw [hreplaced, Bool.not_true] at hp
      have hone := Settings.length_notice_le settings (p.session.quiet.standard? p.command)
      cases hnotice : p.notice settings with
      | nil => simp [hnotice] at hp
      | cons warning more =>
        rw [show settings.notice _ = warning :: more from hnotice] at hone
        obtain rfl := List.eq_nil_of_length_eq_zero (Nat.le_zero.mp (Nat.le_of_succ_le_succ hone))
        simp [hreplaced, hnotice]

end Stretch

variable {s : Session} {steps : List Step} {environment : Environment}
variable {before segment later : List Performance}

/-- **Iterations over a whole run.** After the reading of an environment and up to the next one, the
first command that resolves a standard which differs from the number that is set gives a warning,
if that standard can be shown, and no other command does. A command that is given the iterations
derives keys with these, and any other with the number that is set or else with 32768. What the
reports of the run show is what its commands gave and asked. Where all standards can be shown,
resolving them succeeds. -/
theorem iterations_over_run (hrun : performedAll steps s = before ++ segment ++ later)
    (hloaded : Loaded environment s before)
    (hsegment : ∀ p ∈ segment, p.command.isConfigure = false) :
    let settings := Settings.ofEnvironment environment
    (givenAll (runAll steps s).1).filter (·.isReplacement) =
      (performedAll steps s).flatMap (·.replacements) ∧
    madeAll (runAll steps s).1 = (performedAll steps s).flatMap (·.calls) ∧
    Stretch settings segment ∧
    (Stretch.Shown segment →
      segment.flatMap (·.replacements) = (segment.flatMap (·.notice settings)).take 1 ∧
      (∀ earlier p rest, segment = earlier ++ p :: rest → p.replacements =
        if (earlier.flatMap (·.notice settings)).isEmpty then p.notice settings else []) ∧
      ∀ p ∈ segment, ∀ standard, p.command = .resolve standard →
        p.outcome = .ok (.value (settings.iterations standard))) := by
  intro settings
  obtain ⟨hchain, hwarnings, hcalls⟩ := traces_runAll steps s
  rw [hrun, List.append_assoc] at hchain
  obtain ⟨standing, hbefore, hrest⟩ := hchain.of_append
  obtain ⟨last, hsegmentChain, -⟩ := hrest.of_append
  obtain rfl : standing = (settings, false) := hloaded.standing hbefore
  have hstretch := Stretch.of_chain hsegmentChain hsegment
  refine ⟨hwarnings, hcalls, hstretch, fun hshown => ⟨?_, ?_, ?_⟩⟩
  · rw [hstretch.first, Stretch.take_notices hshown fun _ => id]
  · intro earlier p rest hsplit
    rw [hstretch.given earlier p rest hsplit,
      Stretch.any_replaces hshown fun q hq => hsplit ▸ List.mem_append_left _ hq]
    cases (earlier.flatMap (·.notice settings)).isEmpty <;> rfl
  · intro p hp standard hcommand
    obtain ⟨earlier, rest, hsplit⟩ := List.append_of_mem hp
    obtain ⟨shown, hstandard⟩ := hshown p hp standard hcommand
    rw [hstretch.resolved earlier p rest standard hsplit hcommand, hstandard]
    exact ite_self _

/-- With seven iterations set, a key ID that is refused gives no warning and the next resolution of
the standard gives the only one. -/
theorem iterations_over_run_seven :
    let environment : Environment := [(Settings.iterationsVariable, "7")]
    let suite : Suite := ⟨fun _ _ => .ok (.ofBytes (.zeros 32))⟩
    let steps : List Step :=
      [.command (.generate suite "k" (.text [120]) (.text [112]) (.ofBytes (.zeros 16)) .absent),
        .command (.resolve (.integer 32768)), .command (.resolve (.integer 32768))]
    (givenAll (runAll steps (.ofEnvironment environment)).1).filter (·.isReplacement) =
      [.iterationsReplaced 7 "32768"] := by
  intro environment suite steps
  have hnotices : (performedAll steps (.ofEnvironment environment)).flatMap
      (·.notice (.ofEnvironment environment)) =
        [.iterationsReplaced 7 "32768", .iterationsReplaced 7 "32768"] := by decide +kernel
  have hshown : Stretch.Shown (performedAll steps (.ofEnvironment environment)) := by
    intro p hp standard hcommand
    refine ⟨"32768", ?_⟩
    obtain rfl : standard = .integer SecretKey.standardIterations := by
      simp only [steps, performedAll, performed, List.append_nil, List.cons_append,
        List.nil_append, List.mem_cons, List.not_mem_nil, or_false] at hp
      rcases hp with rfl | rfl | rfl <;> cases hcommand <;> rfl
    exact SecretKey.shown_standardIterations
  obtain ⟨hwarnings, -, -, hshowable⟩ := @iterations_over_run (.ofEnvironment environment) steps
    environment [] (performedAll steps (.ofEnvironment environment)) [] (by simp)
    (loaded_ofEnvironment environment)
    (by simp [steps, performedAll, performed, Command.isConfigure])
  rw [hwarnings, (hshowable hshown).1, hnotices]
  rfl

/-- **A standard of 4301 digits** that is replaced counts as reported and is not: resolving it
fails, since the warning cannot show it, and the next replacement is taken for a later one. -/
theorem unshown_standard_unreported :
    let environment : Environment := [(Settings.iterationsVariable, "7")]
    let steps : List Step :=
      [.command (.resolve (.integer Numeral.limit)), .command (.resolve (.integer 32768))]
    let reports := (runAll steps (.ofEnvironment environment)).1
    reports.map (·.outcome) = [.error (.field .numberTooLong), .ok (.value (.integer 7))] ∧
      givenAll reports = [] := by
  intro environment steps reports
  let fresh : Vault := .ofSettings (.ofEnvironment environment)
  have hlong : (Argument.integer Numeral.limit).shown = .error (.field .numberTooLong) :=
    Argument.shown_of_limit_le rfl (Nat.le_of_eq rfl)
  have hreplaced : fresh.settings.replacement? (.integer Numeral.limit) = some 7 := by
    decide +kernel
  have hfirst : Action.resolveIterations (.integer Numeral.limit) fresh =
      (.error (.field .numberTooLong), { fresh with reported := true }) := by
    rw [Action.resolveIterations, hreplaced, hlong]
    rfl
  have hsecond : Action.resolveIterations (.integer 32768) { fresh with reported := true } =
      (.ok (.integer 7), { fresh with reported := true }) := by
    rw [Action.resolveIterations, Settings.iterations_integer]
    rfl
  have hreports : reports = [⟨.error (.field .numberTooLong), [], [], none⟩,
      ⟨.ok (.value (.integer 7)), [], [], none⟩] := by
    simp only [reports, steps, runAll, run, perform_resolve]
    rw [show (ofEnvironment environment).quiet.vault = fresh from rfl, hfirst]
    rw [show (Session.quiet _).vault = { fresh with reported := true } from rfl, hsecond]
    rfl
  rw [hreports]
  exact ⟨rfl, rfl⟩

end Session

end PasswordVault
