import PasswordVault.Proofs.Session.Commands

/-!
# The paths of a session

A session goes from state to state by commands, and by opening and closing blocks on keys. Whatever
steps are run, to any depth of blocks, the session takes such a path.

## Main definitions

- `Journal` — the warnings given on the way, the buffers written into, and the keys given up
- `Session.Move`, `Session.Path` — one move of a session, and any number of them
- `Session.Passes` — what becomes of the keys on a path

`Session.Path.passes` says that this is what becomes of them on every path, and
`Session.path_runAll` that running steps takes a path.
-/

namespace PasswordVault

/-- What happened on the way from one session to another. -/
structure Journal where
  /-- The warnings given, oldest first. -/
  warnings : List Warning := []
  /-- The buffers that a caller wrote into. -/
  written : List Cell := []
  /-- The keys that lost their last reference while they were live. -/
  lost : List KeyRef := []

namespace Journal

def append (j k : Journal) : Journal :=
  ⟨j.warnings ++ k.warnings, j.written ++ k.written, j.lost ++ k.lost⟩

instance : Append Journal := ⟨append⟩

theorem append_nothing (j : Journal) : j ++ ({} : Journal) = j := by
  show append j {} = j
  simp [append]

theorem append_assoc (j k l : Journal) : j ++ k ++ l = j ++ (k ++ l) := by
  show append (append j k) l = append j (append k l)
  simp [append]

end Journal

namespace Session

/-- One move of a session. -/
inductive Move (s : Session) : Journal → Session → Prop
  | performed {outcome : Except Failure Reply} {t : Session} (command : Command)
    (h : s.quiet.perform command = (outcome, t)) :
    Move s ⟨t.vault.warnings, s.writes command outcome, s.losing t⟩ t
  /-- No key has the name on which a block was to be opened. -/
  | missed : Move s {} s.quiet
  | entered {name : String} {key : KeyRef} (h : find s.keys name = .ok key) :
    Move s {} (s.enter key)
  /-- The innermost block ends. Its key is destroyed before it loses the reference of the block. -/
  | left {key : KeyRef} {rest : List KeyRef} {failing? : Option String}
    {outcome : Except Failure Reply} {destroyed t : Session} (hopen : s.entered = key :: rest)
    (hdestroyed : destroyed = (s.quiet.act (SecretKey.destroy key)).2)
    (h : s.quiet.leave key failing? = (outcome, t)) :
    Move s ⟨t.vault.warnings, [], destroyed.losing t⟩ t

/-- Any number of moves. -/
inductive Path (s : Session) : Journal → Session → Prop
  | nothing : Path s {} s
  | more {j k : Journal} {t u : Session} (h : Path s j t) (hmove : t.Move k u) : Path s (j ++ k) u

variable {r s t u : Session} {j k : Journal} {key : KeyRef}

theorem Move.path (h : s.Move j t) : s.Path j t := by
  have hone := Path.more .nothing h
  have hjournal : ({} : Journal) ++ j = j := by
    show Journal.append {} j = j
    simp [Journal.append]
  rwa [hjournal] at hone

theorem Path.trans (h : s.Path j t) (hn : t.Path k u) : s.Path (j ++ k) u := by
  induction hn with
  | nothing =>
    rw [Journal.append_nothing]
    exact h
  | more _ hmove ih =>
    rw [← Journal.append_assoc]
    exact .more ih hmove

/-- What becomes of the keys on a path. The warnings that keys were given up are one for each key
that lost its last reference while it was live. -/
structure Passes (s : Session) (j : Journal) (t : Session) : Prop where
  ages : s.vault.Ages j.written t.vault
  refers : ∀ {key}, key < s.vault.keys.length → t.refersTo key = true → s.refersTo key = true
  sound : s.Sound → t.Sound
  warned : j.warnings.filter (·.isAbandonment) = j.lost.map t.vault.abandonment
  nodup : j.lost.Nodup
  /-- A key that was given up has been destroyed, and nothing will refer to it again. -/
  ended : ∀ {key}, key ∈ j.lost → t.refersTo key = false ∧
    ∃ record, t.vault.keys[key]? = some record ∧ record.destroyed = true
  held : ∀ {key}, key ∈ j.lost → key < s.vault.keys.length → s.refersTo key = true

theorem passes_nothing (s : Session) : s.Passes {} s where
  ages := Vault.ages_of_eq rfl rfl
  refers _ h := h
  sound h := h
  warned := rfl
  nodup := List.nodup_nil
  ended h := absurd h List.not_mem_nil
  held h := absurd h List.not_mem_nil

theorem Passes.trans (h : s.Passes j t) (hn : t.Passes k u) : s.Passes (j ++ k) u := by
  have hlength : s.vault.keys.length ≤ t.vault.keys.length := h.ages.length_le
  have hkey : ∀ {key}, key ∈ j.lost → key < t.vault.keys.length := by
    intro key hin
    obtain ⟨-, record, hrecord, -⟩ := h.ended hin
    exact (List.getElem?_eq_some_iff.mp hrecord).1
  refine ⟨?_, ?_, ?_, ?_, ?_, ?_, ?_⟩
  · exact (h.ages.mono (List.subset_append_left _ _)).trans
      (hn.ages.mono (List.subset_append_right _ _))
  · intro key hlow hu
    exact h.refers hlow (hn.refers (Nat.lt_of_lt_of_le hlow hlength) hu)
  · exact fun hs => hn.sound (h.sound hs)
  · show (j.warnings ++ k.warnings).filter _ = (j.lost ++ k.lost).map _
    rw [List.filter_append, List.map_append, h.warned, hn.warned]
    refine congrArg (· ++ _) (List.map_congr_left fun key hin => ?_)
    exact (hn.ages.abandonment_eq (hkey hin)).symm
  · refine List.nodup_append.mpr ⟨h.nodup, hn.nodup, ?_⟩
    rintro key hin other hin' rfl
    -- Nothing refers to the key any more when it would have to be referred to.
    have hreferred := hn.held hin' (hkey hin)
    rw [(h.ended hin).1] at hreferred
    cases hreferred
  · intro key hin
    rcases List.mem_append.mp hin with hin | hin
    · obtain ⟨hlost, record, hrecord, hdestroyed⟩ := h.ended hin
      obtain ⟨destroyed, hlater, hstays⟩ := hn.ages.keys hrecord
      refine ⟨?_, _, hlater, hstays hdestroyed⟩
      cases hu : u.refersTo key with
      | false => rfl
      | true =>
        rw [hn.refers (hkey hin) hu] at hlost
        cases hlost
    · exact hn.ended hin
  · intro key hin hlow
    rcases List.mem_append.mp hin with hin | hin
    · exact h.held hin hlow
    · exact h.refers hlow (hn.held hin (Nat.lt_of_lt_of_le hlow hlength))

theorem sound_quiet (h : s.Sound) : s.quiet.Sound :=
  ⟨h.distinct, h.sized, h.kept⟩

/-- Where keys are given up in the second of two parts alone. -/
theorem passes_of_settles {written : List Cell} (h : s.quiet.Settles [] t)
    (hnone : s.quiet.losing t = []) (hn : t.Settles written u) :
    s.Passes ⟨u.vault.warnings, written, t.losing u⟩ u := by
  have hquiet : s.vault.Ages written s.quiet.vault := Vault.ages_of_eq rfl rfl
  refine ⟨(hquiet.trans (h.ages.mono (List.nil_subset _))).trans hn.ages, ?_, ?_, ?_,
    nodup_losing t u, ?_, ?_⟩
  · intro key hlow hu
    exact h.refers hlow (hn.refers (Nat.lt_of_lt_of_le hlow h.ages.length_le) hu)
  · exact fun hs => hn.sound (h.sound (sound_quiet hs))
  · have hbefore : t.vault.abandonments = [] := by
      rw [h.warned, hnone]
      rfl
    show u.vault.abandonments = _
    rw [hn.warned, hbefore, List.nil_append]
    refine List.map_congr_left fun key hin => (hn.ages.abandonment_eq ?_).symm
    exact Vault.lt_of_isLive (mem_losing.mp hin).1
  · intro key hin
    obtain ⟨hlive, -, hlost⟩ := mem_losing.mp hin
    obtain ⟨record, cell, hrecord, hmaterial, -⟩ := Vault.exists_of_isLive hlive
    exact ⟨hlost, _, (hn.wiped hin hrecord hmaterial).key, rfl⟩
  · intro key hin hlow
    exact h.refers hlow (mem_losing.mp hin).2.1

/-- What a block ends with before its key is destroyed. -/
def ending (failing? : Option String) : Action Unit :=
  match failing? with
  | some message => Action.fail (.reported .illegalState message)
  | none => pure ()

/-- A block destroys its key, gives its reference back and releases the key. -/
theorem leave_eq {s : Session} {key : KeyRef} {failing? : Option String} {w : Vault}
    {outcome : Except Failure Unit} {shown : Except Failure KeyView}
    (hwithin : SecretKey.within key (ending failing?) s.vault = (outcome, w))
    (hview : view key w = (shown, w)) :
    s.leave key failing? = (outcome.bind fun _ => shown.map .key,
      { s with vault := w, entered := s.entered.drop 1 }.releaseKey key) := by
  have hended : s.act (SecretKey.within key (ending failing?)) =
      (outcome, { s with vault := w }) := by
    rw [act, hwithin]
  have hseen : Session.act { s with vault := w } (view key) = (shown, { s with vault := w }) := by
    rw [act, hview]
  unfold leave
  cases failing? <;> dsimp only [ending] at hended ⊢ <;> rw [hended] <;> dsimp only <;>
    rw [hseen] <;> rcases outcome with _ | _ <;> rcases shown with _ | _ <;> rfl

theorem leave_snd (s : Session) (key : KeyRef) (failing? : Option String) :
    (s.leave key failing?).2 =
      { (s.act (SecretKey.destroy key)).2 with entered := s.entered.drop 1 }.releaseKey key := by
  have hending : (ending failing? s.vault).2 = s.vault := by
    cases failing? <;> rfl
  have hwithin : (SecretKey.within key (ending failing?) s.vault).2 =
      (SecretKey.destroy key s.vault).2 := by
    rw [SecretKey.within, Action.ensuring_snd, hending]
  rcases hrun : SecretKey.within key (ending failing?) s.vault with ⟨outcome, w⟩
  obtain rfl : w = (SecretKey.destroy key s.vault).2 :=
    (congrArg Prod.snd hrun).symm.trans hwithin
  rw [leave_eq hrun (Prod.ext rfl (view_snd key _))]
  rfl

/-- A block is opened on a key that a name refers to already. -/
theorem refersTo_enter {name : String} {other : KeyRef} (hname : find s.keys name = .ok key) :
    (s.enter key).refersTo other = s.refersTo other := by
  refine Bool.eq_iff_iff.mpr ⟨fun hother => ?_, fun hother => ?_⟩
  · rcases refersTo_iff.mp hother with ⟨kept, hkept⟩ | hin
    · exact refersTo_of_mem hkept
    · rcases List.mem_cons.mp hin with rfl | hin
      · exact refersTo_of_lookup (find_eq_ok_iff.mp hname)
      · exact refersTo_iff.mpr (Or.inr hin)
  · exact refersTo_of_refersTo hother (fun hkept => refersTo_of_mem hkept)
      (List.mem_cons_of_mem _)

theorem Move.passes (h : s.Move j t) (hs : s.Sound) : s.Passes j t := by
  cases h with
  | missed =>
    exact ⟨Vault.ages_of_eq rfl rfl, fun _ h => h, sound_quiet, rfl, List.nodup_nil,
      fun h => absurd h List.not_mem_nil, fun h => absurd h List.not_mem_nil⟩
  | @entered name key hname =>
    refine ⟨Vault.ages_of_eq rfl rfl, ?_, fun h => ⟨h.distinct, h.sized, fun hlive => ?_⟩, rfl,
      List.nodup_nil, fun h => absurd h List.not_mem_nil, fun h => absurd h List.not_mem_nil⟩
    · intro other _ hother
      exact refersTo_enter hname ▸ hother
    · rw [refersTo_enter hname]
      exact h.kept hlive
  | performed command h =>
    have hself : s.quiet.Settles [] s.quiet := settles_of_eq rfl rfl rfl rfl rfl
    have hperformed := settles_perform command (sound_quiet hs)
    rw [h] at hperformed
    exact passes_of_settles (t := s.quiet) hself (losing_eq_nil fun _ hs => hs) hperformed
  | @left key rest failing? outcome destroyed t hopen hdestroyed h =>
    have hacted : s.quiet.Settles [] destroyed :=
      hdestroyed ▸ settles_act (SecretKey.sparing_destroy key)
    have hentered : destroyed.entered = key :: rest := by
      rw [hdestroyed]
      exact hopen
    have hlast : t = { destroyed with entered := rest }.releaseKey key := by
      have hleave := leave_snd s.quiet key failing?
      rw [h, show s.quiet.entered = key :: rest from hopen] at hleave
      rw [hdestroyed]
      exact hleave
    have hloosens : destroyed.Loosens [] key { destroyed with entered := rest } := by
      refine ⟨Vault.ages_of_eq rfl rfl, rfl, ?_, ?_, fun h => h, ?_,
        refersTo_iff.mpr (Or.inr ?_), fun _ => rfl⟩
      · intro other _ hother
        exact refersTo_of_refersTo hother (fun hkept => refersTo_of_mem hkept) fun hin =>
          hentered ▸ List.mem_cons_of_mem _ hin
      · intro other hhigh hlive
        exact absurd (Vault.lt_of_isLive hlive) (Nat.not_lt.mpr hhigh)
      · intro other hne hother
        exact refersTo_of_refersTo hother (fun hkept => refersTo_of_mem hkept) fun hin =>
          List.mem_of_ne_of_mem hne (hentered ▸ hin)
      · rw [hentered]
        exact List.mem_cons_self
    rw [hlast]
    refine passes_of_settles hacted (losing_eq_nil fun other hother => ?_)
      (hloosens.settles_releaseKey (hacted.ages.sized hs.sized))
    rw [hdestroyed]
    exact hother

/-- **What becomes of the keys on every path.** -/
theorem Path.passes (h : s.Path j t) (hs : s.Sound) : s.Passes j t := by
  induction h with
  | nothing => exact passes_nothing s
  | more _ hmove ih => exact ih.trans (hmove.passes (ih.sound hs))

/-! ### Running steps -/

end Session

mutual

/-- All warnings of a report, those of the steps in a block first. -/
def Report.given (report : Report) : List Warning :=
  match report with
  | ⟨_, warnings, _, none⟩ => warnings
  | ⟨_, warnings, _, some inner⟩ => givenAll inner ++ warnings

def givenAll (reports : List Report) : List Warning :=
  match reports with
  | [] => []
  | report :: rest => report.given ++ givenAll rest

end

namespace Session

variable {s : Session}

theorem entered_releaseKey (s : Session) (old : KeyRef) :
    (s.releaseKey old).entered = s.entered := by
  rw [releaseKey]
  split <;> rfl

theorem entered_answerPassword (s : Session) (target : String) (action : Action StoredPassword) :
    (s.answerPassword target action).2.entered = s.entered := by
  rw [answerPassword, act]
  rcases action s.vault with ⟨_ | _, w⟩ <;> rfl

theorem entered_answerHolding (s : Session) (target : String) (action : Action Material) :
    (s.answerHolding target action).2.entered = s.entered := by
  rw [answerHolding, act]
  rcases (do let held ← action; return (held, ← SecretKey.present held) :
    Action (Material × Argument)) s.vault with ⟨_ | _, w⟩ <;> rfl

theorem entered_answerKey (s : Session) (target : String) (action : Action KeyRef) :
    (s.answerKey target action).2.entered = s.entered := by
  rw [answerKey, act]
  rcases (do let key ← action; return (key, ← view key) :
    Action (KeyRef × KeyView)) s.vault with ⟨_ | ⟨key, shown⟩, w⟩
  · rfl
  · dsimp only
    rw [storeKey]
    split
    · exact entered_releaseKey _ _
    · rfl

/-- A command opens and closes no block. -/
theorem entered_perform (s : Session) (command : Command) :
    (s.perform command).2.entered = s.entered := by
  cases command with
  | generate => exact entered_answerKey ..
  | create => exact entered_answerKey ..
  | drop name =>
    rw [perform]
    cases find s.keys name with
    | error failure => rfl
    | ok key => exact entered_releaseKey _ _
  | newBuffer => exact entered_answerHolding ..
  | hold => exact entered_answerHolding ..
  | lock => exact entered_answerPassword ..
  | lockWith => exact entered_answerPassword ..
  | decode => exact entered_answerPassword ..
  | assemble => exact entered_answerPassword ..
  | alter => exact entered_answerPassword ..
  | restore => exact entered_answerPassword ..
  | _ => rfl

mutual

/-- Running a step takes a path, which closes the blocks that it opens. -/
theorem path_run (step : Step) (s : Session) :
    ∃ j, s.Path j (run step s).2 ∧ j.warnings = (run step s).1.given ∧
      (run step s).2.entered = s.entered := by
  match step with
  | .command command =>
    rw [run]
    have hentered := entered_perform s.quiet command
    rcases hrun : s.quiet.perform command with ⟨outcome, t⟩
    rw [hrun] at hentered
    exact ⟨_, (Move.performed command hrun).path, rfl, hentered⟩
  | .within name body failing? =>
    cases hname : find s.keys name with
    | error failure =>
      have hrun : run (.within name body failing?) s =
          (s.quiet.report (.error failure) (some []), s.quiet) := by
        rw [run, hname]
      rw [hrun]
      exact ⟨{}, Move.missed.path, rfl, rfl⟩
    | ok key =>
      obtain ⟨j, hpath, hwarnings, hentered⟩ := path_runAll body (s.enter key)
      rcases hbody : runAll body (s.enter key) with ⟨reports, ended⟩
      rw [hbody] at hpath hwarnings hentered
      rcases hleave : ended.quiet.leave key failing? with ⟨outcome, t⟩
      have hrun : run (.within name body failing?) s = (t.report outcome (some reports), t) := by
        rw [run, hname]
        dsimp only
        rw [hbody]
        dsimp only
        rw [hleave]
      have hleft := @Move.left _ key s.entered _ _ _ _ hentered rfl hleave
      rw [hrun]
      refine ⟨_, ((Move.entered hname).path.trans hpath).trans hleft.path, ?_, ?_⟩
      · show ([] ++ j.warnings) ++ t.vault.warnings = _
        rw [List.nil_append, hwarnings]
        rfl
      · have hlast : t = _ := (congrArg Prod.snd hleave).symm.trans (leave_snd _ key failing?)
        rw [hlast, entered_releaseKey]
        show ended.entered.drop 1 = s.entered
        rw [hentered]
        rfl

theorem path_runAll (steps : List Step) (s : Session) :
    ∃ j, s.Path j (runAll steps s).2 ∧ j.warnings = givenAll (runAll steps s).1 ∧
      (runAll steps s).2.entered = s.entered := by
  match steps with
  | [] => exact ⟨{}, .nothing, rfl, rfl⟩
  | step :: rest =>
    obtain ⟨j, hpath, hwarnings, hentered⟩ := path_run step s
    obtain ⟨k, hpath', hwarnings', hentered'⟩ := path_runAll rest (run step s).2
    rw [runAll]
    refine ⟨j ++ k, hpath.trans hpath', ?_, hentered'.trans hentered⟩
    show j.warnings ++ k.warnings = _
    rw [hwarnings, hwarnings']
    rfl

end

end Session

end PasswordVault
