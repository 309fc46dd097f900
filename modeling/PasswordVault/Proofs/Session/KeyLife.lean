import PasswordVault.Proofs.Argument.Secrets
import PasswordVault.Proofs.Session.Paths
import PasswordVault.Proofs.StoredPassword.Dialogues

/-!
# The life of a key in a session

Over whole sessions a key stays what it is. It is destroyed when that is asked for, when its block
ends, or when nothing refers to it any more, and it is of no use afterwards.

## Main definitions

- `Session.Useless` — what comes of a key that has been destroyed
- `Session.KeyLife` — what a session can do with a key that was made from a buffer

`Session.key_lifecycle` says that this is the life of every such key in every session.
-/

namespace PasswordVault

namespace StoredPassword

/-- Nothing is encrypted under a key that has been destroyed. The vector and the clear text are
looked at first. -/
theorem encryption_destroyed (record : KeyRecord) (vector clearText : Argument) :
    ∃ failure, encryption record (.error .keyDestroyed) vector clearText =
        .done (.error failure) ∧
      ∀ iv clear, vector.toBytes .constant = .ok iv → iv.length = Envelope.vectorLength →
        clearText.Spells clear → clear ≠ [] → failure = .keyDestroyed := by
  rw [encryption]
  cases hvector : vector.toBytesOf .constant Envelope.vectorLength
      (fun length => .field (.vectorLength length)) with
  | error failure =>
    refine ⟨failure, rfl, fun iv clear hiv hlength => ?_⟩
    rw [Argument.toBytesOf_eq, hiv] at hvector
    cases (if_pos hlength).symm.trans hvector
  | ok iv =>
  cases hclear : clearText.secretOctets .clearText with
  | error failure =>
    refine ⟨failure, rfl, fun iv clear _ _ hspells => ?_⟩
    cases (Argument.secretOctets_eq_ok_iff.mpr hspells).symm.trans hclear
  | ok clear =>
  show ∃ failure, (paddedEncryption (.error .keyDestroyed) iv clear >>= _) = _ ∧ _
  rw [paddedEncryption]
  cases clear with
  | nil =>
    refine ⟨.field .emptyClearText, rfl, fun iv clear _ _ hspells hne => absurd ?_ hne⟩
    exact Except.ok.inj ((Argument.secretOctets_eq_ok_iff.mpr hspells).symm.trans hclear)
  | cons first rest => exact ⟨.keyDestroyed, rfl, fun _ _ _ _ _ _ => rfl⟩

end StoredPassword

namespace Session

variable {s t : Session} {key : KeyRef} {record : KeyRecord} {cell : Cell} {name : String}

/-- What comes of a key that has been destroyed, under its name: nothing, and no suite is asked. -/
structure Useless (s : Session) (name : String) : Prop where
  reveal : (run (.command (.reveal name)) s).1 = ⟨.error .keyDestroyed, [], [], none⟩
  hold : ∀ target,
    (run (.command (.hold name target)) s).1 = ⟨.error .keyDestroyed, [], [], none⟩
  unlock : ∀ suite password x, find s.passwords password = .ok x →
    (run (.command (.unlock suite password (.named name))) s).1 =
      ⟨.error .keyDestroyed, [], [], none⟩
  /-- The vector and the clear text are looked at before the key. -/
  lockWith : ∀ suite target vector clearText, ∃ failure report t,
    run (.command (.lockWith suite target (.named name) vector clearText)) s = (report, t) ∧
    report.outcome = .error failure ∧ report.calls = [] ∧
    ∀ iv clear, vector.toBytes .constant = .ok iv → iv.length = Envelope.vectorLength →
      clearText.Spells clear → clear ≠ [] → failure = .keyDestroyed

/-- How a block on a key ends: with the failure of its body, or with the key. -/
def blockOutcome (record : KeyRecord) (failing? : Option String) : Except Failure Reply :=
  match failing? with
  | some message => .error (.reported .illegalState message)
  | none => .ok (.key ⟨record.keyId, record.salt, true⟩)

/-- What a session can do with a key that was made from a buffer. -/
structure KeyLife (s : Session) (key : KeyRef) (record : KeyRecord) (cell : Cell) : Prop where
  /-- The key keeps its key ID and its salt, and once destroyed it stays so. -/
  later : ∀ {j t}, s.Path j t → ∃ destroyed,
    t.vault.keys[key]? = some { record with destroyed } ∧
      (record.destroyed = true → destroyed = true)
  /-- Zeros stay until a caller writes into the buffer. -/
  zeros : ∀ {j t}, s.Path j t → s.vault.cells[cell]? = some (Bytes.zeros SecretKey.keyLength) →
    cell ∉ j.written → t.vault.cells[cell]? = some (Bytes.zeros SecretKey.keyLength)
  /-- Destroying the key succeeds, however often that is done. -/
  destroy : ∀ {name}, find s.keys name = .ok key → ∃ t,
    run (.command (.destroy name)) s = (⟨.ok .nothing, [], [], none⟩, t) ∧
      t.vault.Wiped key record cell
  /-- A block on the key destroys it at the end, whatever its steps have done. -/
  leave : ∀ {name}, find s.keys name = .ok key → ∀ body failing?, ∃ reports t,
    run (.within name body failing?) s =
        (⟨blockOutcome record failing?, [], [], some reports⟩, t) ∧
      t.vault.Wiped key record cell
  drop : ∀ {name}, find s.keys name = .ok key →
    (run (.command (.drop name)) s).1.outcome = .ok .nothing
  /-- A live key that loses its last reference is destroyed with one warning. -/
  givenUp : record.destroyed = false → s.refersTo key = true →
    ∀ {command report t}, run (.command command) s = (report, t) → t.refersTo key = false →
      t.vault.Wiped key record cell ∧
        report.warnings.filter (·.isAbandonment) = [.keyAbandoned record.keyId]
  useless : record.destroyed = true → ∀ {name}, find s.keys name = .ok key → s.Useless name

theorem run_command {command : Command} {outcome : Except Failure Reply}
    (h : s.quiet.perform command = (outcome, t)) :
    run (.command command) s = (t.report outcome none, t) := by
  rw [run, h]

/-- A command that only runs an action, which fails and changes nothing. -/
theorem report_of_answer {command : Command} {action : Action Reply} {failure : Failure}
    (hperform : s.quiet.perform command = s.quiet.answer action)
    (h : action s.quiet.vault = (.error failure, s.quiet.vault)) :
    (run (.command command) s).1 = ⟨.error failure, [], [], none⟩ := by
  rw [answer, act, h] at hperform
  rw [run_command hperform]
  rfl

theorem lift_find {α : Type} {names : Names α} {value : α} (v : Vault)
    (h : find names name = .ok value) : Action.lift (find names name) v = (.ok value, v) :=
  congrArg (·, v) h

theorem credential_named (v : Vault) (hname : find s.keys name = .ok key) :
    s.credential (.named name) v = (.ok (.key key), v) :=
  Action.bind_of_ok (lift_find v hname)

section Destroyed

variable (hyields : SecretKey.Yields s.quiet.vault key record (.error .keyDestroyed))
  (hname : find s.quiet.keys name = .ok key)

include hyields hname

theorem reveal_destroyed :
    (run (.command (.reveal name)) s).1 = ⟨.error .keyDestroyed, [], [], none⟩ :=
  report_of_answer rfl
    ((Action.bind_of_ok (lift_find _ hname)).trans (Action.bind_of_error hyields.secret_eq))

theorem hold_destroyed (target : String) :
    (run (.command (.hold name target)) s).1 = ⟨.error .keyDestroyed, [], [], none⟩ := by
  have hheld : heldBy key s.quiet.vault = (.error .keyDestroyed, s.quiet.vault) :=
    Action.bind_of_error hyields.secret_eq
  have hperform : s.quiet.perform (.hold name target) = (.error .keyDestroyed, s.quiet) := by
    rw [perform, answerHolding, act,
      Action.bind_of_error ((Action.bind_of_ok (lift_find _ hname)).trans hheld)]
  rw [run_command hperform]
  rfl

theorem unlock_destroyed (suite : Suite) {password : String} {x : StoredPassword}
    (hx : find s.quiet.passwords password = .ok x) :
    (run (.command (.unlock suite password (.named name))) s).1 =
      ⟨.error .keyDestroyed, [], [], none⟩ := by
  have hunlock : x.unlock suite (.key key) s.quiet.vault =
      (.error .keyDestroyed, s.quiet.vault) := Action.bind_of_error hyields.secret_eq
  exact report_of_answer rfl ((Action.bind_of_ok (credential_named _ hname)).trans
    ((Action.bind_of_ok (lift_find _ hx)).trans (Action.bind_of_error hunlock)))

theorem lockWith_destroyed (suite : Suite) (target : String) (vector clearText : Argument) :
    ∃ failure report t,
      run (.command (.lockWith suite target (.named name) vector clearText)) s = (report, t) ∧
      report.outcome = .error failure ∧ report.calls = [] ∧
      ∀ iv clear, vector.toBytes .constant = .ok iv → iv.length = Envelope.vectorLength →
        clearText.Spells clear → clear ≠ [] → failure = .keyDestroyed := by
  obtain ⟨failure, hnone, hvalid⟩ :=
    StoredPassword.encryption_destroyed record vector clearText
  obtain ⟨houtcome, hcalls⟩ :=
    StoredPassword.lockUnder_conducts suite hyields vector clearText
  rw [hnone] at houtcome hcalls
  rcases hlocked : StoredPassword.lockUnder suite key vector clearText s.quiet.vault with
    ⟨outcome, w⟩
  rw [hlocked] at houtcome hcalls
  obtain rfl : outcome = .error failure := houtcome
  have hperform : s.quiet.perform (.lockWith suite target (.named name) vector clearText) =
      (.error failure, { s.quiet with vault := w }) := by
    rw [perform, answerPassword, act, Action.bind_of_ok (credential_named _ hname)]
    rw [show StoredPassword.lockWith suite (.key key) vector clearText s.quiet.vault = _
      from hlocked]
  exact ⟨failure, _, _, run_command hperform, rfl, hcalls, hvalid⟩

end Destroyed

theorem useless_of_destroyed (hrecord : s.vault.keys[key]? = some record)
    (hdestroyed : record.destroyed = true) (hname : find s.keys name = .ok key) :
    s.Useless name :=
  have hyields : SecretKey.Yields s.quiet.vault key record (.error .keyDestroyed) :=
    .destroyed hrecord hdestroyed
  { reveal := reveal_destroyed hyields hname
    hold := hold_destroyed hyields hname
    unlock := fun suite _ _ hx => unlock_destroyed hyields hname suite hx
    lockWith := lockWith_destroyed hyields hname }

/-- Every command that takes the last reference from a live key destroys it with one warning. -/
theorem wiped_of_givenUp (hs : s.Sound) (hrecord : s.vault.keys[key]? = some record)
    (hmaterial : record.material = .buffer cell) (hlive : record.destroyed = false)
    (hheld : s.refersTo key = true) {command : Command} {report : Report}
    (hrun : run (.command command) s = (report, t)) (hlost : t.refersTo key = false) :
    t.vault.Wiped key record cell ∧
      report.warnings.filter (·.isAbandonment) = [.keyAbandoned record.keyId] := by
  have hsettles := settles_perform command (sound_quiet hs)
  rcases hperform : s.quiet.perform command with ⟨outcome, u⟩
  rw [hperform] at hsettles
  obtain ⟨rfl, rfl⟩ := Prod.mk.inj ((run_command hperform).symm.trans hrun)
  have hisLive : s.vault.isLive key = true := by
    rw [Vault.isLive_eq hrecord, hlive, hmaterial]
    rfl
  have hin : key ∈ s.quiet.losing u := mem_losing.mpr ⟨hisLive, hheld, hlost⟩
  refine ⟨hsettles.wiped hin hrecord hmaterial, ?_⟩
  have hone := losing_eq_singleton hin fun other hother => hsettles.alone hother hin
  show u.vault.abandonments = _
  rw [hsettles.warned, hone, List.map_singleton, Vault.abandonment]
  show [] ++ [Warning.keyAbandoned ((s.vault.keys[key]?.map (·.keyId)).getD [])] = _
  rw [hrecord]
  rfl

/-- Destroying a key, by its name. -/
theorem run_destroy (hs : s.Sound) (hrecord : s.vault.keys[key]? = some record)
    (hmaterial : record.material = .buffer cell) (hname : find s.keys name = .ok key) :
    ∃ t, run (.command (.destroy name)) s = (⟨.ok .nothing, [], [], none⟩, t) ∧
      t.vault.Wiped key record cell := by
  obtain ⟨cells, keys, hdestroy, hwiped⟩ :=
    @SecretKey.destroy_of_sized s.quiet.vault _ _ _ hs.sized hrecord hmaterial
  have hperform : s.quiet.perform (.destroy name) =
      (.ok .nothing, { s.quiet with vault := { s.quiet.vault with cells, keys } }) := by
    have hfound := lift_find s.quiet.vault (show find s.quiet.keys name = .ok key from hname)
    rw [perform, answer, act, Action.bind_of_ok hfound, Action.bind_of_ok hdestroy]
    rfl
  exact ⟨_, run_command hperform, hwiped⟩

/-- A block on a key ends with the key destroyed, whatever its steps have done to it. -/
theorem run_within (hs : s.Sound) (hrecord : s.vault.keys[key]? = some record)
    (hmaterial : record.material = .buffer cell) (hname : find s.keys name = .ok key)
    (body : List Step) (failing? : Option String) :
    ∃ reports t, run (.within name body failing?) s =
        (⟨blockOutcome record failing?, [], [], some reports⟩, t) ∧
      t.vault.Wiped key record cell := by
  obtain ⟨j, hpath, -, -⟩ := path_runAll body (s.enter key)
  rcases hbody : runAll body (s.enter key) with ⟨reports, ended⟩
  rw [hbody] at hpath
  have hpasses := ((Move.entered hname).path.trans hpath).passes hs
  have hended := sound_quiet (hpasses.sound hs)
  obtain ⟨destroyed, hlater, -⟩ := hpasses.ages.keys hrecord
  obtain ⟨cells, keys, hdestroy, hwiped⟩ :=
    SecretKey.destroy_of_sized hended.sized (show ended.quiet.vault.keys[key]? = _ from hlater)
      hmaterial
  let w : Vault := { ended.quiet.vault with cells, keys }
  have hwithin : SecretKey.within key (ending failing?) ended.quiet.vault =
      ((ending failing? ended.quiet.vault).1, w) := by
    cases failing? <;> exact Action.ensuring_eq rfl hdestroy
  have hdead : w.isLive key = false := by
    rw [Vault.isLive_eq hwiped.key]
    rfl
  have hleave : ended.quiet.leave key failing? = (blockOutcome record failing?,
      { ended.quiet with vault := w, entered := ended.entered.drop 1 }) := by
    rw [leave_eq hwithin (view_eq hwiped.key), releaseKey_of_not_isLive hdead]
    cases failing? <;> rfl
  refine ⟨reports, { ended.quiet with vault := w, entered := ended.entered.drop 1 }, ?_,
    hwiped.key, hwiped.cell⟩
  rw [run, hname]
  dsimp only
  rw [hbody]
  dsimp only
  rw [hleave]
  rfl

theorem keyLife (hs : s.Sound) (hrecord : s.vault.keys[key]? = some record)
    (hmaterial : record.material = .buffer cell) : s.KeyLife key record cell where
  later hpath := (hpath.passes hs).ages.keys hrecord
  zeros hpath hzeros hkept := by
    obtain ⟨later, hlater, -, hsame⟩ := (hpath.passes hs).ages.cells hzeros
    rcases hsame hkept with rfl | rfl
    · exact hlater
    · rwa [Bytes.cleared, Bytes.length_zeros] at hlater
  destroy hname := run_destroy hs hrecord hmaterial hname
  leave hname := run_within hs hrecord hmaterial hname
  drop {name} hname := by
    have hperform : s.quiet.perform (.drop name) = (.ok .nothing, s.quiet.dropKey name key) := by
      rw [perform, show find s.quiet.keys name = .ok key from hname]
    rw [run_command hperform]
    rfl
  givenUp hlive hheld _ _ _ hrun hlost :=
    wiped_of_givenUp hs hrecord hmaterial hlive hheld hrun hlost
  useless hdestroyed _ hname := useless_of_destroyed hrecord hdestroyed hname

theorem sound_ofEnvironment (environment : Environment) : (ofEnvironment environment).Sound where
  distinct := List.nodup_nil
  sized h := by cases h
  kept h := by cases h

/-- **The life of a key.** Running steps takes a path, whose warnings are those of the reports. On
every path exactly the keys that lost their last reference while they were live have been given up,
each with one warning, and something refers to every other live key. In every session that is
reached in this way, every key that was made from a buffer has the life of a key. -/
theorem key_lifecycle (environment : Environment) :
    (∀ steps, ∃ j, (ofEnvironment environment).Path j (runAll steps (ofEnvironment environment)).2 ∧
      j.warnings = givenAll (runAll steps (ofEnvironment environment)).1) ∧
    ∀ j s, (ofEnvironment environment).Path j s →
      j.lost.Nodup ∧
      j.warnings.filter (·.isAbandonment) = j.lost.map s.vault.abandonment ∧
      (∀ key, s.vault.isLive key = true → s.refersTo key = true) ∧
      ∀ key record cell, s.vault.keys[key]? = some record → record.material = .buffer cell →
        s.KeyLife key record cell := by
  refine ⟨fun steps => ?_, fun j s hpath => ?_⟩
  · obtain ⟨j, hpath, hwarnings, -⟩ := path_runAll steps (ofEnvironment environment)
    exact ⟨j, hpath, hwarnings⟩
  · have hpasses := hpath.passes (sound_ofEnvironment environment)
    have hs := hpasses.sound (sound_ofEnvironment environment)
    exact ⟨hpasses.nodup, hpasses.warned, fun _ => hs.kept, fun _ _ _ => keyLife hs⟩

/-- The steps that make one key, around a buffer. -/
def makeKey : List Step :=
  [.command (.create "k" (.ofBytes [1]) (.ofBytes (.zeros 16))
    (.value (.octets .buffer (List.replicate 32 7))))]

/-- The key that was made loses its last reference when its name is removed. When it has been
destroyed instead, it is of no use. -/
theorem key_lifecycle_makeKey :
    (∃ t, run (.command (.drop "k")) (runAll makeKey (ofEnvironment [])).2 =
        (⟨.ok .nothing, [.keyAbandoned [1]], [], none⟩, t) ∧
      t.vault.Wiped 0 ⟨[1], .zeros 16, .buffer 0, false⟩ 0) ∧
    (runAll (makeKey ++ [.command (.destroy "k")]) (ofEnvironment [])).2.Useless "k" := by
  obtain ⟨hruns, hlives⟩ := key_lifecycle []
  obtain ⟨j, hmade, -⟩ := hruns makeKey
  obtain ⟨k, hdestroyed, -⟩ := hruns (makeKey ++ [.command (.destroy "k")])
  have hlife := (hlives j _ hmade).2.2.2 0 ⟨[1], .zeros 16, .buffer 0, false⟩ 0 (by rfl) rfl
  have hspent := (hlives k _ hdestroyed).2.2.2 0 ⟨[1], .zeros 16, .buffer 0, true⟩ 0 (by rfl) rfl
  have hdropped : ∃ t, run (.command (.drop "k")) (runAll makeKey (ofEnvironment [])).2 =
      (⟨.ok .nothing, [.keyAbandoned [1]], [], none⟩, t) ∧ t.refersTo 0 = false :=
    ⟨_, by rfl, by rfl⟩
  obtain ⟨t, hrun, hlost⟩ := hdropped
  exact ⟨⟨t, hrun, (hlife.givenUp rfl (by rfl) hrun hlost).1⟩, hspent.useless rfl (by rfl)⟩

end Session

end PasswordVault
