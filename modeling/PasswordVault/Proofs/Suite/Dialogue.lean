import PasswordVault.Proofs.Vault.Runs

/-!
# Dialogues with a suite

An operation that needs a suite goes on from what the suite answers. Taken by itself, that is a
dialogue: it is over, or it makes a call and has a rest for every answer. A failure of the suite
ends it.

## Main definitions

- `Dialogue` — what is asked, and what comes of the answers
- `Dialogue.run` — the outcome of a dialogue with a suite, and the calls made
- `Suite.Heeds` — an outcome respects the failures of a suite
- `Action.Conducts` — an action deals with a suite as a dialogue does

`Dialogue.heeds_run` says that every dialogue stops at the first failure. `Action.Conducts` has one
rule for each combinator of actions, so that what an operation asks can be read off its steps.
-/

namespace PasswordVault

open Suite (Call)

/-- What is asked of a suite, each call in the light of the answers before it. -/
inductive Dialogue (α : Type)
  | done (outcome : Except Failure α)
  | ask (call : Call) (next : Argument → Dialogue α)

namespace Dialogue

variable {α β : Type} {suite : Suite} {history : List Call}

/-- One dialogue after another; a failure of the first is the outcome. -/
def andThen : Dialogue α → (α → Dialogue β) → Dialogue β
  | done (.ok value), next => next value
  | done (.error failure), _ => done (.error failure)
  | ask call rest, next => ask call fun answer => (rest answer).andThen next

instance : Monad Dialogue where
  pure value := done (.ok value)
  bind := andThen

theorem andThen_assoc {γ : Type} (d : Dialogue α) (f : α → Dialogue β) (g : β → Dialogue γ) :
    (d.andThen f).andThen g = d.andThen fun value => (f value).andThen g := by
  induction d with
  | done outcome => cases outcome <;> rfl
  | ask call next ih => exact congrArg (ask call) (funext ih)

theorem andThen_pure (d : Dialogue α) : (d.andThen fun value => done (.ok value)) = d := by
  induction d with
  | done outcome => cases outcome <;> rfl
  | ask call next ih => exact congrArg (ask call) (funext ih)

instance : LawfulMonad Dialogue :=
  LawfulMonad.mk' Dialogue andThen_pure (fun _ _ => rfl) andThen_assoc

/-- A single call, and its answer. -/
def call (c : Call) : Dialogue Argument :=
  ask c fun answer => done (.ok answer)

/-- The outcome of a dialogue with a suite that has answered `history` before, and the calls that
are made. -/
def run (suite : Suite) : Dialogue α → List Call → Except Failure α × List Call
  | done outcome, _ => (outcome, [])
  | ask call next, history =>
    match suite.answer history call with
    | .error failure => (.error failure, [call])
    | .ok answer =>
      let (outcome, calls) := (next answer).run suite (history ++ [call])
      (outcome, call :: calls)

theorem run_ask_of_ok {call : Call} {next : Argument → Dialogue α} {answer : Argument}
    (h : suite.answer history call = .ok answer) :
    (ask call next).run suite history =
      (((next answer).run suite (history ++ [call])).1,
        call :: ((next answer).run suite (history ++ [call])).2) := by
  simp only [run, h]

theorem run_ask_of_error {call : Call} {next : Argument → Dialogue α} {failure : Failure}
    (h : suite.answer history call = .error failure) :
    (ask call next).run suite history = (.error failure, [call]) := by
  simp only [run, h]

theorem run_call (suite : Suite) (history : List Call) (c : Call) :
    (call c).run suite history = (suite.answer history c, [c]) := by
  cases h : suite.answer history c with
  | ok answer => exact run_ask_of_ok h
  | error failure => exact run_ask_of_error h

theorem run_bind_of_error {d : Dialogue α} {more : α → Dialogue β} {failure : Failure}
    {calls : List Call} (h : d.run suite history = (.error failure, calls)) :
    (d >>= more).run suite history = (.error failure, calls) := by
  show (d.andThen more).run suite history = (.error failure, calls)
  induction d generalizing history calls with
  | done outcome =>
    cases h
    rfl
  | ask call next ih =>
    cases hanswer : suite.answer history call with
    | error other =>
      rw [run_ask_of_error hanswer] at h
      cases h
      exact run_ask_of_error hanswer
    | ok answer =>
      rw [run_ask_of_ok hanswer] at h
      obtain ⟨hfirst, rfl⟩ := Prod.mk.inj h
      rw [andThen, run_ask_of_ok hanswer, ih answer (Prod.ext hfirst rfl)]

theorem run_bind_of_ok {d : Dialogue α} {more : α → Dialogue β} {value : α} {calls : List Call}
    (h : d.run suite history = (.ok value, calls)) :
    (d >>= more).run suite history =
      (((more value).run suite (history ++ calls)).1,
        calls ++ ((more value).run suite (history ++ calls)).2) := by
  show (d.andThen more).run suite history = _
  induction d generalizing history calls with
  | done outcome =>
    cases h
    rw [List.append_nil]
    rfl
  | ask call next ih =>
    cases hanswer : suite.answer history call with
    | error other =>
      rw [run_ask_of_error hanswer] at h
      cases h
    | ok answer =>
      rw [run_ask_of_ok hanswer] at h
      obtain ⟨hfirst, rfl⟩ := Prod.mk.inj h
      rw [andThen, run_ask_of_ok hanswer, ih answer (Prod.ext hfirst rfl), List.append_assoc]
      rfl

theorem fst_run_done_bind (outcome : Except Failure α) (more : α → Dialogue β) (suite : Suite)
    (history : List Call) :
    ((done outcome >>= more).run suite history).1 =
      outcome >>= fun value => ((more value).run suite history).1 := by
  cases outcome <;> rfl

theorem fst_run_call_bind (c : Call) (more : Argument → Dialogue β) (suite : Suite)
    (history : List Call) :
    ((call c >>= more).run suite history).1 =
      suite.answer history c >>= fun answer => ((more answer).run suite (history ++ [c])).1 := by
  have hcall := run_call suite history c
  cases hanswer : suite.answer history c with
  | error failure => rw [run_bind_of_error (hcall.trans (congrArg (·, [c]) hanswer))]; rfl
  | ok answer => rw [run_bind_of_ok (hcall.trans (congrArg (·, [c]) hanswer))]; rfl

/-- A call after which nothing more is asked. -/
theorem snd_run_call_bind {c : Call} {more : Argument → Dialogue β}
    (h : ∀ answer, ((more answer).run suite (history ++ [c])).2 = []) :
    ((call c >>= more).run suite history).2 = [c] := by
  have hcall := run_call suite history c
  cases hanswer : suite.answer history c with
  | error failure => rw [run_bind_of_error (hcall.trans (congrArg (·, [c]) hanswer))]
  | ok answer =>
    rw [run_bind_of_ok (hcall.trans (congrArg (·, [c]) hanswer)), h answer]
    rfl

theorem run_map {β : Type} (f : α → β) (d : Dialogue α) (suite : Suite) (history : List Call) :
    (f <$> d).run suite history = ((d.run suite history).1.map f, (d.run suite history).2) := by
  show (d >>= fun value => done (.ok (f value))).run suite history = _
  cases hd : d.run suite history with
  | mk outcome calls =>
  cases outcome with
  | error failure => exact run_bind_of_error hd
  | ok value =>
    rw [run_bind_of_ok hd, run, List.append_nil]
    rfl

end Dialogue

/-- An outcome respects the failures of a suite: one that fails on a call is not asked again, and
the failure is the outcome. -/
def Suite.Heeds {α : Type} (suite : Suite) (history calls : List Call)
    (outcome : Except Failure α) : Prop :=
  ∀ before call failure, before ++ [call] <+: calls →
    suite.answer (history ++ before) call = .error failure →
      before ++ [call] = calls ∧ outcome = .error failure

/-- **Every dialogue stops** at the first failure of the suite. -/
theorem Dialogue.heeds_run {α : Type} (suite : Suite) (d : Dialogue α) (history : List Call) :
    suite.Heeds history (d.run suite history).2 (d.run suite history).1 := by
  induction d generalizing history with
  | done outcome =>
    intro before call failure hbegins
    exact absurd (List.prefix_nil.mp hbegins) (List.concat_ne_nil _ _)
  | ask asked next ih =>
    intro before call failure hbegins hfailed
    cases hanswer : suite.answer history asked with
    | error other =>
      rw [run_ask_of_error hanswer] at hbegins ⊢
      cases before with
      | nil =>
        obtain ⟨rfl, -⟩ := List.cons_prefix_cons.mp hbegins
        rw [List.append_nil, hanswer] at hfailed
        exact ⟨rfl, congrArg Except.error (Except.error.inj hfailed)⟩
      | cons first rest =>
        obtain ⟨-, hnone⟩ := List.cons_prefix_cons.mp hbegins
        exact absurd (List.prefix_nil.mp hnone) (List.concat_ne_nil _ _)
    | ok answer =>
      rw [run_ask_of_ok hanswer] at hbegins ⊢
      cases before with
      | nil =>
        obtain ⟨rfl, -⟩ := List.cons_prefix_cons.mp hbegins
        rw [List.append_nil, hanswer] at hfailed
        cases hfailed
      | cons first rest =>
        obtain ⟨rfl, hrest⟩ := List.cons_prefix_cons.mp hbegins
        rw [List.append_cons] at hfailed
        obtain ⟨hlast, houtcome⟩ := ih answer (history ++ [first]) rest call failure hrest hfailed
        exact ⟨congrArg (first :: ·) hlast, houtcome⟩

namespace Action

variable {α β γ : Type} {suite : Suite} {v w : Vault}

/-- An action deals with a suite as a dialogue does: it has the same outcome and makes the same
calls. -/
structure Conducts (suite : Suite) (action : Action α) (v : Vault) (d : Dialogue α) : Prop where
  outcome : (action v).1 = (d.run suite v.calls).1
  calls : (action v).2.calls = v.calls ++ (d.run suite v.calls).2

theorem conducts_done {action : Action α} {outcome : Except Failure α}
    (h : action v = (outcome, w)) (hcalls : w.calls = v.calls) :
    Conducts suite action v (.done outcome) := by
  refine ⟨congrArg Prod.fst h, ?_⟩
  rw [h, Dialogue.run, List.append_nil, hcalls]

theorem conducts_ask (suite : Suite) (call : Call) (v : Vault) :
    Conducts suite (ask suite call) v (.call call) := by
  refine ⟨?_, ?_⟩ <;> rw [ask_apply, Dialogue.run_call]

/-- An action goes on as a dialogue does, from every value that comes out of its first part. The
dialogue may know more of that value than the action. -/
theorem Conducts.bind_of_map {first : Action α} {next : α → Action β} {d : Dialogue γ} {f : γ → α}
    {more : γ → Dialogue β} (h : Conducts suite first v (f <$> d))
    (hnext : ∀ value w, (d.run suite v.calls).1 = .ok value → first v = (.ok (f value), w) →
      Conducts suite (next (f value)) w (more value)) :
    Conducts suite (first >>= next) v (d >>= more) := by
  obtain ⟨houtcome, hcalls⟩ := h
  rw [Dialogue.run_map] at houtcome hcalls
  cases hfirst : first v with
  | mk outcome w =>
  rw [hfirst] at houtcome hcalls
  cases hd : d.run suite v.calls with
  | mk told calls =>
  rw [hd] at houtcome hcalls
  cases told with
  | error failure =>
    obtain rfl : outcome = .error failure := houtcome
    refine ⟨?_, ?_⟩ <;> rw [bind_of_error hfirst, Dialogue.run_bind_of_error hd]
    exact hcalls
  | ok value =>
    obtain rfl : outcome = .ok (f value) := houtcome
    obtain ⟨hrest, hmore⟩ := hnext value w (congrArg Prod.fst hd) hfirst
    refine ⟨?_, ?_⟩ <;> rw [bind_of_ok hfirst, Dialogue.run_bind_of_ok hd, ← hcalls]
    · exact hrest
    · rw [hmore, hcalls, List.append_assoc]

theorem Conducts.bind {first : Action α} {next : α → Action β} {d : Dialogue α}
    {more : α → Dialogue β} (h : Conducts suite first v d)
    (hnext : ∀ value w, first v = (.ok value, w) → Conducts suite (next value) w (more value)) :
    Conducts suite (first >>= next) v (d >>= more) := by
  rw [← id_map d] at h
  exact h.bind_of_map fun value w _ => hnext value w

/-- What asks nothing and succeeds leaves no trace in a dialogue. -/
theorem Conducts.of_silent {first : Action α} {next : α → Action β} {d : Dialogue β} {value : α}
    (h : first v = (.ok value, w)) (hcalls : w.calls = v.calls)
    (hnext : Conducts suite (next value) w d) : Conducts suite (first >>= next) v d := by
  obtain ⟨houtcome, hmade⟩ := hnext
  rw [hcalls] at houtcome hmade
  refine ⟨?_, ?_⟩ <;> rw [bind_of_ok h]
  · exact houtcome
  · exact hmade

/-- A conversion is made on both sides. -/
theorem Conducts.lift_bind {conversion : Except Failure α} {next : α → Action β}
    {more : α → Dialogue β}
    (hnext : ∀ value, conversion = .ok value → Conducts suite (next value) v (more value)) :
    Conducts suite (lift conversion >>= next) v (.done conversion >>= more) := by
  refine Conducts.bind (conducts_done (lift_apply conversion v) rfl) ?_
  intro value w hvalue
  obtain ⟨rfl, rfl⟩ := Prod.mk.inj hvalue
  exact hnext value rfl

/-- A clean-up that asks nothing and succeeds leaves no trace either. -/
theorem Conducts.ensuring {body : Action α} {cleanup : Action Unit} {d : Dialogue α}
    (h : Conducts suite body v d)
    (hcleanup : ∀ outcome w, body v = (outcome, w) →
      ∃ u, cleanup w = (.ok (), u) ∧ u.calls = w.calls) :
    Conducts suite (Action.ensuring body cleanup) v d := by
  obtain ⟨houtcome, hcalls⟩ := h
  cases hbody : body v with
  | mk outcome w =>
  obtain ⟨u, hu, hsame⟩ := hcleanup outcome w hbody
  rw [hbody] at houtcome hcalls
  refine ⟨?_, ?_⟩ <;> rw [ensuring_eq hbody hu]
  · exact houtcome
  · exact hsame.trans hcalls

theorem conducts_ensuring_wipe {body : Action α} {cell : Cell} {d : Dialogue α}
    (h : Conducts suite body v d) : Conducts suite (Action.ensuring body (wipe cell)) v d :=
  h.ensuring fun _ w _ => ⟨_, wipe_apply cell w, rfl⟩

end Action

end PasswordVault
