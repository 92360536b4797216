import NativeGlobals.Proofs.Place

/-! Runs under observation. An observer gets to know a part of a run: some steps escape it, and
of the others it sees a form and a part of what they come to. If what escapes it makes no
difference to what it sees of a single step, it makes none to what it sees of a run, and then two
runs whose steps look the same to the observer come to what looks the same to it. -/

namespace NativeGlobals

/-- A step that a run takes, and what it comes to: a transition, or the exit of the process. -/
structure Outcome where
  step : Step
  result : Except Exit Transition

structure Observer (Seen Told : Type) where
  /-- Whether the step is noticed at all. -/
  heeds : Step → Bool
  /-- What is noticed of the step. -/
  form : Step → Step
  seen : Transition → Seen
  told : Exit → Told

namespace Process

/-- What the steps of a run come to. Only the last one can be an exit. -/
def outcomes (process : Process) (steps : List Step) : List Outcome :=
  List.zipWith Outcome.mk steps
    ((process.run steps).trace.map .ok ++ (process.run steps).exit.toList.map .error)

/-- Everything that a run logs, up to its exit and with it. -/
def logged (process : Process) (steps : List Step) : List Entry :=
  (process.run steps).log ++ ((process.run steps).exit.map Exit.log).getD []

variable {process : Process} {step : Step}

theorem outcomes_cons_of_error {exit : Exit} (ended : process.step step = .error exit)
    (later : List Step) : process.outcomes (step :: later) = [⟨step, .error exit⟩] := by
  simp [outcomes, run_cons_of_error ended]

theorem outcomes_cons_of_ok {transition : Transition} (survived : process.step step = .ok transition)
    (later : List Step) :
    process.outcomes (step :: later) =
      ⟨step, .ok transition⟩ :: transition.process.outcomes later := by
  simp [outcomes, run_cons_of_ok survived]

theorem exit_run_cons {transition : Transition} (survived : process.step step = .ok transition)
    (later : List Step) :
    (process.run (step :: later)).exit = (transition.process.run later).exit := by
  rw [run_cons_of_ok survived]

theorem logged_cons_of_error {exit : Exit} (ended : process.step step = .error exit)
    (later : List Step) : process.logged (step :: later) = exit.log := by
  simp [logged, run_cons_of_error ended, Run.log]

theorem logged_cons_of_ok {transition : Transition} (survived : process.step step = .ok transition)
    (later : List Step) :
    process.logged (step :: later) = transition.log ++ transition.process.logged later := by
  simp [logged, run_cons_of_ok survived, Run.log]

theorem logged_of_survived {steps : List Step} (survived : (process.run steps).exit = none) :
    process.logged steps = (process.run steps).log := by
  simp [logged, survived]

end Process

namespace Observer

variable {Seen Told : Type} (observer : Observer Seen Told)

def steps (taken : List Step) : List Step := (taken.filter observer.heeds).map observer.form

def view (outcome : Outcome) : Step × Except Told Seen :=
  (observer.form outcome.step,
    match outcome.result with
    | .ok transition => .ok (observer.seen transition)
    | .error exit => .error (observer.told exit))

/-- What the observer gets to know of a run: the steps that it notices, and what they come to. -/
def outcomes (process : Process) (taken : List Step) : List (Step × Except Told Seen) :=
  ((process.outcomes taken).filter fun outcome => observer.heeds outcome.step).map observer.view

/-- Whether the form of a step stands for the step where the two processes are related: the
observer learns the same of both, and the processes after them are related again. A step that
escapes the observer leaves the processes related. -/
structure Unwinds (Related : Process → Process → Prop) : Prop where
  escapes : ∀ {first second : Process} {step : Step}, Related first second →
    observer.heeds step = false →
      ∃ transition, first.step step = .ok transition ∧ Related transition.process second
  stands : ∀ {first second : Process} {step : Step}, Related first second →
    observer.heeds step = true →
      match first.step step, second.step (observer.form step) with
      | .ok one, .ok other =>
          observer.seen one = observer.seen other ∧ Related one.process other.process
      | .error one, .error other => observer.told one = observer.told other
      | _, _ => False
  heeds_form : ∀ {step : Step}, observer.heeds step = true →
    observer.heeds (observer.form step) = true
  form_form : ∀ step : Step, observer.form (observer.form step) = observer.form step

variable {observer} {Related : Process → Process → Prop}

/-- A run looks like the run of what is noticed of its steps. -/
theorem Unwinds.run (unwinds : observer.Unwinds Related) {first second : Process}
    (related : Related first second) (taken : List Step) :
    Related (first.run taken).final (second.run (observer.steps taken)).final ∧
      (first.run taken).exit.map observer.told =
        (second.run (observer.steps taken)).exit.map observer.told ∧
      observer.outcomes first taken = observer.outcomes second (observer.steps taken) := by
  induction taken generalizing first second with
  | nil => exact ⟨related, rfl, rfl⟩
  | cons step later ih =>
    cases heeded : observer.heeds step with
    | false =>
      -- The first run takes the step, and the other one stays where it is.
      obtain ⟨transition, survived, still⟩ := unwinds.escapes related heeded
      have skipped : observer.steps (step :: later) = observer.steps later := by
        simp [steps, heeded]
      rw [skipped, Process.run_cons_of_ok survived]
      simpa [outcomes, Process.outcomes_cons_of_ok survived, heeded] using ih still
    | true =>
      have noticed : observer.steps (step :: later) =
          observer.form step :: observer.steps later := by
        simp [steps, heeded]
      have formed := unwinds.heeds_form heeded
      have stands := unwinds.stands related heeded
      rw [noticed]
      split at stands
      next one other survived alike =>
        obtain ⟨final, exit, rest⟩ := ih stands.2
        rw [Process.run_cons_of_ok survived, Process.run_cons_of_ok alike]
        refine ⟨final, exit, ?_⟩
        simpa [outcomes, Process.outcomes_cons_of_ok survived, Process.outcomes_cons_of_ok alike,
          heeded, formed, view, unwinds.form_form, stands.1] using rest
      next one other ended alike =>
        rw [Process.run_cons_of_error ended, Process.run_cons_of_error alike]
        refine ⟨related, congrArg some stands, ?_⟩
        simp [outcomes, Process.outcomes_cons_of_error ended, Process.outcomes_cons_of_error alike,
          heeded, formed, view, unwinds.form_form, stands]
      next => exact stands.elim

theorem Unwinds.outcomes_eq (unwinds : observer.Unwinds Related) {first second middle : Process}
    (firstRelated : Related first middle) (secondRelated : Related second middle)
    {one other : List Step} (same : observer.steps one = observer.steps other) :
    observer.outcomes first one = observer.outcomes second other ∧
      (first.run one).exit.map observer.told = (second.run other).exit.map observer.told := by
  obtain ⟨_, firstExit, firstOutcomes⟩ := unwinds.run firstRelated one
  obtain ⟨_, secondExit, secondOutcomes⟩ := unwinds.run secondRelated other
  rw [firstExit, secondExit, firstOutcomes, secondOutcomes, same]
  exact ⟨rfl, rfl⟩

end Observer

end NativeGlobals
