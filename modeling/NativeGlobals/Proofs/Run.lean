import NativeGlobals.Process

/-! A run as the host sees it: the steps that were survived, each with the answer it got. What
relates a start to itself, and is kept as survived steps add their exchanges, relates the
exchanges of every run to the registry after them, and so holds at every point of the run. -/

namespace NativeGlobals

structure Exchange where
  step : Step
  answer : Answer

namespace Process

theorem of_step_eq_ok {process : Process} {step : Step} {transition : Transition}
    (survived : process.step step = .ok transition) :
    (process.registry.perform step).fatal = none ∧
      transition.process.registry = (process.registry.perform step).registry ∧
      transition.answer = (process.registry.perform step).answer := by
  simp only [Process.step, deliver_prepare, registry_prepare] at survived
  split at survived
  next => cases survived
  next harmless =>
    cases survived
    exact ⟨harmless, rfl, rfl⟩

theorem exists_step_eq_ok {process : Process} {step : Step}
    (harmless : (process.registry.perform step).fatal = none) :
    ∃ transition, process.step step = .ok transition := by
  simp only [Process.step, deliver_prepare, registry_prepare, harmless]
  exact ⟨_, rfl⟩

/-- Whether the process survives the step and gives this answer. -/
def Answers (process : Process) (step : Step) (answer : Answer) : Prop :=
  ∃ transition, process.step step = .ok transition ∧ transition.answer = answer

theorem answers_iff {process : Process} {step : Step} {answer : Answer} :
    process.Answers step answer ↔
      (process.registry.perform step).fatal = none ∧
        (process.registry.perform step).answer = answer := by
  refine ⟨fun answered => ?_, fun performed => ?_⟩
  · obtain ⟨transition, survived, given⟩ := answered
    obtain ⟨harmless, _, same⟩ := of_step_eq_ok survived
    exact ⟨harmless, same ▸ given⟩
  · obtain ⟨harmless, given⟩ := performed
    obtain ⟨transition, survived⟩ := exists_step_eq_ok harmless
    exact ⟨transition, survived, (of_step_eq_ok survived).2.2.trans given⟩

def exchanges (process : Process) (steps : List Step) : List Exchange :=
  List.zipWith Exchange.mk steps ((process.run steps).trace.map Transition.answer)

theorem exchanges_cons_of_error {process : Process} {step : Step} {exit : Exit}
    (ended : process.step step = .error exit) (later : List Step) :
    process.exchanges (step :: later) = [] := by
  simp only [exchanges, run_cons_of_error ended, List.map_nil, List.zipWith_nil_right]

theorem exchanges_cons_of_ok {process : Process} {step : Step} {transition : Transition}
    (survived : process.step step = .ok transition) (later : List Step) :
    process.exchanges (step :: later) =
      ⟨step, transition.answer⟩ :: transition.process.exchanges later := by
  simp only [exchanges, run_cons_of_ok survived, List.map_cons, List.zipWith_cons_cons]

/-- A history lists the first steps of the run, one for each transition. -/
theorem map_step_exchanges (process : Process) (steps : List Step) :
    (process.exchanges steps).map Exchange.step =
      steps.take (process.run steps).trace.length := by
  induction steps generalizing process with
  | nil => rfl
  | cons step later ih =>
    cases taken : process.step step with
    | error exit =>
      rw [exchanges_cons_of_error taken, run_cons_of_error taken]
      rfl
    | ok transition =>
      rw [exchanges_cons_of_ok taken, run_cons_of_ok taken, List.map_cons, ih,
        List.length_cons, List.take_succ_cons]

theorem length_trace_of_survived {start : Process} {steps : List Step}
    (survived : (start.run steps).exit = none) :
    (start.run steps).trace.length = steps.length := by
  induction steps generalizing start with
  | nil => rfl
  | cons step later ih =>
    obtain ⟨transition, taken, onward⟩ := exists_step_of_survived survived
    rw [run_cons_of_ok taken]
    exact congrArg (· + 1) (ih onward)

theorem map_step_exchanges_of_survived {start : Process} {steps : List Step}
    (survived : (start.run steps).exit = none) :
    (start.exchanges steps).map Exchange.step = steps := by
  rw [map_step_exchanges, length_trace_of_survived survived, List.take_length]

theorem run_induction {motive : List Exchange → Registry → Prop} {start : Process}
    (initial : motive [] start.registry)
    (preserved : ∀ history registry step, (Registry.perform registry step).fatal = none →
      motive history registry →
        motive (history ++ [⟨step, (registry.perform step).answer⟩])
          (registry.perform step).registry)
    (steps : List Step) : motive (start.exchanges steps) (start.run steps).final.registry := by
  -- The run is entered at its front while the history grows at its end, so the induction is
  -- on what is still to come, from any point that has been reached.
  have onward : ∀ history process, motive history (Process.registry process) →
      motive (history ++ process.exchanges steps) (process.run steps).final.registry := by
    induction steps with
    | nil =>
      intro history process reached
      show motive (history ++ []) process.registry
      rw [List.append_nil]
      exact reached
    | cons step later ih =>
      intro history process reached
      cases taken : process.step step with
      | error exit =>
        rw [exchanges_cons_of_error taken, run_cons_of_error taken, List.append_nil]
        exact reached
      | ok transition =>
        obtain ⟨harmless, registry, answer⟩ := of_step_eq_ok taken
        rw [exchanges_cons_of_ok taken, run_cons_of_ok taken, List.append_cons]
        apply ih
        rw [registry, answer]
        exact preserved history process.registry step harmless reached
  exact onward [] start initial

theorem forall_mem_exchanges {motive : Exchange → Prop}
    (taken : ∀ registry step, (Registry.perform registry step).fatal = none →
      motive ⟨step, (registry.perform step).answer⟩)
    (start : Process) (steps : List Step) :
    ∀ exchange ∈ start.exchanges steps, motive exchange := by
  refine run_induction (motive := fun history _ => ∀ exchange ∈ history, motive exchange)
    (by simp) ?_ steps
  intro history registry step harmless ih exchange member
  rcases List.mem_append.mp member with earlier | newest
  · exact ih exchange earlier
  · rw [List.mem_singleton.mp newest]
    exact taken registry step harmless

theorem run_invariant {motive : Registry → Prop} (Allowed : Step → Prop)
    (preserved : ∀ registry step, Allowed step → motive registry →
      motive (registry.perform step).registry)
    {start : Process} (initial : motive start.registry) {steps : List Step}
    (allowed : ∀ step ∈ steps, Allowed step) : motive (start.run steps).final.registry := by
  induction steps generalizing start with
  | nil => exact initial
  | cons step later ih =>
    have kept := preserved start.registry step (allowed step List.mem_cons_self) initial
    cases taken : start.step step with
    | error exit =>
      rw [run_cons_of_error taken]
      exact initial
    | ok transition =>
      rw [run_cons_of_ok taken]
      rw [← (of_step_eq_ok taken).2.1] at kept
      exact ih kept fun step member => allowed step (List.mem_cons_of_mem _ member)

end Process

end NativeGlobals
