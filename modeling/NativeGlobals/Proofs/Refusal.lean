import NativeGlobals.History.Lemmas
import NativeGlobals.Proofs.Place

/-! Refused writes. A fallible write is accepted exactly at the index of a slot of its own kind,
and leaves everything alone when it is refused. So a run does not notice if refused writes are
struck from it. -/

namespace NativeGlobals

/-- The items at the places that are not marked. Beyond the last mark all are kept. -/
def unmarked {α : Type} : List α → List Bool → List α
  | items, [] => items
  | [], _ :: _ => []
  | item :: items, mark :: marks =>
      if mark then unmarked items marks else item :: unmarked items marks

def Process.Refuses (process : Process) (step : Step) : Prop :=
  ∃ index value failure, step = .set index value ∧ process.Answers step (.rejected failure)

theorem unmarked_of_no_marks {α : Type} (items : List α) : unmarked items [] = items := by
  cases items <;> rfl

theorem unmarked_nil {α : Type} (marks : List Bool) : unmarked ([] : List α) marks = [] := by
  cases marks <;> rfl

namespace Value

theorem place?_ne_none_iff {value : Value} {index : Int32} :
    value.place? index ≠ none ↔
      (0 ≤ index.toInt ∧ index.toInt < 62) ∧
        ∃ slot, Slot.ofIndex? index = some slot ∧ slot.kind = value.kind := by
  have length : schema.length = 62 := rfl
  rw [Ne, place?_eq_none_iff, Classical.not_forall]
  refine ⟨fun taken => ?_, fun placed => ?_⟩
  · obtain ⟨slot, both⟩ := taken
    obtain ⟨located, same⟩ := Classical.not_not.mp both
    have inside := slot.position.isLt
    exact ⟨by omega, slot, Slot.ofIndex?_eq_some_iff.mpr located, same.symm⟩
  · obtain ⟨_, slot, located, same⟩ := placed
    exact ⟨slot, Classical.not_not.mpr ⟨Slot.ofIndex?_eq_some_iff.mp located, same.symm⟩⟩

end Value

namespace Registry

theorem perform_set_of_place?_eq_none (registry : Registry) {index : Int32} {value : Value}
    (refused : value.place? index = none) :
    (registry.perform (.set index value)).registry = registry ∧
      (registry.perform (.set index value)).answer =
        .rejected (.unknownIndex value.kind.operation index) := by
  simp [perform, set_of_place?_eq_none refused]

theorem answer_perform_set_of_place?_ne_none {registry : Registry} {index : Int32}
    {value : Value} (taken : value.place? index ≠ none) :
    (registry.perform (.set index value)).answer = .accepted := by
  obtain ⟨target, placed⟩ := Option.ne_none_iff_exists'.mp taken
  simp [perform, set_of_place?_eq_some placed]

end Registry

namespace Process

theorem step_set (process : Process) (index : Int32) (value : Value) :
    ∃ transition, process.step (.set index value) = .ok transition ∧
      (transition.answer = .accepted ↔ value.place? index ≠ none) ∧
      (transition.answer ≠ .accepted →
        transition.answer = .rejected (.unknownIndex value.kind.operation index) ∧
          transition.process = process) := by
  have harmless : (process.registry.perform (.set index value)).fatal = none :=
    Registry.fatal_perform_of_ne (by simp) (by simp) process.registry
  refine ⟨_, step_of_fatal_eq_none harmless, ?_⟩
  by_cases taken : value.place? index = none
  · obtain ⟨same, answer⟩ := process.registry.perform_set_of_place?_eq_none taken
    simp [same, answer, taken, prepare]
  · simp [Registry.answer_perform_set_of_place?_ne_none taken, taken]

theorem refuses_of_place?_eq_none (process : Process) {index : Int32} {value : Value}
    (refused : value.place? index = none) : process.Refuses (.set index value) := by
  obtain ⟨transition, survived, accepted, unchanged⟩ := process.step_set index value
  have answer := (unchanged fun taken => accepted.mp taken refused).1
  exact ⟨index, value, _, rfl, transition, survived, answer⟩

theorem step_of_refuses {process : Process} {step : Step} (refused : process.Refuses step) :
    ∃ transition, process.step step = .ok transition ∧ transition.process = process := by
  obtain ⟨index, value, failure, rfl, transition, survived, given⟩ := refused
  obtain ⟨same, again, _, unchanged⟩ := process.step_set index value
  rw [survived] at again
  cases again
  exact ⟨transition, survived, (unchanged (by simp [given])).2⟩

theorem run_unmarked {start : Process} {steps : List Step} {marks : List Bool}
    (refused : ∀ earlier step, start.Takes steps earlier step →
      marks[earlier.length]? = some true → (start.run earlier).final.Refuses step) :
    start.run (unmarked steps marks) =
      { start.run steps with trace := unmarked (start.run steps).trace marks } := by
  induction steps generalizing start marks with
  | nil => simp [unmarked_nil, run]
  | cons step later ih =>
    cases marks with
    | nil => rw [unmarked_of_no_marks, unmarked_of_no_marks]
    | cons mark marks =>
      -- The marks behind the step are those of the run that goes on after it.
      have onward : ∀ transition, start.step step = .ok transition →
          transition.process.run (unmarked later marks) =
            { transition.process.run later with
              trace := unmarked (transition.process.run later).trace marks } := by
        intro transition survived
        refine ih fun earlier next place marked => ?_
        rw [← final_run_cons survived]
        exact refused (step :: earlier) next (place.cons survived) marked
      cases mark with
      | true =>
        have here : start.Refuses step := refused [] step (start.takes_head step later) rfl
        obtain ⟨transition, survived, unchanged⟩ := step_of_refuses here
        have rest := onward transition survived
        rw [unchanged] at rest
        rw [run_cons_of_ok survived, unchanged]
        exact rest
      | false =>
        cases taken : start.step step with
        | error exit =>
          rw [run_cons_of_error taken, unmarked_nil]
          exact run_cons_of_error taken _
        | ok transition =>
          rw [run_cons_of_ok taken]
          change start.run (step :: unmarked later marks) = _
          rw [run_cons_of_ok taken, onward transition taken]
          rfl

end Process

/-- In every state a fallible write is accepted exactly at the index of a slot of its own kind.
Otherwise the answer names the operation and the index, and nothing is changed. So a run from
which any of its refused writes are struck goes on with the same transitions, answers, logs and
states included, and ends alike. -/
theorem refused_writes_leave_no_trace :
    (∀ (process : Process) (index : Int32) (value : Value),
      ∃ transition, process.step (.set index value) = .ok transition ∧
        (transition.answer = .accepted ↔ (0 ≤ index.toInt ∧ index.toInt < 62) ∧
          ∃ slot, Slot.ofIndex? index = some slot ∧ slot.kind = value.kind) ∧
        (transition.answer ≠ .accepted →
          transition.answer = .rejected (.unknownIndex value.kind.operation index) ∧
            transition.process.registry = process.registry)) ∧
    (∀ (start : Process) (steps : List Step) (marks : List Bool),
      (∀ earlier step, start.Takes steps earlier step →
        marks[earlier.length]? = some true → (start.run earlier).final.Refuses step) →
      (start.run (unmarked steps marks)).trace = unmarked (start.run steps).trace marks ∧
        (start.run (unmarked steps marks)).final = (start.run steps).final ∧
        (start.run (unmarked steps marks)).exit = (start.run steps).exit) := by
  refine ⟨fun process index value => ?_, fun start steps marks refused => ?_⟩
  · obtain ⟨transition, survived, accepted, unchanged⟩ := process.step_set index value
    refine ⟨transition, survived, accepted.trans Value.place?_ne_none_iff, fun rejected => ?_⟩
    obtain ⟨answer, same⟩ := unchanged rejected
    exact ⟨answer, congrArg Process.registry same⟩
  · rw [Process.run_unmarked refused]
    exact ⟨rfl, rfl, rfl⟩

theorem run_ends_alike_without_two_refusals :
    let start := Process.fresh (some (.upTo .trace))
    let steps := [.set 9999 (.int 1), .set 49 (.int 5), .set 0 (.int 1), .call 9999 (.int 1)]
    let struck := [.set 49 (.int 5), .call 9999 (.int 1)]
    (start.run struck).trace = unmarked (start.run steps).trace [true, false, true] ∧
      (start.run struck).exit = (start.run steps).exit := by
  intro start steps struck
  have alike := refused_writes_leave_no_trace.2 start steps [true, false, true] ?_
  · exact ⟨alike.1, alike.2.2⟩
  · intro earlier step place marked
    have found := place.getElem?_eq
    match length : earlier.length with
    | 0 =>
      rw [length] at found
      cases found
      exact Process.refuses_of_place?_eq_none _ (by decide)
    | 1 =>
      rw [length] at marked
      cases marked
    | 2 =>
      rw [length] at found
      cases found
      exact Process.refuses_of_place?_eq_none _ (by decide)
    | more + 3 =>
      rw [length] at marked
      cases marked

end NativeGlobals
