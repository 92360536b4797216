import NativeGlobals.Proofs.Run

/-! Places in a run. A run takes a step in the process that the earlier steps leave, unless one
of those ended it. What a step comes to depends on the registry and the logger alone, and what a
run comes to is put together from what its steps come to, each in its place. -/

namespace NativeGlobals

def Step.level? : Step → Option Threshold
  | .level threshold => some threshold
  | _ => none

namespace Process

/-- Whether two processes differ in their buffers at most. -/
structure Alike (first second : Process) : Prop where
  registry : first.registry = second.registry
  logger : first.logger = second.logger

/-- Whether the run takes the step right after the earlier ones, all of which it survived. -/
structure Takes (start : Process) (steps earlier : List Step) (step : Step) : Prop where
  listed : earlier ++ [step] <+: steps
  alive : (start.run earlier).exit = none

theorem Alike.refl (process : Process) : process.Alike process := ⟨rfl, rfl⟩

theorem Alike.symm {first second : Process} (alike : first.Alike second) : second.Alike first :=
  ⟨alike.registry.symm, alike.logger.symm⟩

theorem Alike.trans {first second third : Process} (alike : first.Alike second)
    (onward : second.Alike third) : first.Alike third :=
  ⟨alike.registry.trans onward.registry, alike.logger.trans onward.logger⟩

theorem Alike.threshold {first second : Process} (alike : first.Alike second) :
    first.threshold = second.threshold := by
  simp only [Process.threshold, alike.logger]

theorem logger_prepare (process : Process) (step : Step) :
    (process.prepare step).logger = process.logger.map fun before => step.level?.getD before := by
  cases step with
  | call index value =>
    cases value with
    | text bytes => cases bytes <;> simp [prepare, Step.level?]
    | _ => simp [prepare, Step.level?]
  | level threshold => rfl
  | _ => simp [prepare, Step.level?]

theorem threshold_prepare (process : Process) {step : Step} (steady : step.level? = none) :
    (process.prepare step).threshold = process.threshold := by
  simp [threshold, logger_prepare, steady]

theorem step_of_fatal_eq_none {process : Process} {step : Step}
    (harmless : (process.registry.perform step).fatal = none) :
    process.step step = .ok
      { process := { process.prepare step with
          registry := (process.registry.perform step).registry }
        answer := (process.registry.perform step).answer
        log := (process.prepare step).threshold.log (process.registry.perform step).notices } := by
  simp only [Process.step, deliver_prepare, registry_prepare, harmless]

theorem step_of_fatal_eq_some {process : Process} {step : Step} {failure : Failure}
    (fatal : (process.registry.perform step).fatal = some failure) :
    process.step step = .error ((process.prepare step).fail failure
      ((process.prepare step).threshold.log (process.registry.perform step).notices)) := by
  simp only [Process.step, deliver_prepare, registry_prepare, fatal]

theorem exists_fatal_of_step_eq_error {process : Process} {step : Step} {exit : Exit}
    (ended : process.step step = .error exit) :
    ∃ failure, (process.registry.perform step).fatal = some failure := by
  cases fatal : (process.registry.perform step).fatal with
  | some failure => exact ⟨failure, rfl⟩
  | none =>
    rw [step_of_fatal_eq_none fatal] at ended
    cases ended

theorem logger_of_step_eq_ok {process : Process} {step : Step} {transition : Transition}
    (survived : process.step step = .ok transition) :
    transition.process.logger =
      process.logger.map fun before => step.level?.getD before := by
  rw [step_of_fatal_eq_none (of_step_eq_ok survived).1] at survived
  cases survived
  exact process.logger_prepare step

theorem log_of_step_eq_ok {process : Process} {step : Step} {transition : Transition}
    (survived : process.step step = .ok transition) :
    transition.log =
      (process.prepare step).threshold.log (process.registry.perform step).notices := by
  rw [step_of_fatal_eq_none (of_step_eq_ok survived).1] at survived
  cases survived
  rfl

/-! What two processes that differ in their buffers come to. -/

namespace Alike

variable {first second : Process}

theorem prepare (alike : first.Alike second) (step : Step) :
    (first.prepare step).Alike (second.prepare step) where
  registry := by rw [registry_prepare, registry_prepare, alike.registry]
  logger := by rw [logger_prepare, logger_prepare, alike.logger]

theorem fail (alike : first.Alike second) (failure : Failure) (log : List Entry) :
    first.fail failure log = second.fail failure log := by
  simp only [Process.fail, alike.threshold]

theorem step_ok (alike : first.Alike second) {step : Step} {transition : Transition}
    (survived : first.step step = .ok transition) :
    ∃ image, second.step step = .ok image ∧ image.answer = transition.answer ∧
      image.log = transition.log ∧ transition.process.Alike image.process := by
  have harmless := (of_step_eq_ok survived).1
  rw [step_of_fatal_eq_none harmless] at survived
  cases survived
  rw [alike.registry] at harmless ⊢
  refine ⟨_, step_of_fatal_eq_none harmless, rfl, ?_, rfl, (alike.prepare step).logger⟩
  rw [(alike.prepare step).threshold]

theorem step_error (alike : first.Alike second) {step : Step} {exit : Exit}
    (ended : first.step step = .error exit) : second.step step = .error exit := by
  obtain ⟨failure, fatal⟩ := exists_fatal_of_step_eq_error ended
  rw [step_of_fatal_eq_some fatal, (alike.prepare step).fail, (alike.prepare step).threshold,
    alike.registry] at ended
  rw [alike.registry] at fatal
  exact (step_of_fatal_eq_some fatal).trans ended

end Alike

/-! Taking the first step of a run, and going on from there. -/

theorem takes_head (start : Process) (step : Step) (later : List Step) :
    start.Takes (step :: later) [] step :=
  ⟨⟨later, rfl⟩, rfl⟩

theorem Takes.cons {start : Process} {step next : Step} {transition : Transition}
    (survived : start.step step = .ok transition) {earlier later : List Step}
    (taken : transition.process.Takes later earlier next) :
    start.Takes (step :: later) (step :: earlier) next where
  listed := List.cons_prefix_cons.mpr ⟨rfl, taken.listed⟩
  alive := by
    rw [run_cons_of_ok survived]
    exact taken.alive

theorem Takes.getElem?_eq {start : Process} {steps earlier : List Step} {step : Step}
    (place : start.Takes steps earlier step) : steps[earlier.length]? = some step := by
  obtain ⟨later, split⟩ := place.listed
  rw [← split, List.append_assoc, List.getElem?_append_right (Nat.le_refl _)]
  simp

theorem final_run_cons {start : Process} {step : Step} {transition : Transition}
    (survived : start.step step = .ok transition) (later : List Step) :
    (start.run (step :: later)).final = (transition.process.run later).final := by
  rw [run_cons_of_ok survived]

theorem exists_takes_of_exit {start : Process} {steps : List Step} {exit : Exit}
    (ended : (start.run steps).exit = some exit) :
    ∃ earlier step, start.Takes steps earlier step ∧
      (start.run earlier).final.step step = .error exit := by
  induction steps generalizing start with
  | nil => cases ended
  | cons step later ih =>
    cases taken : start.step step with
    | error other =>
      rw [run_cons_of_error taken] at ended
      cases ended
      exact ⟨[], step, start.takes_head step later, taken⟩
    | ok transition =>
      rw [run_cons_of_ok taken] at ended
      obtain ⟨earlier, last, place, fell⟩ := ih ended
      refine ⟨step :: earlier, last, place.cons taken, ?_⟩
      rw [final_run_cons taken]
      exact fell

theorem exists_takes_of_mem_trace {start : Process} {steps : List Step} {transition : Transition}
    (member : transition ∈ (start.run steps).trace) :
    ∃ earlier step, start.Takes steps earlier step ∧
      (start.run earlier).final.step step = .ok transition := by
  induction steps generalizing start with
  | nil => cases member
  | cons step later ih =>
    cases taken : start.step step with
    | error exit =>
      rw [run_cons_of_error taken] at member
      cases member
    | ok first =>
      rw [run_cons_of_ok taken] at member
      rcases List.mem_cons.mp member with same | listed
      · exact ⟨[], step, start.takes_head step later, same ▸ taken⟩
      · obtain ⟨earlier, last, place, survived⟩ := ih listed
        refine ⟨step :: earlier, last, place.cons taken, ?_⟩
        rw [final_run_cons taken]
        exact survived

theorem run_of_takes_error {start : Process} {steps earlier : List Step} {step : Step}
    {exit : Exit} (place : start.Takes steps earlier step)
    (ended : (start.run earlier).final.step step = .error exit) :
    start.run steps =
      { trace := (start.run earlier).trace, final := (start.run earlier).final,
        exit := some exit } := by
  obtain ⟨later, split⟩ := place.listed
  rw [List.append_assoc] at split
  rw [← split, run_append place.alive, List.singleton_append, run_cons_of_error ended,
    List.append_nil]

theorem step_ne_error_of_takes {start : Process} {steps earlier : List Step} {step : Step}
    (survived : (start.run steps).exit = none) (place : start.Takes steps earlier step)
    (exit : Exit) : (start.run earlier).final.step step ≠ .error exit := by
  intro ended
  rw [run_of_takes_error place ended] at survived
  cases survived

theorem survived_of_prefix {start : Process} {earlier steps : List Step}
    (listed : earlier <+: steps) (survived : (start.run steps).exit = none) :
    (start.run earlier).exit = none := by
  cases ended : (start.run earlier).exit with
  | none => rfl
  | some exit =>
    obtain ⟨sooner, step, place, fell⟩ := exists_takes_of_exit ended
    have reached : start.Takes steps sooner step := ⟨place.listed.trans listed, place.alive⟩
    exact absurd fell (step_ne_error_of_takes survived reached exit)

end Process

end NativeGlobals
