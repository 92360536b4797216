import NativeGlobals.Proofs.FatalExit
import NativeGlobals.Proofs.Refusal

/-! Exported writes beside fallible ones. An exported write does what the fallible one does,
except that it does not come back from a refusal. So a run goes like the same run with fallible
writes in place of the exported ones, up to the exit of the first, where the second is told why.
What the host does to its buffer between the steps makes no difference. -/

namespace NativeGlobals

namespace Step

/-- The step with a fallible write in place of an exported one. -/
def fallible : Step → Step
  | .call index value => .set index value
  | step => step

def exported : Step → Bool
  | .call _ _ => true
  | _ => false

def overwrites : Step → Bool
  | .overwrite _ => true
  | _ => false

def seen (steps : List Step) : List Step := steps.filter fun step => !step.overwrites

theorem fallible_of_not_exported {step : Step} (internal : step.exported = false) :
    step.fallible = step := by
  cases step with
  | call index value => cases internal
  | _ => rfl

theorem level?_fallible (step : Step) : step.fallible.level? = step.level? := by
  cases step <;> rfl

theorem level?_of_overwrites {step : Step} (idle : step.overwrites = true) :
    step.level? = none := by
  cases step with
  | overwrite bytes => rfl
  | _ => cases idle

end Step

/-- Whether a transition of the fallible form comes to the same as one of the step itself. An
exported write that came back counts as accepted. -/
structure Transition.Mirrors (image original : Transition) (step : Step) : Prop where
  alike : original.process.Alike image.process
  log : image.log = original.log
  answer : image.answer = if step.exported then .accepted else original.answer

namespace Process

/-- Whether the process comes to with the fallible form of a step what the other one comes to with
the step. Where an exported write ends the other one, this one goes on unchanged, and its answer is
the failure that the exit reports. -/
def Echoes (process other : Process) (step : Step) : Prop :=
  match other.step step with
  | .ok original => ∃ image, process.step step.fallible = .ok image ∧ image.Mirrors original step
  | .error exit =>
      if step.exported then
        ∃ image failure, process.step step.fallible = .ok image ∧
          image.answer = .rejected failure ∧ image.process.registry = other.registry ∧
          exit.Reports other.threshold image.log failure.message
      else process.step step.fallible = .error exit

/-- Whether the exported write that follows the earlier steps is the first whose fallible form is
refused. -/
structure FirstRefused (start : Process) (steps earlier : List Step) (step : Step) : Prop where
  listed : earlier ++ [step] <+: steps
  exported : step.exported = true
  alive : (start.run (earlier.map Step.fallible)).exit = none
  refused : (start.run (earlier.map Step.fallible)).final.Refuses step.fallible
  first : ∀ sooner other, sooner ++ [other] <+: earlier → other.exported = true →
    ¬(start.run (sooner.map Step.fallible)).final.Refuses other.fallible

end Process

namespace Registry

theorem perform_fallible {registry : Registry} {step : Step}
    (harmless : (registry.perform step).fatal = none) :
    registry.perform step.fallible =
      { registry.perform step with
        answer := if step.exported then .accepted else (registry.perform step).answer } := by
  cases step with
  | call index value =>
    cases written : registry.set index value with
    | ok after => simp [Step.fallible, Step.exported, perform, written]
    | error failure => simp [perform, written] at harmless
  | _ => rfl

theorem perform_call_of_place?_eq_none (registry : Registry) {index : Int32} {value : Value}
    (refused : value.place? index = none) :
    registry.perform (.call index value) =
      { registry.perform (.set index value) with
        answer := .nothing
        fatal := some (.unknownIndex value.kind.operation index) } := by
  simp [perform, set_of_place?_eq_none refused]

theorem perform_of_overwrites (registry : Registry) {step : Step}
    (idle : step.overwrites = true) : registry.perform step = { registry } := by
  cases step with
  | overwrite bytes => rfl
  | _ => cases idle

end Registry

namespace Process

variable {first second : Process}

namespace Alike

theorem prepare_fallible (alike : first.Alike second) (step : Step) :
    (first.prepare step).Alike (second.prepare step.fallible) where
  registry := by rw [registry_prepare, registry_prepare, alike.registry]
  logger := by rw [logger_prepare, logger_prepare, step.level?_fallible, alike.logger]

theorem step_fallible_ok (alike : first.Alike second) {step : Step} {original : Transition}
    (survived : first.step step = .ok original) :
    ∃ image, second.step step.fallible = .ok image ∧ image.Mirrors original step := by
  have harmless := (of_step_eq_ok survived).1
  have performed := Registry.perform_fallible harmless
  rw [alike.registry] at performed
  have imageHarmless : (second.registry.perform step.fallible).fatal = none := by
    rw [performed, ← alike.registry]
    exact harmless
  rw [step_of_fatal_eq_none harmless, alike.registry] at survived
  cases survived
  refine ⟨_, step_of_fatal_eq_none imageHarmless, ⟨?_, ?_⟩, ?_, ?_⟩
  · rw [performed]
  · exact (alike.prepare_fallible step).logger
  · rw [performed, (alike.prepare_fallible step).threshold]
  · rw [performed]

theorem step_fallible_error (alike : first.Alike second) {step : Step} {exit : Exit}
    (exported : step.exported = true) (ended : first.step step = .error exit) :
    ∃ image failure, second.step step.fallible = .ok image ∧
      image.answer = .rejected failure ∧ image.process.registry = first.registry ∧
      exit.Reports first.threshold image.log failure.message := by
  obtain ⟨failure, fatal⟩ := exists_fatal_of_step_eq_error ended
  rcases Registry.cases_of_fatal_perform fatal with ⟨index, value, rfl, refused, rfl⟩ | ⟨rfl, _⟩
  · have effect := first.registry.perform_call_of_place?_eq_none refused
    obtain ⟨unchanged, rejected⟩ := second.registry.perform_set_of_place?_eq_none refused
    have harmless : (second.registry.perform (.set index value)).fatal = none :=
      Registry.fatal_perform_of_ne (by simp) (by simp) second.registry
    have steady : (first.prepare (.call index value)).threshold = first.threshold :=
      first.threshold_prepare rfl
    have prepared : (first.prepare (.call index value)).threshold =
        (second.prepare (.set index value)).threshold :=
      (alike.prepare_fallible (.call index value)).threshold
    rw [step_of_fatal_eq_some fatal, effect] at ended
    cases ended
    change ∃ image failure, second.step (.set index value) = .ok image ∧ _
    refine ⟨_, _, step_of_fatal_eq_none harmless, rejected, ?_, ?_⟩
    · rw [alike.registry]
      exact unchanged
    · rw [← steady, ← alike.registry, ← prepared]
      exact reports_fail _ _ _
  · cases exported

theorem echoes (alike : first.Alike second) (step : Step) : second.Echoes first step := by
  unfold Echoes
  cases taken : first.step step with
  | ok original => exact alike.step_fallible_ok taken
  | error exit =>
    cases exported : step.exported with
    | true => exact alike.step_fallible_error exported taken
    | false =>
      rw [Step.fallible_of_not_exported exported]
      exact alike.step_error taken

end Alike

theorem step_of_overwrites (process : Process) {step : Step} (idle : step.overwrites = true) :
    ∃ transition, process.step step = .ok transition ∧ transition.log = [] ∧
      process.Alike transition.process := by
  have performed := process.registry.perform_of_overwrites idle
  have harmless : (process.registry.perform step).fatal = none := by rw [performed]
  refine ⟨_, step_of_fatal_eq_none harmless, ?_, ?_, ?_⟩
  · rw [performed]
    rfl
  · rw [performed]
  · simp [logger_prepare, Step.level?_of_overwrites idle]

theorem run_fallible (alike : first.Alike second) {steps : List Step}
    (survived : (first.run steps).exit = none) :
    (second.run (steps.map Step.fallible)).exit = none ∧
      (first.run steps).final.Alike (second.run (steps.map Step.fallible)).final := by
  induction steps generalizing first second with
  | nil => exact ⟨rfl, alike⟩
  | cons step later ih =>
    obtain ⟨original, taken, onward⟩ := exists_step_of_survived survived
    obtain ⟨image, mirrored, mirrors⟩ := alike.step_fallible_ok taken
    rw [List.map_cons, final_run_cons taken, run_cons_of_ok mirrored]
    exact ih mirrors.alike onward

theorem run_seen (alike : first.Alike second) (steps : List Step) :
    (first.run steps).final.Alike (second.run (Step.seen steps)).final ∧
      (first.run steps).exit = (second.run (Step.seen steps)).exit ∧
      (first.run steps).log = (second.run (Step.seen steps)).log ∧
      (first.exchanges steps).filter (fun exchange => !exchange.step.overwrites) =
        second.exchanges (Step.seen steps) := by
  induction steps generalizing first second with
  | nil => exact ⟨alike, rfl, rfl, rfl⟩
  | cons step later ih =>
    cases idle : step.overwrites with
    | true =>
      obtain ⟨original, survived, silent, unchanged⟩ := first.step_of_overwrites idle
      have dropped : Step.seen (step :: later) = Step.seen later :=
        List.filter_cons_of_neg (by simp [idle])
      rw [dropped, run_cons_of_ok survived, exchanges_cons_of_ok survived]
      simpa [Run.log, silent, idle] using ih (unchanged.symm.trans alike)
    | false =>
      have kept : Step.seen (step :: later) = step :: Step.seen later :=
        List.filter_cons_of_pos (by simp [idle])
      rw [kept]
      cases taken : first.step step with
      | error exit =>
        have fell := alike.step_error taken
        rw [run_cons_of_error taken, run_cons_of_error fell, exchanges_cons_of_error taken,
          exchanges_cons_of_error fell]
        exact ⟨alike, rfl, rfl, rfl⟩
      | ok original =>
        obtain ⟨image, survived, answer, log, onward⟩ := alike.step_ok taken
        rw [run_cons_of_ok taken, run_cons_of_ok survived, exchanges_cons_of_ok taken,
          exchanges_cons_of_ok survived]
        simpa [Run.log, log, answer, idle] using ih onward

variable {start : Process} {steps earlier : List Step} {step : Step}

theorem Takes.fallible (place : start.Takes steps earlier step) :
    start.Takes (steps.map Step.fallible) (earlier.map Step.fallible) step.fallible where
  listed := by simpa using place.listed.map Step.fallible
  alive := (run_fallible (Alike.refl start) place.alive).1

theorem echoes_of_survived (survived : (start.run earlier).exit = none) (step : Step) :
    (start.run (earlier.map Step.fallible)).final.Echoes (start.run earlier).final step :=
  (run_fallible (Alike.refl start) survived).2.echoes step

theorem Echoes.not_refuses {process other : Process} (echoes : process.Echoes other step)
    (exported : step.exported = true) {original : Transition}
    (survived : other.step step = .ok original) : ¬process.Refuses step.fallible := by
  intro refused
  obtain ⟨index, value, failure, _, transition, taken, rejected⟩ := refused
  simp only [Echoes, survived] at echoes
  obtain ⟨image, mirrored, mirrors⟩ := echoes
  rw [taken] at mirrored
  cases mirrored
  have accepted := mirrors.answer
  rw [if_pos exported, rejected] at accepted
  cases accepted

theorem Echoes.refuses {process other : Process} (echoes : process.Echoes other step)
    (exported : step.exported = true) {exit : Exit} (ended : other.step step = .error exit) :
    process.Refuses step.fallible := by
  simp only [Echoes, ended, if_pos exported] at echoes
  obtain ⟨image, failure, taken, rejected, _⟩ := echoes
  cases step with
  | call index value => exact ⟨index, value, failure, rfl, image, taken, rejected⟩
  | _ => cases exported

theorem firstRefused_of_takes_error {exit : Exit} (exported : step.exported = true)
    (place : start.Takes steps earlier step)
    (ended : (start.run earlier).final.step step = .error exit) :
    start.FirstRefused steps earlier step where
  listed := place.listed
  exported := exported
  alive := place.fallible.alive
  refused := (echoes_of_survived place.alive step).refuses exported ended
  first := by
    intro sooner other listed called
    have alive := survived_of_prefix ((List.prefix_append sooner [other]).trans listed) place.alive
    cases taken : (start.run sooner).final.step other with
    | ok original => exact (echoes_of_survived alive other).not_refuses called taken
    | error exit => exact absurd taken (step_ne_error_of_takes place.alive ⟨listed, alive⟩ exit)

theorem FirstRefused.survived (refusal : start.FirstRefused steps earlier step) :
    (start.run earlier).exit = none := by
  cases ended : (start.run earlier).exit with
  | none => rfl
  | some exit =>
    obtain ⟨sooner, other, place, fell⟩ := exists_takes_of_exit ended
    have echoes := echoes_of_survived place.alive other
    cases exported : other.exported with
    | true =>
      exact absurd (echoes.refuses exported fell) (refusal.first sooner other place.listed exported)
    | false =>
      simp only [Echoes, fell, exported, Bool.false_eq_true, if_false] at echoes
      exact absurd echoes (step_ne_error_of_takes refusal.alive place.fallible exit)

theorem FirstRefused.exists_step_eq_error (refusal : start.FirstRefused steps earlier step) :
    ∃ exit, (start.run earlier).final.step step = .error exit := by
  have echoes := echoes_of_survived refusal.survived step
  cases taken : (start.run earlier).final.step step with
  | ok original => exact absurd refusal.refused (echoes.not_refuses refusal.exported taken)
  | error exit => exact ⟨exit, rfl⟩

theorem firstRefused_iff :
    start.FirstRefused steps earlier step ↔
      step.exported = true ∧ start.Takes steps earlier step ∧
        ∃ exit, (start.run earlier).final.step step = .error exit := by
  refine ⟨fun refusal => ?_, fun exits => ?_⟩
  · exact ⟨refusal.exported, ⟨refusal.listed, refusal.survived⟩, refusal.exists_step_eq_error⟩
  · obtain ⟨exported, place, exit, ended⟩ := exits
    exact firstRefused_of_takes_error exported place ended

end Process

/-- With fallible writes in place of the exported ones a run goes on as it does without, each
replaced write accepted, until an exported write ends it. There the fallible write is refused with
the words of the exit, and logs what the exit logs before its own record. So the first replaced
write that is refused is the one that ends the run, and a run that is not ended has none. Two runs
that differ in what the host does to its buffer come to the same. -/
theorem exported_writes_mirror_fallible (start : Process) (steps : List Step) :
    let fallibly := fun steps : List Step => start.run (steps.map Step.fallible)
    (∀ earlier step, start.Takes steps earlier step →
      start.Takes (steps.map Step.fallible) (earlier.map Step.fallible) step.fallible ∧
        (start.run earlier).final.Alike (fallibly earlier).final ∧
        (fallibly earlier).final.Echoes (start.run earlier).final step) ∧
    ((start.run steps).exit = none →
      (fallibly steps).exit = none ∧ (start.run steps).final.Alike (fallibly steps).final) ∧
    (∀ earlier step, start.FirstRefused steps earlier step ↔
      step.exported = true ∧ start.Takes steps earlier step ∧
        ∃ exit, (start.run earlier).final.step step = .error exit ∧
          start.run steps = { start.run earlier with exit := some exit }) ∧
    (∀ first second : List Step, Step.seen first = Step.seen second →
      (start.run first).final.Alike (start.run second).final ∧
        (start.run first).exit = (start.run second).exit ∧
        (start.run first).log = (start.run second).log ∧
        (start.exchanges first).filter (fun exchange => !exchange.step.overwrites) =
          (start.exchanges second).filter (fun exchange => !exchange.step.overwrites)) := by
  intro fallibly
  have same := Process.Alike.refl start
  refine ⟨fun earlier step place => ?_, Process.run_fallible same, fun earlier step => ?_,
    fun first second seen => ?_⟩
  · exact ⟨place.fallible, (Process.run_fallible same place.alive).2,
      Process.echoes_of_survived place.alive step⟩
  · rw [Process.firstRefused_iff]
    refine and_congr_right fun exported => and_congr_right fun place => ?_
    refine exists_congr fun exit => ⟨fun ended => ?_, fun ended => ended.1⟩
    exact ⟨ended, Process.run_of_takes_error place ended⟩
  · obtain ⟨firstFinal, firstExit, firstLog, firstExchanges⟩ := Process.run_seen same first
    obtain ⟨secondFinal, secondExit, secondLog, secondExchanges⟩ := Process.run_seen same second
    rw [seen] at firstFinal firstExit firstLog firstExchanges
    exact ⟨firstFinal.trans secondFinal.symm, firstExit.trans secondExit.symm,
      firstLog.trans secondLog.symm, firstExchanges.trans secondExchanges.symm⟩

theorem first_refusal_after_overwritten_text :
    let start := Process.fresh (some (.upTo .trace))
    let earlier := [.call 0 (.text (some [0x2f])), .overwrite [0x30], .set 9999 (.int 1)]
    let steps := earlier ++ [.call 49 (.double 1), .call 9999 (.int 1)]
    start.FirstRefused steps earlier (.call 49 (.double 1)) ∧
      (start.run steps).log = (start.run (Step.seen steps)).log := by
  intro start earlier steps
  obtain ⟨_, _, refusal, seen⟩ := exported_writes_mirror_fallible start steps
  refine ⟨(refusal earlier _).mpr ⟨rfl, ⟨⟨[.call 9999 (.int 1)], rfl⟩, rfl⟩, _, rfl, rfl⟩, ?_⟩
  exact (seen steps (Step.seen steps) rfl).2.2.1

end NativeGlobals
