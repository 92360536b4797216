import NativeGlobals.Proofs.FatalExit
import NativeGlobals.Proofs.Observer

/-! The logger only listens. Someone who does not hear it learns the same from two runs with
different loggers and levels, and reads the same words at an exit. What a logger records of a step
is what the threshold in force admits of all that there is to record. -/

namespace NativeGlobals

def Step.unlevelled (steps : List Step) : List Step :=
  steps.filter fun step => step.level?.isNone

def Threshold.keeps (threshold : Threshold) : Entry → Bool
  | .record level _ => threshold.admits level
  | .flush => false

/-- The line that reports the failure, on whichever channel it is. -/
def Exit.report (exit : Exit) : String :=
  match exit.log.reverse with
  | .flush :: .record _ words :: _ => words ++ "\n"
  | _ => exit.stderr

/-- Hears nothing of the logger but the last words. Changes of the level escape it. -/
def Observer.deaf : Observer (Answer × Registry) (Int32 × String) where
  heeds step := step.level?.isNone
  form := id
  seen transition := (transition.answer, transition.process.registry)
  told exit := (exit.status, exit.report)

/-- Whether the process logs of the step what the threshold admits of what the other one logs, and
fails with the same words if the step is fatal. -/
def Process.LogsPart (process whole : Process) (threshold : Threshold) (step : Step) : Prop :=
  match process.step step, whole.step step with
  | .ok part, .ok all => part.log = all.log.filter threshold.keeps
  | .error part, .error all => ∃ before words, all.Reports (.upTo .trace) before words ∧
      part.Reports threshold (before.filter threshold.keeps) words
  | _, _ => False

namespace Threshold

theorem admits_trace (level : Level) : (upTo .trace).admits level = true := by
  cases level <;> rfl

theorem log_trace (notices : List Notice) :
    (upTo .trace).log notices = notices.map fun notice => .record notice.level notice.text := by
  have all : notices.filter (fun notice => (upTo .trace).admits notice.level) = notices :=
    List.filter_eq_self.mpr fun notice _ => admits_trace notice.level
  rw [log, all]

theorem filter_log_trace (threshold : Threshold) (notices : List Notice) :
    ((upTo .trace).log notices).filter threshold.keeps = threshold.log notices := by
  rw [log_trace, List.filter_map]
  rfl

theorem log_off (notices : List Notice) : off.log notices = [] := by
  simp [log, admits]

end Threshold

theorem Exit.report_of_reports {exit : Exit} {threshold : Threshold} {before : List Entry}
    {words : String} (reports : exit.Reports threshold before words)
    (unflushed : Entry.flush ∉ before) : exit.report = words ++ "\n" := by
  unfold Reports at reports
  split at reports
  next =>
    obtain ⟨log, _⟩ := reports
    simp [report, log]
  next =>
    obtain ⟨log, stderr⟩ := reports
    unfold report
    split
    next last =>
      have flushed : Entry.flush ∈ exit.log.reverse := by simp [last]
      rw [List.mem_reverse, log] at flushed
      exact absurd flushed unflushed
    next => exact stderr

theorem History.threshold_unlevelled (initial : Threshold) (steps : List Step) :
    History.threshold (some initial) (Step.unlevelled steps) = initial := by
  have unasked : (Step.unlevelled steps).reverse.findSome? Step.level? = none := by
    rw [List.findSome?_eq_none_iff]
    intro step listed
    rw [List.mem_reverse, Step.unlevelled, List.mem_filter] at listed
    exact Option.isNone_iff_eq_none.mp listed.2
  simp [History.threshold, unasked]

namespace Process

variable {first second : Process}

theorem step_of_level? {process : Process} {step : Step} {threshold : Threshold}
    (levels : step.level? = some threshold) :
    process.step step =
      .ok ⟨{ process with logger := process.logger.map fun _ => threshold }, .nothing, []⟩ := by
  cases step with
  | level asked =>
    cases levels
    rfl
  | _ => cases levels

theorem log_prepare (process : Process) (registry : Registry) (step : Step) :
    (process.prepare step).threshold.log (registry.perform step).notices =
      process.threshold.log (registry.perform step).notices := by
  cases levels : step.level? with
  | none => rw [process.threshold_prepare levels]
  | some threshold =>
    cases step with
    | level asked => rfl
    | _ => cases levels

theorem logsPart (registry : first.registry = second.registry)
    (loud : second.threshold = .upTo .trace) (step : Step) :
    first.LogsPart second first.threshold step := by
  unfold LogsPart
  cases fatal : (first.registry.perform step).fatal with
  | none =>
    rw [step_of_fatal_eq_none fatal, step_of_fatal_eq_none (registry ▸ fatal)]
    simp only
    rw [log_prepare, log_prepare, loud, Threshold.filter_log_trace, registry]
  | some failure =>
    obtain ⟨part, ended, _, reports⟩ := exists_reports_of_fatal fatal
    obtain ⟨all, fell, _, loudly⟩ := exists_reports_of_fatal (registry ▸ fatal)
    rw [loud] at loudly
    rw [ended, fell]
    refine ⟨_, failure.message, loudly, ?_⟩
    rw [Threshold.filter_log_trace, ← registry]
    exact reports

end Process

namespace Observer

theorem steps_deaf (taken : List Step) : deaf.steps taken = Step.unlevelled taken :=
  List.map_id _

theorem unwinds_deaf : deaf.Unwinds fun first second => first.registry = second.registry where
  escapes := by
    intro first second step registry escaped
    obtain ⟨threshold, levels⟩ : ∃ threshold, step.level? = some threshold :=
      Option.isSome_iff_exists.mp (by simpa [deaf] using escaped)
    exact ⟨_, Process.step_of_level? levels, registry⟩
  stands := by
    intro first second step registry heeded
    change match first.step step, second.step step with
      | .ok one, .ok other => deaf.seen one = deaf.seen other ∧
          one.process.registry = other.process.registry
      | .error one, .error other => deaf.told one = deaf.told other
      | _, _ => False
    cases fatal : (first.registry.perform step).fatal with
    | none =>
      rw [Process.step_of_fatal_eq_none fatal, Process.step_of_fatal_eq_none (registry ▸ fatal)]
      simp [deaf, registry]
    | some failure =>
      obtain ⟨one, ended, status, reports⟩ := Process.exists_reports_of_fatal fatal
      obtain ⟨other, fell, alike, again⟩ := Process.exists_reports_of_fatal (registry ▸ fatal)
      have words := Exit.report_of_reports reports (Threshold.flush_not_mem_log _ _)
      have same := Exit.report_of_reports again (Threshold.flush_not_mem_log _ _)
      rw [ended, fell]
      simp [deaf, status, alike, words, same]
  heeds_form heeded := heeded
  form_form _ := rfl

end Observer

namespace Process

theorem logged_of_no_logger {start : Process} (silent : start.logger = none) (steps : List Step) :
    start.logged steps = [] := by
  induction steps generalizing start with
  | nil => rfl
  | cons step later ih =>
    have off : (start.prepare step).threshold = .off := by
      simp [Process.threshold, logger_prepare, silent]
    cases taken : start.step step with
    | ok transition =>
      have still : transition.process.logger = none := by
        rw [logger_of_step_eq_ok taken, silent]
        rfl
      rw [logged_cons_of_ok taken, ih still, log_of_step_eq_ok taken, off, Threshold.log_off]
      rfl
    | error exit =>
      obtain ⟨failure, fatal⟩ := exists_fatal_of_step_eq_error taken
      obtain ⟨same, ended, _, reports⟩ := exists_reports_of_fatal fatal
      rw [taken] at ended
      cases ended
      have unheard : start.threshold = .off := by simp [Process.threshold, silent]
      rw [unheard, Threshold.log_off] at reports
      rw [logged_cons_of_error taken]
      exact reports.1

end Process

/-- Two runs that differ in the logger, in its level and in the changes of the level come to the
same: every step to the same answer and the same registry, and the runs exit at the same step with
the same words. What a logger records of a step, and before the words of an exit, is what the
threshold in force admits of the records that are made when nothing is left out. Without a logger
nothing is recorded. -/
theorem logger_only_listens (start : Process) :
    let heardBy := fun logger : Option Threshold => { start with logger }
    (∀ (firstLogger secondLogger : Option Threshold) (first second : List Step),
      Step.unlevelled first = Step.unlevelled second →
        Observer.deaf.outcomes (heardBy firstLogger) first =
            Observer.deaf.outcomes (heardBy secondLogger) second ∧
          ((heardBy firstLogger).run first).final.registry =
            ((heardBy secondLogger).run second).final.registry) ∧
    (∀ (logger : Option Threshold) (steps earlier : List Step) (step : Step),
      (heardBy logger).Takes steps earlier step →
        let whole := (heardBy (some (.upTo .trace))).run (Step.unlevelled earlier)
        whole.exit = none ∧ ((heardBy logger).run earlier).final.LogsPart whole.final
          (History.threshold logger earlier) step) ∧
    (∀ steps, (heardBy none).logged steps = []) := by
  intro heardBy
  refine ⟨fun firstLogger secondLogger first second same => ?_,
    fun logger steps earlier step place => ?_, fun steps => Process.logged_of_no_logger rfl steps⟩
  · have alike : Observer.deaf.steps first = Observer.deaf.steps second := by
      rw [Observer.steps_deaf, Observer.steps_deaf, same]
    have one : (heardBy firstLogger).registry = start.registry := rfl
    have other : (heardBy secondLogger).registry = start.registry := rfl
    have firstFinal := (Observer.unwinds_deaf.run one first).1
    have secondFinal := (Observer.unwinds_deaf.run other second).1
    rw [alike] at firstFinal
    exact ⟨(Observer.unwinds_deaf.outcomes_eq one other alike).1,
      firstFinal.trans secondFinal.symm⟩
  · intro whole
    have same : (heardBy logger).registry = (heardBy (some (.upTo .trace))).registry := rfl
    obtain ⟨registry, exit, _⟩ := Observer.unwinds_deaf.run same earlier
    rw [Observer.steps_deaf] at registry exit
    have survived : whole.exit = none := by
      rw [place.alive] at exit
      simpa using exit.symm
    have loud : whole.final.threshold = .upTo .trace := by
      rw [Process.threshold_run survived]
      exact History.threshold_unlevelled _ _
    refine ⟨survived, ?_⟩
    rw [← Process.threshold_run place.alive]
    exact Process.logsPart registry loud step

/-- A run that is heard at changing levels, and one that nobody hears, exit alike over a write of
the wrong kind. Of the notice that comes before the words nothing is recorded at the level error. -/
theorem exit_heard_at_lowered_level :
    let start := Process.fresh none
    let earlier := [.set 49 (.int 5), .level (.upTo .error), .set 0 (.int 1), .done]
    let first := earlier ++ [.call 49 (.double 1)]
    let second := [.set 49 (.int 5), .set 0 (.int 1), .level (.upTo .trace), .done,
      .call 49 (.double 1)]
    let heard : Process := { start with logger := some (.upTo .trace) }
    Step.unlevelled first = Step.unlevelled second ∧
      Observer.deaf.outcomes heard first = Observer.deaf.outcomes start second ∧
      heard.Takes first earlier (.call 49 (.double 1)) ∧
      (heard.run earlier).final.LogsPart (heard.run (Step.unlevelled earlier)).final (.upTo .error)
        (.call 49 (.double 1)) := by
  intro start earlier first second heard
  obtain ⟨alike, part, _⟩ := logger_only_listens start
  have place : heard.Takes first earlier (.call 49 (.double 1)) := ⟨⟨[], rfl⟩, rfl⟩
  exact ⟨rfl, (alike (some (.upTo .trace)) none first second rfl).1, place,
    (part (some (.upTo .trace)) first earlier _ place).2⟩

end NativeGlobals
