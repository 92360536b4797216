import NativeGlobals.Proofs.Completeness
import NativeGlobals.Proofs.Place

/-! When a process exits, and what it says then. Two things end it: an exported write that no
slot takes, and a declaration as complete, on pain of exit, while slots are not set. The failure
is then said once, to the logger if it records errors and to standard error otherwise. -/

namespace NativeGlobals

/-- Whether the step ends a process with this registry, and with which words. -/
inductive Registry.Fatal (registry : Registry) : Step → String → Prop where
  /-- No slot has the index, or the slot that has it is of another kind. -/
  | unplaced {index : Int32} {value : Value}
      (apart : ∀ slot : Slot, index.toInt = slot.position.val → slot.kind ≠ value.kind) :
      registry.Fatal (.call index value)
        (value.kind.operation ++ ": unimplemented index " ++ toString index.toInt)
  | incomplete {unset : List Slot}
      (lacking : unset = Slot.all.filter fun slot => registry.isSet slot = false)
      (nonempty : unset ≠ []) :
      registry.Fatal .doneOrExit (toString unset.length ++ " global(s) were not initialized: " ++
        ", ".intercalate (unset.map Slot.name))

/-- The threshold in force after the steps: the one that was asked for last, if any was. Without
a logger nothing is recorded, whatever is asked for. -/
def History.threshold (logger : Option Threshold) (steps : List Step) : Threshold :=
  match logger with
  | none => .off
  | some initial => (steps.reverse.findSome? Step.level?).getD initial

/-- Whether the entries are records of anything but an error, none of them with these words. -/
def Quiet (words : String) (entries : List Entry) : Prop :=
  ∀ entry ∈ entries, ∃ level text, entry = .record level text ∧ level ≠ .error ∧ text ≠ words

/-- Whether the exit reports the words on one channel, after what was logged before: as a record
that is flushed where errors are recorded, and as a line on standard error otherwise. -/
def Exit.Reports (exit : Exit) (threshold : Threshold) (before : List Entry) (words : String) :
    Prop :=
  if threshold.admits .error = true then
    exit.log = before ++ [.record .error words, .flush] ∧ exit.stderr = ""
  else
    exit.log = before ∧ exit.stderr = words ++ "\n"

def Run.stderr (run : Run) : String := (run.exit.map Exit.stderr).getD ""

theorem head?_toList_append {first : String} {letter : Char}
    (head : first.toList.head? = some letter) (second : String) :
    (first ++ second).toList.head? = some letter := by
  rw [String.toList_append, List.head?_append, head, Option.some_or]

theorem Kind.head?_operation (kind : Kind) : kind.operation.toList.head? = some 'C' := by
  cases kind <;> rfl

theorem Failure.head?_message_unknownIndex (kind : Kind) (index : Int32) :
    (unknownIndex kind.operation index).message.toList.head? = some 'C' :=
  head?_toList_append (head?_toList_append kind.head?_operation _) _

theorem Notice.head?_text_lateWrite_ne (slot : Slot) :
    (lateWrite slot).text.toList.head? ≠ some 'C' := by
  have head : (lateWrite slot).text.toList.head? = some _ :=
    head?_toList_append (head?_toList_append rfl slot.name) _
  rw [head]
  decide

theorem Notice.head?_text_initializing_ne (slot : Slot) :
    (initializing slot).text.toList.head? ≠ some 'C' := by
  have head : (initializing slot).text.toList.head? = some _ :=
    head?_toList_append (head?_toList_append (head?_toList_append
      (head?_toList_append rfl slot.name) _) slot.kind.label) _
  rw [head]
  decide

theorem Quiet.log {words : String} {notices : List Notice}
    (calm : ∀ notice ∈ notices, notice.level ≠ .error ∧ notice.text ≠ words)
    (threshold : Threshold) : Quiet words (threshold.log notices) := by
  intro entry logged
  obtain ⟨notice, placed, same⟩ := List.mem_map.mp logged
  obtain ⟨level, text⟩ := calm notice (List.mem_filter.mp placed).1
  exact ⟨notice.level, notice.text, same.symm, level, text⟩

theorem Threshold.flush_not_mem_log (threshold : Threshold) (notices : List Notice) :
    Entry.flush ∉ threshold.log notices := by
  intro logged
  obtain ⟨notice, _, same⟩ := List.mem_map.mp logged
  cases same

namespace Registry

theorem fatal_iff {registry : Registry} {step : Step} {words : String} :
    registry.Fatal step words ↔
      ∃ failure, (registry.perform step).fatal = some failure ∧ failure.message = words := by
  have unset : registry.missing = Slot.all.filter fun slot => registry.isSet slot = false :=
    missing_eq_filter fun _ => Iff.rfl
  refine ⟨fun fatal => ?_, fun ended => ?_⟩
  · cases fatal with
    | @unplaced index value apart =>
      have refused : value.place? index = none := Value.place?_eq_none_iff.mpr
        fun slot both => apart slot both.1 both.2.symm
      exact ⟨_, by rw [fatal_perform_call, if_pos refused], rfl⟩
    | @incomplete lacking same nonempty =>
      rw [← unset] at same
      subst same
      exact ⟨_, by rw [fatal_perform_doneOrExit, if_neg nonempty], rfl⟩
  · obtain ⟨failure, fatal, said⟩ := ended
    subst said
    rcases cases_of_fatal_perform fatal with ⟨index, value, rfl, refused, rfl⟩ | ⟨rfl, lacking, rfl⟩
    · exact .unplaced fun slot located kinds =>
        Value.place?_eq_none_iff.mp refused slot ⟨located, kinds.symm⟩
    · exact .incomplete unset lacking

theorem exists_slot_of_mem_writeNotices {registry : Registry} {index : Int32} {notice : Notice}
    (told : notice ∈ registry.writeNotices index) :
    ∃ slot, notice = .lateWrite slot ∨ notice = .initializing slot := by
  unfold writeNotices at told
  split at told
  next => cases told
  next slot _ =>
    refine ⟨slot, ?_⟩
    split at told
    next => exact Or.inl (List.mem_singleton.mp told)
    next => exact Or.inr (List.mem_singleton.mp told)

theorem text_ne_of_mem_writeNotices {registry : Registry} {index : Int32} {notice : Notice}
    (told : notice ∈ registry.writeNotices index) (kind : Kind) (other : Int32) :
    notice.level ≠ .error ∧
      notice.text ≠ (Failure.unknownIndex kind.operation other).message := by
  -- The texts differ in their first letters.
  have failure := Failure.head?_message_unknownIndex kind other
  obtain ⟨slot, rfl | rfl⟩ := exists_slot_of_mem_writeNotices told
  · refine ⟨by simp [Notice.level], fun same => ?_⟩
    rw [← same] at failure
    exact Notice.head?_text_lateWrite_ne slot failure
  · refine ⟨by simp [Notice.level], fun same => ?_⟩
    rw [← same] at failure
    exact Notice.head?_text_initializing_ne slot failure

theorem calm_of_fatal {registry : Registry} {step : Step} {failure : Failure}
    (fatal : (registry.perform step).fatal = some failure) :
    ∀ notice ∈ (registry.perform step).notices,
      notice.level ≠ .error ∧ notice.text ≠ failure.message := by
  rcases cases_of_fatal_perform fatal with ⟨index, value, rfl, refused, rfl⟩ | ⟨rfl, lacking, rfl⟩
  · have told : (registry.perform (.call index value)).notices = registry.writeNotices index := by
      simp [perform, set_of_place?_eq_none refused]
    intro notice member
    rw [told] at member
    exact text_ne_of_mem_writeNotices member value.kind index
  · simp [perform, freeze_of_missing_ne_nil lacking]

end Registry

namespace Process

theorem threshold_run {start : Process} {steps : List Step}
    (survived : (start.run steps).exit = none) :
    (start.run steps).final.threshold = History.threshold start.logger steps := by
  have logger : (start.run steps).final.logger =
      start.logger.map fun initial => (steps.reverse.findSome? Step.level?).getD initial := by
    induction steps generalizing start with
    | nil => simp [run]
    | cons step later ih =>
      obtain ⟨transition, taken, onward⟩ := exists_step_of_survived survived
      rw [final_run_cons taken, ih onward, logger_of_step_eq_ok taken, Option.map_map,
        List.reverse_cons, List.findSome?_append]
      congr 1
      funext initial
      cases later.reverse.findSome? Step.level? <;> simp
  unfold threshold History.threshold
  rw [logger]
  cases start.logger <;> rfl

theorem reports_fail (process : Process) (failure : Failure) (log : List Entry) :
    (process.fail failure log).Reports process.threshold log failure.message := by
  unfold fail Exit.Reports
  split
  next => exact ⟨rfl, rfl⟩
  next => exact ⟨rfl, rfl⟩

theorem level?_of_fatal {registry : Registry} {step : Step} {failure : Failure}
    (fatal : (registry.perform step).fatal = some failure) : step.level? = none := by
  rcases Registry.cases_of_fatal_perform fatal with ⟨index, value, rfl, _⟩ | ⟨rfl, _⟩ <;> rfl

theorem exists_reports_of_fatal {process : Process} {step : Step} {failure : Failure}
    (fatal : (process.registry.perform step).fatal = some failure) :
    ∃ exit, process.step step = .error exit ∧ exit.status = 1 ∧
      exit.Reports process.threshold
        (process.threshold.log (process.registry.perform step).notices) failure.message := by
  have steady := process.threshold_prepare (level?_of_fatal fatal)
  have reports := (process.prepare step).reports_fail failure
    (process.threshold.log (process.registry.perform step).notices)
  rw [steady] at reports
  refine ⟨_, ?_, ?_, reports⟩
  · rw [step_of_fatal_eq_some fatal, steady]
  · unfold fail
    split <;> rfl

theorem reports_of_step_eq_error {process : Process} {step : Step} {exit : Exit}
    (ended : process.step step = .error exit) :
    ∃ words before, process.registry.Fatal step words ∧ exit.status = 1 ∧ Quiet words before ∧
      exit.Reports process.threshold before words := by
  obtain ⟨failure, fatal⟩ := exists_fatal_of_step_eq_error ended
  obtain ⟨same, fell, status, reports⟩ := exists_reports_of_fatal fatal
  rw [ended] at fell
  cases fell
  exact ⟨failure.message, _, Registry.fatal_iff.mpr ⟨failure, fatal, rfl⟩, status,
    Quiet.log (Registry.calm_of_fatal fatal) _, reports⟩

theorem exists_step_eq_error_iff {process : Process} {step : Step} :
    (∃ exit, process.step step = .error exit) ↔ ∃ words, process.registry.Fatal step words := by
  refine ⟨fun ended => ?_, fun fatal => ?_⟩
  · obtain ⟨exit, fell⟩ := ended
    obtain ⟨words, _, fatal, _⟩ := reports_of_step_eq_error fell
    exact ⟨words, fatal⟩
  · obtain ⟨words, stated⟩ := fatal
    obtain ⟨failure, fatal, _⟩ := Registry.fatal_iff.mp stated
    exact ⟨_, step_of_fatal_eq_some fatal⟩

theorem not_fatal_of_takes {start : Process} {steps earlier : List Step} {step : Step}
    (survived : (start.run steps).exit = none) (place : start.Takes steps earlier step)
    (words : String) : ¬(start.run earlier).final.registry.Fatal step words := by
  intro fatal
  obtain ⟨exit, ended⟩ := exists_step_eq_error_iff.mpr ⟨words, fatal⟩
  exact step_ne_error_of_takes survived place exit ended

end Process

/-- A run exits at the first fatal step that it takes, and at no other step: an exported write
that no slot takes, or a declaration on pain of exit while slots are not set. The exit says so
once, in words that name what was wrong, on the channel that the level in force decides. Before
that nothing is flushed and nothing is written to standard error. -/
theorem exits_at_first_fatal_step (start : Process) (steps : List Step) :
    let run := start.run steps
    (∀ (process : Process) (step : Step),
      (∃ exit, process.step step = .error exit) ↔ ∃ words, process.registry.Fatal step words) ∧
    (∀ transition ∈ run.trace, Entry.flush ∉ transition.log) ∧
    match run.exit with
    | none => run.stderr = "" ∧ ∀ earlier step, start.Takes steps earlier step →
        ∀ words, ¬(start.run earlier).final.registry.Fatal step words
    | some exit => ∃ earlier step words before,
        start.Takes steps earlier step ∧ run.trace.length = earlier.length ∧
        (start.run earlier).final.registry.Fatal step words ∧
        (∀ sooner other, start.Takes earlier sooner other →
          ∀ said, ¬(start.run sooner).final.registry.Fatal other said) ∧
        run.stderr = exit.stderr ∧ exit.status = 1 ∧ Quiet words before ∧
        exit.Reports (History.threshold start.logger earlier) before words := by
  intro run
  refine ⟨fun process step => Process.exists_step_eq_error_iff, ?_, ?_⟩
  · intro transition member
    obtain ⟨earlier, step, _, survived⟩ := Process.exists_takes_of_mem_trace member
    rw [Process.log_of_step_eq_ok survived]
    exact Threshold.flush_not_mem_log _ _
  · cases ended : run.exit with
    | none =>
      exact ⟨by rw [Run.stderr, ended]; rfl, fun earlier step place =>
        Process.not_fatal_of_takes ended place⟩
    | some exit =>
      obtain ⟨earlier, step, place, fell⟩ := Process.exists_takes_of_exit ended
      obtain ⟨words, before, fatal, status, quiet, reports⟩ := Process.reports_of_step_eq_error fell
      have trace : run.trace = (start.run earlier).trace := by
        rw [show run = _ from Process.run_of_takes_error place fell]
      rw [Process.threshold_run place.alive] at reports
      refine ⟨earlier, step, words, before, place, ?_, fatal, ?_, ?_, status, quiet, reports⟩
      · rw [trace, Process.length_trace_of_survived place.alive]
      · exact fun sooner other taken => Process.not_fatal_of_takes place.alive taken
      · rw [Run.stderr, ended]
        rfl

end NativeGlobals
