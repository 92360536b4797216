import NativeGlobals.Proofs.Completeness
import NativeGlobals.Proofs.Invariant
import NativeGlobals.Proofs.LastWrite
import NativeGlobals.Proofs.Observer

/-! What a process decides does not depend on what its globals hold. Someone who cannot see any
content learns the same from two runs that differ in the values that are passed and in pokes: of
a value only its kind counts, and whether it is there. Pokes alone make no difference to a global
that is not poked. -/

namespace NativeGlobals

/-- A value of the same kind that is there exactly if this one is. -/
def Value.blank : Value → Value
  | .int _ => .int 0
  | .double _ => .double 0
  | .text bytes => .text (bytes.map fun _ => [])
  | .handle _ => .handle 0

/-- The step with nothing in it of what the host passes but whether it is there. -/
def Step.blank : Step → Step
  | .set index value => .set index value.blank
  | .call index value => .call index value.blank
  | .overwrite _ => .overwrite []
  | step => step

def Answer.blank : Answer → Answer
  | .reading _ | .readings _ => .nothing
  | answer => answer

/-- What there is to know of a transition, apart from what globals hold. -/
structure Verdict where
  answer : Answer
  isSet : Slot → Bool
  frozen : Bool
  log : List Entry

def Transition.verdict (transition : Transition) : Verdict where
  answer := transition.answer.blank
  isSet := transition.process.registry.isSet
  frozen := transition.process.registry.frozen
  log := transition.log

namespace Observer

/-- Does not see any content, neither what is passed nor what globals hold. Pokes escape it. -/
def blind : Observer Verdict Exit where
  heeds step := !step.pokes
  form := Step.blank
  seen := Transition.verdict
  told := id

/-- Reads one global after each step. Pokes of other globals escape it. -/
def reader (global : Global) : Observer global.Content Exit where
  heeds step := !step.pokes || step.target? == some global
  form := id
  seen transition := transition.process.registry.content global
  told := id

end Observer

/-- Whether two registries agree in everything but what the globals hold. -/
structure Registry.Concurs (first second : Registry) : Prop where
  isSet : first.isSet = second.isSet
  frozen : first.frozen = second.frozen

structure Effect.Concurs (first second : Effect) : Prop where
  registry : first.registry.Concurs second.registry
  answer : first.answer.blank = second.answer.blank
  notices : first.notices = second.notices
  fatal : first.fatal = second.fatal

structure Process.Concurs (first second : Process) : Prop where
  registry : first.registry.Concurs second.registry
  logger : first.logger = second.logger

theorem Registry.Concurs.trans_symm {first second middle : Registry} (one : first.Concurs middle)
    (other : second.Concurs middle) : first.Concurs second where
  isSet := one.isSet.trans other.isSet.symm
  frozen := one.frozen.trans other.frozen.symm

theorem Effect.Concurs.trans_symm {first second middle : Effect} (one : first.Concurs middle)
    (other : second.Concurs middle) : first.Concurs second where
  registry := one.registry.trans_symm other.registry
  answer := one.answer.trans other.answer.symm
  notices := one.notices.trans other.notices.symm
  fatal := one.fatal.trans other.fatal.symm

namespace Value

@[simp] theorem kind_blank (value : Value) : value.blank.kind = value.kind := by
  cases value <;> rfl

@[simp] theorem present_blank (value : Value) : value.blank.present = value.present := by
  cases value with
  | text bytes => cases bytes <;> rfl
  | _ => rfl

theorem blank_blank (value : Value) : value.blank.blank = value.blank := by
  cases value with
  | text bytes => cases bytes <;> rfl
  | _ => rfl

theorem place?_blank_eq_none_iff {value : Value} {index : Int32} :
    value.blank.place? index = none ↔ value.place? index = none := by
  simp only [place?_eq_none_iff, kind_blank]

end Value

namespace Step

theorem blank_blank (step : Step) : step.blank.blank = step.blank := by
  cases step with
  | set index value | call index value => simp only [blank, Value.blank_blank]
  | _ => rfl

@[simp] theorem pokes_blank (step : Step) : step.blank.pokes = step.pokes := by
  cases step <;> rfl

@[simp] theorem level?_blank (step : Step) : step.blank.level? = step.level? := by
  cases step <;> rfl

@[simp] theorem freezes_blank (step : Step) : step.blank.freezes = step.freezes := by
  cases step <;> rfl

theorem supplies?_blank (step : Step) (slot : Slot) :
    step.blank.supplies? slot = (step.supplies? slot).map Value.blank := by
  cases step with
  | set index value | call index value => simp [blank, supplies?, apply_ite]
  | _ => rfl

end Step

namespace Registry.Concurs

variable {first second : Registry}

theorem missing (concurs : first.Concurs second) : first.missing = second.missing :=
  missing_congr concurs.isSet

theorem writeNotices (concurs : first.Concurs second) (index : Int32) :
    first.writeNotices index = second.writeNotices index := by
  simp only [Registry.writeNotices, concurs.frozen]

theorem after_blank (concurs : first.Concurs second) (step : Step) :
    (first.perform step).registry.Concurs (second.perform step.blank).registry where
  isSet := by
    funext slot
    rw [isSet_perform, isSet_perform, Step.supplies?_blank, concurs.isSet, Option.map_map]
    congr 2
    funext value
    exact value.present_blank.symm
  frozen := by
    rw [frozen_perform, frozen_perform, Step.freezes_blank, concurs.frozen, concurs.missing]

theorem perform_blank (concurs : first.Concurs second) (step : Step) :
    (first.perform step).Concurs (second.perform step.blank) := by
  suffices alike : (first.perform step).answer.blank = (second.perform step.blank).answer.blank ∧
      (first.perform step).notices = (second.perform step.blank).notices ∧
      (first.perform step).fatal = (second.perform step.blank).fatal from
    ⟨concurs.after_blank step, alike.1, alike.2.1, alike.2.2⟩
  cases step with
  | set index value | call index value =>
    -- A write is refused for its index or its kind, and the blank has both.
    cases placed : value.place? index with
    | none =>
      have blanked := Value.place?_blank_eq_none_iff.mpr placed
      simp [perform, Step.blank, set_of_place?_eq_none placed, set_of_place?_eq_none blanked,
        concurs.writeNotices index]
    | some target =>
      have taken : value.blank.place? index ≠ none := by
        rw [Ne, Value.place?_blank_eq_none_iff, placed]
        exact Option.some_ne_none target
      obtain ⟨other, blanked⟩ := Option.ne_none_iff_exists'.mp taken
      simp [perform, Step.blank, set_of_place?_eq_some placed, set_of_place?_eq_some blanked,
        concurs.writeNotices index]
  | has slot => simp [perform, Step.blank, concurs.isSet]
  | isSet index =>
    cases located : Slot.ofIndex? index <;> simp [perform, Step.blank, located, concurs.isSet]
  | missing => simp [perform, Step.blank, concurs.missing]
  | isReady => simp [perform, Step.blank, concurs.frozen]
  | checkComplete =>
    by_cases complete : second.missing = []
    · simp [perform, Step.blank, checkComplete_of_missing_eq_nil, concurs.missing, complete]
    · simp [perform, Step.blank, checkComplete_of_missing_ne_nil, concurs.missing, complete]
  | freeze | done | doneOrExit =>
    by_cases complete : second.missing = []
    · simp [perform, Step.blank, freeze_of_missing_eq_nil, concurs.missing, complete]
    · simp [perform, Step.blank, freeze_of_missing_ne_nil, concurs.missing, complete]
  | overwrite bytes | poke target content foreign | level threshold => exact ⟨rfl, rfl, rfl⟩
  | get target | dump => exact ⟨rfl, rfl, rfl⟩

theorem perform (concurs : first.Concurs second) (step : Step) :
    (first.perform step).Concurs (second.perform step) :=
  (concurs.perform_blank step).trans_symm (perform_blank ⟨rfl, rfl⟩ step)

end Registry.Concurs

namespace Process

variable {first second : Process}

theorem step_of_concurs {one other : Step} (logger : first.logger = second.logger)
    (level : one.level? = other.level?)
    (performed : (first.registry.perform one).Concurs (second.registry.perform other)) :
    match first.step one, second.step other with
    | .ok before, .ok after =>
        before.verdict = after.verdict ∧ before.process.Concurs after.process
    | .error before, .error after => before = after
    | _, _ => False := by
  have prepared : (first.prepare one).logger = (second.prepare other).logger := by
    rw [logger_prepare, logger_prepare, logger, level]
  have threshold : (first.prepare one).threshold = (second.prepare other).threshold := by
    simp only [Process.threshold, prepared]
  cases fatal : (second.registry.perform other).fatal with
  | none =>
    have harmless := performed.fatal.trans fatal
    rw [step_of_fatal_eq_none fatal, step_of_fatal_eq_none harmless]
    refine ⟨?_, performed.registry, prepared⟩
    simp only [Transition.verdict, performed.answer, performed.registry.isSet,
      performed.registry.frozen, performed.notices, threshold]
  | some failure =>
    have same := performed.fatal.trans fatal
    rw [step_of_fatal_eq_some fatal, step_of_fatal_eq_some same]
    simp only [fail, performed.notices, threshold]

theorem step_poke (process : Process) (target : Global) (content : target.Content)
    (foreign : target.layout ≠ .ownedText) :
    process.step (.poke target content foreign) =
      .ok ⟨{ process with registry := process.registry.put target (target.layout.settle content) },
        .nothing, []⟩ := rfl

theorem Concurs.refl (process : Process) : process.Concurs process := ⟨⟨rfl, rfl⟩, rfl⟩

end Process

namespace Observer

theorem unwinds_blind : blind.Unwinds Process.Concurs where
  escapes := by
    intro first second step concurs escaped
    cases step with
    | poke target content foreign =>
      exact ⟨_, first.step_poke target content foreign, ⟨concurs.registry.isSet,
        concurs.registry.frozen⟩, concurs.logger⟩
    | _ => cases escaped
  stands concurs _ :=
    Process.step_of_concurs concurs.logger (Step.level?_blank _).symm
      (concurs.registry.perform_blank _)
  heeds_form heeded := by simpa [blind] using heeded
  form_form := Step.blank_blank

/-- Whether two processes agree in everything but the globals other than this one. -/
structure Reads (global : Global) (first second : Process) : Prop where
  concurs : first.Concurs second
  content : first.registry.content global = second.registry.content global

theorem unwinds_reader (global : Global) : (reader global).Unwinds (Reads global) where
  escapes := by
    intro first second step reads escaped
    cases step with
    | poke target content foreign =>
      have apart : target ≠ global := by
        simpa [reader, Step.pokes, Step.target?] using escaped
      refine ⟨_, first.step_poke target content foreign, ⟨⟨reads.concurs.registry.isSet,
        reads.concurs.registry.frozen⟩, reads.concurs.logger⟩, ?_⟩
      exact (Registry.content_put_of_ne _ _ _ apart).trans reads.content
    | _ => cases escaped
  stands := by
    intro first second step reads heeded
    have alike := Process.step_of_concurs reads.concurs.logger rfl
      (reads.concurs.registry.perform step)
    change match first.step step, second.step step with
      | .ok one, .ok other => one.process.registry.content global =
          other.process.registry.content global ∧ Reads global one.process other.process
      | .error one, .error other => one = other
      | _, _ => False
    split at alike
    next one other survived again =>
      have content : one.process.registry.content global =
          other.process.registry.content global := by
        rw [(Process.of_step_eq_ok survived).2.1, (Process.of_step_eq_ok again).2.1,
          Registry.content_perform, Registry.content_perform, reads.content]
      exact ⟨content, alike.2, content⟩
    next one other ended again => exact alike
    next => exact alike.elim
  heeds_form heeded := heeded
  form_form _ := rfl

def heard : Step × Except Exit Verdict → List Entry
  | (_, .ok verdict) => verdict.log
  | (_, .error exit) => exit.log

theorem logged_eq_heard (process : Process) (taken : List Step) :
    process.logged taken = (blind.outcomes process taken).flatMap heard := by
  induction taken generalizing process with
  | nil => rfl
  | cons step later ih =>
    cases pokes : step.pokes with
    | true =>
      cases step with
      | poke target content foreign =>
        have survived := process.step_poke target content foreign
        rw [Process.logged_cons_of_ok survived, ih]
        simp [outcomes, Process.outcomes_cons_of_ok survived, blind, pokes]
      | _ => cases pokes
    | false =>
      cases taken : process.step step with
      | error exit =>
        rw [Process.logged_cons_of_error taken]
        simp [outcomes, Process.outcomes_cons_of_error taken, blind, pokes, view, heard]
      | ok transition =>
        rw [Process.logged_cons_of_ok taken, ih]
        simp [outcomes, Process.outcomes_cons_of_ok taken, blind, pokes, view, heard,
          Transition.verdict]

theorem steps_reader_eq {global : Global} {taken : List Step}
    (unpoked : ∀ step ∈ taken, step.pokes = true → step.target? ≠ some global) :
    (reader global).steps taken = taken.filter fun step => !step.pokes := by
  have same : taken.filter (reader global).heeds = taken.filter fun step => !step.pokes := by
    apply List.filter_congr
    intro step member
    cases pokes : step.pokes with
    | true => simp [reader, pokes, unpoked step member pokes]
    | false => simp [reader, pokes]
  rw [steps, same]
  exact List.map_id _

end Observer

/-- Two runs that differ in the values that are passed, up to whether they are there, and in pokes
are the same to someone who cannot see contents: the steps other than pokes come to the same
answers, set flags, frozen flags and logs, and the runs exit at the same step with the same words.
If they differ in pokes alone, a global that neither pokes holds the same at all their points. -/
theorem decisions_ignore_contents (start : Process) :
    (∀ first second : List Step,
      Observer.blind.steps first = Observer.blind.steps second →
        Observer.blind.outcomes start first = Observer.blind.outcomes start second ∧
          (start.run first).exit = (start.run second).exit ∧
          start.logged first = start.logged second ∧
          (start.run first).final.registry.Concurs (start.run second).final.registry) ∧
    (∀ (global : Global) (first second : List Step),
      (first.filter fun step => !step.pokes) = (second.filter fun step => !step.pokes) →
      (∀ step ∈ first ++ second, step.pokes = true → step.target? ≠ some global) →
        (Observer.reader global).outcomes start first =
            (Observer.reader global).outcomes start second ∧
          (start.run first).final.registry.content global =
            (start.run second).final.registry.content global) := by
  refine ⟨fun first second same => ?_, fun global first second same unpoked => ?_⟩
  · have concurs := Process.Concurs.refl start
    obtain ⟨outcomes, exit⟩ := Observer.unwinds_blind.outcomes_eq concurs concurs same
    have firstFinal := (Observer.unwinds_blind.run concurs first).1
    have secondFinal := (Observer.unwinds_blind.run concurs second).1
    rw [same] at firstFinal
    refine ⟨outcomes, ?_, ?_, firstFinal.registry.trans_symm secondFinal.registry⟩
    · simpa [Observer.blind] using exit
    · rw [Observer.logged_eq_heard, Observer.logged_eq_heard, outcomes]
  · have reads : Observer.Reads global start start := ⟨Process.Concurs.refl start, rfl⟩
    have unwinds := Observer.unwinds_reader global
    have alike : (Observer.reader global).steps first = (Observer.reader global).steps second := by
      rw [Observer.steps_reader_eq, Observer.steps_reader_eq, same]
      · exact fun step member => unpoked step (List.mem_append_right _ member)
      · exact fun step member => unpoked step (List.mem_append_left _ member)
    have firstFinal := (unwinds.run reads first).1
    have secondFinal := (unwinds.run reads second).1
    rw [alike] at firstFinal
    exact ⟨(unwinds.outcomes_eq reads reads alike).1,
      firstFinal.content.trans secondFinal.content.symm⟩

/-- Other values, an empty text and a poke of a slot make no difference to a run that exits for
want of most slots. A poke elsewhere makes none to R_NaInt. -/
theorem run_decided_alike_with_other_contents :
    let start := Process.fresh (some (.upTo .trace))
    let number : Global := .slot ⟨⟨49, by decide⟩⟩
    let first := [.set 49 (.int 5), .call 0 (.text (some [0x2f])), .set 45 (.double 0), .done,
      .doneOrExit]
    let second := [.set 49 (.int (-7)), .call 0 (.text (some [])), .set 45 (.double 1),
      .poke number (8 : Int32) (by decide), .done, .doneOrExit]
    let poked := .poke (.fixed .visible) (1 : UInt32) (by decide) :: first
    Observer.blind.steps first = Observer.blind.steps second ∧
      Observer.blind.outcomes start first = Observer.blind.outcomes start second ∧
      (start.run first).exit = (start.run second).exit ∧
      (start.run poked).final.registry.content number =
        (start.run first).final.registry.content number := by
  intro start number first second poked
  have same : Observer.blind.steps first = Observer.blind.steps second := rfl
  have unpoked : ∀ step ∈ poked ++ first, step.pokes = true → step.target? ≠ some number := by
    decide
  obtain ⟨alike, apart⟩ := decisions_ignore_contents start
  obtain ⟨outcomes, exit, _⟩ := alike first second same
  exact ⟨same, outcomes, exit, (apart number poked first rfl unpoked).2⟩

end NativeGlobals
