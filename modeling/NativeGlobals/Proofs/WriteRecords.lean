import NativeGlobals.Proofs.LogShape
import NativeGlobals.Proofs.Refusal

/-! The records of writes in a log from which nothing is left out. Every accepted write is told
once, under the name of its slot, and a write at an index that no slot has is not told. Yet a write
at the index of a slot of another kind is refused and told all the same. So the records of a run
tell the truth about its writes exactly if no write of the run is of this sort. -/

namespace NativeGlobals

def Slot.writeRecord (slot : Slot) (frozen : Bool) : Entry :=
  if frozen then .record .warn ("`" ++ slot.name ++ "` set after the globals were frozen")
  else .record .trace ("Initializing `" ++ slot.name ++ "` (" ++ slot.kind.label ++ ")")

def Entry.tellsWrite (entry : Entry) : Bool :=
  Slot.all.any fun slot => entry = slot.writeRecord false ∨ entry = slot.writeRecord true

namespace Step

/-- The slot at the index of a write, whether it is of the right kind or not. -/
def indexed? : Step → Option Slot
  | .set index _ | .call index _ => Slot.ofIndex? index
  | _ => none

/-- Whether the step is a write at the index of a slot of another kind. -/
def misfits : Step → Bool
  | .set index value | .call index value =>
      (Slot.ofIndex? index).any fun slot => value.kind != slot.kind
  | _ => false

end Step

namespace Process

/-- The records of writes among what a run logs. -/
def told (process : Process) (steps : List Step) : List Entry :=
  (process.logged steps).filter Entry.tellsWrite

/-- The slot for which the process accepts the step, by its answer, as a write. -/
def accepts? (process : Process) (step : Step) : Option Slot :=
  match process.step step with
  | .error _ => none
  | .ok transition =>
      (Exchange.mk step transition.answer).accepted?.bind fun write => Slot.ofIndex? write.1

/-- The records that are true of a run: one for each accepted write, and no other. -/
def account : Process → List Step → List Entry
  | _, [] => []
  | process, step :: later =>
      (process.accepts? step).toList.map (Slot.writeRecord · process.registry.frozen) ++
        match process.step step with
        | .error _ => []
        | .ok transition => transition.process.account later

end Process

namespace Entry

theorem tellsWrite_writeRecord (slot : Slot) (frozen : Bool) :
    (slot.writeRecord frozen).tellsWrite = true := by
  rw [tellsWrite, List.any_eq_true]
  refine ⟨slot, slot.mem_all, ?_⟩
  cases frozen <;> simp

theorem not_tellsWrite_of_level {level : Level} (silent : level ≠ .trace) (calm : level ≠ .warn)
    (text : String) : (record level text).tellsWrite = false := by
  rw [tellsWrite, List.any_eq_false]
  intro slot _
  simp [Slot.writeRecord, silent, calm]

theorem not_tellsWrite_flush : flush.tellsWrite = false := by
  rw [tellsWrite, List.any_eq_false]
  intro slot _
  simp [Slot.writeRecord]

end Entry

namespace Registry

theorem filter_log_writeNotices (registry : Registry) (index : Int32) :
    ((Threshold.upTo .trace).log (registry.writeNotices index)).filter Entry.tellsWrite =
      (Slot.ofIndex? index).toList.map (Slot.writeRecord · registry.frozen) := by
  have kept : ∀ slot : Slot, [slot.writeRecord registry.frozen].filter Entry.tellsWrite =
      [slot.writeRecord registry.frozen] := fun slot =>
    List.filter_cons_of_pos (Entry.tellsWrite_writeRecord slot registry.frozen)
  rw [Threshold.log_trace, writeNotices]
  cases located : Slot.ofIndex? index with
  | none => rfl
  | some slot =>
    refine Eq.trans ?_ (kept slot)
    cases registry.frozen <;> rfl

theorem filter_log_perform (registry : Registry) (step : Step) :
    ((Threshold.upTo .trace).log (registry.perform step).notices).filter Entry.tellsWrite =
      step.indexed?.toList.map (Slot.writeRecord · registry.frozen) := by
  rw [notices_perform]
  cases step with
  | set index value | call index value => exact registry.filter_log_writeNotices index
  | freeze | done | doneOrExit =>
    by_cases complete : registry.missing = [] <;>
      simp [complete, Threshold.log_trace, Notice.level, Entry.not_tellsWrite_of_level,
        Step.indexed?]
  | _ => rfl

end Registry

theorem Value.ite_misfits (value : Value) (index : Int32) :
    (if (Step.set index value).misfits then none else Slot.ofIndex? index) =
      if value.place? index = none then none else Slot.ofIndex? index := by
  cases located : Slot.ofIndex? index with
  | none => simp
  | some slot =>
    have fits := fit_isSome_iff value slot
    rw [Option.isSome_iff_ne_none] at fits
    simp [place?, located, Step.misfits, ← fits]

theorem Step.exists_indexed_of_misfits {step : Step} (misfit : step.misfits = true) :
    ∃ slot, step.indexed? = some slot := by
  cases step with
  | set index value | call index value =>
    cases located : Slot.ofIndex? index with
    | none => simp [misfits, located] at misfit
    | some slot => exact ⟨slot, located⟩
  | _ => cases misfit

namespace Process

variable {process : Process} {step : Step}

theorem told_singleton (loud : process.logger = some (.upTo .trace)) (step : Step) :
    process.told [step] =
      step.indexed?.toList.map (Slot.writeRecord · process.registry.frozen) := by
  rw [← process.registry.filter_log_perform step, told]
  cases taken : process.step step with
  | ok transition =>
    rw [logged_cons_of_ok taken, log_of_step_eq_ok taken, log_prepare, threshold_of_loud loud]
    exact congrArg _ (List.append_nil _)
  | error exit =>
    obtain ⟨failure, words, _, log⟩ := loud_of_step_eq_error loud taken
    have unsaid : (Entry.record .error words).tellsWrite = false :=
      Entry.not_tellsWrite_of_level (by simp) (by simp) words
    rw [logged_cons_of_error taken, log, List.filter_append]
    simp [unsaid, Entry.not_tellsWrite_flush]

theorem accepts?_set (process : Process) (index : Int32) (value : Value) :
    process.accepts? (.set index value) =
      if value.place? index = none then none else Slot.ofIndex? index := by
  obtain ⟨transition, survived, accepted, rejected⟩ := process.step_set index value
  by_cases refused : value.place? index = none
  · have answer := (rejected fun contrary => accepted.mp contrary refused).1
    simp [accepts?, survived, answer, refused, Exchange.accepted?]
  · simp [accepts?, survived, accepted.mpr refused, refused, Exchange.accepted?]

theorem accepts?_call (process : Process) (index : Int32) (value : Value) :
    process.accepts? (.call index value) =
      if value.place? index = none then none else Slot.ofIndex? index := by
  have fatal := process.registry.fatal_perform_call index value
  by_cases refused : value.place? index = none
  · rw [if_pos refused] at fatal
    simp [accepts?, step_of_fatal_eq_some fatal, refused]
  · rw [if_neg refused] at fatal
    simp [accepts?, step_of_fatal_eq_none fatal, refused, Exchange.accepted?]

theorem accepts?_eq (process : Process) (step : Step) :
    process.accepts? step = if step.misfits then none else step.indexed? := by
  cases step with
  | set index value => exact (process.accepts?_set index value).trans (value.ite_misfits index).symm
  | call index value =>
    exact (process.accepts?_call index value).trans (value.ite_misfits index).symm
  | _ => unfold accepts?; split <;> rfl

theorem account_cons_of_error {exit : Exit} (ended : process.step step = .error exit)
    (later : List Step) : process.account (step :: later) = process.account [step] := by
  simp [account, ended]

theorem account_cons_of_ok {transition : Transition} (survived : process.step step = .ok transition)
    (later : List Step) :
    process.account (step :: later) = process.account [step] ++ transition.process.account later := by
  simp [account, survived]

theorem account_singleton (process : Process) (step : Step) :
    process.account [step] = if step.misfits then [] else
      step.indexed?.toList.map (Slot.writeRecord · process.registry.frozen) := by
  have alone : process.account [step] =
      (process.accepts? step).toList.map (Slot.writeRecord · process.registry.frozen) := by
    unfold account
    split <;> exact List.append_nil _
  rw [alone, accepts?_eq]
  split <;> rfl

theorem told_cons_of_error {exit : Exit} (ended : process.step step = .error exit)
    (later : List Step) : process.told (step :: later) = process.told [step] := by
  simp [told, logged_cons_of_error ended]

theorem told_cons_of_ok {transition : Transition} (survived : process.step step = .ok transition)
    (later : List Step) :
    process.told (step :: later) = process.told [step] ++ transition.process.told later := by
  have nothing : transition.process.logged [] = [] := rfl
  simp [told, logged_cons_of_ok survived, nothing]

theorem told_singleton_eq_account_iff (loud : process.logger = some (.upTo .trace)) (step : Step) :
    process.told [step] = process.account [step] ↔ step.misfits = false := by
  rw [told_singleton loud, account_singleton]
  cases misfit : step.misfits with
  | false => simp
  | true =>
    obtain ⟨slot, located⟩ := Step.exists_indexed_of_misfits misfit
    simp [located]

theorem account_singleton_sublist_told (loud : process.logger = some (.upTo .trace)) (step : Step) :
    (process.account [step]).Sublist (process.told [step]) := by
  rw [told_singleton loud, account_singleton]
  split
  next => exact List.nil_sublist _
  next => exact List.Sublist.refl _

theorem account_sublist_told {steps : List Step} (loud : process.logger = some (.upTo .trace))
    (stays : ∀ step ∈ steps, step.StaysLoud) :
    (process.account steps).Sublist (process.told steps) := by
  induction steps generalizing process with
  | nil => exact List.nil_sublist _
  | cons step later ih =>
    have first := account_singleton_sublist_told loud step
    cases taken : process.step step with
    | error exit =>
      rw [account_cons_of_error taken, told_cons_of_error taken]
      exact first
    | ok transition =>
      have still := (loud_of_step_eq_ok loud (stays step List.mem_cons_self) taken).1
      rw [account_cons_of_ok taken, told_cons_of_ok taken]
      exact first.append (ih still fun step member => stays step (List.mem_cons_of_mem _ member))

theorem told_eq_account_iff {steps : List Step} (loud : process.logger = some (.upTo .trace))
    (stays : ∀ step ∈ steps, step.StaysLoud) :
    process.told steps = process.account steps ↔
      ∀ outcome ∈ process.outcomes steps, outcome.step.misfits = false := by
  induction steps generalizing process with
  | nil => simp [told, logged, run, Run.log, account, outcomes]
  | cons step later ih =>
    have first := told_singleton_eq_account_iff loud step
    cases taken : process.step step with
    | error exit =>
      rw [account_cons_of_error taken, told_cons_of_error taken, outcomes_cons_of_error taken, first]
      simp
    | ok transition =>
      have still := (loud_of_step_eq_ok loud (stays step List.mem_cons_self) taken).1
      have onward : ∀ step ∈ later, step.StaysLoud := fun step member =>
        stays step (List.mem_cons_of_mem _ member)
      rw [account_cons_of_ok taken, told_cons_of_ok taken, outcomes_cons_of_ok taken,
        List.forall_mem_cons, ← ih still onward, ← first]
      refine ⟨fun same => ?_, fun both => by rw [both.1, both.2]⟩
      -- Neither part of the account is longer than what is told of it, so the parts match.
      have shorter := (account_singleton_sublist_told loud step).length_le
      have rest := (account_sublist_told still onward).length_le
      have lengths := congrArg List.length same
      rw [List.length_append, List.length_append] at lengths
      exact List.append_inj same (by omega)

end Process

/-- In a log from which nothing is left out a step makes one record of a write if some slot has its
index, in the name of that slot, and none otherwise. This is true of the step unless the slot is of
another kind than the value, and then it is false. So the accepted writes of a run are all told, and
nothing else is told with them exactly if no write of the run is of another kind than the slot at
its index. -/
theorem write_records_true_iff_kinds_fit {process : Process}
    (loud : process.logger = some (.upTo .trace)) :
    (∀ step,
      process.told [step] =
          step.indexed?.toList.map (Slot.writeRecord · process.registry.frozen) ∧
        (process.told [step] = process.account [step] ↔ step.misfits = false)) ∧
    (∀ steps : List Step, (∀ step ∈ steps, step.StaysLoud) →
      (process.account steps).Sublist (process.told steps) ∧
        (process.told steps = process.account steps ↔
          ∀ outcome ∈ process.outcomes steps, outcome.step.misfits = false)) := by
  refine ⟨fun step => ?_, fun steps stays => ?_⟩
  · exact ⟨Process.told_singleton loud step,
      Process.told_singleton_eq_account_iff loud step⟩
  · exact ⟨Process.account_sublist_told loud stays, Process.told_eq_account_iff loud stays⟩

/-- The records of a run are true of it, though an index that no slot has is refused, until an
exported write of another kind ends it. -/
theorem records_true_until_kinds_differ :
    let start := Process.fresh (some (.upTo .trace))
    let fitting := [.set 49 (.int 5), .set 9999 (.int 1), .call 0 (.text none), .done]
    let misfitting := fitting ++ [.call 49 (.double 1)]
    (∀ step ∈ misfitting, step.StaysLoud) ∧ start.told fitting = start.account fitting ∧
      start.told misfitting ≠ start.account misfitting := by
  intro start fitting misfitting
  have stays : ∀ step ∈ misfitting, step.StaysLoud := by
    intro step member threshold levels
    simp only [misfitting, fitting, List.cons_append, List.nil_append, List.mem_cons,
      List.not_mem_nil, or_false] at member
    rcases member with rfl | rfl | rfl | rfl | rfl <;> cases levels
  obtain ⟨_, runs⟩ := write_records_true_iff_kinds_fit (show start.logger = _ from rfl)
  have fits : ∀ outcome ∈ start.outcomes fitting, outcome.step.misfits = false := by
    decide +kernel
  have misfit : ¬∀ outcome ∈ start.outcomes misfitting, outcome.step.misfits = false := by
    decide +kernel
  refine ⟨stays, (runs fitting fun step member => stays step ?_).2.mpr fits,
    mt (runs misfitting stays).2.mp misfit⟩
  exact List.mem_append_left _ member

/-- An integer for R_Home is refused, and told as if it had been set: before the globals are frozen,
and again in a warning afterwards. -/
theorem refused_write_told_as_set :
    let frozen := ((Process.fresh (some (.upTo .trace))).run
      (.set 0 (.int 1) :: Step.fill Slot.all ++ [.freeze])).final
    let start := Process.fresh (some (.upTo .trace))
    let write := Step.set 0 (.int 1)
    start.Refuses write ∧ start.account [write] = [] ∧
      start.told [write] = [.record .trace "Initializing `R_Home` (string)"] ∧
      frozen.registry.frozen = true ∧ frozen.Refuses write ∧ frozen.account [write] = [] ∧
      frozen.told [write] = [.record .warn "`R_Home` set after the globals were frozen"] := by
  intro frozen start write
  have loud : frozen.logger = some (.upTo .trace) := by decide +kernel
  have ready : frozen.registry.frozen = true := by decide +kernel
  -- The rest follows for any frozen process that is heard, so the run is not evaluated again.
  clear_value frozen
  have refused : (Value.int 1).place? 0 = none := by decide
  refine ⟨start.refuses_of_place?_eq_none refused, rfl, ?_, ready,
    frozen.refuses_of_place?_eq_none refused, ?_, ?_⟩
  · rw [Process.told_singleton rfl]
    decide
  · rw [Process.account_singleton]
    rfl
  · rw [Process.told_singleton loud, ready]
    decide

end NativeGlobals
