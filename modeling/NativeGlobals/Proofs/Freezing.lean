import Mathlib.Data.List.Basic
import Mathlib.Data.List.TakeWhile
import NativeGlobals.Session
import NativeGlobals.Proofs.Completeness

/-! A freeze is for good, yet it does not keep a registry complete. From then on exactly the
text that was cleared since, and was not set again, is missing. -/

namespace NativeGlobals

namespace History

def sinceFreeze (history : List Exchange) : List Exchange :=
  (history.dropWhile fun exchange => !exchange.froze).tail

/-- Whether the slot is for text, a write to it was accepted since the first freeze that
succeeded, and the last one cleared it. -/
def Cleared (history : List Exchange) (slot : Slot) : Prop :=
  slot.kind = .text ∧ supplied (sinceFreeze history) slot ≠ [] ∧
    (supplied history slot).getLast? = some (.text none)

instance (history : List Exchange) (slot : Slot) : Decidable (Cleared history slot) :=
  inferInstanceAs (Decidable (_ ∧ _ ∧ _))

/-- Whether the last write to each of these slots passed text, and no slot was left cleared. -/
def Restores (history : List Exchange) (slots : List Slot) : Prop :=
  (∀ slot ∈ slots, ∃ bytes, (supplied history slot).getLast? = some (.text (some bytes))) ∧
    ∀ slot, (supplied history slot).getLast? ≠ some (.text none)

theorem sinceFreeze_append_of_froze {history : List Exchange}
    (frozen : history.any Exchange.froze = true) (exchange : Exchange) :
    sinceFreeze (history ++ [exchange]) = sinceFreeze history ++ [exchange] := by
  have left : history.dropWhile (fun exchange => !exchange.froze) ≠ [] := by
    simpa [List.dropWhile_eq_nil_iff] using frozen
  have nonempty : (history.dropWhile fun exchange => !exchange.froze).isEmpty = false := by
    simpa using left
  unfold sinceFreeze
  rw [List.dropWhile_append, nonempty]
  exact List.tail_append_of_ne_nil left

theorem sinceFreeze_append_of_not_froze {history : List Exchange}
    (unfrozen : history.any Exchange.froze = false) (exchange : Exchange) :
    sinceFreeze (history ++ [exchange]) = [] := by
  have gone : history.dropWhile (fun exchange => !exchange.froze) = [] := by
    simpa [List.dropWhile_eq_nil_iff] using unfrozen
  unfold sinceFreeze
  rw [List.dropWhile_append, gone]
  cases newest : exchange.froze <;> simp [newest]

theorem getLast?_supplied_sinceFreeze {history : List Exchange} {slot : Slot}
    (written : supplied (sinceFreeze history) slot ≠ []) :
    (supplied (sinceFreeze history) slot).getLast? = (supplied history slot).getLast? := by
  have later : sinceFreeze history <:+ history :=
    (List.tail_suffix _).trans (List.dropWhile_suffix _)
  obtain ⟨before, split⟩ := later
  calc
    _ = (supplied before slot ++ supplied (sinceFreeze history) slot).getLast? :=
      (List.getLast?_append_of_ne_nil _ written).symm
    _ = (supplied (before ++ sinceFreeze history) slot).getLast? := by
      simp only [supplied, List.filterMap_append]
    _ = (supplied history slot).getLast? := by rw [split]

end History

theorem Step.supplies?_of_freezes {step : Step} (freezes : step.freezes = true) (slot : Slot) :
    step.supplies? slot = none := by
  cases step with
  | set index value | call index value => cases freezes
  | _ => rfl

theorem Registry.fatal_perform_of_complete {registry : Registry} {step : Step}
    (freezes : step.freezes = true) (complete : registry.missing = []) :
    (registry.perform step).fatal = none := by
  cases step with
  | freeze | done | doneOrExit => simp [perform, freeze_of_missing_eq_nil complete]
  | _ => cases freezes

/-- What a history tells about a frozen registry: that it is frozen, and which of the slots,
all of them set at the freeze, are still set. -/
structure FrozenBy (history : List Exchange) (registry : Registry) : Prop where
  frozen_eq : registry.frozen = history.any Exchange.froze
  isSet_eq : registry.frozen = true → ∀ slot,
    registry.isSet slot = History.flag (History.sinceFreeze history) slot true

namespace FrozenBy

theorem fresh : FrozenBy [] Registry.fresh where
  frozen_eq := rfl
  isSet_eq frozen := by cases frozen

theorem perform {history : List Exchange} {registry : Registry} {step : Step}
    (holds : FrozenBy history registry) (harmless : (registry.perform step).fatal = none) :
    FrozenBy (history ++ [⟨step, (registry.perform step).answer⟩])
      (registry.perform step).registry where
  frozen_eq := by
    simp [Registry.frozen_perform, Registry.froze_perform harmless, holds.frozen_eq]
  isSet_eq frozen slot := by
    rw [Registry.isSet_perform]
    cases before : registry.frozen with
    | true =>
      have earlier := holds.frozen_eq ▸ before
      rw [History.sinceFreeze_append_of_froze earlier, History.flag_append_singleton,
        Registry.supplied?_perform harmless, holds.isSet_eq before slot]
    | false =>
      -- This step is the first freeze, so nothing is missing and nothing was written since.
      have earlier := holds.frozen_eq ▸ before
      rw [Registry.frozen_perform, before, Bool.false_or, Bool.and_eq_true] at frozen
      have complete := Registry.missing_eq_nil_iff.mp (List.isEmpty_iff.mp frozen.2)
      rw [History.sinceFreeze_append_of_not_froze earlier, Step.supplies?_of_freezes frozen.1,
        complete slot]
      rfl

end FrozenBy

namespace Process

theorem frozenBy_run_fresh (logger : Option Threshold) (steps : List Step) :
    FrozenBy ((fresh logger).exchanges steps) ((fresh logger).run steps).final.registry := by
  refine run_induction (motive := FrozenBy) FrozenBy.fresh ?_ steps
  intro history registry step harmless holds
  exact holds.perform harmless

/-- Whether some step of the run declares initialization complete while nothing is missing. -/
def Completes (start : Process) (steps : List Step) : Prop :=
  ∃ earlier step later, steps = earlier ++ step :: later ∧ (start.run earlier).exit = none ∧
    step.freezes = true ∧ (start.run earlier).final.registry.missing = []

theorem completes_cons_of_ok {start : Process} {step : Step} {transition : Transition}
    (survived : start.step step = .ok transition) (later : List Step) :
    start.Completes (step :: later) ↔
      (step.freezes = true ∧ start.registry.missing = []) ∨ transition.process.Completes later := by
  refine ⟨fun completes => ?_, fun either => ?_⟩
  · obtain ⟨earlier, chosen, rest, split, alive, freezes, complete⟩ := completes
    cases earlier with
    | nil =>
      cases split
      exact Or.inl ⟨freezes, complete⟩
    | cons first earlier =>
      cases split
      rw [run_cons_of_ok survived] at alive complete
      exact Or.inr ⟨earlier, chosen, rest, rfl, alive, freezes, complete⟩
  · rcases either with ⟨freezes, complete⟩ | completes
    · exact ⟨[], step, later, rfl, rfl, freezes, complete⟩
    · obtain ⟨earlier, chosen, rest, split, alive, freezes, complete⟩ := completes
      have extended := run_cons_of_ok survived earlier
      refine ⟨step :: earlier, chosen, rest, congrArg (step :: ·) split, ?_, freezes, ?_⟩
      · rw [extended]
        exact alive
      · rw [extended]
        exact complete

theorem not_completes_cons_of_error {start : Process} {step : Step} {exit : Exit}
    (ended : start.step step = .error exit) (later : List Step) :
    ¬start.Completes (step :: later) := by
  intro completes
  obtain ⟨earlier, chosen, rest, split, alive, freezes, complete⟩ := completes
  cases earlier with
  | nil =>
    cases split
    have harmless : (start.registry.perform step).fatal = none :=
      Registry.fatal_perform_of_complete freezes complete
    obtain ⟨transition, survived⟩ := exists_step_eq_ok harmless
    rw [ended] at survived
    cases survived
  | cons first earlier =>
    cases split
    rw [run_cons_of_error ended] at alive
    cases alive

theorem frozen_run_iff (start : Process) (steps : List Step) :
    (start.run steps).final.registry.frozen = true ↔
      start.registry.frozen = true ∨ start.Completes steps := by
  induction steps generalizing start with
  | nil =>
    have never : ¬start.Completes [] := by
      intro completes
      obtain ⟨earlier, step, later, split, _⟩ := completes
      simp at split
    simp [run, never]
  | cons step later ih =>
    cases taken : start.step step with
    | error exit =>
      rw [run_cons_of_error taken]
      simp [not_completes_cons_of_error taken later]
    | ok transition =>
      obtain ⟨_, registry, _⟩ := of_step_eq_ok taken
      rw [run_cons_of_ok taken, completes_cons_of_ok taken]
      show (transition.process.run later).final.registry.frozen = true ↔ _
      rw [ih, registry, Registry.frozen_perform]
      simp [or_assoc]

theorem missing_run_of_frozen {logger : Option Threshold} {steps : List Step}
    (frozen : ((fresh logger).run steps).final.registry.frozen = true) :
    ((fresh logger).run steps).final.registry.missing =
      Slot.all.filter fun slot => History.Cleared ((fresh logger).exchanges steps) slot := by
  apply Registry.missing_eq_filter
  intro slot
  rw [(frozenBy_run_fresh logger steps).isSet_eq frozen slot, ← Bool.not_eq_true,
    History.flag_eq_true_iff]
  refine ⟨fun unset => ?_, fun cleared kept => ?_⟩
  · have newest : (History.supplied (History.sinceFreeze ((fresh logger).exchanges steps))
        slot).getLast? = some (.text none) := by
      by_contra kept
      exact unset ⟨fun contrary => Bool.noConfusion contrary, kept⟩
    have written := List.ne_nil_of_mem (List.mem_of_getLast? newest)
    rw [History.getLast?_supplied_sinceFreeze written] at newest
    exact ⟨(kind_of_mem_supplied (List.mem_of_getLast? newest)).symm, written, newest⟩
  · obtain ⟨_, written, newest⟩ := cleared
    rw [← History.getLast?_supplied_sinceFreeze written] at newest
    exact kept.2 newest

theorem missing_run_eq_nil_iff (start : Process) (steps : List Step) :
    (start.run steps).final.registry.missing = [] ↔
      (∀ slot ∈ start.registry.missing, History.supplied (start.exchanges steps) slot ≠ []) ∧
        ∀ slot, (History.supplied (start.exchanges steps) slot).getLast? ≠ some (.text none) := by
  simp only [Registry.missing_eq_nil_iff, isSet_run, History.flag_eq_true_iff,
    Registry.mem_missing, forall_and]

theorem exists_text_of_written {start : Process} {steps : List Step} {slot : Slot}
    (text : slot.kind = .text) (written : History.supplied (start.exchanges steps) slot ≠ [])
    (kept : (History.supplied (start.exchanges steps) slot).getLast? ≠ some (.text none)) :
    ∃ bytes, (History.supplied (start.exchanges steps) slot).getLast? =
      some (.text (some bytes)) := by
  cases newest : (History.supplied (start.exchanges steps) slot).getLast? with
  | none => exact absurd (List.getLast?_eq_none_iff.mp newest) written
  | some value =>
    have same := (kind_of_mem_supplied (List.mem_of_getLast? newest)).trans text
    cases value with
    | text bytes =>
      cases bytes with
      | none => exact absurd newest kept
      | some bytes => exact ⟨bytes, rfl⟩
    | _ => cases same

theorem missing_run_eq_nil_iff_restores {start : Process} (steps : List Step)
    (text : ∀ slot ∈ start.registry.missing, slot.kind = .text) :
    (start.run steps).final.registry.missing = [] ↔
      History.Restores (start.exchanges steps) start.registry.missing := by
  rw [missing_run_eq_nil_iff]
  refine ⟨fun complete => ?_, fun restored => ?_⟩
  · refine ⟨fun slot lost => ?_, complete.2⟩
    exact exists_text_of_written (text slot lost) (complete.1 slot lost) (complete.2 slot)
  · refine ⟨fun slot lost => ?_, restored.2⟩
    obtain ⟨bytes, newest⟩ := restored.1 slot lost
    exact List.ne_nil_of_mem (List.mem_of_getLast? newest)

end Process

/-- A registry is frozen exactly if a declaration was made while nothing was missing, and then
it stays frozen. In a frozen registry everything but text is set, and exactly the text that was
cleared since the first freeze is missing. Declarations fail while there is such text, and
succeed again once it is restored. -/
theorem frozen_for_good (logger : Option Threshold) (steps : List Step) :
    let start := Process.fresh logger
    let process := (start.run steps).final
    let cleared := Slot.all.filter fun slot => History.Cleared (start.exchanges steps) slot
    (process.registry.frozen = true ↔ start.Completes steps) ∧
    (process.registry.frozen = true → ∀ later, (process.run later).final.registry.frozen = true) ∧
    (process.registry.frozen = true →
      (∀ slot : Slot, slot.kind ≠ .text → process.registry.isSet slot = true) ∧
      process.registry.missing = cleared ∧
      ((∃ failure, process.Answers .freeze (.rejected failure)) ↔ cleared ≠ []) ∧
      (process.Answers .done (.status 0) ↔ cleared ≠ []) ∧
      ∀ later, let after := (process.run later).final
        (after.Answers .freeze .accepted ↔
          History.Restores (process.exchanges later) cleared) ∧
        (after.Answers .done (.status 1) ↔
          History.Restores (process.exchanges later) cleared)) := by
  intro start process cleared
  refine ⟨?_, ?_, ?_⟩
  · have unfrozen : start.registry.frozen = false := rfl
    rw [Process.frozen_run_iff, unfrozen]
    simp
  · intro frozen later
    exact (process.frozen_run_iff later).mpr (Or.inl frozen)
  · intro frozen
    have lost : process.registry.missing = cleared := Process.missing_run_of_frozen frozen
    have text : ∀ slot ∈ process.registry.missing, slot.kind = .text := by
      intro slot member
      rw [lost, List.mem_filter] at member
      exact (of_decide_eq_true member.2).1
    refine ⟨?_, lost, ?_, ?_, ?_⟩
    · intro slot other
      by_contra unset
      exact other (text slot (Registry.mem_missing.mpr (Bool.not_eq_true _ ▸ unset)))
    · simp [Process.answers_freeze_rejected_iff, lost]
    · rw [Process.answers_done_iff, lost]
      by_cases complete : cleared = [] <;> simp [complete]
    · intro later after
      have restored := Process.missing_run_eq_nil_iff_restores later text
      rw [lost] at restored
      refine ⟨?_, ?_⟩
      · rw [Process.answers_freeze_accepted_iff, restored]
      · rw [Process.answers_done_iff, ← restored]
        by_cases complete : after.registry.missing = [] <;> simp [after, complete]

theorem home_cleared_after_freeze :
    let steps := Step.fill Slot.all ++ [.freeze, .set 0 (.text none)]
    let process := ((Process.fresh none).run steps).final
    process.registry.frozen = true ∧ process.registry.missing.map Slot.name = ["R_Home"] ∧
      process.Answers .done (.status 0) := by
  intro steps process
  have frozen : process.registry.frozen = true := by decide +kernel
  have missing : process.registry.missing.map Slot.name = ["R_Home"] := by decide +kernel
  -- The rest follows for any steps that lead there, so the run is not evaluated again.
  clear_value steps
  obtain ⟨_, lost, _, done, _⟩ := (frozen_for_good none steps).2.2 frozen
  refine ⟨frozen, missing, done.mpr ?_⟩
  intro nothing
  have complete : process.registry.missing = [] := lost.trans nothing
  rw [complete] at missing
  cases missing

end NativeGlobals
