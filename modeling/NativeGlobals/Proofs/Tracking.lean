import NativeGlobals.Tracking
import NativeGlobals.Proofs.Refusal
import NativeGlobals.Proofs.Views

/-! The list of missing slots, kept by the host. A host that takes a slot out of its list when a
write is accepted, and puts it back in order when the write clears it, has the list of the registry
at every point of every run, though it never asks for it. -/

namespace NativeGlobals

/-- Whether an exchange may make the second list of the first one. It may leave the list alone,
take one slot out, or put one in. Only an accepted write that clears the slot puts it in. -/
inductive Tracking.Moves (exchange : Exchange) (before after : List Slot) : Prop where
  | stays (same : after = before)
  | loses {slot : Slot} (listed : slot ∈ before) (lost : after = before.erase slot)
  | gains {slot : Slot} {index : Int32} (listed : slot ∈ after) (gained : before = after.erase slot)
      (located : Slot.ofIndex? index = some slot)
      (cleared : exchange.accepted? = some (index, .text none))

namespace Slot

variable {slot : Slot} {slots : List Slot}

theorem position_injective {other : Slot} (same : slot.position = other.position) :
    slot = other := by
  cases slot
  cases other
  exact congrArg Slot.mk same

theorem mem_insertInto {other : Slot} :
    other ∈ slot.insertInto slots ↔ other = slot ∨ other ∈ slots := by
  induction slots with
  | nil => simp [insertInto]
  | cons head rest ih =>
    unfold insertInto
    split
    next => exact List.mem_cons
    next =>
      split
      next same => simp [same]
      next => rw [List.mem_cons, ih, List.mem_cons, or_left_comm]

namespace Increasing

theorem erase (increasing : Increasing slots) (slot : Slot) : Increasing (slots.erase slot) :=
  List.Pairwise.sublist List.erase_sublist increasing

theorem insertInto (increasing : Increasing slots) (slot : Slot) :
    Increasing (slot.insertInto slots) := by
  induction slots with
  | nil => exact List.pairwise_singleton _ _
  | cons head rest ih =>
    obtain ⟨first, later⟩ := List.pairwise_cons.mp increasing
    unfold Slot.insertInto
    split
    next before =>
      refine List.pairwise_cons.mpr ⟨fun other listed => ?_, increasing⟩
      rcases List.mem_cons.mp listed with rfl | behind
      · exact before
      · exact Fin.lt_trans before (first other behind)
    next behind =>
      split
      next => exact increasing
      next apart =>
        refine List.pairwise_cons.mpr ⟨fun other listed => ?_, ih later⟩
        rcases mem_insertInto.mp listed with rfl | listed
        · have elsewhere : head.position ≠ other.position := fun same =>
            apart (position_injective same).symm
          omega
        · exact first other listed

theorem mem_erase_iff (increasing : Increasing slots) {other : Slot} :
    other ∈ slots.erase slot ↔ other ≠ slot ∧ other ∈ slots :=
  increasing.nodup.mem_erase_iff

theorem insertInto_of_mem (increasing : Increasing slots) (listed : slot ∈ slots) :
    slot.insertInto slots = slots := by
  apply (increasing.insertInto slot).eq_of_mem_iff increasing
  intro other
  rw [mem_insertInto]
  exact or_iff_right_of_imp fun same => same ▸ listed

theorem erase_insertInto_of_not_mem (increasing : Increasing slots) (absent : slot ∉ slots) :
    (slot.insertInto slots).erase slot = slots := by
  apply ((increasing.insertInto slot).erase slot).eq_of_mem_iff increasing
  intro other
  rw [(increasing.insertInto slot).mem_erase_iff, mem_insertInto]
  have apart : other ∈ slots → other ≠ slot := fun listed same => absent (same ▸ listed)
  tauto

end Increasing

end Slot

namespace Registry

theorem missing_mark (registry : Registry) (slot : Slot) (present : Bool) :
    (registry.mark slot present).missing =
      if present then registry.missing.erase slot else slot.insertInto registry.missing := by
  have increasing := registry.missing_increasing
  have marked := (registry.mark slot present).missing_increasing
  have flags : ∀ other, other ∈ (registry.mark slot present).missing ↔
      if slot = other then present = false else other ∈ registry.missing := by
    intro other
    by_cases same : slot = other
    · subst same
      simp [mem_missing]
    · simp [mem_missing, isSet_mark_of_ne, same]
  cases present with
  | true =>
    rw [if_pos rfl]
    refine marked.eq_of_mem_iff (increasing.erase slot) fun other => ?_
    rw [flags, increasing.mem_erase_iff]
    by_cases same : slot = other <;> simp [same, eq_comm]
  | false =>
    rw [if_neg Bool.false_ne_true]
    refine marked.eq_of_mem_iff (increasing.insertInto slot) fun other => ?_
    rw [flags, Slot.mem_insertInto]
    by_cases same : slot = other <;> simp [same, eq_comm]

theorem missing_perform_of_unsupplied {registry : Registry} {step : Step}
    (unsupplied : ∀ slot, step.supplies? slot = none) :
    (registry.perform step).registry.missing = registry.missing := by
  apply missing_congr
  funext slot
  rw [isSet_perform, unsupplied slot]
  rfl

theorem answer_perform_rejected_incomplete {registry : Registry} {step : Step}
    {lacking : List Slot}
    (rejected : (registry.perform step).answer = .rejected (.incomplete lacking)) :
    step = .checkComplete ∨ step = .freeze := by
  cases step with
  | checkComplete => exact Or.inl rfl
  | freeze => exact Or.inr rfl
  | set index value | call index value =>
    cases placed : value.place? index with
    | none => simp [perform, set_of_place?_eq_none placed] at rejected
    | some target => simp [perform, set_of_place?_eq_some placed] at rejected
  | isSet index => cases located : Slot.ofIndex? index <;> simp [perform, located] at rejected
  | done | doneOrExit =>
    cases frozen : registry.freeze <;> simp [perform, frozen] at rejected
  | _ => cases rejected

end Registry

namespace Tracking

theorem note_missing {before after : Registry} {index : Int32} {value : Value}
    (accepted : before.set index value = .ok after) :
    note before.missing index value = after.missing := by
  cases placed : value.place? index with
  | none =>
    rw [Registry.set_of_place?_eq_none placed] at accepted
    cases accepted
  | some target =>
    obtain ⟨slot, content⟩ := target
    have located := Slot.ofIndex?_eq_some_iff.mpr (Value.place?_eq_some_iff.mp placed).1
    rw [Registry.set_of_place?_eq_some placed] at accepted
    cases accepted
    rw [Registry.missing_mark, note, located]
    rfl

theorem follow_missing {registry : Registry} {step : Step}
    (harmless : (registry.perform step).fatal = none) :
    follow registry.missing step (registry.perform step).answer =
      (registry.perform step).registry.missing := by
  cases step with
  | set index value =>
    cases written : registry.set index value with
    | ok after => simpa [Registry.perform, written, follow] using note_missing written
    | error failure => simp [Registry.perform, written, follow]
  | call index value =>
    cases written : registry.set index value with
    | ok after => simpa [Registry.perform, written, follow] using note_missing written
    | error failure => simp [Registry.perform, written] at harmless
  | _ => exact (Registry.missing_perform_of_unsupplied fun _ => rfl).symm

theorem follow_eq (tracked : List Slot) (step : Step) (answer : Answer) :
    follow tracked step answer =
      match (Exchange.mk step answer).accepted? with
      | none => tracked
      | some write => note tracked write.1 write.2 := by
  cases step <;> cases answer <;> rfl

theorem moves_follow {tracked : List Slot} (increasing : Slot.Increasing tracked) (step : Step)
    (answer : Answer) : Moves ⟨step, answer⟩ tracked (follow tracked step answer) := by
  rw [follow_eq]
  cases accepted : (Exchange.mk step answer).accepted? with
  | none => exact .stays rfl
  | some write =>
    obtain ⟨index, value⟩ := write
    change Moves _ tracked (note tracked index value)
    unfold note
    cases located : Slot.ofIndex? index with
    | none => exact .stays rfl
    | some slot =>
      cases present : value.present with
      | true =>
        by_cases listed : slot ∈ tracked
        · exact .loses listed rfl
        · exact .stays (List.erase_of_not_mem listed)
      | false =>
        by_cases listed : slot ∈ tracked
        · exact .stays (increasing.insertInto_of_mem listed)
        · have cleared : value = .text none := by
            by_contra kept
            rw [Value.present_eq_true_iff.mpr kept] at present
            cases present
          exact .gains (Slot.mem_insertInto.mpr (Or.inl rfl))
            (increasing.erase_insertInto_of_not_mem listed).symm located
            (cleared ▸ accepted)

theorem tracked_eq_foldl (steps : List Step) (answers : List Answer) :
    tracked steps answers = (List.zipWith Exchange.mk steps answers).foldl
      (fun list exchange => follow list exchange.step exchange.answer) Slot.all := by
  rw [← List.map_uncurry_zip_eq_zipWith, List.foldl_map]
  rfl

end Tracking

namespace Process

theorem answers_rejected_incomplete_iff {process : Process} {step : Step} {lacking : List Slot} :
    process.Answers step (.rejected (.incomplete lacking)) ↔
      (step = .checkComplete ∨ step = .freeze) ∧ process.registry.missing ≠ [] ∧
        lacking = process.registry.missing := by
  refine ⟨fun answered => ?_, fun stated => ?_⟩
  · have asked := Registry.answer_perform_rejected_incomplete (answers_iff.mp answered).2
    by_cases complete : process.registry.missing = []
    · have complies := complies complete
      rcases asked with rfl | rfl
      · simp [Answers, complies.checkComplete] at answered
      · simp [Answers, complies.freeze] at answered
    · have declines := declines complete
      refine ⟨asked, complete, ?_⟩
      rcases asked with rfl | rfl
      · simpa [Answers, declines.checkComplete, eq_comm] using answered
      · simpa [Answers, declines.freeze, eq_comm] using answered
  · obtain ⟨rfl | rfl, incomplete, rfl⟩ := stated
    · exact ⟨_, (declines incomplete).checkComplete, rfl⟩
    · exact ⟨_, (declines incomplete).freeze, rfl⟩

theorem tracked_run (logger : Option Threshold) (steps : List Step) :
    Tracking.tracked steps (((fresh logger).run steps).trace.map Transition.answer) =
      ((fresh logger).run steps).final.registry.missing := by
  rw [Tracking.tracked_eq_foldl]
  refine run_induction (motive := fun history registry =>
    history.foldl (fun list exchange => Tracking.follow list exchange.step exchange.answer)
      Slot.all = registry.missing) ?_ ?_ steps
  · exact (List.filter_eq_self.mpr fun slot _ => rfl).symm
  · intro history registry step harmless tracked
    rw [List.foldl_append, tracked]
    exact Tracking.follow_missing harmless

end Process

/-- A host that starts with all slots and follows its own accepted writes has the list of missing
slots at every point of every run, and a refusal for want of slots names this list. Each step that
is survived changes the list by one slot at most, and puts one in only if it is an accepted write
that clears the slot. -/
theorem tracked_list_is_missing (logger : Option Threshold) (steps : List Step) :
    let run := (Process.fresh logger).run steps
    let tracked := Tracking.tracked steps (run.trace.map Transition.answer)
    run.final.registry.missing = tracked ∧
    (∀ step lacking, run.final.Answers step (.rejected (.incomplete lacking)) ↔
      (step = .checkComplete ∨ step = .freeze) ∧ tracked ≠ [] ∧ lacking = tracked) ∧
    (∀ step transition, run.final.step step = .ok transition →
      Tracking.Moves ⟨step, transition.answer⟩ tracked transition.process.registry.missing) := by
  intro run tracked
  have same : run.final.registry.missing = tracked := (Process.tracked_run logger steps).symm
  refine ⟨same, fun step lacking => ?_, fun step transition survived => ?_⟩
  · rw [← same]
    exact Process.answers_rejected_incomplete_iff
  · obtain ⟨harmless, registry, answer⟩ := Process.of_step_eq_ok survived
    rw [registry, answer, ← Tracking.follow_missing harmless, same]
    exact Tracking.moves_follow (same ▸ run.final.registry.missing_increasing) _ _

/-- A host fills every slot, freezes, is refused a write of another kind, and clears R_Home twice.
Its list is empty before that, and holds R_Home afterwards, for want of which a freeze is refused. -/
theorem list_grows_as_home_is_cleared :
    let start := Process.fresh none
    let filled := Step.fill Slot.all ++ [.freeze, .set 49 (.double 1)]
    let cleared := filled ++ [.set 0 (.text none), .set 0 (.text none)]
    let tracked := fun steps =>
      Tracking.tracked steps ((start.run steps).trace.map Transition.answer)
    tracked filled = [] ∧ (tracked cleared).map Slot.name = ["R_Home"] ∧
      (∃ transition, (start.run filled).final.step (.set 0 (.text none)) = .ok transition ∧
        Tracking.Moves ⟨.set 0 (.text none), transition.answer⟩ []
          transition.process.registry.missing) ∧
      (start.run cleared).final.Answers .freeze (.rejected (.incomplete (tracked cleared))) := by
  intro start filled cleared tracked
  have nothing : tracked filled = [] := by decide +kernel
  have home : (tracked cleared).map Slot.name = ["R_Home"] := by decide +kernel
  -- The rest follows for any steps that lead there, so the runs are not evaluated again.
  clear_value cleared filled
  obtain ⟨_, _, moves⟩ := tracked_list_is_missing none filled
  obtain ⟨_, refused, _⟩ := tracked_list_is_missing none cleared
  obtain ⟨transition, survived, _⟩ :=
    (start.run filled).final.step_set 0 (.text none)
  have moved := moves (.set 0 (.text none)) transition survived
  refine ⟨nothing, home, ⟨transition, survived, ?_⟩, (refused .freeze _).mpr ?_⟩
  · rw [← nothing]
    exact moved
  · refine ⟨Or.inr rfl, fun empty => ?_, rfl⟩
    have named := congrArg (List.map Slot.name) empty
    rw [home] at named
    cases named

end NativeGlobals
