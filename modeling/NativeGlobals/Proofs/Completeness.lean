import NativeGlobals.Proofs.Exchange

/-! Which slots are set, and whether a freeze succeeds, is decided by the accepted writes
alone. Of a write only its slot counts and whether anything but absent text was passed. -/

namespace NativeGlobals

theorem Value.present_eq_true_iff {value : Value} : value.present = true ↔ value ≠ .text none := by
  cases value with
  | text bytes => cases bytes <;> simp [present]
  | _ => simp [present]

namespace History

def supplied (history : List Exchange) (slot : Slot) : List Value :=
  history.filterMap fun exchange => exchange.supplied? slot

/-- Whether a write to the slot was accepted and, in a slot for text, the last such write did
not clear it. -/
def Provides (history : List Exchange) (slot : Slot) : Prop :=
  supplied history slot ≠ [] ∧
    (slot.kind = .text → (supplied history slot).getLast? ≠ some (.text none))

instance (history : List Exchange) (slot : Slot) : Decidable (Provides history slot) :=
  inferInstanceAs (Decidable (_ ∧ _))

/-- The accepted writes without their values: the index of each, and whether anything but
absent text was passed. -/
def marks (history : List Exchange) : List (Int32 × Bool) :=
  (history.filterMap Exchange.accepted?).map fun write => (write.1, write.2.present)

def flag (history : List Exchange) (slot : Slot) (initial : Bool) : Bool :=
  ((supplied history slot).getLast?.map Value.present).getD initial

theorem flag_append_singleton (history : List Exchange) (exchange : Exchange) (slot : Slot)
    (initial : Bool) :
    flag (history ++ [exchange]) slot initial =
      ((exchange.supplied? slot).map Value.present).getD (flag history slot initial) := by
  unfold flag supplied
  rw [getLast?_filterMap_append_singleton]
  cases exchange.supplied? slot <;> rfl

theorem flag_eq_true_iff {history : List Exchange} {slot : Slot} {initial : Bool} :
    flag history slot initial = true ↔
      (initial = false → supplied history slot ≠ []) ∧
        (supplied history slot).getLast? ≠ some (.text none) := by
  unfold flag
  cases newest : (supplied history slot).getLast? with
  | none => simp [List.getLast?_eq_none_iff.mp newest]
  | some value =>
    have written := List.ne_nil_of_mem (List.mem_of_getLast? newest)
    simp [written, Value.present_eq_true_iff]

theorem map_present_supplied (history : List Exchange) (slot : Slot) :
    (supplied history slot).map Value.present =
      (marks history).filterMap fun mark =>
        if mark.1.toInt = (slot.position.val : Int) then some mark.2 else none := by
  rw [supplied, marks, List.filterMap_map, List.filterMap_filterMap, List.map_filterMap]
  congr 1
  funext exchange
  unfold Exchange.supplied?
  cases exchange.accepted? with
  | none => rfl
  | some write => simp [apply_ite]

theorem flag_eq_of_marks_eq {first second : List Exchange} (same : marks first = marks second)
    (slot : Slot) (initial : Bool) : flag first slot initial = flag second slot initial := by
  simp only [flag, ← List.getLast?_map, map_present_supplied, same]

end History

namespace Registry

theorem missing_eq_filter {registry : Registry} {Lacking : Slot → Prop} [DecidablePred Lacking]
    (flags : ∀ slot, registry.isSet slot = false ↔ Lacking slot) :
    registry.missing = Slot.all.filter fun slot => Lacking slot := by
  apply List.filter_congr
  intro slot _
  simp [← flags slot]

theorem missing_congr {first second : Registry} (same : first.isSet = second.isSet) :
    first.missing = second.missing := by
  unfold missing
  rw [same]

end Registry

namespace Process

theorem answers_freeze_accepted_iff {process : Process} :
    process.Answers .freeze .accepted ↔ process.registry.missing = [] := by
  rw [answers_iff]
  by_cases complete : process.registry.missing = []
  · simp [Registry.perform, Registry.freeze_of_missing_eq_nil complete, complete]
  · simp [Registry.perform, Registry.freeze_of_missing_ne_nil complete, complete]

theorem answers_freeze_rejected_iff {process : Process} {failure : Failure} :
    process.Answers .freeze (.rejected failure) ↔
      process.registry.missing ≠ [] ∧ failure = .incomplete process.registry.missing := by
  rw [answers_iff]
  by_cases complete : process.registry.missing = []
  · simp [Registry.perform, Registry.freeze_of_missing_eq_nil complete, complete]
  · simp [Registry.perform, Registry.freeze_of_missing_ne_nil complete, complete, eq_comm]

theorem answers_done_iff {process : Process} {code : Int32} :
    process.Answers .done (.status code) ↔
      code = if process.registry.missing = [] then 1 else 0 := by
  rw [answers_iff]
  by_cases complete : process.registry.missing = []
  · simp [Registry.perform, Registry.freeze_of_missing_eq_nil complete, complete, eq_comm]
  · simp [Registry.perform, Registry.freeze_of_missing_ne_nil complete, complete, eq_comm]

theorem isSet_run (start : Process) (steps : List Step) (slot : Slot) :
    (start.run steps).final.registry.isSet slot =
      History.flag (start.exchanges steps) slot (start.registry.isSet slot) := by
  refine run_induction (motive := fun history registry =>
    registry.isSet slot = History.flag history slot (start.registry.isSet slot)) rfl ?_ steps
  intro history registry step harmless ih
  rw [History.flag_append_singleton, Registry.supplied?_perform harmless, Registry.isSet_perform,
    ih]

theorem kind_of_mem_supplied {start : Process} {steps : List Step} {slot : Slot} {value : Value}
    (member : value ∈ History.supplied (start.exchanges steps) slot) :
    value.kind = slot.kind := by
  obtain ⟨exchange, listed, given⟩ := List.mem_filterMap.mp member
  refine forall_mem_exchanges (motive := fun exchange =>
    exchange.supplied? slot = some value → value.kind = slot.kind)
    ?_ start steps exchange listed given
  intro registry step harmless given
  rw [Registry.supplied?_perform harmless] at given
  exact Step.kind_eq_of_supplies? given

theorem isSet_run_fresh_iff (logger : Option Threshold) (steps : List Step) (slot : Slot) :
    ((fresh logger).run steps).final.registry.isSet slot = true ↔
      History.Provides ((fresh logger).exchanges steps) slot := by
  rw [isSet_run]
  show History.flag _ slot false = true ↔ _
  rw [History.flag_eq_true_iff]
  have cleared : (History.supplied ((fresh logger).exchanges steps) slot).getLast? =
      some (.text none) → slot.kind = .text := by
    intro newest
    exact (kind_of_mem_supplied (List.mem_of_getLast? newest)).symm
  refine ⟨fun flagged => ?_, fun provided => ?_⟩
  · exact ⟨flagged.1 rfl, fun _ => flagged.2⟩
  · exact ⟨fun _ => provided.1, fun newest => provided.2 (cleared newest) newest⟩

end Process

/-- At every point of every run a slot is set exactly if a write to it was accepted and, for
text, the last one did not clear it. A freeze succeeds exactly if this holds of every slot, and
otherwise names the other slots in index order. Runs that agree in their accepted writes, up to
the values that are passed, agree in this, whatever else happens in them. -/
theorem isSet_iff_provides (logger : Option Threshold) (steps : List Step) :
    let history := (Process.fresh logger).exchanges steps
    let process := ((Process.fresh logger).run steps).final
    (∀ slot, process.registry.isSet slot = true ↔ History.Provides history slot) ∧
    (process.Answers .freeze .accepted ↔ ∀ slot, History.Provides history slot) ∧
    ((¬∀ slot, History.Provides history slot) →
      process.Answers .freeze (.rejected
        (.incomplete (Slot.all.filter fun slot => ¬History.Provides history slot)))) ∧
    (∀ (otherLogger : Option Threshold) (otherSteps : List Step),
      let other := ((Process.fresh otherLogger).run otherSteps).final
      History.marks ((Process.fresh otherLogger).exchanges otherSteps) = History.marks history →
        other.registry.isSet = process.registry.isSet ∧
          (other.Answers .freeze .accepted ↔ process.Answers .freeze .accepted) ∧
          ∀ failure, other.Answers .freeze (.rejected failure) ↔
            process.Answers .freeze (.rejected failure)) := by
  intro history process
  have flags : ∀ slot, process.registry.isSet slot = true ↔ History.Provides history slot :=
    Process.isSet_run_fresh_iff logger steps
  have complete : process.registry.missing = [] ↔ ∀ slot, History.Provides history slot := by
    rw [Registry.missing_eq_nil_iff]
    exact forall_congr' flags
  refine ⟨flags, ?_, ?_, ?_⟩
  · rw [Process.answers_freeze_accepted_iff, complete]
  · intro incomplete
    have lacking : ∀ slot,
        process.registry.isSet slot = false ↔ ¬History.Provides history slot := by
      intro slot
      rw [← flags slot, Bool.not_eq_true]
    rw [Process.answers_freeze_rejected_iff, ← Registry.missing_eq_filter lacking]
    exact ⟨mt complete.mp incomplete, rfl⟩
  · intro otherLogger otherSteps other same
    have alike : other.registry.isSet = process.registry.isSet := by
      funext slot
      rw [Process.isSet_run, Process.isSet_run]
      exact History.flag_eq_of_marks_eq same slot false
    have missing := Registry.missing_congr alike
    refine ⟨alike, ?_, ?_⟩
    · rw [Process.answers_freeze_accepted_iff, Process.answers_freeze_accepted_iff, missing]
    · intro failure
      rw [Process.answers_freeze_rejected_iff, Process.answers_freeze_rejected_iff, missing]

end NativeGlobals
