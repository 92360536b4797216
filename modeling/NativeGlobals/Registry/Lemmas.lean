import NativeGlobals.Registry

/-! What each operation on a registry does to what can be seen of it: the contents, the
set flags, the frozen flag, and the list of missing slots. -/

namespace NativeGlobals

namespace Registry

@[simp] theorem content_put_self (registry : Registry) (target : Global)
    (content : target.Content) : (registry.put target content).content target = content := by
  simp [put]

theorem content_put_of_ne (registry : Registry) (target : Global) {global : Global}
    (content : target.Content) (different : target ≠ global) :
    (registry.put target content).content global = registry.content global := by
  simp [put, different]

@[simp] theorem isSet_put (registry : Registry) (target : Global) (content : target.Content) :
    (registry.put target content).isSet = registry.isSet := rfl

@[simp] theorem frozen_put (registry : Registry) (target : Global) (content : target.Content) :
    (registry.put target content).frozen = registry.frozen := rfl

@[simp] theorem isSet_mark_self (registry : Registry) (target : Slot) (present : Bool) :
    (registry.mark target present).isSet target = present := by
  simp [mark]

theorem isSet_mark_of_ne (registry : Registry) {target slot : Slot} (present : Bool)
    (different : target ≠ slot) :
    (registry.mark target present).isSet slot = registry.isSet slot := by
  simp [mark, different]

@[simp] theorem content_mark (registry : Registry) (target : Slot) (present : Bool) :
    (registry.mark target present).content = registry.content := rfl

@[simp] theorem frozen_mark (registry : Registry) (target : Slot) (present : Bool) :
    (registry.mark target present).frozen = registry.frozen := rfl

theorem set_of_place?_eq_some {registry : Registry} {index : Int32} {value : Value}
    {slot : Slot} {content : slot.layout.Content}
    (placed : value.place? index = some ⟨slot, content⟩) :
    registry.set index value =
      .ok ((registry.put (.slot slot) content).mark slot value.present) := by
  simp [set, placed]

theorem set_of_place?_eq_none {registry : Registry} {index : Int32} {value : Value}
    (refused : value.place? index = none) :
    registry.set index value = .error (.unknownIndex value.kind.operation index) := by
  simp [set, refused]

theorem mem_missing {registry : Registry} {slot : Slot} :
    slot ∈ registry.missing ↔ registry.isSet slot = false := by
  simp [missing, Slot.mem_all]

theorem missing_eq_nil_iff {registry : Registry} :
    registry.missing = [] ↔ ∀ slot, registry.isSet slot = true := by
  simp [missing, Slot.mem_all]

theorem checkComplete_of_missing_eq_nil {registry : Registry} (complete : registry.missing = []) :
    registry.checkComplete = .ok () := by
  simp [checkComplete, complete]

theorem checkComplete_of_missing_ne_nil {registry : Registry}
    (incomplete : registry.missing ≠ []) :
    registry.checkComplete = .error (.incomplete registry.missing) := by
  unfold checkComplete
  split
  next complete => exact absurd complete incomplete
  next slot rest remaining => rw [remaining]

theorem freeze_of_missing_eq_nil {registry : Registry} (complete : registry.missing = []) :
    registry.freeze = .ok { registry with frozen := true } := by
  rw [freeze, checkComplete_of_missing_eq_nil complete]
  rfl

theorem freeze_of_missing_ne_nil {registry : Registry} (incomplete : registry.missing ≠ []) :
    registry.freeze = .error (.incomplete registry.missing) := by
  rw [freeze, checkComplete_of_missing_ne_nil incomplete]
  rfl

end Registry

end NativeGlobals
