import NativeGlobals.Step

/-! What a sequence of steps amounts to, read off the steps alone. A slot takes the
values that are addressed to its own index in its own kind, and the last one counts. No
registry, no order between different globals and no freeze enters into it. -/

namespace NativeGlobals

namespace Step

/-- The value that the step supplies to the slot: a write with the slot's own index and
of the slot's own kind. -/
def supplies? (step : Step) (slot : Slot) : Option Value :=
  match step with
  | .set index value | .call index value =>
      if index.toInt = slot.position.val ∧ value.kind = slot.kind then some value else none
  | _ => none

def puts? (step : Step) (global : Global) : Option global.Content :=
  match step with
  | .poke target content _ =>
      if same : target = global then some (same ▸ target.layout.settle content) else none
  | _ =>
      match global with
      | .slot slot => (step.supplies? slot).bind fun value => value.fit slot.layout
      | .fixed _ => none

def freezes : Step → Bool
  | .freeze | .done | .doneOrExit => true
  | _ => false

theorem supplies?_call (index : Int32) (value : Value) (slot : Slot) :
    (call index value).supplies? slot = (set index value).supplies? slot := rfl

theorem puts?_call (index : Int32) (value : Value) (global : Global) :
    (call index value).puts? global = (set index value).puts? global := by
  cases global <;> rfl

end Step

namespace History

def lastSupplied? (steps : List Step) (slot : Slot) : Option Value :=
  steps.reverse.findSome? fun step => step.supplies? slot

def lastPut? (steps : List Step) (global : Global) : Option global.Content :=
  steps.reverse.findSome? fun step => step.puts? global

/-- Whether the steps leave the slot set: the host supplied a value, and the last one was
not absent text. -/
def leavesSet (steps : List Step) (slot : Slot) : Bool :=
  ((lastSupplied? steps slot).map Value.present).getD false

theorem lastSupplied?_append (first second : List Step) (slot : Slot) :
    lastSupplied? (first ++ second) slot =
      (lastSupplied? second slot).or (lastSupplied? first slot) := by
  simp only [lastSupplied?, List.reverse_append, List.findSome?_append]

end History

end NativeGlobals
