import NativeGlobals.Step

/-! How a host keeps the list of missing slots for itself, from its own calls and what
they return, without asking for the list. -/

namespace NativeGlobals

/-- Puts a slot at its place in index order, unless the list has it already. -/
def Slot.insertInto (slot : Slot) : List Slot → List Slot
  | [] => [slot]
  | head :: rest =>
      if slot.position < head.position then slot :: head :: rest
      else if slot = head then head :: rest
      else head :: slot.insertInto rest

namespace Tracking

def note (tracked : List Slot) (index : Int32) (value : Value) : List Slot :=
  match Slot.ofIndex? index with
  | none => tracked
  | some slot => if value.present then tracked.erase slot else slot.insertInto tracked

/-- The host's list after a step. A fallible write says whether it was accepted, and a
call of the exported operation was accepted if it came back. -/
def follow (tracked : List Slot) (step : Step) (answer : Answer) : List Slot :=
  match step, answer with
  | .set index value, .accepted => note tracked index value
  | .call index value, _ => note tracked index value
  | _, _ => tracked

def tracked (steps : List Step) (answers : List Answer) : List Slot :=
  (steps.zip answers).foldl (fun list exchange => follow list exchange.1 exchange.2) Slot.all

end Tracking

end NativeGlobals
