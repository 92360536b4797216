import NativeGlobals.Log
import NativeGlobals.Value

/-! The registry: what every global holds, which slots the host has set, and whether
the host has declared initialization complete. Set flags follow the host's writes
alone. They are not read off the contents, so a zero and an empty text count as set,
and a poke from native code sets nothing. Freezing is a declaration and not a lock:
later writes still take effect, and clearing text afterwards leaves a frozen registry
with a missing slot. -/

namespace NativeGlobals

structure Registry where
  content : (global : Global) → global.Content
  isSet : Slot → Bool
  frozen : Bool

namespace Registry

def fresh : Registry where
  content := Global.initial
  isSet := fun _ => false
  frozen := false

def put (registry : Registry) (target : Global) (content : target.Content) : Registry :=
  { registry with
    content := fun global =>
      if same : target = global then same ▸ content else registry.content global }

def mark (registry : Registry) (target : Slot) (present : Bool) : Registry :=
  { registry with isSet := fun slot => if target = slot then present else registry.isSet slot }

/-- Sets the slot at `index`. An index that no slot for this kind of value has is
refused, and then nothing changes. -/
def set (registry : Registry) (index : Int32) (value : Value) : Except Failure Registry :=
  match value.place? index with
  | none => .error (.unknownIndex value.kind.operation index)
  | some ⟨slot, content⟩ => .ok ((registry.put (.slot slot) content).mark slot value.present)

/-- What is told about a write addressed to `index`. The slot is named as soon as it is
found, before it is known whether it takes the value, so a write that is refused for
its kind is told too. -/
def writeNotices (registry : Registry) (index : Int32) : List Notice :=
  match Slot.ofIndex? index with
  | none => []
  | some slot => if registry.frozen then [.lateWrite slot] else [.initializing slot]

def missing (registry : Registry) : List Slot :=
  Slot.all.filter fun slot => !registry.isSet slot

def checkComplete (registry : Registry) : Except Failure Unit :=
  match registry.missing with
  | [] => .ok ()
  | slot :: rest => .error (.incomplete (slot :: rest))

/-- Declares initialization complete, which is refused while a slot is missing. A
registry that is frozen already can be frozen again on the same terms. -/
def freeze (registry : Registry) : Except Failure Registry :=
  registry.checkComplete.map fun _ => { registry with frozen := true }

def readings (registry : Registry) : List Reading :=
  Global.all.map fun global => ⟨global, registry.content global⟩

end Registry

end NativeGlobals
