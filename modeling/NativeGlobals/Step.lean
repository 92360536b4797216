import NativeGlobals.Registry

/-! The steps that the life of a process is made of, whether the host takes them or
native code does, and the answers they get. -/

namespace NativeGlobals

inductive Step where
  /-- Sets a slot and reports a refusal to the caller. -/
  | set (index : Int32) (value : Value)
  /-- Sets a slot through the exported operation, for which a refusal is fatal. Text is
  passed in the host's buffer. -/
  | call (index : Int32) (value : Value)
  | overwrite (bytes : Bytes)
  /-- Native code writes a global directly. Text that the registry owns is out of its
  reach. -/
  | poke (target : Global) (content : target.Content) (foreign : target.layout ≠ .ownedText)
  | get (target : Global)
  | has (slot : Slot)
  | isSet (index : Int32)
  | missing
  | checkComplete
  | freeze
  | isReady
  | done
  /-- Freezes, and treats a refusal as fatal. -/
  | doneOrExit
  | level (threshold : Threshold)
  | dump

inductive Answer where
  | nothing
  | accepted
  | rejected (failure : Failure)
  | reading (reading : Reading)
  | flag (value : Bool)
  | slots (slots : List Slot)
  | status (code : Int32)
  | readings (readings : List Reading)

/-- What a step comes to: the registry after it, the answer, what there is to tell, and
the failure that ends the process, if one does. Nothing in it depends on a logger. -/
structure Effect where
  registry : Registry
  answer : Answer := .nothing
  notices : List Notice := []
  fatal : Option Failure := none

namespace Registry

def perform (registry : Registry) : Step → Effect
  | .set index value =>
      match registry.set index value with
      | .ok after =>
          { registry := after, answer := .accepted, notices := registry.writeNotices index }
      | .error failure =>
          { registry, answer := .rejected failure, notices := registry.writeNotices index }
  | .call index value =>
      match registry.set index value with
      | .ok after => { registry := after, notices := registry.writeNotices index }
      | .error failure =>
          { registry, notices := registry.writeNotices index, fatal := some failure }
  | .overwrite _ => { registry }
  | .poke target content _ => { registry := registry.put target (target.layout.settle content) }
  | .get target => { registry, answer := .reading ⟨target, registry.content target⟩ }
  | .has slot => { registry, answer := .flag (registry.isSet slot) }
  | .isSet index =>
      match Slot.ofIndex? index with
      | none => { registry }
      | some slot => { registry, answer := .flag (registry.isSet slot) }
  | .missing => { registry, answer := .slots registry.missing }
  | .checkComplete =>
      match registry.checkComplete with
      | .ok _ => { registry, answer := .accepted }
      | .error failure => { registry, answer := .rejected failure }
  | .freeze =>
      match registry.freeze with
      | .ok after => { registry := after, answer := .accepted, notices := [.frozen] }
      | .error failure => { registry, answer := .rejected failure }
  | .isReady => { registry, answer := .flag registry.frozen }
  | .done =>
      match registry.freeze with
      | .ok after => { registry := after, answer := .status 1, notices := [.frozen] }
      | .error failure => { registry, answer := .status 0, notices := [.failed failure] }
  | .doneOrExit =>
      match registry.freeze with
      | .ok after => { registry := after, notices := [.frozen] }
      | .error failure => { registry, fatal := some failure }
  | .level _ => { registry }
  | .dump => { registry, answer := .readings registry.readings }

end Registry

end NativeGlobals
