import NativeGlobals.Process

/-! A session watches a process from outside. The steps come in blocks, and after each
block it is noted what the process answered, which globals differ from before, which
slots became set or unset, and what was logged. -/

namespace NativeGlobals

structure Report where
  answer : Answer
  changed : List Reading
  set : List Slot
  unset : List Slot
  missing : Nat
  ready : Bool
  log : List Entry

namespace Registry

def changed (before after : Registry) : List Reading :=
  after.readings.filter fun reading => reading.content != before.content reading.global

def gained (before after : Registry) : List Slot :=
  Slot.all.filter fun slot => !before.isSet slot && after.isSet slot

end Registry

namespace Process

/-- Takes a block of steps as one. The answer is that of its last step, and a block
without steps is accepted. -/
def runBlock (process : Process) (block : List Step) : Except Exit Transition :=
  let run := process.run block
  match run.exit with
  | some exit => .error { exit with log := run.log ++ exit.log }
  | none =>
      .ok ⟨run.final, (run.trace.getLast?.map Transition.answer).getD .accepted, run.log⟩

def report (before : Process) (transition : Transition) : Report where
  answer := transition.answer
  changed := before.registry.changed transition.process.registry
  set := before.registry.gained transition.process.registry
  unset := transition.process.registry.gained before.registry
  missing := transition.process.registry.missing.length
  ready := transition.process.registry.frozen
  log := transition.log

def session : Process → List (List Step) → List (Except Exit Report)
  | _, [] => []
  | process, block :: later =>
      match process.runBlock block with
      | .error exit => [.error exit]
      | .ok transition => .ok (process.report transition) :: transition.process.session later

end Process

def observe (logger : Option Threshold) (blocks : List (List Step)) :
    List (Except Exit Report) :=
  (Process.fresh logger).session blocks

/-- Some value of the slot's own kind, for a host that only cares that the slot is set.
The text is a path, /opt/R. -/
def Slot.sample (slot : Slot) : Value :=
  match slot.kind with
  | .int => .int 1
  | .double => .double 0x7ff8000000000000
  | .text => .text (some [0x2f, 0x6f, 0x70, 0x74, 0x2f, 0x52])
  | .handle => .handle (0x3000 + UInt64.ofNat slot.position.val)

def Step.fill (order : List Slot) : List Step :=
  order.map fun slot => .set slot.index slot.sample

end NativeGlobals
