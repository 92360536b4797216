import NativeGlobals.Failure

/-! What is told to a logger. A notice is something that happened. Whether it becomes
a record in the log depends on the threshold of the logger, and on nothing else. -/

namespace NativeGlobals

inductive Level where
  | error
  | warn
  | info
  | debug
  | trace
  deriving DecidableEq, Repr

namespace Level

def label : Level → String
  | .error => "ERROR"
  | .warn => "WARN"
  | .info => "INFO"
  | .debug => "DEBUG"
  | .trace => "TRACE"

def rank : Level → Nat
  | .error => 1
  | .warn => 2
  | .info => 3
  | .debug => 4
  | .trace => 5

end Level

/-- The least important level that a logger still records, if it records anything. -/
inductive Threshold where
  | off
  | upTo (level : Level)
  deriving DecidableEq, Repr

def Threshold.admits : Threshold → Level → Bool
  | .off, _ => false
  | .upTo least, level => level.rank ≤ least.rank

/-- The first two tell of a write that is addressed to the slot, whether it is accepted or not. -/
inductive Notice where
  | initializing (slot : Slot)
  | lateWrite (slot : Slot)
  | frozen
  | failed (failure : Failure)
  deriving DecidableEq

namespace Notice

def level : Notice → Level
  | .initializing _ => .trace
  | .lateWrite _ => .warn
  | .frozen => .info
  | .failed _ => .error

def text : Notice → String
  | .initializing slot => "Initializing `" ++ slot.name ++ "` (" ++ slot.kind.label ++ ")"
  | .lateWrite slot => "`" ++ slot.name ++ "` set after the globals were frozen"
  | .frozen => "Initialized " ++ toString schema.length ++ " R globals"
  | .failed failure => failure.message

end Notice

/-- What reaches a logger: a record, or the request to write out what it holds back. -/
inductive Entry where
  | record (level : Level) (text : String)
  | flush
  deriving DecidableEq

def Threshold.log (threshold : Threshold) (notices : List Notice) : List Entry :=
  (notices.filter fun notice => threshold.admits notice.level).map fun notice =>
    .record notice.level notice.text

end NativeGlobals
