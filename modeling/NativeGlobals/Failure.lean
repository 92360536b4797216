import NativeGlobals.Schema

/-! What can go wrong: host and registry may disagree on the schema, and the host may
leave slots unset. -/

namespace NativeGlobals

inductive Failure where
  /-- No slot that `operation` can set has this index. -/
  | unknownIndex (operation : String) (index : Int32)
  | incomplete (missing : List Slot)
  deriving DecidableEq

def Slot.listing (slots : List Slot) : String := ", ".intercalate (slots.map name)

def Failure.message : Failure → String
  | .unknownIndex operation index =>
      operation ++ ": unimplemented index " ++ toString index.toInt
  | .incomplete missing =>
      toString missing.length ++ " global(s) were not initialized: " ++
        Slot.listing missing

end NativeGlobals
