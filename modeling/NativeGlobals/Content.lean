/-! What a global holds, according to how native code lays it out. Every bit a host
supplies is kept: a double is its 64-bit pattern, so the payload of a NaN survives,
and a handle is a 64-bit number behind which nobody looks. Text ends before its first
zero byte, wherever it comes from. -/

namespace NativeGlobals

abbrev Bytes := List UInt8

/-- Text as native code reads it: what stands before the first zero byte. -/
def terminated (bytes : Bytes) : Bytes :=
  bytes.takeWhile (· != 0)

inductive Kind where
  | int
  | double
  | text
  | handle
  deriving DecidableEq, Repr

def Kind.label : Kind → String
  | .int => "int"
  | .double => "double"
  | .text => "string"
  | .handle => "opaque"

def Kind.operation : Kind → String
  | .int => "Call_initvar_int"
  | .double => "Call_initvar_double"
  | .text => "Call_initvar_string"
  | .handle => "Call_initvar_obj"

/-- The shape of a global in memory. `ownedText` is a copy that the registry made of
the host's text, and may be absent. `staticText` points to text that is always there. -/
inductive Layout where
  | signed
  | unsigned
  | double
  | ownedText
  | staticText
  | handle
  deriving DecidableEq, Repr

namespace Layout

def kind : Layout → Kind
  | .signed => .int
  | .unsigned => .int
  | .double => .double
  | .ownedText => .text
  | .staticText => .text
  | .handle => .handle

abbrev Content : Layout → Type
  | .signed => Int32
  | .unsigned => UInt32
  | .double => UInt64
  | .ownedText => Option Bytes
  | .staticText => Bytes
  | .handle => UInt64

instance : (layout : Layout) → DecidableEq layout.Content
  | .signed => inferInstanceAs (DecidableEq Int32)
  | .unsigned => inferInstanceAs (DecidableEq UInt32)
  | .double => inferInstanceAs (DecidableEq UInt64)
  | .ownedText => inferInstanceAs (DecidableEq (Option Bytes))
  | .staticText => inferInstanceAs (DecidableEq Bytes)
  | .handle => inferInstanceAs (DecidableEq UInt64)

def zero : (layout : Layout) → layout.Content
  | .signed => (0 : Int32)
  | .unsigned => (0 : UInt32)
  | .double => (0 : UInt64)
  | .ownedText => none
  | .staticText => []
  | .handle => (0 : UInt64)

/-- What is read back after native code has put `content` into a global. -/
def settle : (layout : Layout) → layout.Content → layout.Content
  | .ownedText, content => content.map terminated
  | .staticText, content => terminated content
  | .signed, content => content
  | .unsigned, content => content
  | .double, content => content
  | .handle, content => content

end Layout

theorem zero_not_mem_terminated (bytes : Bytes) : (0 : UInt8) ∉ terminated bytes := by
  intro member
  have kept := List.all_eq_true.mp (List.all_takeWhile (l := bytes) (p := (· != 0))) 0 member
  simp at kept

end NativeGlobals
