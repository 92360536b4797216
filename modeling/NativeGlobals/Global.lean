import NativeGlobals.Schema

/-! The globals that native code can read: the slots of the schema, and a few fixed
ones that exist from the start with a value of their own and that no host sets. -/

namespace NativeGlobals

inductive Fixed where
  | interruptsSuspended
  | interruptsPending
  | visible
  | multibyteLocale
  | utf8Locale
  | latin1Locale
  | useAqua
  | decimalMark
  | leastDecimalExponent
  | maxContourSegments
  deriving DecidableEq, Repr

namespace Fixed

def all : List Fixed :=
  [.interruptsSuspended, .interruptsPending, .visible, .multibyteLocale, .utf8Locale,
    .latin1Locale, .useAqua, .decimalMark, .leastDecimalExponent, .maxContourSegments]

def name : Fixed → String
  | .interruptsSuspended => "R_interrupts_suspended"
  | .interruptsPending => "R_interrupts_pending"
  | .visible => "R_Visible"
  | .multibyteLocale => "mbcslocale"
  | .utf8Locale => "utf8locale"
  | .latin1Locale => "latin1locale"
  | .useAqua => "useaqua"
  | .decimalMark => "OutDec"
  | .leastDecimalExponent => "R_dec_min_exponent"
  | .maxContourSegments => "max_contour_segments"

def layout : Fixed → Layout
  | .interruptsSuspended => .unsigned
  | .interruptsPending => .signed
  | .visible => .unsigned
  | .multibyteLocale => .unsigned
  | .utf8Locale => .unsigned
  | .latin1Locale => .unsigned
  | .useAqua => .unsigned
  | .decimalMark => .staticText
  | .leastDecimalExponent => .signed
  | .maxContourSegments => .signed

def initial : (fixed : Fixed) → fixed.layout.Content
  | .interruptsSuspended => (0 : UInt32)
  | .interruptsPending => (0 : Int32)
  | .visible => (0 : UInt32)
  | .multibyteLocale => (0 : UInt32)
  | .utf8Locale => (0 : UInt32)
  | .latin1Locale => (0 : UInt32)
  | .useAqua => (0 : UInt32)
  | .decimalMark => [0x2e]
  | .leastDecimalExponent => (-308 : Int32)
  | .maxContourSegments => (25000 : Int32)

theorem mem_all (fixed : Fixed) : fixed ∈ all := by
  cases fixed <;> decide

end Fixed

inductive Global where
  | slot (slot : Slot)
  | fixed (fixed : Fixed)
  deriving DecidableEq

namespace Global

def all : List Global := Slot.all.map .slot ++ Fixed.all.map .fixed

def name : Global → String
  | .slot s => s.name
  | .fixed f => f.name

abbrev layout : Global → Layout
  | .slot s => s.layout
  | .fixed f => f.layout

abbrev Content (global : Global) : Type := global.layout.Content

def initial : (global : Global) → global.Content
  | .slot s => s.layout.zero
  | .fixed f => f.initial

def find? (name : String) : Option Global :=
  all.find? fun global => global.name == name

theorem mem_all (global : Global) : global ∈ all := by
  cases global with
  | slot s =>
    exact List.mem_append_left _ (List.mem_map.mpr ⟨s, Slot.mem_all s, rfl⟩)
  | fixed f =>
    exact List.mem_append_right _ (List.mem_map.mpr ⟨f, Fixed.mem_all f, rfl⟩)

end Global

structure Reading where
  global : Global
  content : global.Content

end NativeGlobals
