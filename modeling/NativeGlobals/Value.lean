import NativeGlobals.Global

/-! The values that a host passes, and what becomes of them in a global. -/

namespace NativeGlobals

/-- A value on its way into a slot. Absent text clears the slot. -/
inductive Value where
  | int (value : Int32)
  | double (bits : UInt64)
  | text (bytes : Option Bytes)
  | handle (address : UInt64)
  deriving DecidableEq

namespace Value

def kind : Value → Kind
  | .int _ => .int
  | .double _ => .double
  | .text _ => .text
  | .handle _ => .handle

def present : Value → Bool
  | .text none => false
  | _ => true

/-- The content of a global of this layout that holds the value, if the global can hold
it. A negative integer wraps around where the global is unsigned. -/
def fit : Value → (layout : Layout) → Option layout.Content
  | .int value, .signed => some value
  | .int value, .unsigned => some value.toUInt32
  | .double bits, .double => some bits
  | .text bytes, .ownedText => some (bytes.map terminated)
  | .handle address, .handle => some address
  | _, _ => none

/-- The slot that takes the value at `index`, and what the value becomes there. -/
def place? (value : Value) (index : Int32) : Option ((slot : Slot) × slot.layout.Content) :=
  match Slot.ofIndex? index with
  | none => none
  | some slot => (value.fit slot.layout).map (Sigma.mk slot)

theorem fit_isSome_iff (value : Value) (slot : Slot) :
    (value.fit slot.layout).isSome ↔ value.kind = slot.kind := by
  have declared := slot.layout_ne_staticText
  unfold Slot.kind
  cases value <;> cases layout : slot.layout <;>
    simp_all [fit, kind, Layout.kind]

theorem place?_eq_some_iff {value : Value} {index : Int32} {slot : Slot}
    {content : slot.layout.Content} :
    value.place? index = some ⟨slot, content⟩ ↔
      index.toInt = slot.position.val ∧ value.fit slot.layout = some content := by
  unfold place?
  constructor
  · intro placed
    cases located : Slot.ofIndex? index with
    | none => simp [located] at placed
    | some other =>
      simp only [located, Option.map_eq_some_iff] at placed
      obtain ⟨found, fits, same⟩ := placed
      cases same
      exact ⟨Slot.ofIndex?_eq_some_iff.mp located, fits⟩
  · rintro ⟨index, fits⟩
    rw [Slot.ofIndex?_eq_some_iff.mpr index]
    simp [fits]

end Value

end NativeGlobals
