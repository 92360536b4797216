import NativeGlobals.Registry

/-! Which registries a host can bring about when native code does not interfere. -/

namespace NativeGlobals

def Layout.Terminated : (layout : Layout) → layout.Content → Prop
  | .ownedText, content => ∀ bytes : Bytes, content = some bytes → (0 : UInt8) ∉ bytes
  | .staticText, content => (0 : UInt8) ∉ content
  | .signed, _ => True
  | .unsigned, _ => True
  | .double, _ => True
  | .handle, _ => True

namespace Registry

/-- Contents, set flags and frozen flag fit together. A slot that is set may hold any
value of its width. -/
structure WellFormed (registry : Registry) : Prop where
  unset_zero : ∀ slot : Slot, registry.isSet slot = false →
    registry.content (.slot slot) = slot.layout.zero
  set_text : ∀ slot : Slot, slot.kind = .text → registry.isSet slot = true →
    registry.content (.slot slot) ≠ slot.layout.zero
  text_terminated : ∀ slot : Slot, slot.layout.Terminated (registry.content (.slot slot))
  /-- Only text can be cleared after the freeze. -/
  frozen_set : registry.frozen = true → ∀ slot : Slot, slot.kind ≠ .text →
    registry.isSet slot = true
  fixed_initial : ∀ fixed : Fixed, registry.content (.fixed fixed) = fixed.initial

end Registry

end NativeGlobals
