import Mathlib.Tactic.ByContra
import NativeGlobals.Registry.WellFormed
import NativeGlobals.Proofs.Exchange

/-! What every step keeps of a registry. The set flag of text goes with the text, and a frozen
registry lacks nothing but text, even if native code pokes at the globals. Without pokes every
step keeps a registry well formed. -/

namespace NativeGlobals

theorem Layout.terminated_settle (layout : Layout) (put : layout.Content) :
    layout.Terminated (layout.settle put) := by
  cases layout with
  | ownedText =>
    intro bytes kept
    obtain ⟨loaded, _, same⟩ := Option.map_eq_some_iff.mp kept
    exact same ▸ zero_not_mem_terminated loaded
  | staticText => exact zero_not_mem_terminated put
  | _ => trivial

namespace Value

theorem terminated_of_fit {value : Value} {layout : Layout} {content : layout.Content}
    (fits : value.fit layout = some content) : layout.Terminated content := by
  cases value <;> cases layout <;> cases fits
  case text.ownedText bytes => exact Layout.terminated_settle .ownedText bytes
  all_goals trivial

theorem eq_zero_of_fit {value : Value} {layout : Layout} {content : layout.Content}
    (fits : value.fit layout = some content) (absent : value.present = false) :
    content = layout.zero := by
  cases value with
  | text bytes =>
    cases bytes with
    | none => cases layout <;> cases fits; rfl
    | some bytes => cases absent
  | _ => cases absent

theorem present_iff_of_fit {value : Value} {layout : Layout} {content : layout.Content}
    (fits : value.fit layout = some content) (text : layout.kind = .text) :
    value.present = true ↔ content ≠ layout.zero := by
  cases value <;> cases layout <;> cases fits <;> cases text
  case text.ownedText.refl bytes => cases bytes <;> simp [present, Layout.zero]

end Value

theorem Slot.layout_eq_ownedText {slot : Slot} (text : slot.kind = .text) :
    slot.layout = .ownedText := by
  have declared := slot.layout_ne_staticText
  unfold Slot.kind at text
  cases layout : slot.layout <;> simp_all [Layout.kind]

namespace Step

def pokes : Step → Bool
  | .poke _ _ _ => true
  | _ => false

theorem puts?_slot {step : Step} {slot : Slot}
    (apart : ∀ content foreign, step ≠ .poke (.slot slot) content foreign) :
    step.puts? (.slot slot) = (step.supplies? slot).bind fun value => value.fit slot.layout := by
  cases step with
  | poke target content foreign =>
    by_cases same : target = .slot slot
    · subst same
      exact absurd rfl (apart content foreign)
    · simp [puts?, supplies?, same]
  | _ => rfl

theorem puts?_slot_of_not_pokes {step : Step} (unpoked : step.pokes = false) (slot : Slot) :
    step.puts? (.slot slot) = (step.supplies? slot).bind fun value => value.fit slot.layout := by
  apply puts?_slot
  intro content foreign poke
  rw [poke] at unpoked
  cases unpoked

theorem puts?_text (step : Step) {slot : Slot} (text : slot.kind = .text) :
    step.puts? (.slot slot) = (step.supplies? slot).bind fun value => value.fit slot.layout :=
  puts?_slot fun _ foreign _ => foreign (Slot.layout_eq_ownedText text)

theorem terminated_of_puts? {step : Step} {global : Global} {content : global.Content}
    (put : step.puts? global = some content) : global.layout.Terminated content := by
  cases step with
  | poke target content foreign =>
    by_cases same : target = global
    · subst same
      simp only [puts?, dite_true, Option.some.injEq] at put
      exact put ▸ target.layout.terminated_settle _
    · simp [puts?, same] at put
  | _ =>
    cases global with
    | fixed fixed => cases put
    | slot slot =>
      rw [puts?_slot (by simp)] at put
      obtain ⟨value, _, fits⟩ := Option.bind_eq_some_iff.mp put
      exact Value.terminated_of_fit fits

theorem puts?_fixed_of_not_pokes {step : Step} (unpoked : step.pokes = false) (fixed : Fixed) :
    step.puts? (.fixed fixed) = none := by
  cases step with
  | poke target content foreign => cases unpoked
  | _ => rfl

end Step

namespace Registry

/-- Text is set exactly if it is there, and a frozen registry lacks nothing but text. -/
structure Coupled (registry : Registry) : Prop where
  set_text_iff : ∀ slot : Slot, slot.kind = .text →
    (registry.isSet slot = true ↔ registry.content (.slot slot) ≠ slot.layout.zero)
  text_terminated : ∀ slot : Slot, slot.layout.Terminated (registry.content (.slot slot))
  frozen_set : registry.frozen = true → ∀ slot : Slot, slot.kind ≠ .text →
    registry.isSet slot = true

theorem WellFormed.coupled {registry : Registry} (wellFormed : registry.WellFormed) :
    registry.Coupled where
  set_text_iff slot text := by
    refine ⟨wellFormed.set_text slot text, fun there => ?_⟩
    by_contra unset
    exact there (wellFormed.unset_zero slot (Bool.not_eq_true _ ▸ unset))
  text_terminated := wellFormed.text_terminated
  frozen_set := wellFormed.frozen_set

theorem wellFormed_fresh : fresh.WellFormed where
  unset_zero slot _ := rfl
  set_text slot _ set := by cases set
  text_terminated slot := by
    change slot.layout.Terminated slot.layout.zero
    cases slot.layout with
    | ownedText => intro bytes kept; cases kept
    | staticText => simp [Layout.Terminated, Layout.zero]
    | _ => trivial
  frozen_set frozen := by cases frozen
  fixed_initial fixed := rfl

theorem isSet_perform_of_frozen {registry : Registry} {step : Step}
    (frozen : (registry.perform step).registry.frozen = true)
    (before : registry.frozen = true → ∀ slot : Slot, slot.kind ≠ .text →
      registry.isSet slot = true)
    (slot : Slot) (other : slot.kind ≠ .text) :
    (registry.perform step).registry.isSet slot = true := by
  have earlier : registry.isSet slot = true := by
    rw [frozen_perform, Bool.or_eq_true, Bool.and_eq_true] at frozen
    rcases frozen with already | ⟨_, complete⟩
    · exact before already slot other
    · exact missing_eq_nil_iff.mp (List.isEmpty_iff.mp complete) slot
  rw [isSet_perform, earlier]
  cases supplied : step.supplies? slot with
  | none => rfl
  | some value =>
    have same := Step.kind_eq_of_supplies? supplied
    cases value with
    | text bytes => exact absurd same.symm other
    | _ => rfl

theorem Coupled.perform {registry : Registry} (coupled : registry.Coupled) (step : Step) :
    (registry.perform step).registry.Coupled where
  set_text_iff slot text := by
    rw [isSet_perform, content_perform, Step.puts?_text step text]
    cases supplied : step.supplies? slot with
    | none => exact coupled.set_text_iff slot text
    | some value =>
      obtain ⟨content, fits⟩ := Step.exists_fit_of_supplies? supplied
      simpa [fits] using Value.present_iff_of_fit fits text
  text_terminated slot := by
    rw [content_perform]
    cases put : step.puts? (.slot slot) with
    | none => exact coupled.text_terminated slot
    | some content => exact Step.terminated_of_puts? put
  frozen_set frozen := isSet_perform_of_frozen frozen coupled.frozen_set

theorem WellFormed.perform {registry : Registry} (wellFormed : registry.WellFormed) {step : Step}
    (unpoked : step.pokes = false) : (registry.perform step).registry.WellFormed where
  unset_zero slot unset := by
    rw [isSet_perform] at unset
    rw [content_perform, Step.puts?_slot_of_not_pokes unpoked]
    cases supplied : step.supplies? slot with
    | none =>
      rw [supplied] at unset
      exact wellFormed.unset_zero slot unset
    | some value =>
      rw [supplied] at unset
      obtain ⟨content, fits⟩ := Step.exists_fit_of_supplies? supplied
      simpa [fits] using Value.eq_zero_of_fit fits unset
  set_text slot text := ((wellFormed.coupled.perform step).set_text_iff slot text).mp
  text_terminated := (wellFormed.coupled.perform step).text_terminated
  frozen_set := (wellFormed.coupled.perform step).frozen_set
  fixed_initial fixed := by
    rw [content_perform, Step.puts?_fixed_of_not_pokes unpoked]
    exact wellFormed.fixed_initial fixed

end Registry

end NativeGlobals
