import NativeGlobals.History
import NativeGlobals.Registry.Lemmas

/-! One step on a registry, compared with what the step itself says: the contents and the
set flags change as the step supplies and puts, a freeze takes hold exactly when nothing is
missing, and only two kinds of steps can be fatal. -/

namespace NativeGlobals

namespace Value

theorem place?_eq_none_iff {value : Value} {index : Int32} :
    value.place? index = none ↔
      ∀ slot : Slot, ¬(index.toInt = slot.position.val ∧ value.kind = slot.kind) := by
  constructor
  · rintro refused slot ⟨located, same⟩
    obtain ⟨content, fits⟩ := Option.isSome_iff_exists.mp ((fit_isSome_iff value slot).mpr same)
    have placed := place?_eq_some_iff.mpr ⟨located, fits⟩
    rw [refused] at placed
    cases placed
  · intro apart
    cases placed : value.place? index with
    | none => rfl
    | some target =>
      have taken := place?_eq_some_iff.mp placed
      have same := (fit_isSome_iff value target.1).mp (by simp [taken.2])
      exact absurd ⟨taken.1, same⟩ (apart target.1)

end Value

namespace Registry

theorem content_of_set_eq_ok {before after : Registry} {index : Int32} {value : Value}
    (accepted : before.set index value = .ok after) (global : Global) :
    after.content global =
      ((Step.set index value).puts? global).getD (before.content global) := by
  cases placed : value.place? index with
  | none => simp [set_of_place?_eq_none placed] at accepted
  | some target =>
    obtain ⟨slot, content⟩ := target
    have taken := Value.place?_eq_some_iff.mp placed
    have kinds := (Value.fit_isSome_iff value slot).mp (by simp [taken.2])
    rw [set_of_place?_eq_some placed] at accepted
    cases accepted
    rw [content_mark]
    cases global with
    | fixed fixed => exact content_put_of_ne before (.slot slot) content (by simp)
    | slot other =>
      by_cases same : slot = other
      · subst same
        simp [Step.puts?, Step.supplies?, taken.1, taken.2, kinds]
      · have elsewhere := Slot.toInt_ne_of_ne taken.1 same
        rw [content_put_of_ne before (.slot slot) content (by simpa using same)]
        simp [Step.puts?, Step.supplies?, elsewhere]

theorem isSet_of_set_eq_ok {before after : Registry} {index : Int32} {value : Value}
    (accepted : before.set index value = .ok after) (slot : Slot) :
    after.isSet slot =
      (((Step.set index value).supplies? slot).map Value.present).getD (before.isSet slot) := by
  cases placed : value.place? index with
  | none => simp [set_of_place?_eq_none placed] at accepted
  | some target =>
    obtain ⟨written, content⟩ := target
    have taken := Value.place?_eq_some_iff.mp placed
    have kinds := (Value.fit_isSome_iff value written).mp (by simp [taken.2])
    rw [set_of_place?_eq_some placed] at accepted
    cases accepted
    by_cases same : written = slot
    · subst same
      simp [Step.supplies?, taken.1, kinds]
    · have elsewhere := Slot.toInt_ne_of_ne taken.1 same
      rw [isSet_mark_of_ne _ _ same, isSet_put]
      simp [Step.supplies?, elsewhere]

theorem frozen_of_set_eq_ok {before after : Registry} {index : Int32} {value : Value}
    (accepted : before.set index value = .ok after) : after.frozen = before.frozen := by
  unfold set at accepted
  split at accepted
  next => cases accepted
  next => cases accepted; rfl

theorem supplies?_of_set_eq_error {registry : Registry} {index : Int32} {value : Value}
    {failure : Failure} (refused : registry.set index value = .error failure) (slot : Slot) :
    (Step.set index value).supplies? slot = none := by
  cases placed : value.place? index with
  | some target => simp [set_of_place?_eq_some placed] at refused
  | none =>
    have apart := Value.place?_eq_none_iff.mp placed slot
    simp only [Step.supplies?, if_neg apart]

theorem puts?_of_set_eq_error {registry : Registry} {index : Int32} {value : Value}
    {failure : Failure} (refused : registry.set index value = .error failure)
    (global : Global) : (Step.set index value).puts? global = none := by
  cases global with
  | fixed fixed => rfl
  | slot slot => simp [Step.puts?, supplies?_of_set_eq_error refused slot]

theorem content_freeze {before after : Registry} (frozen : before.freeze = .ok after) :
    after.content = before.content ∧ after.isSet = before.isSet := by
  by_cases complete : before.missing = []
  · rw [freeze_of_missing_eq_nil complete] at frozen
    cases frozen
    exact ⟨rfl, rfl⟩
  · rw [freeze_of_missing_ne_nil complete] at frozen
    cases frozen

/-- After a step each global holds what the step puts there, or what it held. -/
theorem content_perform (registry : Registry) (step : Step) (global : Global) :
    (registry.perform step).registry.content global =
      (step.puts? global).getD (registry.content global) := by
  cases step with
  | set index value =>
    cases written : registry.set index value with
    | ok after => simpa only [perform, written] using content_of_set_eq_ok written global
    | error failure =>
      simp only [perform, written, puts?_of_set_eq_error written, Option.getD_none]
  | call index value =>
    rw [Step.puts?_call]
    cases written : registry.set index value with
    | ok after => simpa only [perform, written] using content_of_set_eq_ok written global
    | error failure =>
      simp only [perform, written, puts?_of_set_eq_error written, Option.getD_none]
  | poke target content foreign =>
    by_cases same : target = global
    · subst same
      simp [perform, Step.puts?]
    · simp [perform, Step.puts?, same, content_put_of_ne]
  | isSet index =>
    cases located : Slot.ofIndex? index <;> cases global <;>
      simp [perform, located, Step.puts?, Step.supplies?]
  | checkComplete =>
    cases checked : registry.checkComplete <;> cases global <;>
      simp [perform, checked, Step.puts?, Step.supplies?]
  | freeze | done | doneOrExit =>
    cases frozen : registry.freeze with
    | ok after =>
      cases global <;>
        simp [perform, frozen, (content_freeze frozen).1, Step.puts?, Step.supplies?]
    | error failure => cases global <;> simp [perform, frozen, Step.puts?, Step.supplies?]
  | _ => cases global <;> rfl

theorem isSet_perform (registry : Registry) (step : Step) (slot : Slot) :
    (registry.perform step).registry.isSet slot =
      ((step.supplies? slot).map Value.present).getD (registry.isSet slot) := by
  cases step with
  | set index value =>
    cases written : registry.set index value with
    | ok after => simpa only [perform, written] using isSet_of_set_eq_ok written slot
    | error failure =>
      simp only [perform, written, supplies?_of_set_eq_error written, Option.map_none,
        Option.getD_none]
  | call index value =>
    rw [Step.supplies?_call]
    cases written : registry.set index value with
    | ok after => simpa only [perform, written] using isSet_of_set_eq_ok written slot
    | error failure =>
      simp only [perform, written, supplies?_of_set_eq_error written, Option.map_none,
        Option.getD_none]
  | isSet index => cases located : Slot.ofIndex? index <;> simp [perform, located, Step.supplies?]
  | checkComplete =>
    cases checked : registry.checkComplete <;> simp [perform, checked, Step.supplies?]
  | freeze | done | doneOrExit =>
    cases frozen : registry.freeze with
    | ok after => simp [perform, frozen, (content_freeze frozen).2, Step.supplies?]
    | error failure => simp [perform, frozen, Step.supplies?]
  | _ => rfl

theorem frozen_perform (registry : Registry) (step : Step) :
    (registry.perform step).registry.frozen =
      (registry.frozen || (step.freezes && registry.missing.isEmpty)) := by
  cases step with
  | set index value | call index value =>
    cases written : registry.set index value with
    | ok after => simp [perform, written, frozen_of_set_eq_ok written, Step.freezes]
    | error failure => simp [perform, written, Step.freezes]
  | isSet index => cases located : Slot.ofIndex? index <;> simp [perform, located, Step.freezes]
  | checkComplete =>
    cases checked : registry.checkComplete <;> simp [perform, checked, Step.freezes]
  | freeze | done | doneOrExit =>
    by_cases complete : registry.missing = []
    · simp [perform, freeze_of_missing_eq_nil complete, complete, Step.freezes]
    · simp [perform, freeze_of_missing_ne_nil complete, complete, Step.freezes]
  | _ => simp [perform, Step.freezes]

theorem fatal_perform_call (registry : Registry) (index : Int32) (value : Value) :
    (registry.perform (.call index value)).fatal =
      if value.place? index = none then some (.unknownIndex value.kind.operation index)
      else none := by
  cases placed : value.place? index with
  | none => simp [perform, set_of_place?_eq_none placed]
  | some target => simp [perform, set_of_place?_eq_some placed]

theorem fatal_perform_doneOrExit (registry : Registry) :
    (registry.perform .doneOrExit).fatal =
      if registry.missing = [] then none else some (.incomplete registry.missing) := by
  by_cases complete : registry.missing = []
  · simp [perform, freeze_of_missing_eq_nil complete, complete]
  · simp [perform, freeze_of_missing_ne_nil complete, complete]

theorem fatal_perform_of_ne {step : Step} (uncalled : ∀ index value, step ≠ .call index value)
    (undemanded : step ≠ .doneOrExit) (registry : Registry) :
    (registry.perform step).fatal = none := by
  cases step with
  | call index value => exact absurd rfl (uncalled index value)
  | doneOrExit => exact absurd rfl undemanded
  | set index value => cases written : registry.set index value <;> simp [perform, written]
  | isSet index => cases located : Slot.ofIndex? index <;> simp [perform, located]
  | checkComplete => cases checked : registry.checkComplete <;> simp [perform, checked]
  | freeze | done => cases frozen : registry.freeze <;> simp [perform, frozen]
  | _ => rfl

/-- A fatal step is an exported write that no slot takes, or a declaration that is to succeed
although slots are missing. -/
theorem cases_of_fatal_perform {registry : Registry} {step : Step} {failure : Failure}
    (fatal : (registry.perform step).fatal = some failure) :
    (∃ index value, step = .call index value ∧ value.place? index = none ∧
      failure = .unknownIndex value.kind.operation index) ∨
    (step = .doneOrExit ∧ registry.missing ≠ [] ∧ failure = .incomplete registry.missing) := by
  by_cases called : ∃ index value, step = .call index value
  · obtain ⟨index, value, rfl⟩ := called
    rw [fatal_perform_call] at fatal
    obtain ⟨refused, given⟩ := Option.ite_none_right_eq_some.mp fatal
    exact Or.inl ⟨index, value, rfl, refused, (Option.some.inj given).symm⟩
  · by_cases demanded : step = .doneOrExit
    · subst demanded
      rw [fatal_perform_doneOrExit] at fatal
      obtain ⟨lacking, given⟩ := Option.ite_none_left_eq_some.mp fatal
      exact Or.inr ⟨rfl, lacking, (Option.some.inj given).symm⟩
    · have harmless := fatal_perform_of_ne (fun index value written =>
        called ⟨index, value, written⟩) demanded registry
      rw [harmless] at fatal
      cases fatal

end Registry

end NativeGlobals
