import Mathlib.Tactic.ByContra
import NativeGlobals.Proofs.Exchange

/-! The last accepted write wins. At every point of every run a global holds what was put
there last, and what it held in a fresh process if nothing was. -/

namespace NativeGlobals

/-- The global to which the step is addressed: the slot at the index of a write, of whatever
kind, or the target of a poke. -/
def Step.target? : Step → Option Global
  | .set index _ | .call index _ => (Slot.ofIndex? index).map .slot
  | .poke target _ _ => some target
  | _ => none

namespace History

def deposits (history : List Exchange) (global : Global) : List (Deposit global) :=
  history.filterMap fun exchange => exchange.deposit? global

/-- Whether the history leaves `content` in a global that starts out with `initial`. -/
def Leaves (history : List Exchange) (global : Global) (initial content : global.Content) : Prop :=
  match (deposits history global).getLast? with
  | none => content = initial
  | some deposit => deposit.ReadsAs content

theorem leaves_append_singleton {history : List Exchange} {exchange : Exchange} {global : Global}
    {initial before after : global.Content} (left : Leaves history global initial before)
    (changed : match exchange.deposit? global with
      | none => after = before
      | some deposit => deposit.ReadsAs after) :
    Leaves (history ++ [exchange]) global initial after := by
  unfold Leaves deposits at left ⊢
  rw [getLast?_filterMap_append_singleton]
  cases put : exchange.deposit? global with
  | none =>
    rw [put] at changed
    rw [Option.none_or, changed]
    exact left
  | some deposit =>
    rw [put] at changed
    exact changed

end History

namespace Step

theorem target?_of_puts?_ne_none {step : Step} {global : Global}
    (put : step.puts? global ≠ none) : step.target? = some global := by
  cases step with
  | set index value | call index value =>
    cases global with
    | fixed fixed => exact absurd rfl put
    | slot slot =>
      have located : index.toInt = slot.position.val := by
        by_contra elsewhere
        exact put (by simp [puts?, supplies?, elsewhere])
      exact congrArg (Option.map Global.slot) (Slot.ofIndex?_eq_some_iff.mpr located)
  | poke target content foreign =>
    have same : target = global := by
      by_contra different
      exact put (by simp [puts?, different])
    exact congrArg some same
  | _ => exact absurd (by cases global <;> rfl) put

end Step

namespace Registry

theorem exists_set_eq_ok_of_puts?_ne_none (registry : Registry) {index : Int32} {value : Value}
    {global : Global} (put : (Step.set index value).puts? global ≠ none) :
    ∃ after, registry.set index value = .ok after := by
  cases written : registry.set index value with
  | ok after => exact ⟨after, rfl⟩
  | error failure => exact absurd (puts?_of_set_eq_error written global) put

theorem target?_of_content_perform_ne {registry : Registry} {step : Step} {global : Global}
    (changed : (registry.perform step).registry.content global ≠ registry.content global) :
    step.target? = some global ∧
      ∀ failure, (registry.perform step).answer ≠ .rejected failure := by
  have put : step.puts? global ≠ none := by
    intro nothing
    exact changed (by rw [content_perform, nothing, Option.getD_none])
  refine ⟨Step.target?_of_puts?_ne_none put, ?_⟩
  cases step with
  | set index value =>
    obtain ⟨after, written⟩ := registry.exists_set_eq_ok_of_puts?_ne_none put
    simp [perform, written]
  | call index value =>
    rw [Step.puts?_call] at put
    obtain ⟨after, written⟩ := registry.exists_set_eq_ok_of_puts?_ne_none put
    simp [perform, written]
  | poke target content foreign => simp [perform]
  | _ => exact absurd (by cases global <;> rfl) put

end Registry

namespace Process

theorem leaves_run (start : Process) (steps : List Step) (global : Global) :
    History.Leaves (start.exchanges steps) global (start.registry.content global)
      ((start.run steps).final.registry.content global) := by
  refine run_induction (motive := fun history registry =>
    History.Leaves history global (start.registry.content global) (registry.content global))
    rfl ?_ steps
  intro history registry step harmless left
  exact History.leaves_append_singleton left
    (Registry.content_perform_of_deposit? harmless global)

end Process

/-- At every point of every run each global holds exactly what was put there last by an
accepted write or a poke, or its declared content if nothing was. The next step changes at
most the global to which it is addressed, and nothing if it is refused. No two integers read
alike in a slot. -/
theorem last_deposit_wins (logger : Option Threshold) (steps : List Step) :
    let start := Process.fresh logger
    let process := (start.run steps).final
    (∀ global : Global, History.Leaves (start.exchanges steps) global global.initial
      (process.registry.content global)) ∧
    (∀ step transition, process.step step = .ok transition → ∀ global : Global,
      transition.process.registry.content global ≠ process.registry.content global →
        step.target? = some global ∧ ∀ failure, transition.answer ≠ .rejected failure) ∧
    (∀ (slot : Slot) (first second : Int32) (content : slot.layout.Content),
      (Value.int first).ReadsAs slot.layout content →
        (Value.int second).ReadsAs slot.layout content → first = second) := by
  intro start process
  refine ⟨fun global => start.leaves_run steps global, ?_, ?_⟩
  · intro step transition survived global changed
    obtain ⟨_, registry, answer⟩ := Process.of_step_eq_ok survived
    rw [registry] at changed
    rw [answer]
    exact Registry.target?_of_content_perform_ne changed
  · intro slot first second content firstRead secondRead
    exact Value.int_eq_of_readsAs firstRead secondRead

end NativeGlobals
