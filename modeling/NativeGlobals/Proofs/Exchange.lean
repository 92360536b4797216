import NativeGlobals.History.Lemmas
import NativeGlobals.Proofs.ReadBack
import NativeGlobals.Proofs.Run

/-! What a host can read off its exchanges with a process: which writes were accepted, which
freezes succeeded, and what was put into each global. The answers decide. That the answers
agree with the indices and kinds of the writes, and with the slots that were missing, is
proved here for every exchange that a process takes part in. -/

namespace NativeGlobals

inductive Deposit (global : Global) where
  | supplied (value : Value)
  | poked (content : global.Content)

def Deposit.ReadsAs {global : Global} : Deposit global → global.Content → Prop
  | .supplied value, content => value.ReadsAs global.layout content
  | .poked put, content => global.layout.ReadsAs put content

namespace Exchange

/-- The index and the value of a write that was accepted. The fallible write says that it was,
and the exported operation was accepted if it came back. -/
def accepted? (exchange : Exchange) : Option (Int32 × Value) :=
  match exchange.step, exchange.answer with
  | .set index value, .accepted | .call index value, _ => some (index, value)
  | _, _ => none

def supplied? (exchange : Exchange) (slot : Slot) : Option Value :=
  exchange.accepted?.bind fun write =>
    if write.1.toInt = slot.position.val then some write.2 else none

def deposit? (exchange : Exchange) (global : Global) : Option (Deposit global) :=
  match exchange.step with
  | .poke target content _ =>
      if same : target = global then some (.poked (same ▸ content)) else none
  | _ =>
      match global with
      | .slot slot => (exchange.supplied? slot).map .supplied
      | .fixed _ => none

/-- Whether the exchange declared initialization complete and was not refused. -/
def froze (exchange : Exchange) : Bool :=
  match exchange.step, exchange.answer with
  | .freeze, .accepted => true
  | .done, .status code => code == 1
  | .doneOrExit, _ => true
  | _, _ => false

end Exchange

theorem History.getLast?_filterMap_append_singleton {α : Type} (read : Exchange → Option α)
    (history : List Exchange) (exchange : Exchange) :
    ((history ++ [exchange]).filterMap read).getLast? =
      (read exchange).or (history.filterMap read).getLast? := by
  rw [List.filterMap_append, List.getLast?_append]
  cases newest : read exchange <;> simp [newest]

theorem Step.kind_eq_of_supplies? {step : Step} {slot : Slot} {value : Value}
    (supplied : step.supplies? slot = some value) : value.kind = slot.kind := by
  unfold Step.supplies? at supplied
  split at supplied
  case h_1 | h_2 =>
    obtain ⟨⟨_, same⟩, given⟩ := Option.ite_none_right_eq_some.mp supplied
    exact Option.some.inj given ▸ same
  case h_3 => cases supplied

theorem Step.exists_fit_of_supplies? {step : Step} {slot : Slot} {value : Value}
    (supplied : step.supplies? slot = some value) :
    ∃ content, value.fit slot.layout = some content :=
  Option.isSome_iff_exists.mp
    ((Value.fit_isSome_iff value slot).mpr (Step.kind_eq_of_supplies? supplied))

namespace Registry

theorem kind_eq_of_set_eq_ok {before after : Registry} {index : Int32} {value : Value}
    {slot : Slot} (accepted : before.set index value = .ok after)
    (located : index.toInt = slot.position.val) : value.kind = slot.kind := by
  cases placed : value.place? index with
  | none =>
    rw [set_of_place?_eq_none placed] at accepted
    cases accepted
  | some target =>
    obtain ⟨written, content⟩ := target
    obtain ⟨found, fits⟩ := Value.place?_eq_some_iff.mp placed
    by_cases same : written = slot
    · exact same ▸ (Value.fit_isSome_iff value written).mp (by simp [fits])
    · exact absurd located (Slot.toInt_ne_of_ne found same)

theorem supplies?_of_set_eq_ok {before after : Registry} {index : Int32} {value : Value}
    (accepted : before.set index value = .ok after) (slot : Slot) :
    (Step.set index value).supplies? slot =
      if index.toInt = slot.position.val then some value else none := by
  by_cases located : index.toInt = slot.position.val
  · have same := kind_eq_of_set_eq_ok accepted located
    simp only [Step.supplies?, if_pos located, if_pos (And.intro located same)]
  · have apart : ¬(index.toInt = slot.position.val ∧ value.kind = slot.kind) :=
      fun both => located both.1
    simp only [Step.supplies?, if_neg located, if_neg apart]

theorem supplied?_perform {registry : Registry} {step : Step}
    (harmless : (registry.perform step).fatal = none) (slot : Slot) :
    (Exchange.mk step (registry.perform step).answer).supplied? slot = step.supplies? slot := by
  cases step with
  | set index value =>
    cases written : registry.set index value with
    | ok after =>
      rw [supplies?_of_set_eq_ok written]
      simp [perform, written, Exchange.supplied?, Exchange.accepted?]
    | error failure =>
      rw [supplies?_of_set_eq_error written]
      simp [perform, written, Exchange.supplied?, Exchange.accepted?]
  | call index value =>
    cases written : registry.set index value with
    | ok after =>
      rw [Step.supplies?_call, supplies?_of_set_eq_ok written]
      simp [Exchange.supplied?, Exchange.accepted?]
    | error failure => simp [perform, written] at harmless
  | _ => rfl

theorem froze_perform {registry : Registry} {step : Step}
    (harmless : (registry.perform step).fatal = none) :
    (Exchange.mk step (registry.perform step).answer).froze =
      (step.freezes && registry.missing.isEmpty) := by
  cases step with
  | freeze | done | doneOrExit =>
    by_cases complete : registry.missing = []
    · simp [perform, freeze_of_missing_eq_nil complete, complete, Exchange.froze, Step.freezes]
    · simp [perform, freeze_of_missing_ne_nil complete, complete, Exchange.froze,
        Step.freezes] at harmless ⊢
  | _ => rfl

theorem content_perform_of_deposit? {registry : Registry} {step : Step}
    (harmless : (registry.perform step).fatal = none) (global : Global) :
    match (Exchange.mk step (registry.perform step).answer).deposit? global with
    | none => (registry.perform step).registry.content global = registry.content global
    | some deposit => deposit.ReadsAs ((registry.perform step).registry.content global) := by
  rw [content_perform]
  cases step with
  | poke target content foreign =>
    by_cases same : target = global
    · subst same
      simpa [Exchange.deposit?, Step.puts?, Deposit.ReadsAs] using
        target.layout.readsAs_settle content
    · simp [Exchange.deposit?, Step.puts?, same]
  | set index value | call index value =>
    cases global with
    | fixed fixed => rfl
    | slot slot =>
      simp only [Exchange.deposit?, Step.puts?, supplied?_perform harmless]
      cases supplied : Step.supplies? _ slot with
      | none => rfl
      | some value =>
        obtain ⟨content, fits⟩ := Step.exists_fit_of_supplies? supplied
        simpa [fits, Deposit.ReadsAs] using Value.readsAs_of_fit fits
  | _ => cases global <;> rfl

end Registry

end NativeGlobals
