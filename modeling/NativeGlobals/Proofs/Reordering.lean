import NativeGlobals.Proofs.LastWrite
import NativeGlobals.Proofs.Place
import NativeGlobals.Proofs.Reachable

/-! The order of writes. Only the order of those that put something into one and the same global
counts. Since each global and each set flag is decided by what was put there last, two orders of
the same writes that agree for each global lead to the same registry, and each write is answered
and told alike wherever it stands. -/

namespace NativeGlobals

namespace Step

def putsInto (global : Global) (step : Step) : Bool := (step.puts? global).isSome

/-- Whether the step is a write that comes back: a fallible one, accepted or not, an exported one
that a slot takes, or a poke. -/
def Writes : Step → Prop
  | .set _ _ | .poke _ _ _ => True
  | .call index value => ∃ slot : Slot, index.toInt = slot.position.val ∧ value.kind = slot.kind
  | _ => False

/-- For each slot, in the order of the schema, the first step that puts something there. -/
def inIndexOrder (steps : List Step) : List Step :=
  Slot.all.filterMap fun slot => steps.find? (putsInto (.slot slot))

end Step

def History.addressed (steps : List Step) (global : Global) : List Step :=
  steps.filter (Step.putsInto global)

structure Process.Interchangeable (start : Process) (first second : List Step) : Prop where
  survived : (start.run first).exit = none ∧ (start.run second).exit = none
  registry : (start.run first).final.registry = (start.run second).final.registry
  /-- Each step has one answer, wherever it stands. -/
  answers : ∃ answer : Step → Answer,
    start.exchanges first = first.map (fun step => ⟨step, answer step⟩) ∧
      start.exchanges second = second.map fun step => ⟨step, answer step⟩
  afterwards : ∀ step answer,
    (start.run first).final.Answers step answer ↔ (start.run second).final.Answers step answer
  log : (start.run first).log.Perm (start.run second).log

theorem findSome?_filter {α β : Type} {read : α → Option β} {keep : α → Bool}
    (kept : ∀ item, read item ≠ none → keep item = true) (list : List α) :
    (list.filter keep).findSome? read = list.findSome? read := by
  induction list with
  | nil => rfl
  | cons item rest ih =>
    cases found : read item with
    | some value =>
      have chosen : keep item = true := kept item (by simp [found])
      rw [List.filter_cons_of_pos chosen, List.findSome?_cons, List.findSome?_cons, found]
    | none =>
      rw [List.findSome?_cons, found, List.filter_cons]
      split
      next => rw [List.findSome?_cons, found, ih]
      next => exact ih

namespace History

theorem lastPut?_addressed (steps : List Step) (global : Global) :
    lastPut? (addressed steps global) global = lastPut? steps global := by
  unfold lastPut? addressed
  rw [← List.filter_reverse]
  exact findSome?_filter (fun _ put => Option.isSome_iff_ne_none.mpr put) _

theorem lastSupplied?_addressed (steps : List Step) (slot : Slot) :
    lastSupplied? (addressed steps (.slot slot)) slot = lastSupplied? steps slot := by
  unfold lastSupplied? addressed
  rw [← List.filter_reverse]
  refine findSome?_filter (fun step supplied => ?_) _
  obtain ⟨value, given⟩ := Option.ne_none_iff_exists'.mp supplied
  obtain ⟨content, fits⟩ := Step.exists_fit_of_supplies? given
  cases step with
  | set index value | call index value => simp [Step.putsInto, Step.puts?, given, fits]
  | _ => cases given

end History

namespace Step.Writes

variable {step : Step}

theorem harmless (writes : step.Writes) (registry : Registry) :
    (registry.perform step).fatal = none := by
  cases step with
  | call index value =>
    obtain ⟨slot, located, same⟩ := writes
    have taken : value.place? index ≠ none := fun refused =>
      Value.place?_eq_none_iff.mp refused slot ⟨located, same⟩
    rw [Registry.fatal_perform_call, if_neg taken]
  | set index value => exact Registry.fatal_perform_of_ne (by simp) (by simp) registry
  | poke target content foreign => rfl
  | _ => cases writes

theorem frozen_perform (writes : step.Writes) (registry : Registry) :
    (registry.perform step).registry.frozen = registry.frozen := by
  have unfreezing : step.freezes = false := by
    cases step with
    | set index value | call index value | poke target content foreign => rfl
    | _ => cases writes
  rw [Registry.frozen_perform, unfreezing, Bool.false_and, Bool.or_false]

theorem level?_eq_none (writes : step.Writes) : step.level? = none := by
  cases step with
  | level threshold => cases writes
  | _ => rfl

theorem answer_perform (writes : step.Writes) (first second : Registry) :
    (first.perform step).answer = (second.perform step).answer := by
  cases step with
  | set index value | call index value =>
    cases placed : value.place? index with
    | none => simp [Registry.perform, Registry.set_of_place?_eq_none placed]
    | some target => simp [Registry.perform, Registry.set_of_place?_eq_some placed]
  | poke target content foreign => rfl
  | _ => cases writes

theorem notices_perform (writes : step.Writes) {first second : Registry}
    (same : first.frozen = second.frozen) :
    (first.perform step).notices = (second.perform step).notices := by
  have told : ∀ index, first.writeNotices index = second.writeNotices index := by
    intro index
    simp only [Registry.writeNotices, same]
  cases step with
  | set index value | call index value =>
    cases placed : value.place? index with
    | none => simp [Registry.perform, Registry.set_of_place?_eq_none placed, told]
    | some target => simp [Registry.perform, Registry.set_of_place?_eq_some placed, told]
  | poke target content foreign => rfl
  | _ => cases writes

end Step.Writes

namespace Process

variable {start : Process} {steps first second : List Step}

theorem exit_run_of_writes (writes : ∀ step ∈ steps, step.Writes) :
    (start.run steps).exit = none :=
  exit_run_eq_none fun step member => (writes step member).harmless

theorem trace_run_of_writes (writes : ∀ step ∈ steps, step.Writes) :
    (start.run steps).trace.map (fun transition => (transition.answer, transition.log)) =
      steps.map fun step => ((start.registry.perform step).answer,
        start.threshold.log (start.registry.perform step).notices) := by
  -- Writes are told by the frozen flag and the threshold, and change neither.
  suffices onward : ∀ process : Process, process.registry.frozen = start.registry.frozen →
      process.threshold = start.threshold →
      (process.run steps).trace.map (fun transition => (transition.answer, transition.log)) =
        steps.map fun step => ((start.registry.perform step).answer,
          start.threshold.log (start.registry.perform step).notices) from
    onward start rfl rfl
  induction steps with
  | nil =>
    intro process frozen threshold
    rfl
  | cons step later ih =>
    intro process frozen threshold
    have written := writes step List.mem_cons_self
    have steady := process.threshold_prepare written.level?_eq_none
    have next := step_of_fatal_eq_none (written.harmless process.registry)
    rw [run_cons_of_ok next, List.map_cons, List.map_cons]
    congr 1
    · rw [steady, threshold, written.answer_perform process.registry start.registry,
        written.notices_perform frozen]
    · refine ih (fun step member => writes step (List.mem_cons_of_mem _ member)) _ ?_ ?_
      · rw [← frozen]
        exact written.frozen_perform process.registry
      · rw [← threshold, ← steady]
        rfl

theorem exchanges_of_writes (writes : ∀ step ∈ steps, step.Writes) :
    start.exchanges steps =
      steps.map fun step => ⟨step, (start.registry.perform step).answer⟩ := by
  have answers : (start.run steps).trace.map Transition.answer =
      steps.map fun step => (start.registry.perform step).answer := by
    simpa only [List.map_map, Function.comp_def] using
      congrArg (List.map Prod.fst) (trace_run_of_writes writes)
  rw [exchanges, answers, List.zipWith_map_right, List.zipWith_self]

theorem log_run_of_writes (writes : ∀ step ∈ steps, step.Writes) :
    (start.run steps).log =
      steps.flatMap fun step => start.threshold.log (start.registry.perform step).notices := by
  have logs : (start.run steps).trace.map Transition.log =
      steps.map fun step => start.threshold.log (start.registry.perform step).notices := by
    simpa only [List.map_map, Function.comp_def] using
      congrArg (List.map Prod.snd) (trace_run_of_writes writes)
  rw [Run.log, List.flatMap_def, logs, List.flatMap_def]

theorem frozen_run_of_writes (writes : ∀ step ∈ steps, step.Writes) :
    (start.run steps).final.registry.frozen = start.registry.frozen :=
  run_invariant (motive := fun registry => registry.frozen = start.registry.frozen) Step.Writes
    (fun registry _ written kept => (written.frozen_perform registry).trans kept) rfl writes

/-- What was put last into each global decides the registry after a sequence of writes. -/
theorem registry_run_eq (firstWrites : ∀ step ∈ first, step.Writes)
    (secondWrites : ∀ step ∈ second, step.Writes)
    (same : ∀ global, History.addressed first global = History.addressed second global) :
    (start.run first).final.registry = (start.run second).final.registry := by
  have firstSurvived : (start.run first).exit = none := exit_run_of_writes firstWrites
  have secondSurvived : (start.run second).exit = none := exit_run_of_writes secondWrites
  apply Registry.eq_of_views
  · intro global
    rw [content_run_of_survived firstSurvived, content_run_of_survived secondSurvived,
      ← History.lastPut?_addressed first, ← History.lastPut?_addressed second, same global]
  · intro slot
    rw [isSet_run_of_survived firstSurvived, isSet_run_of_survived secondSurvived,
      ← History.lastSupplied?_addressed first, ← History.lastSupplied?_addressed second,
      same (.slot slot)]
  · rw [frozen_run_of_writes firstWrites, frozen_run_of_writes secondWrites]

theorem interchangeable_of_perm (permuted : first.Perm second)
    (writes : ∀ step ∈ first, step.Writes)
    (same : ∀ global, History.addressed first global = History.addressed second global) :
    start.Interchangeable first second := by
  have alsoWrites : ∀ step ∈ second, step.Writes :=
    fun step member => writes step (permuted.mem_iff.mpr member)
  have registry : (start.run first).final.registry = (start.run second).final.registry :=
    registry_run_eq writes alsoWrites same
  refine ⟨⟨exit_run_of_writes writes, exit_run_of_writes alsoWrites⟩, registry, ?_, ?_, ?_⟩
  · exact ⟨fun step => (start.registry.perform step).answer, exchanges_of_writes writes,
      exchanges_of_writes alsoWrites⟩
  · intro step answer
    rw [answers_iff, answers_iff, registry]
  · rw [log_run_of_writes writes, log_run_of_writes alsoWrites]
    exact permuted.flatMap_right _

end Process

namespace Step

theorem mem_inIndexOrder {steps : List Step} {step : Step} :
    step ∈ inIndexOrder steps ↔
      ∃ slot, steps.find? (putsInto (.slot slot)) = some step := by
  simp [inIndexOrder, List.mem_filterMap, Slot.mem_all]

theorem target?_of_putsInto {step : Step} {global : Global}
    (put : step.putsInto global = true) : step.target? = some global :=
  target?_of_puts?_ne_none (Option.isSome_iff_ne_none.mp put)

theorem nodup_inIndexOrder (steps : List Step) : (inIndexOrder steps).Nodup := by
  refine List.pairwise_filterMap.mpr (Slot.all_nodup.imp ?_)
  intro slot other different step found again located same
  have here := target?_of_putsInto (List.find?_some found)
  have there := target?_of_putsInto (List.find?_some located)
  rw [same, there] at here
  exact different (Global.slot.inj (Option.some.inj here)).symm

end Step

def History.Scattered (steps : List Step) : Prop :=
  steps.Pairwise fun earlier later => earlier.target? ≠ later.target?

namespace History.Scattered

theorem addressed_length_le_one {steps : List Step} (scattered : Scattered steps)
    (global : Global) : (addressed steps global).length ≤ 1 := by
  have apart : (addressed steps global).Pairwise fun earlier later =>
      earlier.target? ≠ later.target? := scattered.sublist List.filter_sublist
  have here : ∀ step ∈ addressed steps global, step.target? = some global := fun step member =>
    Step.target?_of_putsInto (List.mem_filter.mp member).2
  cases listed : addressed steps global with
  | nil => simp
  | cons step rest =>
    cases rest with
    | nil => simp
    | cons other rest =>
      rw [listed] at apart here
      have clash := (List.pairwise_cons.mp apart).1 other List.mem_cons_self
      exact absurd ((here step (by simp)).trans (here other (by simp)).symm) clash

theorem addressed_eq_of_perm {first second : List Step} (scattered : Scattered first)
    (permuted : first.Perm second) (global : Global) :
    addressed first global = addressed second global := by
  have few := scattered.addressed_length_le_one global
  have again : (addressed first global).Perm (addressed second global) := permuted.filter _
  cases listed : addressed first global with
  | nil =>
    rw [listed] at again
    exact again.nil_eq
  | cons step rest =>
    rw [listed] at again few
    have single : rest = [] := by simpa using few
    rw [single] at again ⊢
    exact (List.singleton_perm.mp again)

theorem perm_inIndexOrder {steps : List Step} (scattered : Scattered steps)
    (placed : ∀ step ∈ steps, ∃ slot, step.putsInto (.slot slot) = true) :
    steps.Perm (Step.inIndexOrder steps) := by
  have nodup : steps.Nodup := scattered.imp fun apart same => apart (congrArg Step.target? same)
  refine (List.perm_ext_iff_of_nodup nodup (Step.nodup_inIndexOrder steps)).mpr fun step => ?_
  rw [Step.mem_inIndexOrder]
  refine ⟨fun member => ?_, fun found => ?_⟩
  · obtain ⟨slot, put⟩ := placed step member
    have here : step ∈ addressed steps (.slot slot) := List.mem_filter.mpr ⟨member, put⟩
    obtain ⟨only, listed⟩ := List.length_eq_one_iff.mp
      (le_antisymm (scattered.addressed_length_le_one _) (List.length_pos_of_mem here))
    rw [listed, List.mem_singleton] at here
    refine ⟨slot, ?_⟩
    rw [← List.head?_filter]
    change (addressed steps (.slot slot)).head? = some step
    rw [listed, here, List.head?_cons]
  · obtain ⟨slot, found⟩ := found
    exact List.mem_of_find?_eq_some found

end History.Scattered

theorem History.addressed_append_comm {first second : List Step}
    (apart : ∀ step ∈ first, ∀ other ∈ second, step.target? ≠ other.target?) (global : Global) :
    addressed (first ++ second) global = addressed (second ++ first) global := by
  simp only [addressed, List.filter_append]
  have either : first.filter (Step.putsInto global) = [] ∨
      second.filter (Step.putsInto global) = [] := by
    by_contra both
    obtain ⟨left, right⟩ := not_or.mp both
    obtain ⟨step, member⟩ := List.exists_mem_of_ne_nil _ left
    obtain ⟨other, listed⟩ := List.exists_mem_of_ne_nil _ right
    have here := Step.target?_of_putsInto (List.mem_filter.mp member).2
    have there := Step.target?_of_putsInto (List.mem_filter.mp listed).2
    exact apart step (List.mem_filter.mp member).1 other (List.mem_filter.mp listed).1
      (here.trans there.symm)
  rcases either with nothing | nothing <;> simp [nothing]

theorem Step.writes_of_putsInto {step : Step} {global : Global}
    (put : step.putsInto global = true) : step.Writes := by
  cases step with
  | set index value | poke target content foreign => trivial
  | call index value =>
    cases global with
    | fixed fixed => cases put
    | slot slot =>
      by_cases taken : index.toInt = slot.position.val ∧ value.kind = slot.kind
      · exact ⟨slot, taken⟩
      · simp [putsInto, puts?, supplies?, taken] at put
  | _ => cases global <;> cases put

/-- Two orders of the same writes come to the same, if they agree on the order of the writes that
put something into one and the same global. So any order of a pass that puts something at most
once into each slot comes to the same as index order. -/
theorem order_of_writes_immaterial (start : Process) :
    (∀ first second : List Step, first.Perm second → (∀ step ∈ first, step.Writes) →
      (∀ global, History.addressed first global = History.addressed second global) →
        start.Interchangeable first second) ∧
    (∀ pass : List Step, (∀ step ∈ pass, ∃ slot, step.putsInto (.slot slot) = true) →
      History.Scattered pass →
        pass.Perm (Step.inIndexOrder pass) ∧
          start.Interchangeable pass (Step.inIndexOrder pass)) := by
  refine ⟨fun first second permuted writes same => ?_, fun pass placed scattered => ?_⟩
  · exact Process.interchangeable_of_perm permuted writes same
  · have permuted := scattered.perm_inIndexOrder placed
    refine ⟨permuted, Process.interchangeable_of_perm permuted (fun step member => ?_)
      (scattered.addressed_eq_of_perm permuted)⟩
    obtain ⟨slot, put⟩ := placed step member
    exact Step.writes_of_putsInto put

theorem blocks_of_writes_trade_places :
    let start := Process.fresh (some (.upTo .trace))
    let first := [.set 49 (.int 5), .set 9999 (.int 1),
      .poke (.fixed .visible) (1 : UInt32) (by decide)]
    let second := [.set 0 (.text (some [0x2f])), .call 8 (.handle 7), .set 0 (.text none)]
    let pass := [.set 49 (.int 5), .call 8 (.handle 7), .set 0 (.text (some [0x2f]))]
    start.Interchangeable (first ++ second) (second ++ first) ∧
      start.Interchangeable pass (Step.inIndexOrder pass) := by
  intro start first second pass
  refine ⟨(order_of_writes_immaterial start).1 _ _ List.perm_append_comm ?_
    (History.addressed_append_comm (by decide)),
    ((order_of_writes_immaterial start).2 pass ?_ ?_).2⟩
  · have taken : ∃ slot : Slot, (8 : Int) = slot.position.val ∧
        (Value.handle 7).kind = slot.kind := ⟨⟨⟨8, by decide⟩⟩, by decide⟩
    simpa [first, second, Step.Writes] using taken
  · simp only [pass, List.forall_mem_cons]
    exact ⟨⟨⟨⟨49, by decide⟩⟩, by decide⟩, ⟨⟨⟨8, by decide⟩⟩, by decide⟩,
      ⟨⟨⟨0, by decide⟩⟩, by decide⟩, by simp⟩
  · unfold History.Scattered
    decide

end NativeGlobals
