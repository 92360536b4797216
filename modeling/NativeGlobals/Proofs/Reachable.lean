import NativeGlobals.Proofs.Freezing
import NativeGlobals.Proofs.Invariant

/-! The registries that a host can bring about when native code leaves the globals alone are
exactly the well-formed ones. For each of them there is a script: it sets what is to be set,
fills the gaps in the text, freezes where that is due, and clears the gaps again. -/

namespace NativeGlobals

theorem findSome?_eq_of_agree {α β : Type} {read : α → Option β} {list : List α}
    {value? : Option β} (agree : ∀ item ∈ list, read item = none ∨ read item = value?)
    (found : value? = none ∨ ∃ item ∈ list, read item = value?) :
    list.findSome? read = value? := by
  cases result : list.findSome? read with
  | none =>
    have nothing := List.findSome?_eq_none_iff.mp result
    rcases found with absent | ⟨item, member, same⟩
    · exact absent.symm
    · exact (nothing item member).symm.trans same
  | some other =>
    obtain ⟨item, member, same⟩ := List.exists_of_findSome?_eq_some result
    rcases agree item member with nothing | kept
    · rw [nothing] at same
      cases same
    · exact same.symm.trans kept

namespace Process

/-- What each step puts in the place of a view of the registry, or leaves there, is found in
that place after a run that nothing ended. -/
theorem view_run {α : Type} (view : Registry → α) (change? : Step → Option α)
    (stepwise : ∀ registry step,
      view (registry.perform step).registry = (change? step).getD (view registry))
    {start : Process} {steps : List Step} (survived : (start.run steps).exit = none) :
    view (start.run steps).final.registry =
      (steps.reverse.findSome? change?).getD (view start.registry) := by
  induction steps generalizing start with
  | nil => rfl
  | cons step later ih =>
    obtain ⟨transition, taken, onward⟩ := exists_step_of_survived survived
    obtain ⟨_, registry, _⟩ := of_step_eq_ok taken
    rw [run_cons_of_ok taken]
    change view (transition.process.run later).final.registry = _
    rw [ih onward, registry, stepwise, List.reverse_cons, List.findSome?_append]
    cases later.reverse.findSome? change? <;> simp

theorem content_run_of_survived {start : Process} {steps : List Step}
    (survived : (start.run steps).exit = none) (global : Global) :
    (start.run steps).final.registry.content global =
      (History.lastPut? steps global).getD (start.registry.content global) :=
  view_run (fun registry => registry.content global) (fun step => step.puts? global)
    (fun registry step => registry.content_perform step global) survived

theorem isSet_run_of_survived {start : Process} {steps : List Step}
    (survived : (start.run steps).exit = none) (slot : Slot) :
    (start.run steps).final.registry.isSet slot =
      ((History.lastSupplied? steps slot).map Value.present).getD (start.registry.isSet slot) := by
  rw [History.lastSupplied?, List.map_findSome?]
  exact view_run (fun registry => registry.isSet slot)
    (fun step => (step.supplies? slot).map Value.present)
    (fun registry step => registry.isSet_perform step slot) survived

theorem isSet_run_fresh_of_survived {logger : Option Threshold} {steps : List Step}
    (survived : ((fresh logger).run steps).exit = none) (slot : Slot) :
    ((fresh logger).run steps).final.registry.isSet slot = History.leavesSet steps slot :=
  isSet_run_of_survived survived slot

theorem exit_run_eq_none {start : Process} {steps : List Step}
    (harmless : ∀ step ∈ steps, ∀ registry : Registry, (registry.perform step).fatal = none) :
    (start.run steps).exit = none := by
  induction steps generalizing start with
  | nil => rfl
  | cons step later ih =>
    obtain ⟨transition, survived⟩ :=
      exists_step_eq_ok (harmless step List.mem_cons_self start.registry)
    rw [run_cons_of_ok survived]
    exact ih fun step member => harmless step (List.mem_cons_of_mem _ member)

end Process

namespace Step

/-- A pass over the slots that writes the value chosen for each, if one is. -/
def pass (choose : Slot → Option Value) : List Step :=
  Slot.all.filterMap fun slot => (choose slot).map (Step.set slot.index)

theorem mem_pass {choose : Slot → Option Value} {step : Step} :
    step ∈ pass choose ↔ ∃ slot value, choose slot = some value ∧ step = .set slot.index value := by
  simp only [pass, List.mem_filterMap, Option.map_eq_some_iff]
  refine ⟨fun listed => ?_, fun written => ?_⟩
  · obtain ⟨slot, _, value, chosen, same⟩ := listed
    exact ⟨slot, value, chosen, same.symm⟩
  · obtain ⟨slot, value, chosen, same⟩ := written
    exact ⟨slot, Slot.mem_all slot, value, chosen, same.symm⟩

theorem supplies?_index (slot other : Slot) {value : Value} (same : value.kind = slot.kind) :
    (set slot.index value).supplies? other = if slot = other then some value else none := by
  by_cases here : slot = other
  · subst here
    simp [supplies?, slot.toInt_index, same]
  · have elsewhere := Slot.toInt_ne_of_ne slot.toInt_index here
    simp [supplies?, here, elsewhere]

theorem lastSupplied?_pass {choose : Slot → Option Value}
    (kinds : ∀ slot value, choose slot = some value → value.kind = slot.kind) (slot : Slot) :
    History.lastSupplied? (pass choose) slot = choose slot := by
  apply findSome?_eq_of_agree
  · intro step member
    obtain ⟨other, value, chosen, rfl⟩ := mem_pass.mp (List.mem_reverse.mp member)
    rw [supplies?_index other slot (kinds other value chosen)]
    by_cases here : other = slot
    · exact Or.inr (by rw [if_pos here, ← here, chosen])
    · exact Or.inl (if_neg here)
  · cases chosen : choose slot with
    | none => exact Or.inl rfl
    | some value =>
      have listed := mem_pass.mpr ⟨slot, value, chosen, rfl⟩
      refine Or.inr ⟨_, List.mem_reverse.mpr listed, ?_⟩
      rw [supplies?_index slot slot (kinds slot value chosen), if_pos rfl]

end Step

namespace History

theorem lastPut?_slot {steps : List Step} (unpoked : ∀ step ∈ steps, step.pokes = false)
    (slot : Slot) :
    lastPut? steps (.slot slot) =
      (lastSupplied? steps slot).bind fun value => value.fit slot.layout := by
  have newestFirst : ∀ step ∈ steps.reverse, step.pokes = false :=
    fun step member => unpoked step (List.mem_reverse.mp member)
  unfold lastPut? lastSupplied?
  generalize steps.reverse = newest at newestFirst ⊢
  induction newest with
  | nil => rfl
  | cons step earlier ih =>
    have later := ih fun step member => newestFirst step (List.mem_cons_of_mem _ member)
    have calm := newestFirst step List.mem_cons_self
    rw [List.findSome?_cons, List.findSome?_cons, Step.puts?_slot_of_not_pokes calm]
    cases supplied : step.supplies? slot with
    | none => exact later
    | some value =>
      obtain ⟨content, fits⟩ := Step.exists_fit_of_supplies? supplied
      simp [fits]

theorem lastPut?_fixed {steps : List Step} (unpoked : ∀ step ∈ steps, step.pokes = false)
    (fixed : Fixed) : lastPut? steps (.fixed fixed) = none := by
  apply List.findSome?_eq_none_iff.mpr
  intro step member
  exact Step.puts?_fixed_of_not_pokes (unpoked step (List.mem_reverse.mp member)) fixed

end History

namespace Layout

/-- The value that a host passes to bring about the content. -/
def restoring : (layout : Layout) → layout.Content → Value
  | .signed, content => .int content
  | .unsigned, content => .int content.toInt32
  | .double, content => .double content
  | .ownedText, content => .text content
  | .staticText, content => .text (some content)
  | .handle, content => .handle content

theorem kind_restoring (layout : Layout) (content : layout.Content) :
    (layout.restoring content).kind = layout.kind := by
  cases layout <;> rfl

theorem fit_restoring {layout : Layout} {content : layout.Content}
    (owned : layout ≠ .staticText) (terminated : layout.Terminated content) :
    (layout.restoring content).fit layout = some content := by
  cases layout with
  | unsigned => exact congrArg some (UInt32.toUInt32_toInt32 content)
  | ownedText =>
    cases content with
    | none => rfl
    | some bytes =>
      exact congrArg (fun text => some (some text)) (terminated_eq_self (terminated bytes rfl))
  | staticText => exact absurd rfl owned
  | _ => rfl

theorem present_restoring {layout : Layout} {content : layout.Content}
    (there : layout.kind = .text → content ≠ layout.zero) :
    (layout.restoring content).present = true := by
  cases layout with
  | ownedText =>
    cases content with
    | none => exact absurd rfl (there rfl)
    | some bytes => rfl
  | _ => rfl

end Layout

namespace Registry

theorem eq_of_views {first second : Registry}
    (content : ∀ global, first.content global = second.content global)
    (isSet : ∀ slot, first.isSet slot = second.isSet slot)
    (frozen : first.frozen = second.frozen) : first = second := by
  cases first
  cases second
  simp only [mk.injEq]
  exact ⟨funext content, funext isSet, frozen⟩

/-- What is written to a slot at first: what it is to hold, or a placeholder for the text that
it is to lack. -/
def filling (registry : Registry) (slot : Slot) : Option Value :=
  if registry.isSet slot = true then
    some (slot.layout.restoring (registry.content (.slot slot)))
  else if slot.kind = .text then some (.text (some []))
  else none

def clearing (registry : Registry) (slot : Slot) : Option Value :=
  if registry.isSet slot = false ∧ slot.kind = .text then some (.text none) else none

/-- The steps that bring the registry about in a fresh process. -/
def script (registry : Registry) : List Step :=
  Step.pass registry.filling ++ (if registry.frozen then [.freeze] else []) ++
    Step.pass registry.clearing

theorem kind_of_filling {registry : Registry} {slot : Slot} {value : Value}
    (chosen : registry.filling slot = some value) : value.kind = slot.kind := by
  unfold filling at chosen
  split at chosen
  · cases chosen
    exact slot.layout.kind_restoring _
  · split at chosen
    next text => cases chosen; exact text.symm
    next => cases chosen

theorem kind_of_clearing {registry : Registry} {slot : Slot} {value : Value}
    (chosen : registry.clearing slot = some value) : value.kind = slot.kind := by
  unfold clearing at chosen
  split at chosen
  next unset => cases chosen; exact unset.2.symm
  next => cases chosen

theorem mem_script {registry : Registry} {step : Step} (member : step ∈ registry.script) :
    (∃ index value, step = .set index value) ∨ (registry.frozen = true ∧ step = .freeze) := by
  rcases List.mem_append.mp member with earlier | last
  · rcases List.mem_append.mp earlier with first | freezing
    · obtain ⟨slot, value, _, written⟩ := Step.mem_pass.mp first
      exact Or.inl ⟨slot.index, value, written⟩
    · split at freezing
      next frozen => exact Or.inr ⟨frozen, List.mem_singleton.mp freezing⟩
      next => cases freezing
  · obtain ⟨slot, value, _, written⟩ := Step.mem_pass.mp last
    exact Or.inl ⟨slot.index, value, written⟩

theorem lastSupplied?_script (registry : Registry) (slot : Slot) :
    History.lastSupplied? registry.script slot =
      (registry.clearing slot).or (registry.filling slot) := by
  have freezing :
      History.lastSupplied? (if registry.frozen then [.freeze] else []) slot = none := by
    split <;> rfl
  calc
    _ = (History.lastSupplied? (Step.pass registry.clearing) slot).or
        (History.lastSupplied? (Step.pass registry.filling) slot) := by
      rw [script, History.lastSupplied?_append, History.lastSupplied?_append, freezing,
        Option.none_or]
    _ = (registry.clearing slot).or (registry.filling slot) := by
      rw [Step.lastSupplied?_pass fun _ _ => kind_of_clearing,
        Step.lastSupplied?_pass fun _ _ => kind_of_filling]

theorem not_pokes_of_mem_script {registry : Registry} {step : Step}
    (member : step ∈ registry.script) : step.pokes = false := by
  rcases mem_script member with ⟨index, value, written⟩ | ⟨_, freezing⟩
  · rw [written]
    rfl
  · rw [freezing]
    rfl

theorem harmless_of_mem_script {registry : Registry} {step : Step}
    (member : step ∈ registry.script) (other : Registry) : (other.perform step).fatal = none := by
  rcases mem_script member with ⟨index, value, written⟩ | ⟨_, freezing⟩
  · exact fatal_perform_of_ne (by simp [written]) (by simp [written]) other
  · exact fatal_perform_of_ne (by simp [freezing]) (by simp [freezing]) other

end Registry

namespace Process

theorem exit_run_script (start : Process) (registry : Registry) :
    (start.run registry.script).exit = none :=
  exit_run_eq_none fun _ member => Registry.harmless_of_mem_script member

theorem isSet_run_script {registry : Registry} (wellFormed : registry.WellFormed)
    (logger : Option Threshold) (slot : Slot) :
    ((fresh logger).run registry.script).final.registry.isSet slot = registry.isSet slot := by
  rw [isSet_run_fresh_of_survived (exit_run_script _ registry), History.leavesSet,
    Registry.lastSupplied?_script]
  cases set : registry.isSet slot with
  | true =>
    have present := Layout.present_restoring fun text => wellFormed.set_text slot text set
    simp [Registry.clearing, Registry.filling, set, present]
  | false =>
    by_cases text : slot.kind = .text
    · simp [Registry.clearing, set, text, Value.present]
    · simp [Registry.clearing, Registry.filling, set, text]

theorem content_run_script {registry : Registry} (wellFormed : registry.WellFormed)
    (logger : Option Threshold) (global : Global) :
    ((fresh logger).run registry.script).final.registry.content global =
      registry.content global := by
  have unpoked : ∀ step ∈ registry.script, step.pokes = false :=
    fun step member => Registry.not_pokes_of_mem_script member
  rw [content_run_of_survived (exit_run_script _ registry)]
  cases global with
  | fixed fixed =>
    rw [History.lastPut?_fixed unpoked, wellFormed.fixed_initial]
    rfl
  | slot slot =>
    rw [History.lastPut?_slot unpoked, Registry.lastSupplied?_script]
    cases set : registry.isSet slot with
    | true =>
      have fits := Layout.fit_restoring slot.layout_ne_staticText (wellFormed.text_terminated slot)
      simp [Registry.clearing, Registry.filling, set, fits]
    | false =>
      have zero := wellFormed.unset_zero slot set
      by_cases text : slot.kind = .text
      · -- The placeholder that filled the gap is cleared after the freeze.
        obtain ⟨content, fits⟩ :=
          Option.isSome_iff_exists.mp ((Value.fit_isSome_iff (.text none) slot).mpr text.symm)
        have cleared := Value.eq_zero_of_fit fits rfl
        simp [Registry.clearing, set, text, fits, cleared, zero]
      · simp [Registry.clearing, Registry.filling, set, text, zero]
        rfl

/-- The script declares initialization complete if the registry is to be frozen. Nothing is
missing at that point, since only text may be missing in a frozen registry and all gaps in the
text are filled. -/
theorem completes_script_iff {registry : Registry} (wellFormed : registry.WellFormed)
    (logger : Option Threshold) :
    (fresh logger).Completes registry.script ↔ registry.frozen = true := by
  refine ⟨fun completes => ?_, fun frozen => ?_⟩
  · obtain ⟨earlier, step, later, split, _, freezes, _⟩ := completes
    have member : step ∈ registry.script := by simp [split]
    rcases Registry.mem_script member with ⟨index, value, written⟩ | ⟨frozen, _⟩
    · rw [written] at freezes
      cases freezes
    · exact frozen
  · have split : registry.script =
        Step.pass registry.filling ++ .freeze :: Step.pass registry.clearing := by
      simp [Registry.script, frozen]
    have survived : ((fresh logger).run (Step.pass registry.filling)).exit = none := by
      apply exit_run_eq_none
      intro step member
      have listed : step ∈ registry.script := split ▸ List.mem_append_left _ member
      exact Registry.harmless_of_mem_script listed
    refine ⟨_, .freeze, _, split, survived, rfl, Registry.missing_eq_nil_iff.mpr fun slot => ?_⟩
    rw [isSet_run_fresh_of_survived survived, History.leavesSet,
      Step.lastSupplied?_pass fun _ _ => Registry.kind_of_filling]
    cases set : registry.isSet slot with
    | true =>
      have present := Layout.present_restoring fun text => wellFormed.set_text slot text set
      simp [Registry.filling, set, present]
    | false =>
      have text : slot.kind = .text := by
        by_contra other
        rw [wellFormed.frozen_set frozen slot other] at set
        cases set
      simp [Registry.filling, set, text, Value.present]

theorem registry_run_script {registry : Registry} (wellFormed : registry.WellFormed)
    (logger : Option Threshold) :
    ((fresh logger).run registry.script).final.registry = registry := by
  apply Registry.eq_of_views (content_run_script wellFormed logger)
    (isSet_run_script wellFormed logger)
  have unfrozen : (fresh logger).registry.frozen = false := rfl
  rw [Bool.eq_iff_iff, frozen_run_iff, completes_script_iff wellFormed, unfrozen]
  simp

end Process

/-- The registries that runs without pokes and without exit bring about in a fresh process are
exactly the well-formed ones. Even where native code pokes, the set flag of text goes with the
text, text holds no zero byte, and a frozen registry lacks nothing but text. -/
theorem reachable_iff_wellFormed (logger : Option Threshold) :
    (∀ registry : Registry,
      (∃ steps : List Step, (∀ step ∈ steps, step.pokes = false) ∧
        ((Process.fresh logger).run steps).exit = none ∧
        ((Process.fresh logger).run steps).final.registry = registry) ↔ registry.WellFormed) ∧
    (∀ steps : List Step, ((Process.fresh logger).run steps).final.registry.Coupled) := by
  refine ⟨fun registry => ⟨fun reached => ?_, fun wellFormed => ?_⟩, fun steps => ?_⟩
  · obtain ⟨steps, unpoked, _, same⟩ := reached
    rw [← same]
    exact Process.run_invariant (motive := Registry.WellFormed) _
      (fun _ _ calm wellFormed => wellFormed.perform calm) Registry.wellFormed_fresh unpoked
  · exact ⟨registry.script, fun _ member => Registry.not_pokes_of_mem_script member,
      Process.exit_run_script _ registry, Process.registry_run_script wellFormed logger⟩
  · exact Process.run_invariant (motive := Registry.Coupled) (fun _ => True)
      (fun _ step _ coupled => coupled.perform step) Registry.wellFormed_fresh.coupled
      fun _ _ => trivial

end NativeGlobals
