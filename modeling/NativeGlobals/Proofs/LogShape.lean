import NativeGlobals.Proofs.Freezing
import NativeGlobals.Proofs.Logging

/-! The log of a run from which nothing is left out. It turns at the first freeze: until then it
tells of writes at the level trace, and from then on at the level warn. Each successful
declaration is recorded at the level info, each that is answered by 0 at the level error, and a
fatal failure is the last to be recorded, with the only flush behind it. -/

namespace NativeGlobals

def Entry.isOf (levels : List Level) : Entry → Bool
  | .record level _ => levels.contains level
  | .flush => false

/-- Whether the exchange is a declaration that was answered by 0. -/
def Exchange.declined (exchange : Exchange) : Bool :=
  match exchange.step, exchange.answer with
  | .done, .status code => code == 0
  | _, _ => false

/-- Whether the step leaves the level of a logger at trace. -/
def Step.StaysLoud (step : Step) : Prop :=
  ∀ threshold, step.level? = some threshold → threshold = .upTo .trace

/-- Whether the log of a run that starts frozen or not, and that exits or not, has these parts. In
the first one writes are told at the level trace, and in the second one at the level warn. What
comes between is a record at the level info. -/
structure Turns (frozen exits : Bool) (log opening closing : List Entry) : Prop where
  split : log = opening ++ closing ++ if exits then [.flush] else []
  opening_levels : ∀ entry ∈ opening, entry.isOf [.trace, .error] = true
  closing_levels : ∀ entry ∈ closing, entry.isOf [.warn, .info, .error] = true
  turned : frozen = true → opening = []
  turn : frozen = false → ∀ entry ∈ closing.head?, entry.isOf [.info] = true
  last : exits = true → ∃ earlier words, opening ++ closing = earlier ++ [.record .error words]

namespace Turns

variable {exits : Bool} {log opening closing : List Entry}

theorem early (turns : Turns false exits log opening closing) {entries : List Entry}
    (levels : ∀ entry ∈ entries, entry.isOf [.trace, .error] = true) :
    Turns false exits (entries ++ log) (entries ++ opening) closing where
  split := by rw [turns.split]; simp
  opening_levels entry listed :=
    (List.mem_append.mp listed).elim (levels entry) (turns.opening_levels entry)
  closing_levels := turns.closing_levels
  turned frozen := by cases frozen
  turn := turns.turn
  last ends := by
    obtain ⟨earlier, words, same⟩ := turns.last ends
    exact ⟨entries ++ earlier, words, by simp [same]⟩

theorem late (turns : Turns true exits log opening closing) {frozen : Bool} {entries : List Entry}
    (levels : ∀ entry ∈ entries, entry.isOf [.warn, .info, .error] = true)
    (turn : frozen = false → ∃ entry rest, entries = entry :: rest ∧ entry.isOf [.info] = true) :
    Turns frozen exits (entries ++ log) [] (entries ++ closing) where
  split := by rw [turns.split, turns.turned rfl]; simp
  opening_levels entry listed := by cases listed
  closing_levels entry listed :=
    (List.mem_append.mp listed).elim (levels entry) (turns.closing_levels entry)
  turned _ := rfl
  turn unfrozen entry first := by
    obtain ⟨newest, rest, split, info⟩ := turn unfrozen
    rw [split, List.cons_append, List.head?_cons, Option.mem_some_iff] at first
    exact first ▸ info
  last ends := by
    obtain ⟨earlier, words, same⟩ := turns.last ends
    rw [turns.turned rfl, List.nil_append] at same
    exact ⟨entries ++ earlier, words, by simp [same]⟩

theorem nil (frozen : Bool) : Turns frozen false [] [] [] := by
  constructor <;> simp

theorem exit (frozen : Bool) (words : String) :
    ∃ opening closing, Turns frozen true [.record .error words, .flush] opening closing := by
  cases frozen with
  | false =>
    refine ⟨[.record .error words], [], ?_, ?_, ?_, ?_, ?_, fun _ => ⟨[], words, rfl⟩⟩ <;>
      simp [Entry.isOf]
  | true =>
    refine ⟨[], [.record .error words], ?_, ?_, ?_, ?_, ?_, fun _ => ⟨[], words, rfl⟩⟩ <;>
      simp [Entry.isOf]

end Turns

namespace Registry

theorem notices_perform (registry : Registry) (step : Step) :
    (registry.perform step).notices =
      match step with
      | .set index _ | .call index _ => registry.writeNotices index
      | .freeze | .doneOrExit => if registry.missing = [] then [.frozen] else []
      | .done =>
          if registry.missing = [] then [.frozen]
          else [.failed (.incomplete registry.missing)]
      | _ => [] := by
  cases step with
  | set index value | call index value =>
    cases placed : value.place? index with
    | none => simp [perform, set_of_place?_eq_none placed]
    | some target => simp [perform, set_of_place?_eq_some placed]
  | freeze | done | doneOrExit =>
    by_cases complete : registry.missing = []
    · simp [perform, freeze_of_missing_eq_nil, complete]
    · simp [perform, freeze_of_missing_ne_nil, complete]
  | isSet index => cases located : Slot.ofIndex? index <;> simp [perform, located]
  | checkComplete => cases checked : registry.checkComplete <;> simp [perform, checked]
  | _ => rfl

theorem level_of_mem_writeNotices {registry : Registry} {index : Int32} {notice : Notice}
    (told : notice ∈ registry.writeNotices index) :
    notice.level = if registry.frozen then .warn else .trace := by
  unfold writeNotices at told
  split at told
  next => cases told
  next =>
    cases frozen : registry.frozen <;> simp_all [Notice.level]

theorem level_of_frozen {registry : Registry} {step : Step} (frozen : registry.frozen = true) :
    ∀ notice ∈ (registry.perform step).notices, notice.level ∈ [.warn, .info, .error] := by
  intro notice told
  rw [notices_perform] at told
  split at told
  case h_1 | h_2 => simp [level_of_mem_writeNotices told, frozen]
  case h_3 | h_4 | h_5 => split at told <;> simp_all [Notice.level]
  case h_6 => cases told

theorem level_of_unfrozen {registry : Registry} {step : Step}
    (unfrozen : (registry.perform step).registry.frozen = false) :
    ∀ notice ∈ (registry.perform step).notices, notice.level ∈ [.trace, .error] := by
  intro notice told
  rw [frozen_perform, Bool.or_eq_false_iff] at unfrozen
  rw [notices_perform] at told
  split at told
  case h_1 | h_2 => simp [level_of_mem_writeNotices told, unfrozen.1]
  case h_3 | h_4 | h_5 => split at told <;> simp_all [Notice.level, Step.freezes]
  case h_6 => cases told

theorem notices_of_turn {registry : Registry} {step : Step} (unfrozen : registry.frozen = false)
    (frozen : (registry.perform step).registry.frozen = true) :
    (registry.perform step).notices = [.frozen] := by
  rw [frozen_perform, unfrozen, Bool.false_or, Bool.and_eq_true] at frozen
  have complete := List.isEmpty_iff.mp frozen.2
  rw [notices_perform]
  cases step with
  | freeze | done | doneOrExit => simp [complete]
  | _ => cases frozen.1

theorem countP_writeNotices (registry : Registry) (index : Int32) {level : Level}
    (other : level ∈ [.info, .error]) :
    (registry.writeNotices index).countP (fun notice => notice.level == level) = 0 := by
  rw [List.countP_eq_zero]
  intro notice told
  rw [level_of_mem_writeNotices told]
  cases registry.frozen <;> cases level <;> simp_all

theorem countP_notices_of_fatal {registry : Registry} {step : Step} {failure : Failure}
    (fatal : (registry.perform step).fatal = some failure) {level : Level}
    (other : level ∈ [.info, .error]) :
    (registry.perform step).notices.countP (fun notice => notice.level == level) = 0 := by
  rw [notices_perform]
  rcases cases_of_fatal_perform fatal with ⟨index, value, rfl, _⟩ | ⟨rfl, lacking, _⟩
  · exact registry.countP_writeNotices index other
  · simp [lacking]

theorem countP_info {registry : Registry} {step : Step}
    (harmless : (registry.perform step).fatal = none) :
    (registry.perform step).notices.countP (fun notice => notice.level == .info) =
      if (Exchange.mk step (registry.perform step).answer).froze then 1 else 0 := by
  rw [froze_perform harmless, notices_perform]
  cases step with
  | set index value | call index value => exact registry.countP_writeNotices index (by simp)
  | freeze | done | doneOrExit =>
    by_cases complete : registry.missing = [] <;> simp [complete, Notice.level, Step.freezes]
  | _ => rfl

theorem countP_error (registry : Registry) (step : Step) :
    (registry.perform step).notices.countP (fun notice => notice.level == .error) =
      if (Exchange.mk step (registry.perform step).answer).declined then 1 else 0 := by
  rw [notices_perform]
  cases step with
  | set index value | call index value => exact registry.countP_writeNotices index (by simp)
  | done =>
    by_cases complete : registry.missing = []
    · simp [perform, freeze_of_missing_eq_nil, complete, Notice.level, Exchange.declined]
    · simp [perform, freeze_of_missing_ne_nil, complete, Notice.level, Exchange.declined]
  | freeze | doneOrExit =>
    by_cases complete : registry.missing = [] <;> simp [complete, Notice.level, Exchange.declined]
  | _ => rfl

theorem turns_perform {registry : Registry} {step : Step} {exits : Bool}
    {log opening closing : List Entry}
    (turns : Turns (registry.perform step).registry.frozen exits log opening closing) :
    ∃ opening closing, Turns registry.frozen exits
      ((Threshold.upTo .trace).log (registry.perform step).notices ++ log) opening closing := by
  rw [Threshold.log_trace]
  have levels : ∀ allowed, (∀ notice ∈ (registry.perform step).notices, notice.level ∈ allowed) →
      ∀ entry ∈ (registry.perform step).notices.map
        fun notice => Entry.record notice.level notice.text, entry.isOf allowed = true := by
    intro allowed among entry listed
    obtain ⟨notice, told, same⟩ := List.mem_map.mp listed
    simpa [← same, Entry.isOf] using among notice told
  cases after : (registry.perform step).registry.frozen with
  | false =>
    have before : registry.frozen = false := by
      rw [frozen_perform, Bool.or_eq_false_iff] at after
      exact after.1
    rw [after] at turns
    rw [before]
    exact ⟨_, _, turns.early (levels _ (level_of_unfrozen after))⟩
  | true =>
    rw [after] at turns
    cases before : registry.frozen with
    | true => exact ⟨_, _, turns.late (levels _ (level_of_frozen before)) (by simp)⟩
    | false =>
      -- The step is the first freeze, and its record opens the second part.
      have turning := notices_of_turn before after
      refine ⟨_, _, turns.late ?_ fun _ => ?_⟩
      · simp [turning, Entry.isOf, Notice.level]
      · exact ⟨_, [], by rw [turning]; rfl, rfl⟩

end Registry

theorem Threshold.countP_log_trace (notices : List Notice) (level : Level) :
    ((upTo .trace).log notices).countP (Entry.isOf [level]) =
      notices.countP fun notice => notice.level == level := by
  rw [log_trace, List.countP_map]
  congr 1
  funext notice
  simp [Entry.isOf, beq_eq_decide]

namespace Process

variable {start : Process} {step : Step} {steps : List Step}

theorem threshold_of_loud (loud : start.logger = some (.upTo .trace)) :
    start.threshold = .upTo .trace := by
  simp [Process.threshold, loud]

theorem loud_of_step_eq_ok (loud : start.logger = some (.upTo .trace)) (stays : step.StaysLoud)
    {transition : Transition} (survived : start.step step = .ok transition) :
    transition.process.logger = some (.upTo .trace) ∧
      transition.log = (Threshold.upTo .trace).log (start.registry.perform step).notices := by
  refine ⟨?_, ?_⟩
  · rw [logger_of_step_eq_ok survived, loud, Option.map_some]
    cases levels : step.level? with
    | none => rfl
    | some threshold => rw [stays threshold levels, Option.getD_some]
  · rw [log_of_step_eq_ok survived, log_prepare, threshold_of_loud loud]

theorem loud_of_step_eq_error (loud : start.logger = some (.upTo .trace)) {exit : Exit}
    (ended : start.step step = .error exit) :
    ∃ failure words, (start.registry.perform step).fatal = some failure ∧
      exit.log = (Threshold.upTo .trace).log (start.registry.perform step).notices ++
        [.record .error words, .flush] := by
  obtain ⟨failure, fatal⟩ := exists_fatal_of_step_eq_error ended
  obtain ⟨same, fell, _, reports⟩ := exists_reports_of_fatal fatal
  rw [ended] at fell
  cases fell
  rw [threshold_of_loud loud, Exit.Reports, if_pos (Threshold.admits_trace _)] at reports
  exact ⟨failure, failure.message, fatal, reports.1⟩

theorem turns_logged (loud : start.logger = some (.upTo .trace))
    (stays : ∀ step ∈ steps, step.StaysLoud) :
    ∃ opening closing, Turns start.registry.frozen (start.run steps).exit.isSome
      (start.logged steps) opening closing := by
  induction steps generalizing start with
  | nil => exact ⟨[], [], Turns.nil _⟩
  | cons step later ih =>
    cases taken : start.step step with
    | ok transition =>
      obtain ⟨still, log⟩ := loud_of_step_eq_ok loud (stays step List.mem_cons_self) taken
      obtain ⟨opening, closing, turns⟩ := ih still fun step member =>
        stays step (List.mem_cons_of_mem _ member)
      rw [(of_step_eq_ok taken).2.1] at turns
      rw [logged_cons_of_ok taken, exit_run_cons taken, log]
      exact Registry.turns_perform turns
    | error exit =>
      obtain ⟨failure, words, _, log⟩ := loud_of_step_eq_error loud taken
      obtain ⟨opening, closing, turns⟩ :=
        Turns.exit (start.registry.perform step).registry.frozen words
      rw [logged_cons_of_error taken, run_cons_of_error taken, log]
      exact Registry.turns_perform turns

theorem countP_logged (loud : start.logger = some (.upTo .trace))
    (stays : ∀ step ∈ steps, step.StaysLoud) {level : Level} (other : level ∈ [.info, .error])
    {makes : Exchange → Bool}
    (made : ∀ registry step, (Registry.perform registry step).fatal = none →
      (registry.perform step).notices.countP (fun notice => notice.level == level) =
        if makes ⟨step, (registry.perform step).answer⟩ then 1 else 0) :
    (start.logged steps).countP (Entry.isOf [level]) =
      (start.exchanges steps).countP makes +
        if (start.run steps).exit.isSome ∧ level = .error then 1 else 0 := by
  induction steps generalizing start with
  | nil => rfl
  | cons step later ih =>
    cases taken : start.step step with
    | ok transition =>
      obtain ⟨still, log⟩ := loud_of_step_eq_ok loud (stays step List.mem_cons_self) taken
      obtain ⟨harmless, _, answer⟩ := of_step_eq_ok taken
      have rest := ih still fun step member => stays step (List.mem_cons_of_mem _ member)
      rw [logged_cons_of_ok taken, exit_run_cons taken, exchanges_cons_of_ok taken, log,
        List.countP_append, Threshold.countP_log_trace, made start.registry step harmless, rest,
        List.countP_cons, answer]
      omega
    | error exit =>
      obtain ⟨failure, words, fatal, log⟩ := loud_of_step_eq_error loud taken
      rw [logged_cons_of_error taken, run_cons_of_error taken, exchanges_cons_of_error taken, log,
        List.countP_append, Threshold.countP_log_trace,
        Registry.countP_notices_of_fatal fatal other]
      simp [Entry.isOf, List.countP_cons, eq_comm]

theorem countP_info_logged (loud : start.logger = some (.upTo .trace))
    (stays : ∀ step ∈ steps, step.StaysLoud) :
    (start.logged steps).countP (Entry.isOf [.info]) =
      (start.exchanges steps).countP Exchange.froze := by
  rw [countP_logged loud stays (by simp) fun _ _ harmless => Registry.countP_info harmless]
  simp

theorem countP_error_logged (loud : start.logger = some (.upTo .trace))
    (stays : ∀ step ∈ steps, step.StaysLoud) :
    (start.logged steps).countP (Entry.isOf [.error]) =
      (start.exchanges steps).countP Exchange.declined +
        if (start.run steps).exit.isSome then 1 else 0 := by
  rw [countP_logged loud stays (by simp) fun registry step _ => registry.countP_error step]
  simp

theorem frozen_iff_info (survived : ((fresh (some (.upTo .trace))).run steps).exit = none)
    (stays : ∀ step ∈ steps, step.StaysLoud) :
    ((fresh (some (.upTo .trace))).run steps).final.registry.frozen = true ↔
      ∃ entry ∈ ((fresh (some (.upTo .trace))).run steps).log, entry.isOf [.info] = true := by
  rw [← logged_of_survived survived, ← List.countP_pos_iff, countP_info_logged rfl stays,
    (frozenBy_run_fresh _ steps).frozen_eq]
  simp [List.countP_pos_iff]

theorem log_eq_nil_of_refused {transition : Transition}
    (survived : start.step step = .ok transition)
    (refused : step = .checkComplete ∨
      (step = .freeze ∧ ∃ failure, transition.answer = .rejected failure)) :
    transition.log = [] := by
  have silent : (start.registry.perform step).notices = [] := by
    rw [Registry.notices_perform]
    rcases refused with rfl | ⟨rfl, failure, rejected⟩
    · rfl
    · have lacking : start.registry.missing ≠ [] :=
        (answers_freeze_rejected_iff.mp ⟨transition, survived, rejected⟩).1
      simp [lacking]
  rw [log_of_step_eq_ok survived, silent]
  rfl

end Process

/-- The log of a run from which nothing is left out turns at the first freeze, and a flush closes
it exactly if the run exits. The registry is frozen exactly if a record at the level info was made.
There is one for each declaration that succeeded, and one at the level error for each that was
answered by 0 and for an exit. A check and a freeze that is refused are not told. -/
theorem log_turns_at_first_freeze {steps : List Step} (stays : ∀ step ∈ steps, step.StaysLoud) :
    let start := Process.fresh (some (.upTo .trace))
    let exits := (start.run steps).exit.isSome
    (∃ opening closing, Turns false exits (start.logged steps) opening closing) ∧
    (∀ earlier, earlier <+: steps → (start.run earlier).exit = none →
      ((start.run earlier).final.registry.frozen = true ↔
        ∃ entry ∈ (start.run earlier).log, entry.isOf [.info] = true)) ∧
    (start.logged steps).countP (Entry.isOf [.info]) =
      (start.exchanges steps).countP Exchange.froze ∧
    (start.logged steps).countP (Entry.isOf [.error]) =
      (start.exchanges steps).countP Exchange.declined + (if exits then 1 else 0) ∧
    (∀ (process : Process) (step : Step) (transition : Transition),
      process.step step = .ok transition → (step = .checkComplete ∨
        (step = .freeze ∧ ∃ failure, transition.answer = .rejected failure)) →
          transition.log = []) := by
  intro start exits
  have loud : start.logger = some (.upTo .trace) := rfl
  refine ⟨start.turns_logged loud stays, ?_, Process.countP_info_logged loud stays,
    Process.countP_error_logged loud stays, ?_⟩
  · intro earlier listed survived
    exact Process.frozen_iff_info survived fun step member => stays step (listed.subset member)
  · intro process step transition survived refused
    exact Process.log_eq_nil_of_refused survived refused

theorem log_turns_before_exit :
    let steps := Step.fill Slot.all ++
      [.level (.upTo .trace), .freeze, .set 0 (.text none), .done, .doneOrExit]
    let start := Process.fresh (some (.upTo .trace))
    (∀ step ∈ steps, step.StaysLoud) ∧
      (∃ opening closing, Turns false true (start.logged steps) opening closing) ∧
      (start.logged steps).countP (Entry.isOf [.info]) = 1 ∧
      (start.logged steps).countP (Entry.isOf [.error]) = 2 := by
  intro steps start
  have stays : ∀ step ∈ steps, step.StaysLoud := by
    intro step member threshold levels
    rcases List.mem_append.mp member with filled | listed
    · obtain ⟨slot, _, rfl⟩ := List.mem_map.mp filled
      cases levels
    · simp only [List.mem_cons, List.not_mem_nil, or_false] at listed
      rcases listed with rfl | rfl | rfl | rfl | rfl <;> cases levels
      rfl
  have exits : (start.run steps).exit.isSome = true := by decide +kernel
  have froze : (start.exchanges steps).countP Exchange.froze = 1 := by decide +kernel
  have declined : (start.exchanges steps).countP Exchange.declined = 1 := by decide +kernel
  -- The rest follows for any steps that do so, and the run is not evaluated again.
  clear_value steps
  obtain ⟨turns, _, info, error, _⟩ := log_turns_at_first_freeze stays
  rw [exits] at turns error
  exact ⟨stays, turns, info.trans froze, error.trans (by rw [declined]; rfl)⟩

end NativeGlobals
