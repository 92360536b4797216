import NativeGlobals.Session
import NativeGlobals.Proofs.FatalExit
import NativeGlobals.Proofs.Reachable

/-! The views that a host has of completeness: the list of missing slots, the questions about a
single slot, and the declarations. All of them agree in every state, and a declaration that is
refused leaves the process as it was. -/

namespace NativeGlobals

def Slot.Increasing (slots : List Slot) : Prop :=
  slots.Pairwise fun earlier later => earlier.position < later.position

namespace Process

def sealed (process : Process) : Process :=
  { process with registry := { process.registry with frozen := true } }

/-- What the process comes to with a declaration that lacks these slots. The check, the freeze and
the one that only logs a refusal leave it as it is, and the last one ends it. All of them speak of
the same failure. -/
structure Declines (process : Process) (lacking : List Slot) : Prop where
  checkComplete : process.step .checkComplete = .ok ⟨process, .rejected (.incomplete lacking), []⟩
  freeze : process.step .freeze = .ok ⟨process, .rejected (.incomplete lacking), []⟩
  done : process.step .done = .ok ⟨process, .status 0,
    if process.threshold.admits .error then
      [.record .error (Failure.incomplete lacking).message]
    else []⟩
  doneOrExit : ∃ exit, process.step .doneOrExit = .error exit ∧ exit.status = 1 ∧
    exit.Reports process.threshold [] (Failure.incomplete lacking).message

/-- What the process comes to with a declaration that lacks nothing. The check leaves it as it is,
and the others do no more than to freeze its registry. -/
structure Complies (process : Process) : Prop where
  checkComplete : process.step .checkComplete = .ok ⟨process, .accepted, []⟩
  freeze : process.step .freeze =
    .ok ⟨process.sealed, .accepted, process.threshold.log [.frozen]⟩
  done : process.step .done =
    .ok ⟨process.sealed, .status 1, process.threshold.log [.frozen]⟩
  doneOrExit : process.step .doneOrExit =
    .ok ⟨process.sealed, .nothing, process.threshold.log [.frozen]⟩

end Process

namespace Slot.Increasing

variable {first second : List Slot}

theorem all : Increasing Slot.all :=
  List.pairwise_map.mpr (List.pairwise_lt_finRange _)

theorem nodup (increasing : Increasing first) : first.Nodup :=
  increasing.imp fun before same => Fin.ne_of_lt before (congrArg Slot.position same)

theorem eq_of_mem_iff (increasing : Increasing first) (other : Increasing second)
    (same : ∀ slot, slot ∈ first ↔ slot ∈ second) : first = second := by
  have shuffled : first.Perm second :=
    (List.perm_ext_iff_of_nodup increasing.nodup other.nodup).mpr same
  exact shuffled.eq_of_pairwise
    (fun _ _ _ _ before after => absurd before (Fin.lt_asymm after)) increasing other

end Slot.Increasing

theorem Registry.missing_increasing (registry : Registry) : Slot.Increasing registry.missing :=
  Slot.Increasing.all.sublist List.filter_sublist

theorem Threshold.log_singleton (threshold : Threshold) (notice : Notice) :
    threshold.log [notice] =
      if threshold.admits notice.level then [.record notice.level notice.text] else [] := by
  unfold log
  split
  next admitted => simp [admitted]
  next withheld => simp [withheld]

namespace Process

variable {process : Process}

theorem step_eq_of_perform {step : Step} {effect : Effect}
    (steady : process.prepare step = process)
    (performed : process.registry.perform step = effect) (harmless : effect.fatal = none) :
    process.step step = .ok ⟨{ process with registry := effect.registry }, effect.answer,
      process.threshold.log effect.notices⟩ := by
  subst performed
  rw [step_of_fatal_eq_none harmless, steady]

theorem declines (lacking : process.registry.missing ≠ []) :
    process.Declines process.registry.missing where
  checkComplete := by
    have performed : process.registry.perform .checkComplete =
        { registry := process.registry,
          answer := .rejected (.incomplete process.registry.missing) } := by
      simp [Registry.perform, Registry.checkComplete_of_missing_ne_nil lacking]
    exact step_eq_of_perform rfl performed rfl
  freeze := by
    have performed : process.registry.perform .freeze =
        { registry := process.registry,
          answer := .rejected (.incomplete process.registry.missing) } := by
      simp [Registry.perform, Registry.freeze_of_missing_ne_nil lacking]
    exact step_eq_of_perform rfl performed rfl
  done := by
    have performed : process.registry.perform .done =
        { registry := process.registry, answer := .status 0,
          notices := [.failed (.incomplete process.registry.missing)] } := by
      simp [Registry.perform, Registry.freeze_of_missing_ne_nil lacking]
    rw [step_eq_of_perform rfl performed rfl, Threshold.log_singleton]
    rfl
  doneOrExit := by
    have performed : process.registry.perform .doneOrExit =
        { registry := process.registry,
          fatal := some (.incomplete process.registry.missing) } := by
      simp [Registry.perform, Registry.freeze_of_missing_ne_nil lacking]
    have fatal : (process.registry.perform .doneOrExit).fatal =
        some (.incomplete process.registry.missing) := by rw [performed]
    have reported := exists_reports_of_fatal fatal
    rw [performed] at reported
    exact reported

theorem complies (complete : process.registry.missing = []) : process.Complies where
  checkComplete := by
    have performed : process.registry.perform .checkComplete =
        { registry := process.registry, answer := .accepted } := by
      simp [Registry.perform, Registry.checkComplete_of_missing_eq_nil complete]
    exact step_eq_of_perform rfl performed rfl
  freeze := by
    have performed : process.registry.perform .freeze =
        { registry := process.sealed.registry, answer := .accepted, notices := [.frozen] } := by
      simp [Registry.perform, Registry.freeze_of_missing_eq_nil complete, sealed]
    exact step_eq_of_perform rfl performed rfl
  done := by
    have performed : process.registry.perform .done =
        { registry := process.sealed.registry, answer := .status 1, notices := [.frozen] } := by
      simp [Registry.perform, Registry.freeze_of_missing_eq_nil complete, sealed]
    exact step_eq_of_perform rfl performed rfl
  doneOrExit := by
    have performed : process.registry.perform .doneOrExit =
        { registry := process.sealed.registry, notices := [.frozen] } := by
      simp [Registry.perform, Registry.freeze_of_missing_eq_nil complete, sealed]
    exact step_eq_of_perform rfl performed rfl

theorem answers_missing (process : Process) :
    process.Answers .missing (.slots process.registry.missing) :=
  answers_iff.mpr ⟨rfl, rfl⟩

theorem answers_has_iff {slot : Slot} {flag : Bool} :
    process.Answers (.has slot) (.flag flag) ↔
      (flag = false ↔ slot ∈ process.registry.missing) := by
  rw [answers_iff, Registry.mem_missing]
  cases flag <;> simp [Registry.perform]

theorem answers_isSet_iff {slot : Slot} {flag : Bool} :
    process.Answers (.isSet slot.index) (.flag flag) ↔
      (flag = false ↔ slot ∈ process.registry.missing) := by
  have located := Slot.ofIndex?_eq_some_iff.mpr slot.toInt_index
  rw [answers_iff, Registry.mem_missing]
  cases flag <;> simp [Registry.perform, located]

theorem answers_checkComplete_accepted_iff :
    process.Answers .checkComplete .accepted ↔ process.registry.missing = [] := by
  by_cases complete : process.registry.missing = []
  · have checked := (complies complete).checkComplete
    simp [Answers, checked, complete]
  · have checked := (declines complete).checkComplete
    simp [Answers, checked, complete]

theorem exists_step_doneOrExit_iff :
    (∃ transition, process.step .doneOrExit = .ok transition) ↔ process.registry.missing = [] := by
  by_cases complete : process.registry.missing = []
  · simp [(complies complete).doneOrExit, complete]
  · obtain ⟨exit, ended, _⟩ := (declines complete).doneOrExit
    simp [ended, complete]

end Process

/-- In every state a host gets the same verdict however it asks. The list of missing slots is in
index order and holds exactly the slots of which it is told one by one that they are not set. The
list is empty exactly if the check passes, if a freeze succeeds, if a declaration is answered by 1,
and if the one on pain of exit comes back. Otherwise all of them speak of this very list, and
nothing changes. If it is empty, nothing changes but that a declaration freezes the registry. -/
theorem views_of_completeness_agree (process : Process) :
    let missing := process.registry.missing
    process.Answers .missing (.slots missing) ∧ Slot.Increasing missing ∧
    (∀ slot flag,
      (process.Answers (.isSet slot.index) (.flag flag) ↔ (flag = false ↔ slot ∈ missing)) ∧
      (process.Answers (.has slot) (.flag flag) ↔ (flag = false ↔ slot ∈ missing))) ∧
    (process.Answers .checkComplete .accepted ↔ missing = []) ∧
    (process.Answers .freeze .accepted ↔ missing = []) ∧
    (process.Answers .done (.status 1) ↔ missing = []) ∧
    ((∃ transition, process.step .doneOrExit = .ok transition) ↔ missing = []) ∧
    (missing ≠ [] → process.Declines missing) ∧
    (missing = [] → process.Complies) := by
  intro missing
  refine ⟨process.answers_missing, process.registry.missing_increasing, fun slot flag => ?_,
    Process.answers_checkComplete_accepted_iff, Process.answers_freeze_accepted_iff, ?_,
    Process.exists_step_doneOrExit_iff, Process.declines, Process.complies⟩
  · exact ⟨Process.answers_isSet_iff, Process.answers_has_iff⟩
  · rw [Process.answers_done_iff]
    by_cases complete : process.registry.missing = [] <;> simp [missing, complete]

theorem views_agree_on_cleared_home :
    let filled := ((Process.fresh (some (.upTo .error))).run (Step.fill Slot.all)).final
    let cleared := (filled.run [.freeze, .set 0 (.text none)]).final
    filled.Complies ∧ cleared.registry.frozen = true ∧
      cleared.registry.missing.map Slot.name = ["R_Home"] ∧
      cleared.Declines cleared.registry.missing := by
  intro filled cleared
  have complete : filled.registry.missing = [] := by decide +kernel
  have frozen : cleared.registry.frozen = true := by decide +kernel
  have named : cleared.registry.missing.map Slot.name = ["R_Home"] := by decide +kernel
  -- The rest follows for any two processes like these, so the runs are not evaluated again.
  clear_value cleared filled
  obtain ⟨_, _, _, _, _, _, _, _, complies⟩ := views_of_completeness_agree filled
  obtain ⟨_, _, _, _, _, _, _, declines, _⟩ := views_of_completeness_agree cleared
  refine ⟨complies complete, frozen, named, declines fun nothing => ?_⟩
  rw [nothing] at named
  cases named

end NativeGlobals
