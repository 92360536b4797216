import NativeGlobals.Step

/-! A process around the registry: a logger with its threshold, or none, and the buffer
in which the host passes text. The logger hears of what happens and has no say in it,
except that a fatal failure goes to standard error when the logger would not record it. -/

namespace NativeGlobals

structure Process where
  registry : Registry
  logger : Option Threshold
  buffer : Bytes

/-- The end of a process: what was still logged, and all it wrote to standard error. -/
structure Exit where
  status : Int32
  log : List Entry
  stderr : String
  deriving DecidableEq

structure Transition where
  process : Process
  answer : Answer
  log : List Entry

/-- The steps of a run that were survived, the process after the last of them, and how
the next step ended it, if one did. -/
structure Run where
  trace : List Transition
  final : Process
  exit : Option Exit

namespace Process

def fresh (logger : Option Threshold) : Process where
  registry := .fresh
  logger := logger
  buffer := []

def threshold (process : Process) : Threshold := process.logger.getD .off

/-- What the host does before the registry sees a step: it loads its buffer with the text
it is about to pass, or resets the logger. -/
def prepare (process : Process) : Step → Process
  | .call _ (.text (some bytes)) => { process with buffer := bytes }
  | .overwrite bytes => { process with buffer := bytes }
  | .level threshold => { process with logger := process.logger.map fun _ => threshold }
  | _ => process

/-- The step as the registry sees it: text that is passed is what stands in the buffer. -/
def deliver (process : Process) : Step → Step
  | .call index (.text (some _)) => .call index (.text (some process.buffer))
  | step => step

def fail (process : Process) (failure : Failure) (log : List Entry) : Exit :=
  if process.threshold.admits .error then
    { status := 1, log := log ++ [.record .error failure.message, .flush], stderr := "" }
  else
    { status := 1, log, stderr := failure.message ++ "\n" }

def step (process : Process) (step : Step) : Except Exit Transition :=
  let ready := process.prepare step
  let effect := ready.registry.perform (ready.deliver step)
  let log := ready.threshold.log effect.notices
  match effect.fatal with
  | some failure => .error (ready.fail failure log)
  | none => .ok ⟨{ ready with registry := effect.registry }, effect.answer, log⟩

def run : Process → List Step → Run
  | process, [] => { trace := [], final := process, exit := none }
  | process, step :: later =>
      match process.step step with
      | .error exit => { trace := [], final := process, exit := some exit }
      | .ok transition =>
          let rest := transition.process.run later
          { rest with trace := transition :: rest.trace }

theorem deliver_prepare (process : Process) (step : Step) :
    (process.prepare step).deliver step = step := by
  cases step with
  | call index value =>
    cases value with
    | text bytes => cases bytes <;> rfl
    | _ => rfl
  | _ => rfl

theorem registry_prepare (process : Process) (step : Step) :
    (process.prepare step).registry = process.registry := by
  unfold prepare
  split <;> rfl

theorem run_cons_of_error {process : Process} {step : Step} {exit : Exit}
    (ended : process.step step = .error exit) (later : List Step) :
    process.run (step :: later) = { trace := [], final := process, exit := some exit } := by
  simp only [run, ended]

theorem run_cons_of_ok {process : Process} {step : Step} {transition : Transition}
    (survived : process.step step = .ok transition) (later : List Step) :
    process.run (step :: later) =
      { transition.process.run later with
        trace := transition :: (transition.process.run later).trace } := by
  simp only [run, survived]

theorem exists_step_of_survived {process : Process} {step : Step} {later : List Step}
    (survived : (process.run (step :: later)).exit = none) :
    ∃ transition, process.step step = .ok transition ∧
      (transition.process.run later).exit = none := by
  cases taken : process.step step with
  | error exit =>
    rw [run_cons_of_error taken] at survived
    cases survived
  | ok transition =>
    rw [run_cons_of_ok taken] at survived
    exact ⟨transition, rfl, survived⟩

theorem run_append {process : Process} {first : List Step}
    (survived : (process.run first).exit = none) (second : List Step) :
    process.run (first ++ second) =
      { (process.run first).final.run second with
        trace := (process.run first).trace ++ ((process.run first).final.run second).trace } := by
  induction first generalizing process with
  | nil => rfl
  | cons step rest ih =>
    obtain ⟨transition, taken, onward⟩ := exists_step_of_survived survived
    rw [List.cons_append, run_cons_of_ok taken, run_cons_of_ok taken, ih onward]
    rfl

end Process

def Run.log (run : Run) : List Entry := run.trace.flatMap Transition.log

end NativeGlobals
