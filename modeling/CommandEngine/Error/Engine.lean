import CommandEngine.Error.Execution
import CommandEngine.Graph.Report
import CommandEngine.Toml.Error
import CommandEngine.Files

/-!
# Engine errors and command failures

`EngineError` lists every way an engine call fails, and `EngineError.message` gives each its text. A command that does
not succeed fails with a `Fault`: a plain text, an engine error, or an execution error passed on unchanged.

The engine wraps a fault exactly once (`ExecutionError.ofFault`): a fault that already is an execution error, bare or
inside an engine error, is kept as it is, so the innermost failing command stays the reported one however deeply chains
nest; any other fault is wrapped with the name of the command that raised it and the context's keys.
-/

namespace CommandEngine

/-- Every way an engine call fails. -/
inductive EngineError where
  | invalidState (detail : String)
  | invalidArgument (detail : String)
  /-- The edge from `upstream` to `downstream` closes a cycle. -/
  | cycleDetected (upstream downstream : String)
  | execution (e : ExecutionError)
  /-- Some nodes of a graph run failed; the report no longer holds the failures. -/
  | graphFailed (failures : List ExecutionError) (report : Graph.RunReport)
  | cancelled (report : Graph.RunReport)
  | schedulerShutdown
  | stalled (node : String)
  | config (detail : String)
  | io (e : IoError)
  | toml (e : Toml.Error)
  deriving Repr, Inhabited

namespace EngineError

/-- The text of the error. -/
def message : EngineError → String
  | .invalidState d => "Invalid state: " ++ d
  | .invalidArgument d => "Invalid argument: " ++ d
  | .cycleDetected u d => "Cycle detected in dependency graph: edge '" ++ u ++ "' -> '" ++ d ++ "' closes a cycle"
  | .execution e => e.message
  | .graphFailed fs _ =>
    "Graph run failed: " ++ toString fs.length ++ " node(s) failed (" ++ "; ".intercalate (fs.map (·.message)) ++ ")"
  | .cancelled _ => "Graph run was cancelled before all nodes were submitted"
  | .schedulerShutdown => "Scheduler has been shut down"
  | .stalled n => "Graph run stalled: node '" ++ n ++ "' never became ready"
  | .config d => "Configuration error: " ++ d
  | .io e => "IO error: " ++ e.message
  | .toml e => "TOML parsing error: " ++ e.render

/-- The report attached to a failed or cancelled graph run. -/
def report? : EngineError → Option Graph.RunReport
  | .graphFailed _ r | .cancelled r => some r
  | _ => none

end EngineError

/-- How a command fails. -/
inductive Fault where
  /-- A failure known only by its text. -/
  | text (message : String)
  | engine (e : EngineError)
  /-- An execution error passed on as it is. -/
  | execution (e : ExecutionError)
  deriving Repr, Inhabited

namespace Fault

/-- The text of the fault. -/
def message : Fault → String
  | .text m => m
  | .engine e => e.message
  | .execution e => e.message

end Fault

/-- The execution error that reports the fault `f` of the command `command`, given the context's keys. -/
def ExecutionError.ofFault (command : String) (keys : List String) : Fault → ExecutionError
  | .execution e => e
  | .engine (.execution e) => e
  | .engine other => ⟨command, keys, other.message⟩
  | .text m => ⟨command, keys, m⟩

/-- The end of a call that returns a value, fails with an engine error, or aborts with a panic. -/
inductive Attempt (α : Type) where
  | ok (value : α)
  | error (e : EngineError)
  | panic (message : String)
  deriving Repr

namespace Graph.RunReport

/-- The result a run's report gives its caller: a cancelled run fails as cancelled, whatever else happened; otherwise
failures fail the run and are moved out of the report; otherwise the run finished. -/
def intoOutcome (r : RunReport) : Except EngineError Outcome :=
  if r.cancelled then .error (.cancelled r)
  else if r.failures.isEmpty then .ok .finished
  else .error (.graphFailed r.failures { r with failures := [] })

end Graph.RunReport

end CommandEngine
