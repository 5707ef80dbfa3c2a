import CommandEngine.Text.Blank
import CommandEngine.Text.Lowercase

/-!
# Outcomes, node states and failure policies

A command that succeeds answers whether the chain it runs in goes on (`proceed`) or stops (`finished`). A node of a
graph run moves from pending to running and ends in one of four terminal states. The failure policy of a scheduler
says whether the dependents of a failed node still run.
-/

namespace CommandEngine

/-- What a command that succeeded tells the chain it runs in. -/
inductive Outcome where
  /-- The next command of the chain runs. -/
  | proceed
  /-- The chain stops here. -/
  | finished
  deriving DecidableEq, Repr, Inhabited

namespace Outcome

/-- `finished` when `stop` holds, `proceed` otherwise. -/
def fromStop (stop : Bool) : Outcome :=
  if stop then .finished else .proceed

/-- Whether the outcome stops a chain. -/
def stops : Outcome → Bool
  | .proceed => false
  | .finished => true

/-- The name of the outcome: `continue` or `finished`. -/
def name : Outcome → String
  | .proceed => "continue"
  | .finished => "finished"

end Outcome

/-- The state of one node in one graph run. -/
inductive NodeState where
  /-- Waiting for predecessors. -/
  | pending
  /-- Handed to a worker. -/
  | running
  | succeeded
  | failed
  /-- Not executed because an upstream node failed and the policy skips dependents. -/
  | skipped
  /-- Not executed because the run was cancelled or the scheduler shut down. -/
  | cancelled
  deriving DecidableEq, Repr, Inhabited

namespace NodeState

/-- Whether the state is final: neither pending nor running. -/
def isTerminal : NodeState → Bool
  | .pending | .running => false
  | _ => true

/-- The lowercase name of the state. -/
def name : NodeState → String
  | .pending => "pending"
  | .running => "running"
  | .succeeded => "succeeded"
  | .failed => "failed"
  | .skipped => "skipped"
  | .cancelled => "cancelled"

/-- All states, in the order in which they are counted. -/
def all : List NodeState :=
  [.pending, .running, .succeeded, .failed, .skipped, .cancelled]

/-- The state with the given lowercase name. -/
def ofName? (s : String) : Option NodeState :=
  all.find? (·.name = s)

end NodeState

/-- What happens to the dependents of a node whose command failed. -/
inductive FailurePolicy where
  /-- The failed node counts as complete and its dependents run as usual. -/
  | runDependents
  /-- Every dependent that has not started is skipped and never executed. -/
  | skipDependents
  deriving DecidableEq, Repr, Inhabited

namespace FailurePolicy

/-- The configuration name of the policy. -/
def name : FailurePolicy → String
  | .runDependents => "continue"
  | .skipDependents => "skip_dependents"

/-- Reads a policy name, ignoring surrounding blanks and case; `skip-dependents` is accepted too. -/
def parse (s : String) : Except String FailurePolicy :=
  let word := Text.lowercase (Text.trim s)
  if word = "continue" then .ok .runDependents
  else if word = "skip_dependents" ∨ word = "skip-dependents" then .ok .skipDependents
  else .error ("invalid failure_policy: " ++ word ++ " (expected \"continue\" or \"skip_dependents\")")

end FailurePolicy

end CommandEngine
