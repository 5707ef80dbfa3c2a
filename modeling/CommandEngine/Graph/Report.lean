import CommandEngine.Outcome
import CommandEngine.Error.Execution

/-!
# Run reports

A graph run ends with a report: for each node, in node order, its final state, the outcome of its command if it
succeeded, the text of its failure if it failed, and when its command started and finished on the run's logical clock;
the failures in the order they were recorded; and whether the run was cancelled.
-/

namespace CommandEngine.Graph

/-- What happened to one node during a run. -/
structure NodeReport where
  name : String
  state : NodeState := .pending
  /-- The outcome of the command, if it succeeded. -/
  outcome : Option Outcome := none
  /-- The logical time at which the command started, if it ran. -/
  startedAt : Option Nat := none
  finishedAt : Option Nat := none
  /-- The failure's text, for a failed node. -/
  error : Option String := none
  deriving Repr, Inhabited

namespace NodeReport

/-- Whether both the start and the end of the command were recorded. -/
def hasDuration (r : NodeReport) : Bool :=
  r.startedAt.isSome && r.finishedAt.isSome

end NodeReport

/-- The per-node record of a whole graph run. -/
structure RunReport where
  nodes : List NodeReport
  failures : List ExecutionError
  cancelled : Bool
  deriving Repr, Inhabited

namespace RunReport

/-- The first node with the given name. -/
def node? (r : RunReport) (name : String) : Option NodeReport :=
  r.nodes.find? (·.name = name)

/-- The state of the first node with the given name. -/
def stateOf? (r : RunReport) (name : String) : Option NodeState :=
  (r.node? name).map (·.state)

/-- The number of nodes in `state`. -/
def countIn (r : RunReport) (state : NodeState) : Nat :=
  (r.nodes.filter (·.state = state)).length

/-- The names of the nodes whose command ran, in order of their start. -/
def executedInOrder (r : RunReport) : List String :=
  ((r.nodes.filter (·.startedAt.isSome)).mergeSort fun a b => a.startedAt.getD 0 ≤ b.startedAt.getD 0).map (·.name)

/-- Whether the run was cancelled. -/
def wasCancelled (r : RunReport) : Bool :=
  r.cancelled

/-- Every node succeeded and the run was not cancelled. -/
def isSuccess (r : RunReport) : Bool :=
  !r.cancelled && r.nodes.all (·.state = .succeeded)

end RunReport

end CommandEngine.Graph
