import CommandEngine.Graph.Validated

/-!
# The state of one graph run

For each node, the run keeps how many of its predecessors have not settled and the node's state. When a node settles,
each edge out of it is settled once: a dependent whose last predecessor settled becomes ready, unless the node failed
under the policy that skips dependents, in which case the dependent, and in turn its own pending dependents, are
skipped. Settling a node that is already terminal changes nothing.
-/

namespace CommandEngine.Graph

/-- The per-node counters and states of a run. -/
structure RunState where
  pending : Array Nat
  states : Array NodeState
  dependents : Array (List Nat)
  policy : FailurePolicy
  deriving Repr, Inhabited

/-- What settling one node brought about. -/
structure SettleStep where
  /-- The nodes whose last predecessor just settled, in the order they became ready. -/
  ready : List Nat := []
  /-- The nodes newly skipped because of an upstream failure. -/
  skipped : List Nat := []
  deriving Repr, Inhabited

namespace RunState

/-- The state at the start of a run of `g`: every node pending, counting all its predecessors. -/
def start (g : ValidatedGraph) (policy : FailurePolicy) : RunState where
  pending := g.inDegree
  states := Array.replicate g.size .pending
  dependents := (g.graph.indices.map g.graph.succ).toArray
  policy

/-- The state of node `v`. -/
def stateOf (s : RunState) (v : Nat) : NodeState :=
  s.states.getD v .pending

/-- Writing one state changes the state of that node, if it is a node of the run, and of no other. -/
theorem stateOf_setIfInBounds (s : RunState) (v u : Nat) (st : NodeState) :
    ({ s with states := s.states.setIfInBounds v st } : RunState).stateOf u =
      if v = u ∧ v < s.states.size then st else s.stateOf u := by
  simp only [stateOf, Array.getD_eq_getD_getElem?, Array.getElem?_setIfInBounds]
  by_cases h : v = u
  · subst h
    by_cases hv : v < s.states.size <;> simp [hv]
  · simp [h]

/-- Node `v` is handed to a worker. -/
def markRunning (s : RunState) (v : Nat) : RunState :=
  { s with states := s.states.setIfInBounds v .running }

/-- Handing a node to a worker makes it running and leaves every other node as it was. -/
theorem stateOf_markRunning (s : RunState) (v u : Nat) :
    (s.markRunning v).stateOf u = if v = u ∧ v < s.states.size then .running else s.stateOf u :=
  stateOf_setIfInBounds s v u .running

/-- Settles one edge into `dep`; `skip` says whether the edge comes from a failure that skips dependents. Gives the
updated step and whether `dep` was newly skipped. -/
def settleEdge (skip : Bool) (s : RunState) (step : SettleStep) (dep : Nat) : RunState × SettleStep × Bool :=
  let left := s.pending.getD dep 0
  if left = 0 then (s, step, false)
  else
    let s := { s with pending := s.pending.setIfInBounds dep (left - 1) }
    if s.stateOf dep ≠ .pending then (s, step, false)
    else if skip then
      ({ s with states := s.states.setIfInBounds dep .skipped }, { step with skipped := step.skipped ++ [dep] }, true)
    else if left - 1 = 0 then (s, { step with ready := step.ready ++ [dep] }, false)
    else (s, step, false)

/-- Settles the edges into `deps` in order; gives the nodes newly skipped, in that order. -/
def settleEdges (skip : Bool) : List Nat → RunState → SettleStep → RunState × SettleStep × List Nat
  | [], s, step => (s, step, [])
  | dep :: rest, s, step =>
    let (s, step, pushed) := settleEdge skip s step dep
    let (s, step, more) := settleEdges skip rest s step
    (s, step, if pushed then dep :: more else more)

/-- Settles the edges out of the nodes of the work stack `work` (top first) until it is empty. -/
def drain (skip : Bool) : Nat → List Nat → RunState → SettleStep → RunState × SettleStep
  | 0, _, s, step => (s, step)
  | _ + 1, [], s, step => (s, step)
  | fuel + 1, v :: rest, s, step =>
    let (s, step, pushed) := settleEdges skip (s.dependents.getD v []) s step
    drain skip fuel (pushed.reverse ++ rest) s step

/-- Records that node `v` finished executing, successfully or not, and settles what follows from it. -/
def complete (s : RunState) (v : Nat) (succeeded : Bool) : RunState × SettleStep :=
  if (s.stateOf v).isTerminal then (s, {})
  else
    let s := { s with states := s.states.setIfInBounds v (if succeeded then .succeeded else .failed) }
    let skip := !succeeded && s.policy = .skipDependents
    drain skip (s.states.size + 1) [v] s {}

/-- Marks a node that never started as cancelled, unless it is terminal. -/
def cancel (s : RunState) (v : Nat) : RunState :=
  if (s.stateOf v).isTerminal then s else { s with states := s.states.setIfInBounds v .cancelled }

/-- Cancelling a node cancels it only if it is not terminal, and leaves every other node as it was. -/
theorem stateOf_cancel (s : RunState) (v u : Nat) :
    (s.cancel v).stateOf u =
      if v = u ∧ v < s.states.size ∧ (s.stateOf v).isTerminal = false then .cancelled else s.stateOf u := by
  unfold cancel
  by_cases ht : (s.stateOf v).isTerminal = true
  · simp [ht]
  · rw [if_neg ht, stateOf_setIfInBounds]
    simp only [Bool.not_eq_true] at ht
    by_cases h : v = u
    · subst h
      simp [ht]
    · simp [h]

/-- Marks every pending node as cancelled. -/
def cancelPending (s : RunState) : RunState :=
  { s with states := s.states.map fun st => if st = .pending then .cancelled else st }

/-- The nodes not in a terminal state, in node order. -/
def unsettled (s : RunState) : List Nat :=
  (List.range s.states.size).filter fun v => !(s.stateOf v).isTerminal

/-- Forces a node into the failed state without settling its edges. -/
def markFailed (s : RunState) (v : Nat) : RunState :=
  { s with states := s.states.setIfInBounds v .failed }

end RunState

end CommandEngine.Graph
