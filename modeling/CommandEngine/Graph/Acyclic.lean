import CommandEngine.Graph.Basic

/-!
# Cycle detection and topological order

A depth-first search with an explicit stack looks for a cycle. A node is on the stack while it is on the current path
and done once all its descendants are explored; meeting a node that is on the stack closes a cycle, and the search
names that edge. Done nodes are never entered again. The search starts from every node without predecessors, in node
order, and then from every node not yet visited, so a cycle that no start node reaches is found too.

Nodes are finished in post-order; reversed, that order lists every node after all its predecessors.
-/

namespace CommandEngine.Graph

/-- The progress of the search at a node. -/
inductive Mark where
  | unvisited
  | onStack
  | done
  deriving DecidableEq, Repr, Inhabited

/-- The state of the search. -/
structure Search where
  marks : Array Mark
  /-- The finished nodes, the last finished first. -/
  finished : List Nat := []
  /-- The current path, innermost first, each node with the successors it has still to visit. -/
  stack : List (Nat × List Nat) := []
  deriving Repr, Inhabited

namespace Search

/-- The mark of node `v`. -/
def markOf (s : Search) (v : Nat) : Mark :=
  s.marks.getD v .unvisited

/-- Puts node `v` on the path. -/
def push (g : DependencyGraph) (s : Search) (v : Nat) : Search :=
  { s with marks := s.marks.setIfInBounds v .onStack, stack := (v, g.succ v) :: s.stack }

/-- Explores from the top of the path until the path is empty, or the edge closing a cycle is met. -/
def explore (g : DependencyGraph) : Nat → Search → Except (Nat × Nat) Search
  | 0, s => .ok s
  | fuel + 1, s =>
    match s.stack with
    | [] => .ok s
    | (v, []) :: rest =>
      explore g fuel { s with marks := s.marks.setIfInBounds v .done, finished := v :: s.finished, stack := rest }
    | (v, child :: more) :: rest =>
      let s := { s with stack := (v, more) :: rest }
      match s.markOf child with
      | .unvisited => explore g fuel (push g s child)
      | .onStack => .error (v, child)
      | .done => explore g fuel s

/-- Searches from each root in turn that is still unvisited. -/
def fromRoots (g : DependencyGraph) : List Nat → Search → Except (Nat × Nat) Search
  | [], s => .ok s
  | r :: rest, s =>
    if s.markOf r = .unvisited then
      match explore g (2 * g.size + g.edgeCount + 1) (push g s r) with
      | .ok s => fromRoots g rest s
      | .error e => .error e
    else fromRoots g rest s

end Search

/-- The roots of the search: the nodes without predecessors, then all nodes, each list in node order. -/
def DependencyGraph.searchRoots (g : DependencyGraph) : List Nat :=
  g.indices.filter (g.inDegree · = 0) ++ g.indices

/-- A topological order of the nodes, or the edge `(upstream, downstream)` that closes a cycle. -/
def DependencyGraph.topoSort (g : DependencyGraph) : Except (Nat × Nat) (List Nat) :=
  (Search.fromRoots g g.searchRoots { marks := Array.replicate g.size .unvisited }).map (·.finished)

end CommandEngine.Graph
