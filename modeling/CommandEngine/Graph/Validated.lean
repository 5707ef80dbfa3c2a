import CommandEngine.Graph.Acyclic
import CommandEngine.Error.Engine
import CommandEngine.Text.Quoted

/-!
# Validated graphs

Validation rejects a graph with a cycle, naming the edge that closes it, and otherwise freezes the graph together with
each node's in-degree, its start nodes (the nodes without predecessors, in node order) and a topological order.
Queries by name answer for the first node with that name.
-/

namespace CommandEngine.Graph

/-- An acyclic graph whose nodes and edges no longer change. -/
structure ValidatedGraph where
  graph : DependencyGraph
  inDegree : Array Nat
  startNodes : List Nat
  order : List Nat
  deriving Repr, Inhabited

/-- Rejects a graph with a cycle, else freezes it. -/
def DependencyGraph.validate (g : DependencyGraph) : Except EngineError ValidatedGraph :=
  match g.topoSort with
  | .error (u, d) => .error (.cycleDetected (g.nameOf u) (g.nameOf d))
  | .ok order =>
    let inDegree := (g.indices.map g.inDegree).toArray
    .ok { graph := g, inDegree, startNodes := g.indices.filter (inDegree.getD · 0 = 0), order }

namespace ValidatedGraph

/-- The number of nodes. -/
def size (v : ValidatedGraph) : Nat :=
  v.graph.size

/-- Whether the graph has no node. -/
def isEmpty (v : ValidatedGraph) : Bool :=
  v.graph.isEmpty

/-- The number of edges. -/
def edgeCount (v : ValidatedGraph) : Nat :=
  v.graph.edgeCount

/-- The names of the nodes, in node order. -/
def nodeNames (v : ValidatedGraph) : List String :=
  v.graph.names.toList

/-- The names of the start nodes. -/
def startNames (v : ValidatedGraph) : List String :=
  v.startNodes.map v.graph.nameOf

/-- The names in topological order. -/
def topologicalOrder (v : ValidatedGraph) : List String :=
  v.order.map v.graph.nameOf

/-- The first node named `name`. -/
def find? (v : ValidatedGraph) (name : String) : Option Nat :=
  v.graph.indices.find? (v.graph.nameOf · = name)

/-- The in-degree of the first node named `name`. -/
def inDegreeOf? (v : ValidatedGraph) (name : String) : Option Nat :=
  (v.find? name).map (v.inDegree.getD · 0)

/-- The dependents of the first node named `name`, the most recently added edge first. -/
def dependentsOf (v : ValidatedGraph) (name : String) : List String :=
  match v.find? name with
  | some i => (v.graph.succ i).map v.graph.nameOf
  | none => []

/-- The debug rendering `ValidatedGraph { nodes: [..], edges: n, start_nodes: [..] }`. -/
def debug (v : ValidatedGraph) : String :=
  "ValidatedGraph \x7b nodes: " ++ Text.quoteList v.nodeNames ++ ", edges: " ++ toString v.edgeCount ++
    ", start_nodes: " ++ Text.quoteList v.startNames ++ " \x7d"

end ValidatedGraph

end CommandEngine.Graph
