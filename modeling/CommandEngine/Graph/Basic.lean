/-!
# Dependency graphs

A dependency graph has one node per distinct command object mentioned, numbered in the order the objects were first
mentioned, and one edge per distinct pair `upstream → downstream` added: the downstream command starts only after the
upstream one completed. Adding an edge twice, or a command twice, changes nothing.

Each node lists its successors with the most recently added edge first, which is the order in which the graph's
searches and queries visit them.
-/

namespace CommandEngine.Graph

/-- A graph under construction. -/
structure DependencyGraph where
  /-- The command object of each node. -/
  nodes : Array Nat := #[]
  /-- The name of each node's command. -/
  names : Array String := #[]
  /-- The successors of each node, the most recently added edge first. -/
  successors : Array (List Nat) := #[]
  edgeCount : Nat := 0
  deriving Repr, Inhabited

namespace DependencyGraph

/-- The node of the command `cmd` named `name`, added if the command is new. -/
def resolve (g : DependencyGraph) (cmd : Nat) (name : String) : DependencyGraph × Nat :=
  match g.nodes.findIdx? (· = cmd) with
  | some i => (g, i)
  | none =>
    ({ g with nodes := g.nodes.push cmd, names := g.names.push name, successors := g.successors.push [] },
      g.nodes.size)

/-- Registers a command that may have no edges. -/
def addCommand (g : DependencyGraph) (cmd : Nat) (name : String) : DependencyGraph :=
  (g.resolve cmd name).1

/-- Declares that `down` must not start before `up` completed; an edge already present is kept as it is. -/
def addEdge (g : DependencyGraph) (up : Nat × String) (down : Nat × String) : DependencyGraph :=
  let (g, u) := g.resolve up.1 up.2
  let (g, d) := g.resolve down.1 down.2
  if (g.successors.getD u []).contains d then g
  else { g with successors := g.successors.modify u (d :: ·), edgeCount := g.edgeCount + 1 }

/-- The number of nodes. -/
def size (g : DependencyGraph) : Nat :=
  g.nodes.size

/-- Whether the graph has no node. -/
def isEmpty (g : DependencyGraph) : Bool :=
  g.nodes.isEmpty

/-- The successors of node `v`, the most recently added edge first. -/
def succ (g : DependencyGraph) (v : Nat) : List Nat :=
  g.successors.getD v []

/-- The number of edges into node `v`. -/
def inDegree (g : DependencyGraph) (v : Nat) : Nat :=
  g.successors.foldl (fun n s => n + s.count v) 0

/-- The nodes, in order. -/
def indices (g : DependencyGraph) : List Nat :=
  List.range g.size

/-- The name of node `v`. -/
def nameOf (g : DependencyGraph) (v : Nat) : String :=
  g.names.getD v ""

/-- The debug rendering `DependencyGraph { nodes: n, edges: m }`. -/
def debug (g : DependencyGraph) : String :=
  "DependencyGraph \x7b nodes: " ++ toString g.size ++ ", edges: " ++ toString g.edgeCount ++ " \x7d"

end DependencyGraph

end CommandEngine.Graph
