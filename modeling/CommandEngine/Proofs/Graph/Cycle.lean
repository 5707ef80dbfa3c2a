import CommandEngine.Proofs.Graph.Search

/-!
# Validation accepts exactly the acyclic graphs

Validation reads the graph and nothing else: it runs no command. It accepts a well-formed graph exactly when the graph
has no directed cycle, a self edge and a cycle that no start node reaches included
(`DependencyGraph.validate_iff_acyclic`). The order it keeps then lists every node once, each before its successors; the
edge it names when it refuses closes a cycle, since its downstream node reaches its upstream one.

The search's path is a walk of the graph: each node on it is a successor of the node below it (`Search.Linked`). A child
met on the path is therefore reached from the node that visits it, and the edge between them closes a cycle.
-/

namespace CommandEngine.Graph

open DependencyGraph

/-! ## The path of the search is a walk -/

namespace Search

variable {g : DependencyGraph} {s : Search}

/-- The nodes on the path, innermost first, each a successor of the one below it. -/
def Linked (g : DependencyGraph) (s : Search) : Prop :=
  (s.stack.map Prod.fst).IsChain fun a b => g.Edge b a

/-- Every node on the path reaches the node on top of it. -/
theorem Linked.reaches (h : Linked g s) {v : Nat} {more : List Nat} {rest : List (Nat × List Nat)}
    (hs : s.stack = (v, more) :: rest) : ∀ x ∈ s.stack.map Prod.fst, Relation.ReflTransGen g.Edge x v := by
  unfold Linked at h
  rw [hs] at h ⊢
  exact h.induction _ _ (fun _ _ hxy hx => Relation.ReflTransGen.head hxy hx) fun _ => Relation.ReflTransGen.refl

theorem Linked.pop (h : Linked g s) {v : Nat} {rest : List (Nat × List Nat)} (hs : s.stack = (v, []) :: rest) :
    Linked g { s with marks := s.marks.setIfInBounds v .done, finished := v :: s.finished, stack := rest } := by
  unfold Linked at h ⊢
  rw [hs] at h
  exact h.tail

theorem Linked.skip (h : Linked g s) {v c : Nat} {more : List Nat} {rest : List (Nat × List Nat)}
    (hs : s.stack = (v, c :: more) :: rest) : Linked g { s with stack := (v, more) :: rest } := by
  unfold Linked at h ⊢
  rw [hs] at h
  exact h

theorem Linked.pushChild (h : Linked g s) {v c : Nat} {more : List Nat} {rest : List (Nat × List Nat)}
    (hs : s.stack = (v, c :: more) :: rest) (hc : g.Edge v c) :
    Linked g (push g { s with stack := (v, more) :: rest } c) := by
  unfold Linked at h ⊢
  rw [hs] at h
  exact List.isChain_cons_cons.mpr ⟨hc, h⟩

theorem linked_pushRoot (hs : s.stack = []) (r : Nat) : Linked g (push g s r) := by
  simp [Linked, push, hs]

/-- The child a node visits next is one of its successors. -/
theorem Good.edge_next (h : Good g s) {v c : Nat} {more : List Nat} {rest : List (Nat × List Nat)}
    (hs : s.stack = (v, c :: more) :: rest) : g.Edge v c := by
  have hframes := h.frames
  rw [hs] at hframes
  obtain ⟨⟨pre, hpre, -⟩, -⟩ := hframes
  simp [Edge, hpre]

/-! ## A search that meets a cycle -/

/-- A search that stops names an edge `(a, b)` whose downstream node `b` reaches `a`: `b` is on the path below `a`, or
`a` itself. -/
theorem explore_cycle (hw : g.WellFormed) : ∀ (fuel : Nat) (s : Search), Good g s → Linked g s →
    ∀ {a b : Nat}, explore g fuel s = .error (a, b) → g.Edge a b ∧ Relation.ReflTransGen g.Edge b a
  | 0, _, _, _, _, _, he => by simp [explore] at he
  | fuel + 1, s, h, hl, a, b, he => by
    cases hs : s.stack with
    | nil => simp [explore, hs] at he
    | cons top rest =>
      obtain ⟨v, children⟩ := top
      cases children with
      | nil => exact explore_cycle hw fuel _ (h.pop hs) (hl.pop hs) (by simpa [explore, hs] using he)
      | cons c more =>
        have hcm : ({ s with stack := (v, more) :: rest } : Search).markOf c = s.markOf c := rfl
        have hedge := h.edge_next hs
        cases hmc : s.markOf c with
        | unvisited =>
          exact explore_cycle hw fuel _ (h.pushChild hw hs hmc) (hl.pushChild hs hedge)
            (by simpa [explore, hs, hcm, hmc] using he)
        | onStack =>
          -- the child is on the path: it reaches the node that visits it
          simp only [explore, hs, hcm, hmc, Except.error.injEq, Prod.mk.injEq] at he
          obtain ⟨rfl, rfl⟩ := he
          exact ⟨hedge, hl.reaches hs c ((h.onStack_iff c).mp hmc)⟩
        | done =>
          exact explore_cycle hw fuel _ (h.skip hs hmc) (hl.skip hs) (by simpa [explore, hs, hcm, hmc] using he)

/-- Searching from the roots in turn meets a cycle only through an edge that closes one. -/
theorem fromRoots_cycle (hw : g.WellFormed) : ∀ (roots : List Nat) (s : Search), (∀ r ∈ roots, r < g.size) →
    Good g s → s.stack = [] → ∀ {a b : Nat}, fromRoots g roots s = .error (a, b) →
      g.Edge a b ∧ Relation.ReflTransGen g.Edge b a
  | [], _, _, _, _, _, _, he => by simp [fromRoots] at he
  | r :: rest, s, hr, h, hs, a, b, he => by
    have hrn : r < g.size := hr r List.mem_cons_self
    have hrest : ∀ x ∈ rest, x < g.size := fun x hx => hr x (List.mem_cons_of_mem _ hx)
    simp only [fromRoots] at he
    split at he
    · rename_i hu
      have hpot := potential_pushRoot h hs hrn hu
      have hle := potential_le (s := s) hw hs
      rcases explore_spec hw (2 * g.size + g.edgeCount + 1) (push g s r) (h.pushRoot hs hrn hu) (by omega) with
        ⟨e, he'⟩ | ⟨s₁, hs₁, h₁, hst₁, -⟩
      · rw [he'] at he
        cases he
        exact explore_cycle hw _ _ (h.pushRoot hs hrn hu) (linked_pushRoot hs r) he'
      · rw [hs₁] at he
        exact fromRoots_cycle hw rest s₁ hrest h₁ hst₁ he
    · exact fromRoots_cycle hw rest s hrest h hs he

end Search

/-! ## Validation -/

namespace DependencyGraph

variable {g : DependencyGraph}

/-- The edge that validation's search names closes a cycle. -/
theorem topoSort_cycle (hw : g.WellFormed) {a b : Nat} (h : g.topoSort = .error (a, b)) :
    g.Edge a b ∧ Relation.ReflTransGen g.Edge b a := by
  unfold topoSort at h
  cases hfr : Search.fromRoots g g.searchRoots { marks := Array.replicate g.size .unvisited } with
  | ok s' =>
    rw [hfr] at h
    cases h
  | error e =>
    rw [hfr] at h
    cases h
    exact Search.fromRoots_cycle hw _ _ (fun _ => searchRoots_lt) good_init rfl hfr

/-- The order validation's search finds holds nodes of the graph only. -/
theorem topoSort_lt (hw : g.WellFormed) {order : List Nat} (h : g.topoSort = .ok order) :
    ∀ v ∈ order, v < g.size := by
  obtain ⟨s', h', -, -, rfl⟩ := topoSort_eq_ok hw h
  intro v hv
  rw [← h'.marks_size]
  exact Search.lt_of_markOf_ne (by rw [(h'.done_iff v).mpr hv]; decide)

/-- Along a path of the graph, a closed order without repeats puts every node before the nodes it reaches. -/
theorem Closed.idxOf_lt_of_transGen (hw : g.WellFormed) {L : List Nat} (h : g.Closed L) (hnd : L.Nodup)
    (hall : ∀ v < g.size, v ∈ L) {u v : Nat} (huv : Relation.TransGen g.Edge u v) : L.idxOf u < L.idxOf v := by
  induction huv with
  | single he => exact h.idxOf_lt hnd (hall _ (hw.edge_lt he).1) he
  | tail _ he ih => exact ih.trans (h.idxOf_lt hnd (hall _ (hw.edge_lt he).1) he)

/-- What validation does with a graph: it accepts the graph exactly when it has no directed cycle; an accepted graph
keeps its order, which lists every node once and each before its successors; a refused graph is named by an edge
`a → b` through which `b` reaches back to `a`. -/
structure ValidatesExactly (g : DependencyGraph) : Prop where
  ok_iff_acyclic : (∃ vg, g.validate = .ok vg) ↔ ¬ ∃ v, Relation.TransGen g.Edge v v
  keeps_graph : ∀ vg, g.validate = .ok vg → vg.graph = g
  order_nodup : ∀ vg, g.validate = .ok vg → vg.order.Nodup
  mem_order : ∀ vg, g.validate = .ok vg → ∀ v, v ∈ vg.order ↔ v < g.size
  order_topological : ∀ vg, g.validate = .ok vg → ∀ u v, g.Edge u v → vg.order.idxOf u < vg.order.idxOf v
  names_cycle : ∀ e, g.validate = .error e →
    ∃ a b, g.Edge a b ∧ Relation.ReflTransGen g.Edge b a ∧ e = .cycleDetected (g.nameOf a) (g.nameOf b)

/-- Validation keeps the order its search found, and the graph. -/
theorem validate_eq_ok {vg : ValidatedGraph} (h : g.validate = .ok vg) : g.topoSort = .ok vg.order ∧ vg.graph = g := by
  unfold validate at h
  split at h
  · cases h
  · rename_i order ho
    cases h
    exact ⟨ho, rfl⟩

/-- Validation refuses a graph by naming the edge its search stopped at. -/
theorem validate_eq_error {e : EngineError} (h : g.validate = .error e) :
    ∃ a b, g.topoSort = .error (a, b) ∧ e = .cycleDetected (g.nameOf a) (g.nameOf b) := by
  unfold validate at h
  split at h
  · rename_i a b hab
    cases h
    exact ⟨a, b, hab, rfl⟩
  · cases h

/-- The order of an accepted graph lists every node once, each before all its successors. -/
theorem validate_order (hw : g.WellFormed) {vg : ValidatedGraph} (h : g.validate = .ok vg) :
    vg.order.Nodup ∧ g.Closed vg.order ∧ ∀ v, v ∈ vg.order ↔ v < g.size := by
  have ho := (validate_eq_ok h).1
  obtain ⟨hnd, hcl, hall⟩ := topoSort_spec hw ho
  exact ⟨hnd, hcl, fun v => ⟨topoSort_lt hw ho v, hall v⟩⟩

/-- Validation accepts exactly the well-formed graphs without a directed cycle, a self edge and a cycle that no start
node reaches included. -/
theorem validate_iff_acyclic (hw : g.WellFormed) : g.ValidatesExactly where
  ok_iff_acyclic := by
    constructor
    · -- an accepted graph has a topological order, which no cycle allows
      rintro ⟨vg, h⟩ ⟨v, hv⟩
      obtain ⟨hnd, hcl, hmem⟩ := validate_order hw h
      exact lt_irrefl _ (hcl.idxOf_lt_of_transGen hw hnd (fun x hx => (hmem x).mpr hx) hv)
    · -- a refused graph has the cycle its named edge closes
      intro hno
      cases hv : g.validate with
      | ok vg => exact ⟨vg, rfl⟩
      | error e =>
        obtain ⟨a, b, hab, -⟩ := validate_eq_error hv
        obtain ⟨he, hba⟩ := topoSort_cycle hw hab
        exact absurd ⟨a, Relation.TransGen.head' he hba⟩ hno
  keeps_graph _ h := (validate_eq_ok h).2
  order_nodup _ h := (validate_order hw h).1
  mem_order _ h := (validate_order hw h).2.2
  order_topological _ h u v he := by
    obtain ⟨hnd, hcl, hmem⟩ := validate_order hw h
    exact hcl.idxOf_lt hnd ((hmem u).mpr (hw.edge_lt he).1) he
  names_cycle e h := by
    obtain ⟨a, b, hab, rfl⟩ := validate_eq_error h
    obtain ⟨he, hba⟩ := topoSort_cycle hw hab
    exact ⟨a, b, he, hba, rfl⟩

/-- Two commands that each wait for the other, and a third that waits for the first. -/
def mutualWait : DependencyGraph :=
  ((({} : DependencyGraph).addEdge (0, "fetch") (1, "parse")).addEdge (1, "parse") (0, "fetch")).addEdge
    (0, "fetch") (2, "report")

theorem validatesExactly_mutualWait : mutualWait.WellFormed ∧ mutualWait.ValidatesExactly :=
  have hw : mutualWait.WellFormed := ((wellFormed_empty.addEdge _ _).addEdge _ _).addEdge _ _
  ⟨hw, validate_iff_acyclic hw⟩

end DependencyGraph

end CommandEngine.Graph
