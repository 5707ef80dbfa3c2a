import CommandEngine.Graph.Validated
import Mathlib

/-!
# Well-formed dependency graphs

A graph built from the empty graph by `addCommand` and `addEdge` keeps one successor list per node, names only its own
nodes as successors, and counts as its edges the entries of all these lists. Validation keeps the graph it checked,
takes as each node's in-degree the number of edges into it, and as start nodes the nodes with none, each once.
-/

namespace CommandEngine.Graph

namespace DependencyGraph

/-- The edge `u → v`: `v` is a successor of `u`. -/
def Edge (g : DependencyGraph) (u v : Nat) : Prop := v ∈ g.succ u

/-- What every graph built by `addCommand` and `addEdge` satisfies. -/
structure WellFormed (g : DependencyGraph) : Prop where
  successors_size : g.successors.size = g.size
  succ_lt : ∀ u, ∀ v ∈ g.succ u, v < g.size
  /-- An edge is added once: adding it again changes nothing. -/
  succ_nodup : ∀ u, (g.succ u).Nodup
  edgeCount_eq : g.edgeCount = ∑ u ∈ Finset.range g.size, (g.succ u).length

/-- An edge of a well-formed graph joins two of its nodes. -/
theorem WellFormed.edge_lt {g : DependencyGraph} (h : g.WellFormed) {u v : Nat} (he : g.Edge u v) :
    u < g.size ∧ v < g.size := by
  refine ⟨?_, h.succ_lt u v he⟩
  by_contra hu
  have hnil : g.succ u = [] := by
    simp only [succ, Array.getD_eq_getD_getElem?]
    rw [Array.getElem?_eq_none (by rw [h.successors_size]; omega)]
    rfl
  simp [Edge, hnil] at he

theorem wellFormed_empty : ({} : DependencyGraph).WellFormed where
  successors_size := rfl
  succ_lt u v hv := by simp [succ] at hv
  succ_nodup u := by simp [succ]
  edgeCount_eq := rfl

/-! ## Adding nodes and edges -/

/-- Resolving a command never changes a successor list: a new node starts with none. -/
theorem succ_resolve {g : DependencyGraph} (h : g.successors.size = g.size) (cmd : Nat) (name : String) (u : Nat) :
    (g.resolve cmd name).1.succ u = g.succ u := by
  unfold resolve
  split
  · rfl
  · simp only [succ, Array.getD_eq_getD_getElem?, Array.getElem?_push]
    split
    · rename_i hu
      rw [Array.getElem?_eq_none (by omega)]
      rfl
    · rfl

/-- Resolving a command gives a node of the resulting graph, which keeps every node of the graph before. -/
theorem resolve_lt {g : DependencyGraph} (cmd : Nat) (name : String) :
    (g.resolve cmd name).2 < (g.resolve cmd name).1.size ∧ g.size ≤ (g.resolve cmd name).1.size := by
  unfold resolve
  split
  · rename_i i hi
    obtain ⟨hlt, -⟩ := Array.findIdx?_eq_some_iff_getElem.mp hi
    exact ⟨hlt, le_refl _⟩
  · simp [size]

theorem WellFormed.resolve {g : DependencyGraph} (h : g.WellFormed) (cmd : Nat) (name : String) :
    (g.resolve cmd name).1.WellFormed := by
  have hsucc := succ_resolve h.successors_size cmd name
  unfold DependencyGraph.resolve at hsucc ⊢
  split at hsucc
  · exact h
  · refine ⟨by simp [size, h.successors_size], fun u v hv => ?_, fun u => hsucc u ▸ h.succ_nodup u, ?_⟩
    · rw [hsucc] at hv
      have := h.succ_lt u v hv
      simp only [size, Array.size_push] at this ⊢
      omega
    · simp only [size, Array.size_push, Finset.sum_range_succ, hsucc]
      rw [h.edgeCount_eq]
      simp [succ, Array.getD_eq_getD_getElem?, h.successors_size, size]

theorem WellFormed.addCommand {g : DependencyGraph} (h : g.WellFormed) (cmd : Nat) (name : String) :
    (g.addCommand cmd name).WellFormed :=
  h.resolve cmd name

/-- Prepending `d` to the successors of node `u` changes that list only. -/
theorem succ_modify (g : DependencyGraph) (u d e v : Nat) :
    ({ g with successors := g.successors.modify u (d :: ·), edgeCount := e } : DependencyGraph).succ v =
      if u = v ∧ u < g.successors.size then d :: g.succ v else g.succ v := by
  simp only [succ, Array.getD_eq_getD_getElem?, Array.getElem?_modify]
  by_cases huv : u = v
  · subst huv
    by_cases hu : u < g.successors.size
    · simp [hu]
    · simp [hu]
  · simp [huv]

theorem WellFormed.addEdge {g : DependencyGraph} (h : g.WellFormed) (up down : Nat × String) :
    (g.addEdge up down).WellFormed := by
  unfold DependencyGraph.addEdge
  obtain ⟨hu, hle1⟩ := resolve_lt (g := g) up.1 up.2
  have h1 := h.resolve up.1 up.2
  generalize g.resolve up.1 up.2 = p1 at hu hle1 h1 ⊢
  obtain ⟨g1, u⟩ := p1
  dsimp only at hu hle1 h1 ⊢
  obtain ⟨hd, hle2⟩ := resolve_lt (g := g1) down.1 down.2
  have h2 := h1.resolve down.1 down.2
  generalize g1.resolve down.1 down.2 = p2 at hd hle2 h2 ⊢
  obtain ⟨g2, d⟩ := p2
  dsimp only at hd hle2 h2 ⊢
  have hu2 : u < g2.successors.size := by rw [h2.successors_size]; omega
  by_cases hc : (g2.successors.getD u []).contains d = true
  · rw [if_pos hc]
    exact h2
  · rw [if_neg hc]
    refine ⟨by simpa [size] using h2.successors_size, fun v x hx => ?_, fun v => ?_, ?_⟩
    · rw [succ_modify] at hx
      split at hx
      · rcases List.mem_cons.mp hx with rfl | hx
        · simpa [size] using hd
        · simpa [size] using h2.succ_lt v x hx
      · simpa [size] using h2.succ_lt v x hx
    · -- the new edge is prepended only to a list that does not hold it
      rw [succ_modify]
      split
      · rename_i huv
        obtain ⟨rfl, -⟩ := huv
        refine List.nodup_cons.mpr ⟨fun hd' => hc ?_, h2.succ_nodup u⟩
        simpa [succ] using hd'
      · exact h2.succ_nodup v
    · have hlen : ∀ v, (({ g2 with successors := g2.successors.modify u (d :: ·), edgeCount := g2.edgeCount + 1 } :
          DependencyGraph).succ v).length = (g2.succ v).length + if u = v then 1 else 0 := by
        intro v
        rw [succ_modify]
        by_cases huv : u = v
        · subst huv
          simp [hu2]
        · simp [huv]
      show g2.edgeCount + 1 = ∑ v ∈ Finset.range g2.size, _
      rw [Finset.sum_congr rfl (fun v _ => hlen v), Finset.sum_add_distrib, Finset.sum_ite_eq,
        if_pos (Finset.mem_range.mpr (by omega)), h2.edgeCount_eq]

/-! ## In-degrees -/

/-- A fold adding up the number of times `v` occurs in each list is the sum of these numbers. -/
theorem foldl_count_eq (v : Nat) (l : List (List Nat)) (acc : Nat) :
    l.foldl (fun n s => n + s.count v) acc = acc + (l.map (·.count v)).sum := by
  induction l generalizing acc with
  | nil => simp
  | cons s l ih => simp only [List.foldl_cons, ih, List.map_cons, List.sum_cons]; omega

/-- A sum over a list is the sum over its positions. -/
theorem sum_map_eq_sum_range {α : Type} (l : List α) (f : α → Nat) (d : α) :
    (l.map f).sum = ∑ i ∈ Finset.range l.length, f (l.getD i d) := by
  induction l with
  | nil => simp
  | cons a l ih =>
    rw [List.length_cons, Finset.sum_range_succ', List.map_cons, List.sum_cons, ih]
    simp [add_comm]

/-- The in-degree of a node is the number of edges into it. -/
theorem inDegree_eq_sum {g : DependencyGraph} (h : g.successors.size = g.size) (v : Nat) :
    g.inDegree v = ∑ u ∈ Finset.range g.size, (g.succ u).count v := by
  rw [inDegree, ← Array.foldl_toList, foldl_count_eq, zero_add, sum_map_eq_sum_range _ _ [], Array.length_toList, h]
  simp [succ, Array.getD_eq_getD_getElem?]

end DependencyGraph

/-! ## Validated graphs -/

namespace ValidatedGraph

open DependencyGraph

/-- `g` is the result of validating a well-formed graph: its own. -/
structure Valid (g : ValidatedGraph) : Prop where
  wellFormed : g.graph.WellFormed
  validate_eq : g.graph.validate = .ok g

variable {g : ValidatedGraph}

/-- Validation succeeds only by freezing the graph with the order its search found. -/
theorem Valid.eq (hg : g.Valid) :
    ∃ order, g.graph.topoSort = .ok order ∧ g.order = order ∧
      g.inDegree = (g.graph.indices.map g.graph.inDegree).toArray ∧
      g.startNodes = g.graph.indices.filter (fun v => (g.graph.indices.map g.graph.inDegree).toArray.getD v 0 = 0) := by
  have h := hg.validate_eq
  unfold DependencyGraph.validate at h
  split at h
  · cases h
  · rename_i order ho
    injection h with h
    refine ⟨order, ho, ?_, ?_, ?_⟩ <;> rw [← h]

theorem Valid.inDegree_size (hg : g.Valid) : g.inDegree.size = g.size := by
  obtain ⟨_, _, _, hin, _⟩ := hg.eq
  simp [hin, indices, ValidatedGraph.size]

/-- The in-degree a validated graph keeps for a node is the number of edges into it. -/
theorem Valid.inDegree_getD (hg : g.Valid) {v : Nat} (hv : v < g.size) :
    g.inDegree.getD v 0 = ∑ u ∈ Finset.range g.size, (g.graph.succ u).count v := by
  obtain ⟨_, _, _, hin, _⟩ := hg.eq
  have hv' : v < g.graph.size := hv
  simp only [hin, Array.getD_eq_getD_getElem?, List.getElem?_toArray, indices, List.getElem?_map,
    List.getElem?_range hv', Option.map_some, Option.getD_some]
  exact inDegree_eq_sum hg.wellFormed.successors_size v

/-- The start nodes are the nodes with no edge into them, each listed once. -/
theorem Valid.mem_startNodes (hg : g.Valid) (v : Nat) :
    v ∈ g.startNodes ↔ v < g.size ∧ g.inDegree.getD v 0 = 0 := by
  obtain ⟨_, _, _, hin, hs⟩ := hg.eq
  rw [hs, ← hin]
  simp [indices, ValidatedGraph.size]

theorem Valid.startNodes_nodup (hg : g.Valid) : g.startNodes.Nodup := by
  obtain ⟨_, _, _, _, hs⟩ := hg.eq
  rw [hs]
  exact (List.nodup_range).filter _

end ValidatedGraph

end CommandEngine.Graph
