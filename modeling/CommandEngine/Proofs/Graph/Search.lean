import CommandEngine.Graph.Acyclic
import CommandEngine.Proofs.Graph.Settle

/-!
# The search behind validation

When validation accepts a graph, the order its search found lists every node once, and each node before all its
successors (`DependencyGraph.topoSort_spec`). In such an order a node that always has a predecessor with the same
property before it cannot exist (`DependencyGraph.Closed.forall_not`): a validated graph has no cycle.

The search keeps `Search.Good`: the done nodes are the finished ones, the nodes on the path are marked so, and along the
path each node's visited children are done or on the path above it. A node is finished only when all its children are
done, so the finished list is closed under successors. Each move of the search lowers `Search.potential`, which the fuel
of each search from a root exceeds: no search stops before its path is empty.
-/

namespace CommandEngine.Graph

/-! ## Orders closed under successors -/

namespace DependencyGraph

/-- Every node of the list has all its successors after it. -/
def Closed (g : DependencyGraph) : List Nat → Prop
  | [] => True
  | v :: rest => (∀ c ∈ g.succ v, c ∈ rest) ∧ g.Closed rest

variable {g : DependencyGraph}

/-- A closed list holds the successors of each of its nodes. -/
theorem Closed.succ_mem : ∀ {L : List Nat}, g.Closed L → ∀ {u c : Nat}, u ∈ L → c ∈ g.succ u → c ∈ L
  | [], _, _, _, hu, _ => absurd hu List.not_mem_nil
  | v :: rest, h, u, c, hu, hc => by
    rcases List.mem_cons.mp hu with rfl | hu
    · exact List.mem_cons_of_mem _ (h.1 c hc)
    · exact List.mem_cons_of_mem _ (h.2.succ_mem hu hc)

/-- In a closed list without repeats, a node stands before each of its successors. -/
theorem Closed.idxOf_lt : ∀ {L : List Nat}, g.Closed L → L.Nodup → ∀ {u c : Nat}, u ∈ L → c ∈ g.succ u →
    L.idxOf u < L.idxOf c
  | [], _, _, _, _, hu, _ => absurd hu List.not_mem_nil
  | v :: rest, h, hnd, u, c, hu, hc => by
    obtain ⟨hv, hnd'⟩ := List.nodup_cons.mp hnd
    have hc' : c ∈ rest := by
      rcases List.mem_cons.mp hu with rfl | hu
      · exact h.1 c hc
      · exact h.2.succ_mem hu hc
    have hcv : c ≠ v := fun e => hv (e ▸ hc')
    rw [List.idxOf_cons_ne _ (Ne.symm hcv)]
    by_cases huv : u = v
    · subst huv
      simp
    · rw [List.idxOf_cons_ne _ (Ne.symm huv)]
      have := h.2.idxOf_lt hnd' ((List.mem_cons.mp hu).resolve_left huv) hc
      omega

/-- In a closed list without repeats that holds every node of which `P` holds, `P` holds of no node if each node of
which it holds has a predecessor of which it holds: the first such node in the list would have none. -/
theorem Closed.forall_not {L : List Nat} (h : g.Closed L) (hnd : L.Nodup) {P : Nat → Prop}
    (hmem : ∀ x, P x → x ∈ L) (hpred : ∀ x, P x → ∃ u, x ∈ g.succ u ∧ P u) : ∀ x, ¬ P x := by
  intro x
  induction hi : L.idxOf x using Nat.strong_induction_on generalizing x with
  | _ i ih =>
    intro hx
    obtain ⟨u, hxu, hu⟩ := hpred x hx
    exact ih (L.idxOf u) (hi ▸ h.idxOf_lt hnd (hmem u hu) hxu) u rfl hu

end DependencyGraph

/-! ## The invariant of the search -/

namespace Search

open DependencyGraph

/-- The frames of the path, innermost first: the children each node has visited already are `done`, or on the path
above it (`above`, innermost first). -/
def FramesOk (g : DependencyGraph) (done : Nat → Prop) : List Nat → List (Nat × List Nat) → Prop
  | _, [] => True
  | above, (v, rest) :: below =>
    (∃ pre, g.succ v = pre ++ rest ∧ ∀ c ∈ pre, done c ∨ c ∈ above) ∧ FramesOk g done (v :: above) below

variable {g : DependencyGraph}

/-- More done nodes and a path above that holds the others keep the frames in order. -/
theorem FramesOk.mono {done done' : Nat → Prop} (hd : ∀ c, done c → done' c) :
    ∀ {A A' : List Nat} {L : List (Nat × List Nat)}, FramesOk g done A L → (∀ c ∈ A, done' c ∨ c ∈ A') →
      FramesOk g done' A' L
  | _, _, [], _, _ => trivial
  | A, A', (v, rest) :: below, ⟨⟨pre, hpre, hc⟩, hbelow⟩, hA => by
    refine ⟨⟨pre, hpre, fun c hcp => ?_⟩, hbelow.mono hd fun c hcA => ?_⟩
    · rcases hc c hcp with h | h
      · exact .inl (hd c h)
      · exact hA c h
    · rcases List.mem_cons.mp hcA with rfl | h
      · exact .inr List.mem_cons_self
      · rcases hA c h with h' | h'
        · exact .inl h'
        · exact .inr (List.mem_cons_of_mem _ h')

/-- What holds of the search at every move. -/
structure Good (g : DependencyGraph) (s : Search) : Prop where
  marks_size : s.marks.size = g.size
  done_iff : ∀ v, s.markOf v = .done ↔ v ∈ s.finished
  finished_nodup : s.finished.Nodup
  onStack_iff : ∀ v, s.markOf v = .onStack ↔ v ∈ s.stack.map Prod.fst
  stack_nodup : (s.stack.map Prod.fst).Nodup
  frames : FramesOk g (fun c => s.markOf c = .done) [] s.stack
  /-- A node is finished only after all its successors. -/
  closed : g.Closed s.finished

/-- Marking one node changes the mark of that node, if it is a node of the search, and of no other. -/
theorem markOf_mk (s : Search) (v u : Nat) (m : Mark) (finished : List Nat) (stack : List (Nat × List Nat)) :
    ({ marks := s.marks.setIfInBounds v m, finished, stack } : Search).markOf u =
      if v = u ∧ v < s.marks.size then m else s.markOf u := by
  simp only [markOf, Array.getD_eq_getD_getElem?, Array.getElem?_setIfInBounds]
  by_cases h : v = u
  · subst h
    by_cases hv : v < s.marks.size <;> simp [hv]
  · simp [h]

/-- Only the nodes of the search are ever marked. -/
theorem lt_of_markOf_ne {s : Search} {v : Nat} (h : s.markOf v ≠ .unvisited) : v < s.marks.size := by
  by_contra hge
  apply h
  simp only [markOf, Array.getD_eq_getD_getElem?]
  rw [Array.getElem?_eq_none (by omega)]
  rfl

variable {s : Search}

/-- A node with no child left to visit is finished: all its children are done. -/
theorem Good.pop (h : Good g s) {v : Nat} {rest : List (Nat × List Nat)} (hs : s.stack = (v, []) :: rest) :
    Good g { s with marks := s.marks.setIfInBounds v .done, finished := v :: s.finished, stack := rest } := by
  have hon : s.markOf v = .onStack := (h.onStack_iff v).mpr (by simp [hs])
  have hv : v < s.marks.size := lt_of_markOf_ne (by simp [hon])
  have hmk := fun u => markOf_mk s v u .done (v :: s.finished) rest
  have hframes := h.frames
  rw [hs] at hframes
  obtain ⟨⟨pre, hpre, hc⟩, hbelow⟩ := hframes
  have hnd := h.stack_nodup
  rw [hs, List.map_cons, List.nodup_cons] at hnd
  have hvf : v ∉ s.finished := fun hf => by
    rw [← h.done_iff] at hf
    rw [hon] at hf
    cases hf
  refine ⟨by simpa using h.marks_size, fun u => ?_, List.nodup_cons.mpr ⟨hvf, h.finished_nodup⟩, fun u => ?_, hnd.2,
    ?_, ⟨fun c hcs => ?_, h.closed⟩⟩
  · rw [hmk]
    by_cases huv : u = v
    · subst huv
      simp [hv]
    · rw [if_neg (fun e => huv e.1.symm), h.done_iff]
      simp [huv]
  · rw [hmk]
    by_cases huv : u = v
    · subst huv
      simp [hv, hnd.1]
    · rw [if_neg (fun e => huv e.1.symm), h.onStack_iff, hs]
      simp [huv]
  · -- the node itself is now done, so the frames below it lose nothing
    refine hbelow.mono (fun c hd => ?_) fun c hcA => ?_
    · rw [hmk]
      split
      · rfl
      · exact hd
    · rcases List.mem_singleton.mp hcA with rfl
      exact .inl (by simp [hmk, hv])
  · -- every child of the node is done, hence finished before it
    have hpre' : g.succ v = pre := by simpa using hpre
    rcases hc c (hpre' ▸ hcs) with hd | habove
    · exact (h.done_iff c).mp hd
    · exact absurd habove List.not_mem_nil

/-- A child already done is passed over. -/
theorem Good.skip (h : Good g s) {v c : Nat} {more : List Nat} {rest : List (Nat × List Nat)}
    (hs : s.stack = (v, c :: more) :: rest) (hc : s.markOf c = .done) :
    Good g { s with stack := (v, more) :: rest } := by
  have hframes := h.frames
  rw [hs] at hframes
  obtain ⟨⟨pre, hpre, hpc⟩, hbelow⟩ := hframes
  refine ⟨h.marks_size, h.done_iff, h.finished_nodup, fun u => ?_, ?_, ⟨⟨pre ++ [c], by simp [hpre], fun x hx => ?_⟩,
    hbelow⟩, h.closed⟩
  · show s.markOf u = .onStack ↔ u ∈ ((v, more) :: rest).map Prod.fst
    rw [h.onStack_iff, hs]
    simp
  · have hnd := h.stack_nodup
    rw [hs] at hnd
    exact hnd
  · rcases List.mem_append.mp hx with hx | hx
    · exact hpc x hx
    · rcases List.mem_singleton.mp hx with rfl
      exact .inl hc

/-- A child not yet visited goes on the path, above the node that visits it. -/
theorem Good.pushChild (hw : g.WellFormed) (h : Good g s) {v c : Nat} {more : List Nat}
    {rest : List (Nat × List Nat)} (hs : s.stack = (v, c :: more) :: rest) (hc : s.markOf c = .unvisited) :
    Good g (push g { s with stack := (v, more) :: rest } c) := by
  have hon : s.markOf v = .onStack := (h.onStack_iff v).mpr (by simp [hs])
  have hframes := h.frames
  rw [hs] at hframes
  obtain ⟨⟨pre, hpre, hpc⟩, hbelow⟩ := hframes
  have hcv : c < s.marks.size := by
    rw [h.marks_size]
    exact hw.succ_lt v c (by simp [hpre])
  have hmk := fun u => markOf_mk s c u .onStack s.finished ((c, g.succ c) :: (v, more) :: rest)
  -- the marks of every node but the child stay as they were
  have hother : ∀ u, u ≠ c → (push g { s with stack := (v, more) :: rest } c).markOf u = s.markOf u := by
    intro u hu
    exact (hmk u).trans (if_neg (fun e => hu e.1.symm))
  have hcself : (push g { s with stack := (v, more) :: rest } c).markOf c = .onStack := by
    simp [push, hmk, hcv]
  have hnd := h.stack_nodup
  rw [hs] at hnd
  have hcs : c ∉ ((v, more) :: rest).map Prod.fst := by
    intro hm
    have := (h.onStack_iff c).mpr (by rw [hs]; exact hm)
    rw [hc] at this
    cases this
  refine ⟨by simpa [push] using h.marks_size, fun u => ?_, h.finished_nodup, fun u => ?_,
    List.nodup_cons.mpr ⟨hcs, hnd⟩, ⟨⟨[], by simp, by simp⟩, ⟨⟨pre ++ [c], by simp [hpre], fun x hx => ?_⟩, ?_⟩⟩,
    h.closed⟩
  · by_cases huc : u = c
    · subst huc
      rw [hcself]
      refine ⟨fun e => absurd e (by decide), fun hf => ?_⟩
      change u ∈ s.finished at hf
      rw [← h.done_iff, hc] at hf
      cases hf
    · rw [hother u huc]
      exact h.done_iff u
  · by_cases huc : u = c
    · subst huc
      exact ⟨fun _ => by simp [push], fun _ => hcself⟩
    · rw [hother u huc, h.onStack_iff, hs]
      simp [push, huc]
  · -- the visited children of the node are done, or the child now above it
    rcases List.mem_append.mp hx with hx | hx
    · rcases hpc x hx with hd | habove
      · have hxc : x ≠ c := by
          rintro rfl
          rw [hc] at hd
          cases hd
        exact .inl ((hother x hxc).trans hd)
      · exact absurd habove List.not_mem_nil
    · exact .inr (by simpa using hx)
  · refine hbelow.mono (fun x hd => ?_) fun x hx => .inr ?_
    · have hxc : x ≠ c := by
        rintro rfl
        rw [hc] at hd
        cases hd
      exact (hother x hxc).trans hd
    · rcases List.mem_singleton.mp hx with rfl
      exact List.mem_cons_self

/-- A root not yet visited starts a path of its own. -/
theorem Good.pushRoot (h : Good g s) (hs : s.stack = []) {r : Nat} (hr : r < g.size) (hu : s.markOf r = .unvisited) :
    Good g (push g s r) := by
  have hrv : r < s.marks.size := by rw [h.marks_size]; exact hr
  have hmk := fun u => markOf_mk s r u .onStack s.finished ((r, g.succ r) :: s.stack)
  have hother : ∀ u, u ≠ r → (push g s r).markOf u = s.markOf u := fun u hu =>
    (hmk u).trans (if_neg (fun e => hu e.1.symm))
  have hrself : (push g s r).markOf r = .onStack := by simp [push, hmk, hrv]
  refine ⟨by simpa [push] using h.marks_size, fun u => ?_, h.finished_nodup, fun u => ?_, by simp [push, hs],
    ⟨⟨[], by simp, by simp⟩, by simp [push, hs, FramesOk]⟩, h.closed⟩
  · by_cases hur : u = r
    · subst hur
      rw [hrself]
      refine ⟨fun e => absurd e (by decide), fun hf => ?_⟩
      change u ∈ s.finished at hf
      rw [← h.done_iff, hu] at hf
      cases hf
    · rw [hother u hur]
      exact h.done_iff u
  · by_cases hur : u = r
    · subst hur
      exact ⟨fun _ => by simp [push], fun _ => hrself⟩
    · rw [hother u hur, h.onStack_iff]
      simp [push, hs, hur]

/-! ## Every search from a root runs to its end -/

/-- What a node still costs the search: a node not yet visited is to be entered, its children visited and the node
finished; a node on the path is to be finished. -/
def weight : Mark → Nat → Nat
  | .unvisited, k => k + 2
  | .onStack, _ => 1
  | .done, _ => 0

/-- What the search still has to do: the cost of each node, and the children left on the path. -/
def potential (g : DependencyGraph) (s : Search) : Nat :=
  ∑ u ∈ Finset.range g.size, weight (s.markOf u) (g.succ u).length + (s.stack.map fun f => f.2.length).sum

/-- Marking one node changes the cost of that node only. -/
theorem sum_weight_mk (h : Good g s) {v : Nat} (hv : v < g.size) (m : Mark) (finished : List Nat)
    (stack : List (Nat × List Nat)) :
    ∑ u ∈ Finset.range g.size,
        weight (({ marks := s.marks.setIfInBounds v m, finished, stack } : Search).markOf u) (g.succ u).length +
      weight (s.markOf v) (g.succ v).length =
    ∑ u ∈ Finset.range g.size, weight (s.markOf u) (g.succ u).length + weight m (g.succ v).length := by
  have hv' : v < s.marks.size := by rw [h.marks_size]; exact hv
  have := RunState.sum_range_update hv
    (f := fun u => weight (({ marks := s.marks.setIfInBounds v m, finished, stack } : Search).markOf u)
      (g.succ u).length)
    (g := fun u => weight (s.markOf u) (g.succ u).length)
    (fun u hu => by rw [markOf_mk, if_neg (fun e => hu e.1.symm)])
  simpa [markOf_mk, hv'] using this

theorem potential_pop (h : Good g s) {v : Nat} {rest : List (Nat × List Nat)} (hs : s.stack = (v, []) :: rest) :
    potential g { s with marks := s.marks.setIfInBounds v .done, finished := v :: s.finished, stack := rest } + 1 =
      potential g s := by
  have hon : s.markOf v = .onStack := (h.onStack_iff v).mpr (by simp [hs])
  have hv : v < g.size := h.marks_size ▸ lt_of_markOf_ne (by simp [hon])
  have := sum_weight_mk h hv .done (v :: s.finished) rest
  rw [hon] at this
  simp only [potential, hs, weight] at this ⊢
  simp only [List.map_cons, List.length_nil, List.sum_cons] at ⊢
  omega

theorem potential_skip {v c : Nat} {more : List Nat} {rest : List (Nat × List Nat)}
    (hs : s.stack = (v, c :: more) :: rest) :
    potential g { s with stack := (v, more) :: rest } + 1 = potential g s := by
  have hmarks : ∀ u, ({ s with stack := (v, more) :: rest } : Search).markOf u = s.markOf u := fun _ => rfl
  simp only [potential, hs, hmarks, List.map_cons, List.sum_cons, List.length_cons]
  omega

theorem potential_pushChild (h : Good g s) {v c : Nat} {more : List Nat} {rest : List (Nat × List Nat)}
    (hs : s.stack = (v, c :: more) :: rest) (hc : s.markOf c = .unvisited) (hcn : c < g.size) :
    potential g (push g { s with stack := (v, more) :: rest } c) + 2 = potential g s := by
  have := sum_weight_mk h hcn .onStack s.finished ((c, g.succ c) :: (v, more) :: rest)
  rw [hc] at this
  simp only [potential, push, hs, weight, List.map_cons, List.sum_cons, List.length_cons] at this ⊢
  omega

theorem potential_pushRoot (h : Good g s) (hs : s.stack = []) {r : Nat} (hr : r < g.size)
    (hu : s.markOf r = .unvisited) : potential g (push g s r) + 1 = potential g s := by
  have := sum_weight_mk h hr .onStack s.finished ((r, g.succ r) :: s.stack)
  rw [hu] at this
  simp only [potential, push, hs, weight, List.map_cons, List.map_nil, List.sum_cons, List.sum_nil] at this ⊢
  omega

/-- With an empty path, the search has at most two moves a node and one an edge left. -/
theorem potential_le (hw : g.WellFormed) (hs : s.stack = []) : potential g s ≤ 2 * g.size + g.edgeCount := by
  have hle : ∀ u ∈ Finset.range g.size, weight (s.markOf u) (g.succ u).length ≤ (g.succ u).length + 2 := by
    intro u _
    cases s.markOf u <;> simp [weight]
  calc potential g s = ∑ u ∈ Finset.range g.size, weight (s.markOf u) (g.succ u).length := by
        simp [potential, hs]
    _ ≤ ∑ u ∈ Finset.range g.size, ((g.succ u).length + 2) := Finset.sum_le_sum hle
    _ = 2 * g.size + g.edgeCount := by
        rw [Finset.sum_add_distrib, hw.edgeCount_eq]
        simp
        omega

/-- A search with more fuel than it has left to do ends: it finds the edge that closes a cycle, or empties its path. It
never unmarks a node. -/
theorem explore_spec (hw : g.WellFormed) : ∀ (fuel : Nat) (s : Search), Good g s → potential g s < fuel →
    (∃ e, explore g fuel s = .error e) ∨
      ∃ s', explore g fuel s = .ok s' ∧ Good g s' ∧ s'.stack = [] ∧
        ∀ u, s.markOf u ≠ .unvisited → s'.markOf u ≠ .unvisited
  | 0, _, _, hlt => absurd hlt (Nat.not_lt_zero _)
  | fuel + 1, s, h, hlt => by
    cases hs : s.stack with
    | nil => exact .inr ⟨s, by simp [explore, hs], h, hs, fun _ hu => hu⟩
    | cons top rest =>
      obtain ⟨v, children⟩ := top
      cases children with
      | nil =>
        -- the node on top has no child left: it is finished
        have hpot := potential_pop h hs
        have hmono : ∀ u, s.markOf u ≠ .unvisited →
            ({ s with marks := s.marks.setIfInBounds v .done, finished := v :: s.finished, stack := rest } :
              Search).markOf u ≠ .unvisited := by
          intro u hu
          rw [markOf_mk]
          split
          · exact fun e => absurd e (by decide)
          · exact hu
        rcases explore_spec hw fuel _ (h.pop hs) (by omega) with he | ⟨s', hs', h', hst', hm'⟩
        · exact .inl (by simpa [explore, hs] using he)
        · exact .inr ⟨s', by simpa [explore, hs] using hs', h', hst', fun u hu => hm' u (hmono u hu)⟩
      | cons c more =>
        have hcm : ({ s with stack := (v, more) :: rest } : Search).markOf c = s.markOf c := rfl
        have hcn : c < g.size := by
          have hframes := h.frames
          rw [hs] at hframes
          obtain ⟨⟨pre, hpre, -⟩, -⟩ := hframes
          exact hw.succ_lt v c (by simp [hpre])
        cases hmc : s.markOf c with
        | unvisited =>
          -- the child goes on the path
          have hpot := potential_pushChild h hs hmc hcn
          have hmono : ∀ u, s.markOf u ≠ .unvisited →
              (push g { s with stack := (v, more) :: rest } c).markOf u ≠ .unvisited := by
            intro u hu
            simp only [push]
            rw [markOf_mk]
            split
            · exact fun e => absurd e (by decide)
            · exact hu
          rcases explore_spec hw fuel _ (h.pushChild hw hs hmc) (by omega) with he | ⟨s', hs', h', hst', hm'⟩
          · exact .inl (by simpa [explore, hs, hcm, hmc] using he)
          · exact .inr ⟨s', by simpa [explore, hs, hcm, hmc] using hs', h', hst', fun u hu => hm' u (hmono u hu)⟩
        | onStack => exact .inl ⟨(v, c), by simp [explore, hs, hcm, hmc]⟩
        | done =>
          -- the child is done already and is passed over
          have hpot := potential_skip (g := g) hs
          rcases explore_spec hw fuel _ (h.skip hs hmc) (by omega) with he | ⟨s', hs', h', hst', hm'⟩
          · exact .inl (by simpa [explore, hs, hcm, hmc] using he)
          · exact .inr ⟨s', by simpa [explore, hs, hcm, hmc] using hs', h', hst', hm'⟩

/-- With an empty path, a node that is not unvisited is done. -/
theorem Good.done_of_ne (h : Good g s) (hs : s.stack = []) {v : Nat} (hv : s.markOf v ≠ .unvisited) :
    s.markOf v = .done := by
  have hon : s.markOf v ≠ .onStack := by
    rw [Ne, h.onStack_iff, hs]
    simp
  revert hv hon
  cases s.markOf v <;> simp

/-- Searching from each root in turn, with no cycle met, leaves every root marked and the path empty. -/
theorem fromRoots_spec (hw : g.WellFormed) : ∀ (roots : List Nat) (s s' : Search), (∀ r ∈ roots, r < g.size) →
    Good g s → s.stack = [] → fromRoots g roots s = .ok s' →
      Good g s' ∧ s'.stack = [] ∧ (∀ r ∈ roots, s'.markOf r ≠ .unvisited) ∧
        ∀ u, s.markOf u ≠ .unvisited → s'.markOf u ≠ .unvisited
  | [], s, s', _, h, hs, he => by
    simp only [fromRoots, Except.ok.injEq] at he
    subst he
    exact ⟨h, hs, by simp, fun _ hu => hu⟩
  | r :: rest, s, s', hr, h, hs, he => by
    have hrn : r < g.size := hr r List.mem_cons_self
    have hrest : ∀ x ∈ rest, x < g.size := fun x hx => hr x (List.mem_cons_of_mem _ hx)
    simp only [fromRoots] at he
    split at he
    · rename_i hu
      -- the root is searched from, with fuel beyond what the search has to do
      have hpot := potential_pushRoot h hs hrn hu
      have hle := potential_le (s := s) hw hs
      have hrmark : (push g s r).markOf r ≠ .unvisited := by
        simp only [push]
        rw [markOf_mk, if_pos ⟨rfl, by rw [h.marks_size]; exact hrn⟩]
        exact fun e => absurd e (by decide)
      have hmono : ∀ u, s.markOf u ≠ .unvisited → (push g s r).markOf u ≠ .unvisited := by
        intro u hu'
        simp only [push]
        rw [markOf_mk]
        split
        · exact fun e => absurd e (by decide)
        · exact hu'
      rcases explore_spec hw (2 * g.size + g.edgeCount + 1) (push g s r) (h.pushRoot hs hrn hu) (by omega) with
        ⟨e, he'⟩ | ⟨s₁, hs₁, h₁, hst₁, hm₁⟩
      · rw [he'] at he
        cases he
      · rw [hs₁] at he
        obtain ⟨h', hst', hroots, hm'⟩ := fromRoots_spec hw rest s₁ s' hrest h₁ hst₁ he
        refine ⟨h', hst', fun x hx => ?_, fun u hu' => hm' u (hm₁ u (hmono u hu'))⟩
        rcases List.mem_cons.mp hx with rfl | hx
        · exact hm' _ (hm₁ _ hrmark)
        · exact hroots x hx
    · rename_i hu
      obtain ⟨h', hst', hroots, hm'⟩ := fromRoots_spec hw rest s s' hrest h hs he
      refine ⟨h', hst', fun x hx => ?_, hm'⟩
      rcases List.mem_cons.mp hx with rfl | hx
      · exact hm' _ hu
      · exact hroots x hx

end Search

open Search

namespace DependencyGraph

variable {g : DependencyGraph}

/-- The search starts with no node visited. -/
theorem good_init : Good g { marks := Array.replicate g.size .unvisited } := by
  have hmark : ∀ v, ({ marks := Array.replicate g.size .unvisited } : Search).markOf v = .unvisited := by
    intro v
    simp only [markOf, Array.getD_eq_getD_getElem?, Array.getElem?_replicate]
    split <;> rfl
  exact ⟨by simp, fun v => by simp [hmark], List.nodup_nil, fun v => by simp [hmark], List.nodup_nil, trivial,
    trivial⟩

/-- The search starts from nodes of the graph only. -/
theorem searchRoots_lt {r : Nat} (hr : r ∈ g.searchRoots) : r < g.size := by
  simp only [searchRoots, indices, List.mem_append, List.mem_filter, List.mem_range] at hr
  rcases hr with hr | hr
  · exact hr.1
  · exact hr

/-- When validation's search finds no cycle, it ends with an empty path, every node marked, and its order the list of
finished nodes. -/
theorem topoSort_eq_ok (hw : g.WellFormed) {order : List Nat} (h : g.topoSort = .ok order) :
    ∃ s', Good g s' ∧ s'.stack = [] ∧ (∀ v < g.size, s'.markOf v ≠ .unvisited) ∧ order = s'.finished := by
  unfold topoSort at h
  cases hfr : fromRoots g g.searchRoots { marks := Array.replicate g.size .unvisited } with
  | error e =>
    rw [hfr] at h
    cases h
  | ok s' =>
    rw [hfr] at h
    simp only [Except.map, Except.ok.injEq] at h
    obtain ⟨h', hst', hmarked, -⟩ := fromRoots_spec hw _ _ _ (fun _ => searchRoots_lt) good_init rfl hfr
    exact ⟨s', h', hst', fun v hv => hmarked v (by simp [searchRoots, indices, hv]), h.symm⟩

/-- When validation's search finds no cycle, its order lists every node once, each before all its successors. -/
theorem topoSort_spec (hw : g.WellFormed) {order : List Nat} (h : g.topoSort = .ok order) :
    order.Nodup ∧ g.Closed order ∧ ∀ v < g.size, v ∈ order := by
  obtain ⟨s', h', hst', hmarked, rfl⟩ := topoSort_eq_ok hw h
  exact ⟨h'.finished_nodup, h'.closed, fun v hv => (h'.done_iff v).mp (h'.done_of_ne hst' (hmarked v hv))⟩

end DependencyGraph

namespace ValidatedGraph

/-- The order a validated graph keeps lists every node once, each before all its successors. -/
theorem Valid.order_spec {g : ValidatedGraph} (hg : g.Valid) :
    g.order.Nodup ∧ g.graph.Closed g.order ∧ ∀ v < g.size, v ∈ g.order := by
  obtain ⟨order, ho, hord, -, -⟩ := hg.eq
  rw [hord]
  exact DependencyGraph.topoSort_spec hg.wellFormed ho

end ValidatedGraph

end CommandEngine.Graph
