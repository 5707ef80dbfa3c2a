import CommandEngine.Proofs.Graph.Cycle

/-!
# The cost of the search behind validation

Validation searches the graph depth first with a stack of frames, one per node on the current path, restarted from
each root in turn. Followed pass by pass (`Search.Step`), the search tries the next root once its path is empty, and
otherwise the frame on top either ends, or hands on the next child of its node, which goes on the path if it is
unvisited and is passed over if it is done (a child on the path closes a cycle and stops the search). Each pass is
recorded as a `Search.Pass`; the passes that advance a frame are the turns of the search's loop.

Along every sequence of passes from the start (`Search.Steps`) the search keeps `Search.Throughout`:

* a node goes on the path only when it is unvisited, so at most once;
* the children a frame has still to hand on are the last of its node's successors, and a frame advances once per
  successor and once more to end;
* the loop has made at most two turns a node and one an edge, a bound that the potential of `Search.potential`
  carries: every turn lowers it, and it starts at that bound;
* the path holds at most one frame a node; the nodes marked on the path are exactly the nodes on it, each a successor
  of the node below it;
* the finished nodes are the done ones, each once, and each is finished after all its successors.

The search that validation runs is such a sequence (`DependencyGraph.topoSort_runs_in_linear_passes`): the order it
returns is the finished list of a sequence that tried every root and emptied its path, and the edge it names is met by
one more turn of the loop, within the same bound.
-/

namespace CommandEngine.Graph

open DependencyGraph

/-- Where the search of validation starts: nothing visited, and the roots to try. -/
def DependencyGraph.searchStart (g : DependencyGraph) : Search × List Nat :=
  ({ marks := Array.replicate g.size .unvisited }, g.searchRoots)

namespace Search

/-! ## Passes of the search -/

/-- What one pass of the search does. -/
inductive Pass where
  /-- The root `r`, unvisited, goes on the empty path. -/
  | enterRoot (r : Nat)
  /-- The root `r`, visited already, is passed over. -/
  | passRoot (r : Nat)
  /-- The node `v` on top of the path hands on its next child `c`, unvisited, which goes on the path. -/
  | enterChild (v c : Nat)
  /-- The node `v` on top of the path hands on its next child `c`, done already, which is passed over. -/
  | passChild (v c : Nat)
  /-- The node `v` on top of the path has no child left: it is finished and leaves the path. -/
  | finish (v : Nat)
  deriving DecidableEq, Repr

namespace Pass

/-- The node a pass puts on the path. -/
def entered : Pass → Option Nat
  | .enterRoot r | .enterChild _ r => some r
  | _ => none

/-- The node whose frame a pass advances: each turn of the search's loop advances the frame on top once. -/
def advanced : Pass → Option Nat
  | .enterChild v _ | .passChild v _ | .finish v => some v
  | _ => none

end Pass

/-- One pass of the search, from a search and the roots it has still to try. -/
inductive Step (g : DependencyGraph) : Search × List Nat → Pass → Search × List Nat → Prop
  | enterRoot {s : Search} {r : Nat} {roots : List Nat} :
      s.stack = [] → s.markOf r = .unvisited → Step g (s, r :: roots) (.enterRoot r) (push g s r, roots)
  | passRoot {s : Search} {r : Nat} {roots : List Nat} :
      s.stack = [] → s.markOf r ≠ .unvisited → Step g (s, r :: roots) (.passRoot r) (s, roots)
  | enterChild {s : Search} {v c : Nat} {more : List Nat} {rest : List (Nat × List Nat)} {roots : List Nat} :
      s.stack = (v, c :: more) :: rest → s.markOf c = .unvisited →
      Step g (s, roots) (.enterChild v c) (push g { s with stack := (v, more) :: rest } c, roots)
  | passChild {s : Search} {v c : Nat} {more : List Nat} {rest : List (Nat × List Nat)} {roots : List Nat} :
      s.stack = (v, c :: more) :: rest → s.markOf c = .done →
      Step g (s, roots) (.passChild v c) ({ s with stack := (v, more) :: rest }, roots)
  | finish {s : Search} {v : Nat} {rest : List (Nat × List Nat)} {roots : List Nat} :
      s.stack = (v, []) :: rest →
      Step g (s, roots) (.finish v)
        ({ s with marks := s.marks.setIfInBounds v .done, finished := v :: s.finished, stack := rest }, roots)

/-- A sequence of passes, the first first. -/
inductive Steps (g : DependencyGraph) : Search × List Nat → List Pass → Search × List Nat → Prop
  | refl (p : Search × List Nat) : Steps g p [] p
  | head {p q r : Search × List Nat} {e : Pass} {es : List Pass} : Step g p e q → Steps g q es r → Steps g p (e :: es) r

variable {g : DependencyGraph}

theorem Steps.append {p q r : Search × List Nat} {es es' : List Pass} (h : Steps g p es q) (h' : Steps g q es' r) :
    Steps g p (es ++ es') r := by
  induction h with
  | refl => exact h'
  | head hs _ ih => exact .head hs (ih h')

/-- Putting a node on the path marks that node, if it is a node of the search, and no other. -/
theorem markOf_push (s : Search) (c u : Nat) :
    (push g s c).markOf u = if c = u ∧ c < s.marks.size then .onStack else s.markOf u :=
  markOf_mk s c u .onStack s.finished ((c, g.succ c) :: s.stack)

theorem markOf_push_of_lt {s : Search} {c : Nat} (hc : c < s.marks.size) (u : Nat) :
    (push g s c).markOf u = if u = c then .onStack else s.markOf u := by
  rw [markOf_push]
  by_cases huc : u = c
  · simp [huc, hc]
  · simp [huc, Ne.symm huc]

/-! ## What the path and the finished list look like -/

variable {s : Search}

/-- The children a frame has still to hand on are the last of its node's successors. -/
theorem FramesOk.suffix {done : Nat → Prop} :
    ∀ {A : List Nat} {L : List (Nat × List Nat)}, FramesOk g done A L → ∀ v more, (v, more) ∈ L → more <:+ g.succ v
  | _, [], _, _, _, hm => absurd hm List.not_mem_nil
  | _, (u, rest) :: below, ⟨⟨pre, hpre, _⟩, hbelow⟩, v, more, hm => by
    rcases List.mem_cons.mp hm with he | hm
    · obtain ⟨rfl, rfl⟩ := Prod.mk.inj he
      exact ⟨pre, hpre.symm⟩
    · exact hbelow.suffix v more hm

/-- The path holds at most one frame a node of the graph. -/
theorem Good.stack_length_le (h : Good g s) : s.stack.length ≤ g.size := by
  have hsub : (s.stack.map Prod.fst).toFinset ⊆ Finset.range g.size := by
    intro v hv
    rw [List.mem_toFinset, ← h.onStack_iff] at hv
    rw [Finset.mem_range, ← h.marks_size]
    exact lt_of_markOf_ne (by rw [hv]; decide)
  have := Finset.card_le_card hsub
  rwa [List.toFinset_card_of_nodup h.stack_nodup, List.length_map, Finset.card_range] at this

/-- A node on top of the path with a child left owes the search at least two more moves. -/
theorem Good.two_le_potential (h : Good g s) {a b : Nat} {more : List Nat} {rest : List (Nat × List Nat)}
    (hs : s.stack = (a, b :: more) :: rest) : 2 ≤ potential g s := by
  have hon : s.markOf a = .onStack := (h.onStack_iff a).mpr (by simp [hs])
  have ha : a < g.size := h.marks_size ▸ lt_of_markOf_ne (by rw [hon]; decide)
  have hnode : 1 ≤ ∑ u ∈ Finset.range g.size, weight (s.markOf u) (g.succ u).length := by
    have := Finset.single_le_sum (f := fun u => weight (s.markOf u) (g.succ u).length) (fun _ _ => Nat.zero_le _)
      (Finset.mem_range.mpr ha)
    simpa [hon, weight] using this
  have hframe : 1 ≤ (s.stack.map fun f => f.2.length).sum := by
    simp only [hs, List.map_cons, List.sum_cons, List.length_cons]
    omega
  unfold potential
  omega

/-! ## The invariant of the passes -/

/-- What holds after the passes `es` at the point `p` of the search: the search is in order; the nodes that went on the
path are those no longer unvisited, each once; a frame has advanced once for each child it handed on, and once more if
it ended; and the turns made and the potential left stay within two a node and one an edge. -/
structure Sound (g : DependencyGraph) (es : List Pass) (p : Search × List Nat) : Prop where
  good : Good g p.1
  linked : Linked g p.1
  roots_lt : ∀ r ∈ p.2, r < g.size
  mem_entered : ∀ v, v ∈ es.filterMap Pass.entered ↔ p.1.markOf v ≠ .unvisited
  entered_nodup : (es.filterMap Pass.entered).Nodup
  advances_unvisited : ∀ v, p.1.markOf v = .unvisited → (es.filterMap Pass.advanced).count v = 0
  advances_frame : ∀ v more, (v, more) ∈ p.1.stack →
    (es.filterMap Pass.advanced).count v + more.length = (g.succ v).length
  advances_done : ∀ v, p.1.markOf v = .done → (es.filterMap Pass.advanced).count v = (g.succ v).length + 1
  budget : (es.filterMap Pass.advanced).length + potential g p.1 ≤ 2 * g.size + g.edgeCount

variable {es : List Pass} {roots : List Nat}

theorem Good.onStack_of_mem (h : Good g s) {v : Nat} {more : List Nat} (hv : (v, more) ∈ s.stack) :
    s.markOf v = .onStack :=
  (h.onStack_iff v).mpr (List.mem_map_of_mem (f := Prod.fst) hv)

/-- A node with a frame on the path is none of the nodes off it. -/
theorem Good.ne_of_onStack (h : Good g s) {v : Nat} {more : List Nat} (hv : (v, more) ∈ s.stack) {c : Nat}
    (hc : s.markOf c ≠ .onStack) : v ≠ c := by
  rintro rfl
  exact hc (h.onStack_of_mem hv)

/-- The node on top of the path has no frame below it. -/
theorem Good.ne_of_mem_below (h : Good g s) {v : Nat} {top : List Nat} {rest : List (Nat × List Nat)}
    (hs : s.stack = (v, top) :: rest) {u : Nat} {more : List Nat} (hu : (u, more) ∈ rest) : v ≠ u := by
  have hnd := h.stack_nodup
  rw [hs, List.map_cons, List.nodup_cons] at hnd
  rintro rfl
  have hv : v ∈ rest.map Prod.fst := List.mem_map_of_mem (f := Prod.fst) hu
  exact hnd.1 hv

/-- A pass that advances a frame adds one turn of the loop. -/
theorem length_advanced_append (es : List Pass) {e : Pass} {v : Nat} (he : e.advanced = some v) :
    ((es ++ [e]).filterMap Pass.advanced).length = (es.filterMap Pass.advanced).length + 1 := by
  simp [he]

/-- A pass that puts an unvisited node on the path, marking it and no other, keeps the entered nodes those no longer
unvisited, each once. -/
theorem Sound.entered_append {p : Search × List Nat} (h : Sound g es p) (e : Pass) {c : Nat} (he : e.entered = some c)
    (hc : p.1.markOf c = .unvisited) {t : Search} (hmark : ∀ u, t.markOf u = if u = c then .onStack else p.1.markOf u) :
    (∀ u, u ∈ (es ++ [e]).filterMap Pass.entered ↔ t.markOf u ≠ .unvisited) ∧
      ((es ++ [e]).filterMap Pass.entered).Nodup := by
  have hE : (es ++ [e]).filterMap Pass.entered = es.filterMap Pass.entered ++ [c] := by simp [he]
  have hnew : c ∉ es.filterMap Pass.entered := by
    rw [h.mem_entered]
    exact fun h' => h' hc
  refine ⟨fun u => ?_, ?_⟩
  · rw [hE, List.mem_append, h.mem_entered, List.mem_singleton, hmark]
    by_cases huc : u = c
    · simp [huc]
    · simp [huc]
  · rw [hE, ← List.concat_eq_append]
    exact h.entered_nodup.concat hnew

/-- A root goes on the empty path. -/
theorem Sound.enterRoot (h : Sound g es (s, r :: roots)) (hs : s.stack = []) (hu : s.markOf r = .unvisited) :
    Sound g (es ++ [.enterRoot r]) (push g s r, roots) := by
  have hg : Good g s := h.good
  have hr : r < g.size := h.roots_lt r List.mem_cons_self
  have hmark := markOf_push_of_lt (g := g) (hg.marks_size ▸ hr)
  have hA : (es ++ [Pass.enterRoot r]).filterMap Pass.advanced = es.filterMap Pass.advanced := by
    simp [Pass.advanced]
  obtain ⟨hmem, hnd⟩ := h.entered_append (.enterRoot r) rfl hu hmark
  refine ⟨hg.pushRoot hs hr hu, linked_pushRoot hs r, fun x hx => h.roots_lt x (List.mem_cons_of_mem _ hx),
    hmem, hnd, fun v hv => ?_, fun v more hv => ?_, fun v hv => ?_, ?_⟩
  · rw [hmark] at hv
    split at hv
    · cases hv
    · rw [hA]
      exact h.advances_unvisited v hv
  · -- the path holds the root alone, which has advanced no frame yet
    simp only [push, hs, List.mem_singleton, Prod.mk.injEq] at hv
    obtain ⟨rfl, rfl⟩ := hv
    rw [hA, h.advances_unvisited v hu, Nat.zero_add]
  · rw [hmark] at hv
    split at hv
    · cases hv
    · rw [hA]
      exact h.advances_done v hv
  · have hpot := potential_pushRoot hg hs hr hu
    have hb : (es.filterMap Pass.advanced).length + potential g s ≤ 2 * g.size + g.edgeCount := h.budget
    rw [hA]
    dsimp only
    omega

/-- A root visited already is passed over. -/
theorem Sound.passRoot (h : Sound g es (s, r :: roots)) : Sound g (es ++ [.passRoot r]) (s, roots) := by
  have hE : (es ++ [Pass.passRoot r]).filterMap Pass.entered = es.filterMap Pass.entered := by
    simp [Pass.entered]
  have hA : (es ++ [Pass.passRoot r]).filterMap Pass.advanced = es.filterMap Pass.advanced := by
    simp [Pass.advanced]
  exact ⟨h.good, h.linked, fun x hx => h.roots_lt x (List.mem_cons_of_mem _ hx), hE ▸ h.mem_entered,
    hE ▸ h.entered_nodup, hA ▸ h.advances_unvisited, hA ▸ h.advances_frame, hA ▸ h.advances_done, hA ▸ h.budget⟩

/-- A frame that advances counts one more advance, and no other frame does. -/
theorem count_advanced_append (es : List Pass) (e : Pass) {v : Nat} (he : e.advanced = some v) (u : Nat) :
    ((es ++ [e]).filterMap Pass.advanced).count u = (es.filterMap Pass.advanced).count u + if v = u then 1 else 0 := by
  simp only [List.filterMap_append, List.filterMap_cons, List.filterMap_nil, he, List.count_append,
    List.count_singleton, beq_iff_eq]

/-- The frame on top hands on an unvisited child, which goes on the path above it. -/
theorem Sound.enterChild (hw : g.WellFormed) (h : Sound g es (s, roots)) {v c : Nat} {more : List Nat}
    {rest : List (Nat × List Nat)} (hs : s.stack = (v, c :: more) :: rest) (hc : s.markOf c = .unvisited) :
    Sound g (es ++ [.enterChild v c]) (push g { s with stack := (v, more) :: rest } c, roots) := by
  have hg : Good g s := h.good
  have hedge := hg.edge_next hs
  have hcn : c < g.size := (hw.edge_lt hedge).2
  have hmark : ∀ u, (push g { s with stack := (v, more) :: rest } c).markOf u =
      if u = c then .onStack else s.markOf u :=
    markOf_push_of_lt (s := { s with stack := (v, more) :: rest }) (hg.marks_size ▸ hcn)
  have hvs : (v, c :: more) ∈ s.stack := by simp [hs]
  have hA := count_advanced_append es (.enterChild v c) rfl
  obtain ⟨hmem, hnd⟩ := h.entered_append (.enterChild v c) rfl hc hmark
  refine ⟨hg.pushChild hw hs hc, h.linked.pushChild hs hedge, h.roots_lt, hmem, hnd, fun u hu => ?_,
    fun u m hu => ?_, fun u hu => ?_, ?_⟩
  · rw [hmark] at hu
    split at hu
    · cases hu
    · rw [hA, if_neg (hg.ne_of_onStack hvs (by rw [hu]; decide)), h.advances_unvisited u hu]
  · simp only [push, List.mem_cons, Prod.mk.injEq] at hu
    rcases hu with ⟨rfl, rfl⟩ | ⟨rfl, rfl⟩ | hu
    · -- the child enters with no frame advanced yet
      rw [hA, if_neg (hg.ne_of_onStack hvs (by rw [hc]; decide)), h.advances_unvisited u hc, Nat.zero_add]
    · -- the frame on top has handed on one more child
      have := h.advances_frame u _ hvs
      rw [hA, if_pos rfl]
      simp only [List.length_cons] at this
      omega
    · rw [hA, if_neg (hg.ne_of_mem_below hs hu)]
      exact h.advances_frame u m (by simp [hs, hu])
  · rw [hmark] at hu
    split at hu
    · cases hu
    · rw [hA, if_neg (hg.ne_of_onStack hvs (by rw [hu]; decide)), h.advances_done u hu]
  · have hpot := potential_pushChild hg hs hc hcn
    have hb : (es.filterMap Pass.advanced).length + potential g s ≤ 2 * g.size + g.edgeCount := h.budget
    dsimp only
    rw [length_advanced_append es rfl]
    omega

/-- The frame on top passes over a child that is done. -/
theorem Sound.passChild (h : Sound g es (s, roots)) {v c : Nat} {more : List Nat} {rest : List (Nat × List Nat)}
    (hs : s.stack = (v, c :: more) :: rest) (hc : s.markOf c = .done) :
    Sound g (es ++ [.passChild v c]) ({ s with stack := (v, more) :: rest }, roots) := by
  have hg : Good g s := h.good
  have hvs : (v, c :: more) ∈ s.stack := by simp [hs]
  have hE : (es ++ [Pass.passChild v c]).filterMap Pass.entered = es.filterMap Pass.entered := by
    simp [Pass.entered]
  have hA := count_advanced_append es (.passChild v c) rfl
  refine ⟨hg.skip hs hc, h.linked.skip hs, h.roots_lt, fun u => hE ▸ h.mem_entered u, hE ▸ h.entered_nodup,
    fun u (hu : s.markOf u = .unvisited) => ?_, fun u m hu => ?_, fun u (hu : s.markOf u = .done) => ?_, ?_⟩
  · rw [hA, if_neg (hg.ne_of_onStack hvs (by rw [hu]; decide))]
    exact h.advances_unvisited u hu
  · rcases List.mem_cons.mp hu with he | hu
    · obtain ⟨rfl, rfl⟩ := Prod.mk.inj he
      have := h.advances_frame u _ hvs
      rw [hA, if_pos rfl]
      simp only [List.length_cons] at this
      omega
    · rw [hA, if_neg (hg.ne_of_mem_below hs hu)]
      exact h.advances_frame u m (by simp [hs, hu])
  · rw [hA, if_neg (hg.ne_of_onStack hvs (by rw [hu]; decide))]
    exact h.advances_done u hu
  · have hpot := potential_skip (g := g) hs
    have hb : (es.filterMap Pass.advanced).length + potential g s ≤ 2 * g.size + g.edgeCount := h.budget
    dsimp only
    rw [length_advanced_append es rfl]
    omega

/-- The frame on top, with no child left, ends: its node is finished. -/
theorem Sound.finish (h : Sound g es (s, roots)) {v : Nat} {rest : List (Nat × List Nat)}
    (hs : s.stack = (v, []) :: rest) :
    Sound g (es ++ [.finish v])
      ({ s with marks := s.marks.setIfInBounds v .done, finished := v :: s.finished, stack := rest }, roots) := by
  have hg : Good g s := h.good
  have hvs : (v, []) ∈ s.stack := by simp [hs]
  have hon : s.markOf v = .onStack := hg.onStack_of_mem hvs
  have hvn : v < s.marks.size := lt_of_markOf_ne (by rw [hon]; decide)
  have hmark : ∀ u, ({ s with marks := s.marks.setIfInBounds v .done, finished := v :: s.finished, stack := rest } :
      Search).markOf u = if u = v then .done else s.markOf u := by
    intro u
    rw [markOf_mk]
    by_cases huv : u = v
    · simp [huv, hvn]
    · simp [huv, Ne.symm huv]
  have hE : (es ++ [Pass.finish v]).filterMap Pass.entered = es.filterMap Pass.entered := by
    simp [Pass.entered]
  have hA := count_advanced_append es (.finish v) rfl
  refine ⟨hg.pop hs, h.linked.pop hs, h.roots_lt, fun u => ?_, hE ▸ h.entered_nodup, fun u hu => ?_,
    fun u m hu => ?_, fun u hu => ?_, ?_⟩
  · rw [hE, h.mem_entered, hmark]
    by_cases huv : u = v
    · simp [huv, hon]
    · simp [huv]
  · rw [hmark] at hu
    split at hu
    · cases hu
    · rename_i huv
      rw [hA, if_neg (Ne.symm huv), h.advances_unvisited u hu]
  · rw [hA, if_neg (hg.ne_of_mem_below hs hu)]
    exact h.advances_frame u m (by simp [hs, hu])
  · rw [hmark] at hu
    split at hu
    · -- the frame of the node ends, one advance after its last child
      rename_i huv
      subst huv
      have := h.advances_frame u [] hvs
      rw [hA, if_pos rfl]
      simp only [List.length_nil, Nat.add_zero] at this
      omega
    · rename_i huv
      rw [hA, if_neg (Ne.symm huv), h.advances_done u hu]
  · have hpot := potential_pop hg hs
    have hb : (es.filterMap Pass.advanced).length + potential g s ≤ 2 * g.size + g.edgeCount := h.budget
    dsimp only
    rw [length_advanced_append es rfl]
    omega

/-- Every pass keeps the invariant. -/
theorem Sound.step (hw : g.WellFormed) {p q : Search × List Nat} {e : Pass} (h : Sound g es p) (hs : Step g p e q) :
    Sound g (es ++ [e]) q := by
  cases hs with
  | enterRoot hs hu => exact h.enterRoot hs hu
  | passRoot => exact h.passRoot
  | enterChild hs hc => exact h.enterChild hw hs hc
  | passChild hs hc => exact h.passChild hs hc
  | finish hs => exact h.finish hs

/-- Every sequence of passes keeps the invariant. -/
theorem Sound.steps (hw : g.WellFormed) {p q : Search × List Nat} {es' : List Pass} (hs : Steps g p es' q) :
    Sound g es p → Sound g (es ++ es') q := by
  induction hs generalizing es with
  | refl => simp
  | head hstep _ ih =>
    intro h
    have := ih (h.step hw hstep)
    rwa [List.append_assoc, List.singleton_append] at this

/-- At the start no node is visited. -/
theorem markOf_start (v : Nat) : (g.searchStart.1).markOf v = .unvisited := by
  simp only [searchStart, markOf, Array.getD_eq_getD_getElem?, Array.getElem?_replicate]
  split <;> rfl

/-- The invariant holds at the start: no pass made, and the whole budget is the potential. -/
theorem sound_start (hw : g.WellFormed) : Sound g [] g.searchStart := by
  refine ⟨good_init, by simp [searchStart, Linked], fun _ => searchRoots_lt, fun v => ?_, List.nodup_nil,
    fun _ _ => rfl, fun v more hv => ?_, fun v hv => ?_, ?_⟩
  · simp only [List.filterMap_nil, List.not_mem_nil, markOf_start, ne_eq, not_true_eq_false]
  · simp [searchStart] at hv
  · rw [markOf_start] at hv
    cases hv
  · simpa using potential_le (s := g.searchStart.1) hw rfl

/-! ## Every point of the search -/

/-- What holds of the search at every point, after the passes `es` from its start, in the search `s`. -/
structure Throughout (g : DependencyGraph) (es : List Pass) (s : Search) : Prop where
  /-- No node goes on the path twice. -/
  entered_nodup : (es.filterMap Pass.entered).Nodup
  /-- The nodes that went on the path are the nodes no longer unvisited. -/
  mem_entered : ∀ v, v ∈ es.filterMap Pass.entered ↔ s.markOf v ≠ .unvisited
  /-- The frame of a node advances at most once a successor, and once more to end. -/
  advances_le : ∀ v, (es.filterMap Pass.advanced).count v ≤ (g.succ v).length + 1
  /-- The loop has made at most two turns a node and one an edge. -/
  turns_le : (es.filterMap Pass.advanced).length ≤ 2 * g.size + g.edgeCount
  /-- The children a frame has still to hand on are the last of its node's successors. -/
  frames_suffix : ∀ v more, (v, more) ∈ s.stack → more <:+ g.succ v
  /-- The path holds at most one frame a node. -/
  stack_length_le : s.stack.length ≤ g.size
  /-- The nodes marked on the path are exactly the nodes on it. -/
  onStack_iff : ∀ v, s.markOf v = .onStack ↔ v ∈ s.stack.map Prod.fst
  /-- Each node on the path is a successor of the node below it. -/
  linked : Linked g s
  /-- The done nodes are the finished ones, each finished once. -/
  done_iff : ∀ v, s.markOf v = .done ↔ v ∈ s.finished
  finished_nodup : s.finished.Nodup
  /-- Each node is finished after all its successors. -/
  closed : g.Closed s.finished

/-- The invariant gives what holds at every point. -/
theorem Sound.throughout {p : Search × List Nat} (h : Sound g es p) : Throughout g es p.1 := by
  have hg : Good g p.1 := h.good
  refine ⟨h.entered_nodup, h.mem_entered, fun v => ?_, ?_, hg.frames.suffix, hg.stack_length_le, hg.onStack_iff,
    h.linked, hg.done_iff, hg.finished_nodup, hg.closed⟩
  · cases hm : p.1.markOf v with
    | unvisited => simp [h.advances_unvisited v hm]
    | onStack =>
      -- a node on the path has a frame, which has advanced once a child handed on
      obtain ⟨⟨u, more⟩, hmem, rfl⟩ := List.mem_map.mp ((hg.onStack_iff v).mp hm)
      have := h.advances_frame u more hmem
      simp only at this ⊢
      omega
    | done => exact (h.advances_done v hm).le
  · have := h.budget
    omega

/-- Every point reached by passes from the start is in order. -/
theorem throughout_of_steps (hw : g.WellFormed) {es : List Pass} {p : Search × List Nat}
    (hs : Steps g g.searchStart es p) : Throughout g es p.1 := by
  have := (sound_start hw).steps hw hs
  rw [List.nil_append] at this
  exact this.throughout

/-! ## The search of validation runs by passes -/

/-- What the loop of a search from `s`, with the roots `roots` left to try, comes to when it returns `r`: a search in
order with an empty path, or a frame whose next child is on the path, each reached by passes. -/
def Explored (g : DependencyGraph) (roots : List Nat) (s : Search) : Except (Nat × Nat) Search → Prop
  | .ok t => Good g t ∧ t.stack = [] ∧ ∃ es, Steps g (s, roots) es (t, roots)
  | .error (a, b) => ∃ es t more rest, Steps g (s, roots) es (t, roots) ∧ t.stack = (a, b :: more) :: rest ∧
      t.markOf b = .onStack

/-- What searching from the point `p` comes to when it returns `r`: a search with every root tried and an empty path,
or a frame whose next child is on the path, each reached by passes. -/
def Searched (g : DependencyGraph) (p : Search × List Nat) : Except (Nat × Nat) Search → Prop
  | .ok t => t.stack = [] ∧ ∃ es, Steps g p es (t, [])
  | .error (a, b) => ∃ es t rs more rest, Steps g p es (t, rs) ∧ t.stack = (a, b :: more) :: rest ∧
      t.markOf b = .onStack

theorem Explored.head {s t : Search} {e : Pass} (hs : Step g (s, roots) e (t, roots)) {r : Except (Nat × Nat) Search}
    (h : Explored g roots t r) : Explored g roots s r := by
  rcases r with ⟨a, b⟩ | u
  · obtain ⟨es, u, more, rest, hsteps, hu, hb⟩ := h
    exact ⟨e :: es, u, more, rest, .head hs hsteps, hu, hb⟩
  · obtain ⟨hg, hst, es, hsteps⟩ := h
    exact ⟨hg, hst, e :: es, .head hs hsteps⟩

theorem Searched.steps {p q : Search × List Nat} {es : List Pass} (hs : Steps g p es q) {r : Except (Nat × Nat) Search}
    (h : Searched g q r) : Searched g p r := by
  rcases r with ⟨a, b⟩ | t
  · obtain ⟨es', t, rs, more, rest, hsteps, ht, hb⟩ := h
    exact ⟨es ++ es', t, rs, more, rest, hs.append hsteps, ht, hb⟩
  · obtain ⟨hst, es', hsteps⟩ := h
    exact ⟨hst, es ++ es', hs.append hsteps⟩

/-- A cycle met by the loop from a root is met by the search. -/
theorem Explored.searched {s : Search} {a b : Nat} (h : Explored g roots s (.error (a, b))) :
    Searched g (s, roots) (.error (a, b)) := by
  obtain ⟨es, t, more, rest, hsteps, ht, hb⟩ := h
  exact ⟨es, t, roots, more, rest, hsteps, ht, hb⟩

/-- A search with more fuel than it has left to do runs by turns of its loop. -/
theorem explore_steps (hw : g.WellFormed) (roots : List Nat) :
    ∀ (fuel : Nat) (s : Search), Good g s → potential g s < fuel → Explored g roots s (explore g fuel s)
  | 0, _, _, hlt => absurd hlt (Nat.not_lt_zero _)
  | fuel + 1, s, h, hlt => by
    -- one turn of the loop is one pass, and the potential it lowers is what the fuel left covers
    cases hs : s.stack with
    | nil =>
      rw [show explore g (fuel + 1) s = .ok s by simp [explore, hs]]
      exact ⟨h, hs, [], .refl _⟩
    | cons top rest =>
      obtain ⟨v, children⟩ := top
      cases children with
      | nil =>
        have hpot := potential_pop h hs
        simp only [explore, hs]
        exact (explore_steps hw roots fuel _ (h.pop hs) (by omega)).head (.finish hs)
      | cons c more =>
        have hcm : ({ s with stack := (v, more) :: rest } : Search).markOf c = s.markOf c := rfl
        have hcn : c < g.size := (hw.edge_lt (h.edge_next hs)).2
        cases hmc : s.markOf c with
        | unvisited =>
          have hpot := potential_pushChild h hs hmc hcn
          simp only [explore, hs, hcm, hmc]
          exact (explore_steps hw roots fuel _ (h.pushChild hw hs hmc) (by omega)).head (.enterChild hs hmc)
        | onStack =>
          rw [show explore g (fuel + 1) s = .error (v, c) by simp [explore, hs, hcm, hmc]]
          exact ⟨[], s, more, rest, .refl _, hs, hmc⟩
        | done =>
          have hpot := potential_skip (g := g) hs
          simp only [explore, hs, hcm, hmc]
          exact (explore_steps hw roots fuel _ (h.skip hs hmc) (by omega)).head (.passChild hs hmc)

/-- Searching from each root in turn runs by passes. -/
theorem fromRoots_steps (hw : g.WellFormed) : ∀ (roots : List Nat) (s : Search), (∀ r ∈ roots, r < g.size) →
    Good g s → s.stack = [] → Searched g (s, roots) (fromRoots g roots s)
  | [], s, _, _, hs => by
    rw [fromRoots]
    exact ⟨hs, [], .refl _⟩
  | r :: rest, s, hr, h, hs => by
    have hrn : r < g.size := hr r List.mem_cons_self
    have hrest : ∀ x ∈ rest, x < g.size := fun x hx => hr x (List.mem_cons_of_mem _ hx)
    by_cases hu : s.markOf r = .unvisited
    · -- the root goes on the path and is searched from, with fuel beyond what the search has to do
      have hpot := potential_pushRoot h hs hrn hu
      have hle := potential_le (s := s) hw hs
      have hroot : Steps g (s, r :: rest) [.enterRoot r] (push g s r, rest) := .head (.enterRoot hs hu) (.refl _)
      have hex := explore_steps hw rest (2 * g.size + g.edgeCount + 1) (push g s r) (h.pushRoot hs hrn hu) (by omega)
      rw [fromRoots, if_pos hu]
      cases he : explore g (2 * g.size + g.edgeCount + 1) (push g s r) with
      | ok s₁ =>
        rw [he] at hex
        obtain ⟨h₁, hst₁, es, hsteps⟩ := hex
        exact (fromRoots_steps hw rest s₁ hrest h₁ hst₁).steps (hroot.append hsteps)
      | error e =>
        rw [he] at hex
        obtain ⟨a, b⟩ := e
        exact hex.searched.steps hroot
    · -- a root visited already is passed over
      rw [fromRoots, if_neg hu]
      exact (fromRoots_steps hw rest s hrest h hs).steps (.head (.passRoot hs hu) (.refl _))

end Search

namespace DependencyGraph

open Search

variable {g : DependencyGraph}

/-- The search behind validation keeps `Throughout` at every point it reaches by passes, so it ends within two turns a
node and one an edge; its order is the finished list once every root was tried, and the edge it names is met within the
same bound. -/
theorem topoSort_runs_in_linear_passes (hw : g.WellFormed) :
    (∀ es p, Steps g g.searchStart es p → Throughout g es p.1) ∧
    (∀ order, g.topoSort = .ok order →
      ∃ es s, Steps g g.searchStart es (s, []) ∧ s.stack = [] ∧ order = s.finished) ∧
    ∀ a b, g.topoSort = .error (a, b) →
      ∃ es s roots more rest, Steps g g.searchStart es (s, roots) ∧ s.stack = (a, b :: more) :: rest ∧
        s.markOf b = .onStack ∧ (es.filterMap Pass.advanced).length + 1 ≤ 2 * g.size + g.edgeCount := by
  have hsearch := fromRoots_steps hw g.searchRoots _ (fun _ => searchRoots_lt) good_init rfl
  refine ⟨fun es p hs => throughout_of_steps hw hs, fun order h => ?_, fun a b h => ?_⟩
  · unfold topoSort at h
    cases hfr : fromRoots g g.searchRoots { marks := Array.replicate g.size .unvisited } with
    | error e =>
      rw [hfr] at h
      cases h
    | ok s' =>
      rw [hfr] at h hsearch
      simp only [Except.map, Except.ok.injEq] at h
      obtain ⟨hst, es, hsteps⟩ := hsearch
      exact ⟨es, s', hsteps, hst, h.symm⟩
  · unfold topoSort at h
    cases hfr : fromRoots g g.searchRoots { marks := Array.replicate g.size .unvisited } with
    | ok s' =>
      rw [hfr] at h
      cases h
    | error e =>
      rw [hfr] at h hsearch
      cases h
      obtain ⟨es, t, rs, more, rest, hsteps, ht, hb⟩ := hsearch
      -- the frame on top still owes two moves, so the turn that meets the cycle is within the budget
      have hsound := (sound_start hw).steps hw hsteps
      have hg : Good g t := hsound.good
      have h2 := hg.two_le_potential ht
      have hbud : (([] ++ es).filterMap Pass.advanced).length + potential g t ≤ 2 * g.size + g.edgeCount :=
        hsound.budget
      simp only [List.nil_append] at hbud
      exact ⟨es, t, rs, more, rest, hsteps, ht, hb, by omega⟩

/-- The search on two commands that wait for each other, and a third that waits for the first, runs in linear passes. -/
theorem mutualWait_runs_in_linear_passes :
    mutualWait.WellFormed ∧
    (∀ es p, Steps mutualWait mutualWait.searchStart es p → Throughout mutualWait es p.1) ∧
    (∀ order, mutualWait.topoSort = .ok order →
      ∃ es s, Steps mutualWait mutualWait.searchStart es (s, []) ∧ s.stack = [] ∧ order = s.finished) ∧
    ∀ a b, mutualWait.topoSort = .error (a, b) →
      ∃ es s roots more rest, Steps mutualWait mutualWait.searchStart es (s, roots) ∧
        s.stack = (a, b :: more) :: rest ∧ s.markOf b = .onStack ∧
        (es.filterMap Pass.advanced).length + 1 ≤ 2 * mutualWait.size + mutualWait.edgeCount :=
  have hw : mutualWait.WellFormed := ((wellFormed_empty.addEdge _ _).addEdge _ _).addEdge _ _
  ⟨hw, topoSort_runs_in_linear_passes hw⟩

end DependencyGraph

end CommandEngine.Graph
