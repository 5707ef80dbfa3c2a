import CommandEngine.Proofs.Graph.Safety
import CommandEngine.Proofs.Graph.Cycle
import CommandEngine.Session.Graph

/-!
# What building a dependency graph makes

A dependency graph is built by calls that add an edge between two commands or register a command on its own. A command
is its object: two objects with one name are two nodes, and one object mentioned many times is one node. The graph the
calls build has one node per object they mention, in the order of first mention and with the name given there, and one
edge per distinct pair of objects joined by a call, each listed once (`DependencyGraph.Tracks`); so a call that mentions
only known objects and adds only a known edge changes nothing. Validation keeps the graph, and counts as a node's
in-degree the nodes that list it as a dependent, so that the edges are the in-degrees summed
(`DependencyGraph.BuildsExactly`).

A fixture graph joins its commands by name, one command per name, so its nodes are the distinct names of its edges in
order of first mention and a node's in-degree is the number of distinct names with an edge into it
(`Session.FixtureBuilds`).
-/

namespace CommandEngine.Graph

/-- A call that builds a dependency graph: an edge between two commands, or a command on its own. A command is given by
its object, which stands for its identity, and its name. -/
inductive GraphCall where
  | edge (up down : Nat × String)
  | command (c : Nat × String)
  deriving DecidableEq, Repr

namespace GraphCall

/-- The commands a call mentions, in order. -/
def mentions : GraphCall → List (Nat × String)
  | .edge up down => [up, down]
  | .command c => [c]

/-- The edge a call adds, between command objects. -/
def links : GraphCall → List (Nat × Nat)
  | .edge up down => [(up.1, down.1)]
  | .command _ => []

end GraphCall

/-- The command objects of a list of mentions, with the name first given to each: the name of the first mention of `x`
in `ps`. -/
def firstName (ps : List (Nat × String)) (x : Nat) : String :=
  ((ps.find? (·.1 = x)).map Prod.snd).getD ""

namespace DependencyGraph

/-- The graph after one more call. -/
def apply (g : DependencyGraph) : GraphCall → DependencyGraph
  | .edge up down => g.addEdge up down
  | .command c => g.addCommand c.1 c.2

/-- The graph that the calls build from the empty graph, in order. -/
def build (calls : List GraphCall) : DependencyGraph :=
  calls.foldl apply {}

/-- The commands the calls mention, in order and with repeats. -/
def mentioned (calls : List GraphCall) : List (Nat × String) :=
  calls.flatMap GraphCall.mentions

/-- The edges between command objects that the calls add, in order and with repeats. -/
def linked (calls : List GraphCall) : List (Nat × Nat) :=
  calls.flatMap GraphCall.links

/-! ## Distinct members in order of first occurrence -/

/-- One more member keeps the distinct members, and adds it at the end if it is new. -/
theorem eraseDups_concat {α : Type} [BEq α] [LawfulBEq α] (l : List α) (a : α) :
    (l ++ [a]).eraseDups = l.eraseDups ++ if a ∈ l then [] else [a] := by
  rw [List.eraseDups_append]
  by_cases ha : a ∈ l
  · simp [List.removeAll, ha]
  · simp [List.removeAll, ha, List.eraseDups_cons]

theorem nodup_eraseDups {α : Type} [BEq α] [LawfulBEq α] (l : List α) : l.eraseDups.Nodup := by
  induction l using List.reverseRecOn with
  | nil => simp
  | append_singleton l a ih =>
    rw [eraseDups_concat]
    split
    · simpa using ih
    · rename_i ha
      exact List.nodup_append.mpr ⟨ih, List.nodup_singleton a,
        fun x hx y hy hxy => ha (by rw [List.mem_singleton.mp hy] at hxy; exact List.mem_eraseDups.mp (hxy ▸ hx))⟩

/-- The distinct images of a list under a map that tells its members apart are the images of its distinct members. -/
theorem eraseDups_map_of_injOn {α β : Type} [BEq α] [LawfulBEq α] [BEq β] [LawfulBEq β] {f : α → β} {l : List α}
    (hf : ∀ x ∈ l, ∀ y ∈ l, f x = f y → x = y) : (l.map f).eraseDups = l.eraseDups.map f := by
  induction l using List.reverseRecOn with
  | nil => rfl
  | append_singleton l a ih =>
    have hl : ∀ x ∈ l, ∀ y ∈ l, f x = f y → x = y :=
      fun x hx y hy => hf x (List.mem_append_left _ hx) y (List.mem_append_left _ hy)
    have hmem : f a ∈ l.map f ↔ a ∈ l := by
      refine ⟨fun hfa => ?_, List.mem_map_of_mem⟩
      obtain ⟨x, hx, hxa⟩ := List.mem_map.mp hfa
      rwa [← hf x (List.mem_append_left _ hx) a (List.mem_append_right _ (List.mem_singleton_self a)) hxa]
    rw [List.map_append, List.map_singleton, eraseDups_concat, eraseDups_concat, ih hl, List.map_append]
    by_cases ha : a ∈ l
    · rw [if_pos (hmem.mpr ha), if_pos ha, List.map_nil]
    · rw [if_neg (mt hmem.mp ha), if_neg ha, List.map_singleton]

/-- The first entry keyed `x` of a list that has one is not changed by appending. -/
theorem find?_fst_append {α β : Type} [DecidableEq α] {ps qs : List (α × β)} {x : α} (hx : x ∈ ps.map Prod.fst) :
    (ps ++ qs).find? (·.1 = x) = ps.find? (·.1 = x) := by
  obtain ⟨p, hp, rfl⟩ := List.mem_map.mp hx
  rw [List.find?_append]
  cases hf : ps.find? (·.1 = p.1) with
  | none => exact absurd hf (List.find?_isSome.mpr ⟨p, hp, by simp⟩ |> Option.isSome_iff_ne_none.mp)
  | some q => rfl

/-- The distinct members of a list, counted, grow by one exactly with a new member. -/
theorem length_eraseDups_concat {α : Type} [BEq α] [LawfulBEq α] (l : List α) (a : α) :
    (l ++ [a]).eraseDups.length = l.eraseDups.length + if a ∈ l then 0 else 1 := by
  rw [eraseDups_concat]
  split <;> simp

/-! ## Resolving a command object -/

/-- Resolving an object that has a node finds that node and changes nothing. -/
theorem resolve_of_mem {g : DependencyGraph} {x : Nat} (name : String) (hx : x ∈ g.nodes.toList) :
    ∃ i, g.resolve x name = (g, i) ∧ i < g.size ∧ g.nodes.getD i 0 = x := by
  unfold resolve
  split
  · rename_i i hi
    obtain ⟨hlt, heq, -⟩ := Array.findIdx?_eq_some_iff_getElem.mp hi
    refine ⟨i, rfl, hlt, ?_⟩
    simpa [Array.getD_eq_getD_getElem?, hlt] using heq
  · rename_i hnone
    exact absurd (Array.findIdx?_eq_none_iff.mp hnone x (Array.mem_toList_iff.mp hx)) (by simp)

/-- Resolving a new object adds a node for it, last, with the name given and no successor. -/
theorem resolve_of_not_mem {g : DependencyGraph} {x : Nat} (name : String) (hx : x ∉ g.nodes.toList) :
    g.resolve x name =
      ({ g with nodes := g.nodes.push x, names := g.names.push name, successors := g.successors.push [] }, g.size) := by
  unfold resolve
  split
  · rename_i i hi
    obtain ⟨hlt, heq, -⟩ := Array.findIdx?_eq_some_iff_getElem.mp hi
    have hxi : g.nodes[i] = x := by simpa using heq
    exact absurd (Array.mem_toList_iff.mpr (hxi ▸ Array.getElem_mem hlt)) hx
  · rfl

/-- Resolving keeps the object of every node there was. -/
theorem getD_resolve_of_lt {g : DependencyGraph} (x : Nat) (name : String) {i : Nat} (hi : i < g.size) :
    (g.resolve x name).1.nodes.getD i 0 = g.nodes.getD i 0 := by
  by_cases hx : x ∈ g.nodes.toList
  · obtain ⟨j, hj, -⟩ := resolve_of_mem name hx
    rw [hj]
  · rw [resolve_of_not_mem name hx]
    simp only [Array.getD_eq_getD_getElem?, Array.getElem?_push]
    rw [if_neg (by simp only [size] at hi; omega)]

/-- Resolving an object gives the node of that object. -/
theorem getD_resolve (g : DependencyGraph) (x : Nat) (name : String) :
    (g.resolve x name).1.nodes.getD (g.resolve x name).2 0 = x := by
  by_cases hx : x ∈ g.nodes.toList
  · obtain ⟨i, hi, -, hgx⟩ := resolve_of_mem name hx
    rw [hi]
    exact hgx
  · rw [resolve_of_not_mem name hx]
    simp [Array.getD_eq_getD_getElem?, size]

/-! ## The graph the calls build -/

/-- `g` is the graph built by calls that mention the commands `ps` and add the edges `es`: it has one node per object of
`ps`, in order of first mention and named as first named there, and an edge between two nodes exactly when `es` joins
their objects, all of which `ps` mentions; and it counts the distinct pairs of `es` as its edges. -/
structure Tracks (g : DependencyGraph) (ps : List (Nat × String)) (es : List (Nat × Nat)) : Prop where
  nodes : g.nodes.toList = (ps.map Prod.fst).eraseDups
  names : g.names.toList = g.nodes.toList.map (firstName ps)
  linked_mem : ∀ e ∈ es, e.1 ∈ ps.map Prod.fst ∧ e.2 ∈ ps.map Prod.fst
  edge_iff : ∀ i j, g.Edge i j ↔ i < g.size ∧ j < g.size ∧ (g.nodes.getD i 0, g.nodes.getD j 0) ∈ es
  edgeCount : g.edgeCount = es.eraseDups.length

variable {g : DependencyGraph} {ps : List (Nat × String)} {es : List (Nat × Nat)}

theorem tracks_empty : ({} : DependencyGraph).Tracks [] [] where
  nodes := rfl
  names := rfl
  linked_mem := by simp
  edge_iff i j := by simp [Edge, succ, size]
  edgeCount := rfl

theorem Tracks.mem_nodes (h : g.Tracks ps es) (x : Nat) : x ∈ g.nodes.toList ↔ x ∈ ps.map Prod.fst := by
  rw [h.nodes, List.mem_eraseDups]

/-- Two nodes with one object are one node. -/
theorem Tracks.eq_of_getD (h : g.Tracks ps es) {i j : Nat} (hi : i < g.size) (hj : j < g.size)
    (hij : g.nodes.getD i 0 = g.nodes.getD j 0) : i = j := by
  have hnd : g.nodes.toList.Nodup := h.nodes ▸ nodup_eraseDups _
  simp only [Array.getD_eq_getD_getElem?, Array.getElem?_eq_getElem (show i < g.nodes.size from hi),
    Array.getElem?_eq_getElem (show j < g.nodes.size from hj), Option.getD_some] at hij
  rw [← Array.getElem_toList, ← Array.getElem_toList] at hij
  exact (List.Nodup.getElem_inj_iff hnd).mp hij

/-- The name first given to an object mentioned early is not changed by later mentions. -/
theorem firstName_append_of_mem {qs : List (Nat × String)} {x : Nat} (hx : x ∈ ps.map Prod.fst) :
    firstName (ps ++ qs) x = firstName ps x := by
  rw [firstName, firstName, find?_fst_append hx]

/-- An object first mentioned by a later mention takes the name given there. -/
theorem firstName_append_of_not_mem {x : Nat} (hx : x ∉ ps.map Prod.fst) (name : String) :
    firstName (ps ++ [(x, name)]) x = name := by
  unfold firstName
  rw [List.find?_append,
    List.find?_eq_none.mpr (fun p hp hpx => hx (List.mem_map.mpr ⟨p, hp, by simpa using hpx⟩) |>.elim)]
  simp

theorem getD_push_eq (a : Array Nat) (x i : Nat) :
    (a.push x).getD i 0 = if i < a.size then a.getD i 0 else if i = a.size then x else 0 := by
  simp only [Array.getD_eq_getD_getElem?, Array.getElem?_push]
  by_cases hlt : i < a.size
  · rw [if_neg (by omega), if_pos hlt]
  · by_cases heq : i = a.size
    · simp [heq]
    · rw [if_neg heq, if_neg hlt, if_neg heq, Array.getElem?_eq_none (by omega)]
      rfl

/-- Once an object not mentioned so far is pushed, a node whose object was mentioned is an old one. -/
theorem lt_of_getD_push_mem {a : Array Nat} {x k : Nat} (hxps : x ∉ ps.map Prod.fst) (hk : k < a.size + 1)
    (hmem : (a.push x).getD k 0 ∈ ps.map Prod.fst) : k < a.size := by
  by_contra hge
  rw [getD_push_eq, if_neg hge, if_pos (by omega)] at hmem
  exact hxps hmem

/-- Mentioning one more object keeps the record of what was built, with a node added for it if it is new. -/
theorem Tracks.resolve (hw : g.WellFormed) (h : g.Tracks ps es) (x : Nat) (name : String) :
    (g.resolve x name).1.Tracks (ps ++ [(x, name)]) es := by
  have hnames : ∀ y ∈ g.nodes.toList, firstName (ps ++ [(x, name)]) y = firstName ps y :=
    fun y hy => firstName_append_of_mem ((h.mem_nodes y).mp hy)
  have hmono : ∀ e ∈ es, e.1 ∈ (ps ++ [(x, name)]).map Prod.fst ∧ e.2 ∈ (ps ++ [(x, name)]).map Prod.fst := by
    intro e he
    simp only [List.map_append, List.mem_append]
    exact ⟨.inl (h.linked_mem e he).1, .inl (h.linked_mem e he).2⟩
  by_cases hx : x ∈ g.nodes.toList
  · obtain ⟨i, hi, -⟩ := resolve_of_mem name hx
    rw [hi]
    refine ⟨?_, ?_, hmono, h.edge_iff, h.edgeCount⟩
    · rw [List.map_append, List.map_singleton, eraseDups_concat, if_pos ((h.mem_nodes x).mp hx), List.append_nil, h.nodes]
    · rw [h.names]
      exact List.map_congr_left fun y hy => (hnames y hy).symm
  · -- the object is new: a node is added for it, with no edge
    have hxps : x ∉ ps.map Prod.fst := fun h' => hx ((h.mem_nodes x).mpr h')
    have hsucc := succ_resolve hw.successors_size x name
    rw [resolve_of_not_mem name hx] at hsucc ⊢
    have hgetD := getD_push_eq g.nodes x
    refine ⟨?_, ?_, hmono, fun i j => ?_, h.edgeCount⟩
    · rw [List.map_append, List.map_singleton, eraseDups_concat, if_neg hxps, ← h.nodes]
      simp
    · simp only [Array.toList_push, List.map_append, List.map_cons, List.map_nil, h.names]
      rw [firstName_append_of_not_mem hxps, List.map_congr_left fun y hy => (hnames y hy)]
    · -- an edge joins old nodes, and objects of `es` were mentioned before, so have old nodes
      rw [Edge, hsucc, ← Edge, h.edge_iff]
      simp only [size, Array.size_push]
      constructor
      · rintro ⟨hi, hj, he⟩
        refine ⟨by omega, by omega, ?_⟩
        rwa [hgetD i, hgetD j, if_pos hi, if_pos hj]
      · rintro ⟨hi, hj, he⟩
        have hi' := lt_of_getD_push_mem hxps hi (h.linked_mem _ he).1
        have hj' := lt_of_getD_push_mem hxps hj (h.linked_mem _ he).2
        refine ⟨hi', hj', ?_⟩
        rwa [hgetD i, hgetD j, if_pos hi', if_pos hj'] at he

theorem getD_mem_nodes {i : Nat} (hi : i < g.size) : g.nodes.getD i 0 ∈ g.nodes.toList := by
  simp only [Array.getD_eq_getD_getElem?, Array.getElem?_eq_getElem (show i < g.nodes.size from hi),
    Option.getD_some, Array.getElem_mem_toList]

/-- Joining node `u` to node `d`, unless they are joined already, records the pair of their objects. -/
theorem Tracks.link (hw : g.WellFormed) (h : g.Tracks ps es) {u d : Nat} (hu : u < g.size) (hd : d < g.size) :
    (if (g.successors.getD u []).contains d then g
      else { g with successors := g.successors.modify u (d :: ·), edgeCount := g.edgeCount + 1 }).Tracks ps
      (es ++ [(g.nodes.getD u 0, g.nodes.getD d 0)]) := by
  have hpair : (g.nodes.getD u 0, g.nodes.getD d 0) ∈ es ↔ (g.successors.getD u []).contains d = true := by
    rw [List.contains_iff_mem, ← succ, ← Edge, h.edge_iff]
    exact ⟨fun he => ⟨hu, hd, he⟩, fun he => he.2.2⟩
  have hmem : ∀ e ∈ es ++ [(g.nodes.getD u 0, g.nodes.getD d 0)],
      e.1 ∈ ps.map Prod.fst ∧ e.2 ∈ ps.map Prod.fst := by
    intro e he
    rcases List.mem_append.mp he with he | he
    · exact h.linked_mem e he
    · rw [List.mem_singleton.mp he, ← h.mem_nodes, ← h.mem_nodes]
      exact ⟨getD_mem_nodes hu, getD_mem_nodes hd⟩
  split
  · -- the pair is recorded already
    rename_i hc
    have hp := hpair.mpr hc
    refine ⟨h.nodes, h.names, hmem, fun i j => ?_, ?_⟩
    · rw [h.edge_iff, List.mem_append, List.mem_singleton]
      constructor
      · rintro ⟨hi, hj, he⟩
        exact ⟨hi, hj, .inl he⟩
      · rintro ⟨hi, hj, he | he⟩
        · exact ⟨hi, hj, he⟩
        · exact ⟨hi, hj, he ▸ hp⟩
    · rw [h.edgeCount, length_eraseDups_concat, if_pos hp, Nat.add_zero]
  · -- a new edge, for a pair not recorded before
    rename_i hc
    have hp : (g.nodes.getD u 0, g.nodes.getD d 0) ∉ es := fun hp => hc (hpair.mp hp)
    have hu' : u < g.successors.size := hw.successors_size ▸ hu
    refine ⟨h.nodes, h.names, hmem, fun i j => ?_, ?_⟩
    · show j ∈ DependencyGraph.succ _ i ↔ i < g.size ∧ j < g.size ∧ _
      rw [succ_modify, List.mem_append, List.mem_singleton]
      by_cases hui : u = i
      · subst hui
        rw [if_pos ⟨rfl, hu'⟩, List.mem_cons, ← Edge, h.edge_iff]
        constructor
        · rintro (rfl | ⟨hi, hj, he⟩)
          · exact ⟨hu, hd, .inr rfl⟩
          · exact ⟨hi, hj, .inl he⟩
        · rintro ⟨hi, hj, he | he⟩
          · exact .inr ⟨hi, hj, he⟩
          · exact .inl (h.eq_of_getD hj hd (Prod.mk.inj he).2)
      · rw [if_neg (fun h' => hui h'.1), ← Edge, h.edge_iff]
        constructor
        · rintro ⟨hi, hj, he⟩
          exact ⟨hi, hj, .inl he⟩
        · rintro ⟨hi, hj, he | he⟩
          · exact ⟨hi, hj, he⟩
          · exact absurd (h.eq_of_getD hu hi (Prod.mk.inj he).1.symm) hui
    · show g.edgeCount + 1 = _
      rw [h.edgeCount, length_eraseDups_concat, if_neg hp]

theorem Tracks.addEdge (hw : g.WellFormed) (h : g.Tracks ps es) (up down : Nat × String) :
    (g.addEdge up down).Tracks (ps ++ [up, down]) (es ++ [(up.1, down.1)]) := by
  unfold DependencyGraph.addEdge
  have h1 := h.resolve hw up.1 up.2
  have hw1 := hw.resolve up.1 up.2
  have hx1 := getD_resolve g up.1 up.2
  obtain ⟨hu, -⟩ := resolve_lt (g := g) up.1 up.2
  generalize g.resolve up.1 up.2 = p1 at h1 hw1 hx1 hu ⊢
  obtain ⟨g1, u⟩ := p1
  dsimp only at h1 hw1 hx1 hu ⊢
  have h2 := h1.resolve hw1 down.1 down.2
  have hw2 := hw1.resolve down.1 down.2
  have hx2 := getD_resolve g1 down.1 down.2
  have hx12 := getD_resolve_of_lt down.1 down.2 hu
  obtain ⟨hd, hle⟩ := resolve_lt (g := g1) down.1 down.2
  generalize g1.resolve down.1 down.2 = p2 at h2 hw2 hx2 hx12 hd hle ⊢
  obtain ⟨g2, d⟩ := p2
  dsimp only at h2 hw2 hx2 hx12 hd hle ⊢
  have := h2.link hw2 (show u < g2.size by omega) hd
  rwa [hx12, hx1, hx2, Prod.mk.eta, Prod.mk.eta, List.append_assoc, List.singleton_append] at this

theorem Tracks.apply (hw : g.WellFormed) (h : g.Tracks ps es) (c : GraphCall) :
    (g.apply c).Tracks (ps ++ c.mentions) (es ++ c.links) := by
  cases c with
  | edge up down => exact h.addEdge hw up down
  | command c => simpa [DependencyGraph.apply, GraphCall.mentions, GraphCall.links, addCommand] using h.resolve hw c.1 c.2

theorem WellFormed.apply (hw : g.WellFormed) (c : GraphCall) : (g.apply c).WellFormed := by
  cases c with
  | edge up down => exact hw.addEdge up down
  | command c => exact hw.addCommand c.1 c.2

theorem build_concat (calls : List GraphCall) (c : GraphCall) : build (calls ++ [c]) = (build calls).apply c := by
  simp [build]

theorem wellFormed_build (calls : List GraphCall) : (build calls).WellFormed := by
  induction calls using List.reverseRecOn with
  | nil => exact wellFormed_empty
  | append_singleton calls c ih => rw [build_concat]; exact ih.apply c

/-- The graph built by a sequence of calls records every command they mention and every edge they add. -/
theorem tracks_build (calls : List GraphCall) : (build calls).Tracks (mentioned calls) (linked calls) := by
  -- one call at a time, from the last: each keeps the record, extended by what it mentions and links
  induction calls using List.reverseRecOn with
  | nil => exact tracks_empty
  | append_singleton calls c ih =>
    rw [build_concat, mentioned, linked, List.flatMap_append, List.flatMap_append, List.flatMap_singleton,
      List.flatMap_singleton]
    exact ih.apply (wellFormed_build calls) c

/-- A call that mentions only known objects and adds only a known edge changes nothing, whatever names it gives. -/
theorem Tracks.apply_of_known (h : g.Tracks ps es) {c : GraphCall} (hm : ∀ p ∈ c.mentions, p.1 ∈ ps.map Prod.fst)
    (hl : ∀ e ∈ c.links, e ∈ es) : g.apply c = g := by
  cases c with
  | edge up down =>
    simp only [GraphCall.mentions, GraphCall.links, List.mem_cons, forall_eq_or_imp, forall_eq,
      List.not_mem_nil, or_false] at hm hl
    obtain ⟨u, hu, hul, hux⟩ := resolve_of_mem up.2 ((h.mem_nodes _).mpr hm.1)
    obtain ⟨d, hd, hdl, hdx⟩ := resolve_of_mem down.2 ((h.mem_nodes _).mpr hm.2)
    have hc : (g.successors.getD u []).contains d = true := by
      rw [List.contains_iff_mem, ← succ, ← Edge, h.edge_iff, hux, hdx]
      exact ⟨hul, hdl, hl⟩
    simp only [DependencyGraph.apply, DependencyGraph.addEdge, hu, hd, if_pos hc]
  | command c =>
    simp only [GraphCall.mentions, List.mem_singleton, forall_eq] at hm
    obtain ⟨i, hi, -⟩ := resolve_of_mem c.2 ((h.mem_nodes _).mpr hm)
    simp only [DependencyGraph.apply, addCommand, hi]

end DependencyGraph

/-! ## What validation counts -/

namespace ValidatedGraph

variable {vg : ValidatedGraph}

/-- What a validated graph's counters say of its edges: each node's in-degree is the number of nodes that list it as a
dependent, no node lists a dependent twice, the start nodes are the nodes of in-degree zero in node order, and the
edges are the in-degrees summed. -/
structure Counts (vg : ValidatedGraph) : Prop where
  inDegree : ∀ v < vg.size, vg.inDegree.getD v 0 = ((Finset.range vg.size).filter fun u => v ∈ vg.graph.succ u).card
  dependents_nodup : ∀ u, (vg.graph.succ u).Nodup
  startNodes : vg.startNodes = (List.range vg.size).filter fun v => vg.inDegree.getD v 0 = 0
  edgeCount : vg.edgeCount = ∑ v ∈ Finset.range vg.size, vg.inDegree.getD v 0

theorem Valid.counts (hg : vg.Valid) : vg.Counts where
  inDegree v hv := by
    rw [hg.inDegree_getD hv]
    simpa using hg.sum_count_eq_card v (fun _ => True)
  dependents_nodup := hg.wellFormed.succ_nodup
  startNodes := by
    obtain ⟨_, _, _, hin, hs⟩ := hg.eq
    rw [hs, ← hin]
    rfl
  edgeCount := by
    -- each edge is counted once, at the node it leads into, and leads into a node
    rw [Finset.sum_congr rfl fun v hv => hg.inDegree_getD (Finset.mem_range.mp hv), Finset.sum_comm, edgeCount,
      hg.wellFormed.edgeCount_eq]
    refine Finset.sum_congr rfl fun u _ => ?_
    have hlt : ∀ v ∈ (vg.graph.succ u : Multiset Nat), v ∈ Finset.range vg.size :=
      fun v hv => Finset.mem_range.mpr (hg.wellFormed.succ_lt u v (Multiset.mem_coe.mp hv))
    simpa using (Multiset.sum_count_eq_card hlt).symm

end ValidatedGraph

namespace DependencyGraph

/-- What the calls build: the record `Tracks` of the objects and edges they mention; a further call that mentions only
known objects and adds only a known edge, a repeated one among them, changes nothing; and validation, when it accepts
the graph, keeps it and counts its edges as the in-degrees of their nodes. -/
structure BuildsExactly (calls : List GraphCall) : Prop where
  tracks : (build calls).Tracks (mentioned calls) (linked calls)
  known_eq : ∀ c : GraphCall, (∀ p ∈ c.mentions, p.1 ∈ (mentioned calls).map Prod.fst) →
    (∀ e ∈ c.links, e ∈ linked calls) → build (calls ++ [c]) = build calls
  counts : ∀ vg, (build calls).validate = .ok vg → vg.graph = build calls ∧ vg.Counts

theorem buildsExactly (calls : List GraphCall) : BuildsExactly calls where
  tracks := tracks_build calls
  known_eq c hm hl := by rw [build_concat, (tracks_build calls).apply_of_known hm hl]
  counts vg h :=
    have hvg := (validate_eq_ok h).2
    ⟨hvg, ValidatedGraph.Valid.counts ⟨hvg ▸ wellFormed_build calls, hvg ▸ h⟩⟩

/-! ## Commands told apart by their names

When each name stands for one command object, and distinct names for distinct objects, the graph's nodes are the
distinct names and its edges the distinct pairs of names joined.
-/

section Named

variable {g : DependencyGraph} {obj : String → Nat} {ns : List String} {es : List (String × String)}

theorem firstName_named (hobj : ∀ a ∈ ns, ∀ b ∈ ns, obj a = obj b → a = b) {n : String} (hn : n ∈ ns) :
    firstName (ns.map fun m => (obj m, m)) (obj n) = n := by
  simp only [firstName, List.find?_map, Function.comp_def]
  cases hf : ns.find? (fun m => obj m = obj n) with
  | none => exact absurd hn (by simpa using List.find?_eq_none.mp hf n)
  | some m =>
    have hm := List.find?_some hf
    simp only [decide_eq_true_eq] at hm
    simp [hobj m (List.mem_of_find?_eq_some hf) n hn hm]

variable (hobj : ∀ a ∈ ns, ∀ b ∈ ns, obj a = obj b → a = b)
  (h : g.Tracks (ns.map fun n => (obj n, n)) (es.map fun e => (obj e.1, obj e.2)))
include hobj h

theorem Tracks.nodes_named : g.nodes.toList = ns.eraseDups.map obj := by
  rw [h.nodes, List.map_map]
  exact eraseDups_map_of_injOn hobj

/-- The nodes are the distinct names, in order of first mention. -/
theorem Tracks.names_named : g.names.toList = ns.eraseDups := by
  rw [h.names, h.nodes_named hobj, List.map_map]
  exact List.map_congr_left (fun n hn => firstName_named hobj (List.mem_eraseDups.mp hn)) |>.trans (List.map_id _)

theorem Tracks.names_size_named : g.names.size = g.size := by
  rw [← Array.length_toList, h.names_named hobj, size, ← Array.length_toList, h.nodes_named hobj, List.length_map]

theorem Tracks.nameOf_mem_named {i : Nat} (hi : i < g.size) : g.nameOf i ∈ ns := by
  have hi' : i < g.names.size := (h.names_size_named hobj).symm ▸ hi
  rw [nameOf, Array.getD_eq_getD_getElem?, Array.getElem?_eq_getElem hi', Option.getD_some,
    ← List.mem_eraseDups, ← h.names_named hobj]
  exact Array.getElem_mem_toList hi'

/-- Two nodes with one name are one node. -/
theorem Tracks.eq_of_nameOf_named {i j : Nat} (hi : i < g.size) (hj : j < g.size) (hij : g.nameOf i = g.nameOf j) :
    i = j := by
  have hnd : g.names.toList.Nodup := h.names_named hobj ▸ nodup_eraseDups _
  have hi' : i < g.names.size := (h.names_size_named hobj).symm ▸ hi
  have hj' : j < g.names.size := (h.names_size_named hobj).symm ▸ hj
  simp only [nameOf, Array.getD_eq_getD_getElem?, Array.getElem?_eq_getElem hi', Array.getElem?_eq_getElem hj',
    Option.getD_some] at hij
  rw [← Array.getElem_toList, ← Array.getElem_toList] at hij
  exact (List.Nodup.getElem_inj_iff hnd).mp hij

theorem Tracks.exists_nameOf_named {n : String} (hn : n ∈ ns) : ∃ i < g.size, g.nameOf i = n := by
  rw [← List.mem_eraseDups, ← h.names_named hobj, List.mem_iff_getElem] at hn
  obtain ⟨i, hi, rfl⟩ := hn
  have hi' : i < g.names.size := by simpa using hi
  refine ⟨i, h.names_size_named hobj ▸ hi', ?_⟩
  rw [nameOf, Array.getD_eq_getD_getElem?, Array.getElem?_eq_getElem hi', Option.getD_some, Array.getElem_toList]

/-- Each node's object is the object of its name. -/
theorem Tracks.getD_named {i : Nat} (hi : i < g.size) : g.nodes.getD i 0 = obj (g.nameOf i) := by
  have hi' : i < g.names.size := (h.names_size_named hobj).symm ▸ hi
  have hnodes : g.nodes.toList = g.names.toList.map obj := by rw [h.nodes_named hobj, h.names_named hobj]
  simp only [nameOf, Array.getD_eq_getD_getElem?, Array.getElem?_eq_getElem hi',
    Array.getElem?_eq_getElem (show i < g.nodes.size from hi), Option.getD_some]
  rw [← Array.getElem_toList, ← Array.getElem_toList]
  simp only [hnodes, List.getElem_map]

variable (hes : ∀ e ∈ es, e.1 ∈ ns ∧ e.2 ∈ ns)
include hes

/-- An edge joins two nodes exactly when a call joined their names. -/
theorem Tracks.edge_named {i j : Nat} (hi : i < g.size) (hj : j < g.size) :
    g.Edge i j ↔ (g.nameOf i, g.nameOf j) ∈ es := by
  rw [h.edge_iff, h.getD_named hobj hi, h.getD_named hobj hj, List.mem_map]
  constructor
  · rintro ⟨-, -, e, he, hee⟩
    obtain ⟨h1, h2⟩ := Prod.mk.inj hee
    rwa [← hobj _ (hes e he).1 _ (h.nameOf_mem_named hobj hi) h1,
      ← hobj _ (hes e he).2 _ (h.nameOf_mem_named hobj hj) h2]
  · exact fun he => ⟨hi, hj, _, he, rfl⟩

/-- The graph counts as its edges the distinct pairs of names joined. -/
theorem Tracks.edgeCount_named : g.edgeCount = es.eraseDups.length := by
  rw [h.edgeCount, eraseDups_map_of_injOn, List.length_map]
  intro e he e' he' hee
  obtain ⟨h1, h2⟩ := Prod.mk.inj hee
  exact Prod.ext (hobj _ (hes e he).1 _ (hes e' he').1 h1) (hobj _ (hes e he).2 _ (hes e' he').2 h2)

/-- The nodes with an edge into the node named `n` are as many as the distinct names joined to `n`. -/
theorem Tracks.card_upstream_named (n : String) :
    ((Finset.range g.size).filter fun u => (g.nameOf u, n) ∈ es).card =
      ((es.filter (·.2 = n)).map Prod.fst).eraseDups.length := by
  -- a node is told by its name, so counting nodes is counting their names
  rw [← List.toFinset_card_of_nodup (nodup_eraseDups _), ← Finset.card_image_of_injOn (f := g.nameOf)]
  · congr 1
    ext m
    simp only [Finset.mem_image, Finset.mem_filter, Finset.mem_range, List.mem_toFinset, List.mem_eraseDups,
      List.mem_map, List.mem_filter, decide_eq_true_eq]
    constructor
    · rintro ⟨u, ⟨-, he⟩, rfl⟩
      exact ⟨_, ⟨he, rfl⟩, rfl⟩
    · rintro ⟨e, ⟨he, rfl⟩, rfl⟩
      obtain ⟨u, hu, hue⟩ := h.exists_nameOf_named hobj (hes e he).1
      exact ⟨u, ⟨hu, by rw [hue]; exact he⟩, hue⟩
  · intro u hu v hv huv
    simp only [Finset.coe_filter, Finset.mem_range, Set.mem_ofPred_eq] at hu hv
    exact h.eq_of_nameOf_named hobj hu.1 hv.1 huv

/-- The in-degree a validated graph gives a name is the number of distinct names joined to it. -/
theorem Tracks.inDegreeOf_named {vg : ValidatedGraph} (hvg : vg.Valid) (hgv : vg.graph = g) {n : String}
    (hn : n ∈ ns) : vg.inDegreeOf? n = some ((es.filter (·.2 = n)).map Prod.fst).eraseDups.length := by
  subst hgv
  obtain ⟨i, hi, hni⟩ := h.exists_nameOf_named hobj hn
  have hfind : vg.find? n = some i := by
    rw [ValidatedGraph.find?, indices, List.find?_eq_some_iff_getElem]
    refine ⟨by simpa using hni, i, by simpa using hi, by simp, fun j hj => ?_⟩
    have hji : j ≠ i := Nat.ne_of_lt hj
    rw [List.getElem_range, ← hni]
    simpa using fun hji' => hji (h.eq_of_nameOf_named hobj (by omega) hi hji')
  rw [ValidatedGraph.inDegreeOf?, hfind, Option.map_some, hvg.counts.inDegree i hi, ← h.card_upstream_named hobj hes n]
  congr 2
  ext u
  simp only [Finset.mem_filter, Finset.mem_range]
  exact and_congr_right fun hu => by rw [← Edge, h.edge_named hobj hes hu hi, hni]

end Named

end DependencyGraph

end CommandEngine.Graph

namespace CommandEngine

namespace World

/-- Adding a command keeps what every other command is called. -/
theorem commandName_addCommand_of_lt (w : World) (c : Command) {i : CommandId} (hi : i < w.commands.size) :
    (w.addCommand c).1.commandName i = w.commandName i := by
  have hcmd : (w.addCommand c).1.command i = w.command i := by
    simp only [addCommand, command, Array.getD_eq_getD_getElem?, Array.getElem?_push, if_neg (Nat.ne_of_lt hi)]
  rw [commandName, hcmd, commandName]
  cases w.command i <;> rfl

theorem commandName_addCommand_recorder (w : World) (r : Recorder) :
    (w.addCommand (.recorder r none)).1.commandName (w.addCommand (.recorder r none)).2 = r.name := by
  simp [addCommand, commandName, command, nameOf, Array.getD_eq_getD_getElem?]

end World

namespace Session

open CommandEngine.Graph CommandEngine.Graph.DependencyGraph

/-! ## Fixture graphs -/

/-- The command a fixture made for the name `n`. -/
def fixtureOf (F : List (String × CommandId)) (n : String) : CommandId :=
  ((F.find? (·.1 = n)).map Prod.snd).getD 0

theorem fixtureOf_append {F G : List (String × CommandId)} {n : String} (hn : n ∈ F.map Prod.fst) :
    fixtureOf (F ++ G) n = fixtureOf F n := by
  rw [fixtureOf, fixtureOf, find?_fst_append hn]

namespace GraphBuilder

variable {gb : GraphBuilder}

/-- The fixture's names are distinct, and each stands for a distinct command of the world, which bears that name. -/
structure FixtureKeys (gb : GraphBuilder) : Prop where
  names_nodup : (gb.fixture.map Prod.fst).Nodup
  ids_nodup : (gb.fixture.map Prod.snd).Nodup
  lt : ∀ p ∈ gb.fixture, p.2 < gb.world.commands.size
  named : ∀ p ∈ gb.fixture, gb.world.commandName p.2 = p.1

/-- Making an instrumented command for a name the fixture no longer holds keeps its keys. -/
theorem FixtureKeys.record (h : gb.FixtureKeys) (r : Recorder) {F : List (String × CommandId)}
    (hF : F.Sublist gb.fixture) (hr : r.name ∉ F.map Prod.fst) :
    FixtureKeys
      { gb with
        builder := { gb.builder with world := (gb.world.addCommand (.recorder r none)).1 }
        fixture := F ++ [(r.name, (gb.world.addCommand (.recorder r none)).2)] } := by
  have hlt : ∀ p ∈ F, p.2 < gb.world.commands.size := fun p hp => h.lt p (hF.subset hp)
  refine ⟨?_, ?_, fun p hp => ?_, fun p hp => ?_⟩
  · rw [List.map_append, List.nodup_append]
    refine ⟨(hF.map _).nodup h.names_nodup, List.nodup_singleton _, fun x hx y hy hxy => hr ?_⟩
    rw [List.map_singleton, List.mem_singleton] at hy
    rw [hxy, hy] at hx
    exact hx
  · rw [List.map_append, List.nodup_append]
    refine ⟨(hF.map _).nodup h.ids_nodup, List.nodup_singleton _, fun x hx y hy hxy => ?_⟩
    obtain ⟨p, hp, rfl⟩ := List.mem_map.mp hx
    rw [List.map_singleton, List.mem_singleton] at hy
    exact Nat.ne_of_lt (hlt p hp) (hxy.trans hy)
  · show p.2 < (gb.world.commands.push _).size
    rw [Array.size_push]
    rcases List.mem_append.mp hp with hp | hp
    · exact Nat.lt_succ_of_lt (hlt p hp)
    · rw [List.mem_singleton.mp hp]
      exact Nat.lt_succ_self _
  · show (gb.world.addCommand _).1.commandName p.2 = p.1
    rcases List.mem_append.mp hp with hp | hp
    · rw [World.commandName_addCommand_of_lt _ _ (hlt p hp), h.named p (hF.subset hp)]
    · rw [List.mem_singleton.mp hp]
      exact World.commandName_addCommand_recorder _ r

theorem FixtureKeys.fixtureOf_eq (h : gb.FixtureKeys) {p : String × CommandId} (hp : p ∈ gb.fixture) :
    fixtureOf gb.fixture p.1 = p.2 := by
  obtain ⟨q, hq⟩ : ∃ q, gb.fixture.find? (·.1 = p.1) = some q :=
    Option.isSome_iff_exists.mp (List.find?_isSome.mpr ⟨p, hp, by simp⟩)
  have hqp : q = p := List.inj_on_of_nodup_map h.names_nodup (List.mem_of_find?_eq_some hq) hp
    (by simpa using List.find?_some hq)
  rw [fixtureOf, hq, hqp]
  rfl

/-- A name of the fixture stands for a command that bears it. -/
theorem FixtureKeys.commandName_fixtureOf (h : gb.FixtureKeys) {n : String} (hn : n ∈ gb.fixture.map Prod.fst) :
    gb.world.commandName (fixtureOf gb.fixture n) = n := by
  obtain ⟨p, hp, rfl⟩ := List.mem_map.mp hn
  rw [h.fixtureOf_eq hp, h.named p hp]

/-- Distinct names of the fixture stand for distinct commands. -/
theorem FixtureKeys.fixtureOf_inj (h : gb.FixtureKeys) {a b : String} (ha : a ∈ gb.fixture.map Prod.fst)
    (hb : b ∈ gb.fixture.map Prod.fst) (hab : fixtureOf gb.fixture a = fixtureOf gb.fixture b) : a = b := by
  obtain ⟨p, hp, rfl⟩ := List.mem_map.mp ha
  obtain ⟨q, hq, rfl⟩ := List.mem_map.mp hb
  rw [h.fixtureOf_eq hp, h.fixtureOf_eq hq] at hab
  rw [List.inj_on_of_nodup_map h.ids_nodup hp hq hab]

/-- `gb'` holds the commands `gb` made for names, possibly with more after them, and the same graph. -/
structure Grows (gb gb' : GraphBuilder) : Prop where
  fixture : ∃ G, gb'.fixture = gb.fixture ++ G
  graph : gb'.graph = gb.graph

theorem Grows.mem {gb' : GraphBuilder} (hg : Grows gb gb') {n : String} (hn : n ∈ gb.fixture.map Prod.fst) :
    n ∈ gb'.fixture.map Prod.fst := by
  obtain ⟨G, hG⟩ := hg.fixture
  rw [hG, List.map_append]
  exact List.mem_append_left _ hn

theorem Grows.fixtureOf_eq {gb' : GraphBuilder} (hg : Grows gb gb') {n : String} (hn : n ∈ gb.fixture.map Prod.fst) :
    fixtureOf gb'.fixture n = fixtureOf gb.fixture n := by
  obtain ⟨G, hG⟩ := hg.fixture
  rw [hG, fixtureOf_append hn]

/-- The command of a fixture name: the one made for it, or else a new one, recorded under that name. -/
theorem FixtureKeys.fixtureCommand (h : gb.FixtureKeys) {n : String} {gb' : GraphBuilder} {c : CommandId}
    (hq : gb.fixtureCommand n = (gb', c)) :
    gb'.FixtureKeys ∧ Grows gb gb' ∧ n ∈ gb'.fixture.map Prod.fst ∧ c = fixtureOf gb'.fixture n := by
  unfold GraphBuilder.fixtureCommand at hq
  split at hq
  · rename_i p c' hf
    obtain ⟨rfl, rfl⟩ := Prod.mk.inj hq
    refine ⟨h, ⟨⟨[], by simp⟩, rfl⟩, ?_, by rw [fixtureOf, hf]; rfl⟩
    have hp := List.find?_some hf
    simp only [decide_eq_true_eq] at hp
    exact List.mem_map.mpr ⟨_, List.mem_of_find?_eq_some hf, hp⟩
  · rename_i hf
    obtain ⟨rfl, rfl⟩ := Prod.mk.inj hq
    have hn : n ∉ gb.fixture.map Prod.fst := fun hn => by
      obtain ⟨p, hp, rfl⟩ := List.mem_map.mp hn
      exact absurd (List.find?_eq_none.mp hf p hp) (by simp)
    refine ⟨h.record { name := n } (List.Sublist.refl _) hn, ⟨⟨_, rfl⟩, rfl⟩, by simp, ?_⟩
    rw [fixtureOf, List.find?_append, hf]
    simp

/-- A fixture name's command is keyed in the graph by itself and that name. -/
theorem FixtureKeys.keyOf (h : gb.FixtureKeys) {n : String} (hn : n ∈ gb.fixture.map Prod.fst) :
    gb.keyOf (fixtureOf gb.fixture n) = (fixtureOf gb.fixture n, n) := by
  rw [GraphBuilder.keyOf, h.commandName_fixtureOf hn]

/-- A fixture under construction: the names `ns` mentioned so far, each with a command, and the edges `es` added
between them, all of which the graph tracks. -/
structure FixtureState (gb : GraphBuilder) (ns : List String) (es : List (String × String)) : Prop where
  keys : gb.FixtureKeys
  mem : ∀ n ∈ ns, n ∈ gb.fixture.map Prod.fst
  edges_mem : ∀ e ∈ es, e.1 ∈ ns ∧ e.2 ∈ ns
  wellFormed : gb.graph.WellFormed
  tracks : gb.graph.Tracks (ns.map fun n => (fixtureOf gb.fixture n, n))
    (es.map fun e => (fixtureOf gb.fixture e.1, fixtureOf gb.fixture e.2))

variable {ns : List String} {es : List (String × String)}

theorem fixtureState_empty (h : gb.FixtureKeys ∧ gb.graph = {}) : FixtureState gb [] [] where
  keys := h.1
  mem := by simp
  edges_mem := by simp
  wellFormed := h.2 ▸ wellFormed_empty
  tracks := h.2 ▸ tracks_empty

/-- Making commands for more names keeps the state of the names mentioned before. -/
theorem FixtureState.grow {gb' : GraphBuilder} (h : FixtureState gb ns es) (hk : gb'.FixtureKeys) (hg : Grows gb gb') :
    FixtureState gb' ns es := by
  have hns : ns.map (fun n => (fixtureOf gb'.fixture n, n)) = ns.map (fun n => (fixtureOf gb.fixture n, n)) :=
    List.map_congr_left fun n hn => by rw [hg.fixtureOf_eq (h.mem n hn)]
  have hes : es.map (fun e => (fixtureOf gb'.fixture e.1, fixtureOf gb'.fixture e.2)) =
      es.map (fun e => (fixtureOf gb.fixture e.1, fixtureOf gb.fixture e.2)) :=
    List.map_congr_left fun e he => by
      rw [hg.fixtureOf_eq (h.mem _ (h.edges_mem e he).1), hg.fixtureOf_eq (h.mem _ (h.edges_mem e he).2)]
  refine ⟨hk, fun n hn => hg.mem (h.mem n hn), h.edges_mem, hg.graph ▸ h.wellFormed, ?_⟩
  rw [hns, hes, hg.graph]
  exact h.tracks

/-- Joining the commands of two names. -/
theorem FixtureState.edge (h : FixtureState gb ns es) {a b : String} {gb1 gb2 : GraphBuilder} {u d : CommandId}
    (h1 : gb.fixtureCommand a = (gb1, u)) (h2 : gb1.fixtureCommand b = (gb2, d)) :
    FixtureState { gb2 with graph := gb2.graph.addEdge (gb2.keyOf u) (gb2.keyOf d) } (ns ++ [a, b])
      (es ++ [(a, b)]) := by
  obtain ⟨hk1, hg1, ha1, rfl⟩ := h.keys.fixtureCommand h1
  obtain ⟨hk2, hg2, hb2, rfl⟩ := hk1.fixtureCommand h2
  have hs := (h.grow hk1 hg1).grow hk2 hg2
  have ha2 := hg2.mem ha1
  rw [← hg2.fixtureOf_eq ha1, hk2.keyOf ha2, hk2.keyOf hb2]
  refine ⟨⟨hk2.1, hk2.2, hk2.3, hk2.4⟩, fun n hn => ?_, fun e he => ?_, hs.wellFormed.addEdge _ _, ?_⟩
  · simp only [List.mem_append, List.mem_cons, List.not_mem_nil, or_false] at hn
    rcases hn with hn | rfl | rfl
    exacts [hs.mem n hn, ha2, hb2]
  · simp only [List.mem_append, List.mem_cons, List.not_mem_nil, or_false] at he ⊢
    rcases he with he | rfl
    · exact ⟨.inl (hs.edges_mem e he).1, .inl (hs.edges_mem e he).2⟩
    · exact ⟨.inr (.inl rfl), .inr (.inr rfl)⟩
  · simpa using hs.tracks.addEdge hs.wellFormed (fixtureOf gb2.fixture a, a) (fixtureOf gb2.fixture b, b)

/-- Registering the command of a name. -/
theorem FixtureState.node (h : FixtureState gb ns es) {n : String} {gb1 : GraphBuilder} {c : CommandId}
    (h1 : gb.fixtureCommand n = (gb1, c)) :
    FixtureState { gb1 with graph := gb1.graph.addCommand c (gb1.world.commandName c) } (ns ++ [n]) es := by
  obtain ⟨hk1, hg1, hn1, rfl⟩ := h.keys.fixtureCommand h1
  have hs := h.grow hk1 hg1
  rw [hk1.commandName_fixtureOf hn1]
  refine ⟨⟨hk1.1, hk1.2, hk1.3, hk1.4⟩, fun m hm => ?_, fun e he => ?_, hs.wellFormed.addCommand _ _, ?_⟩
  · rcases List.mem_append.mp hm with hm | hm
    · exact hs.mem m hm
    · rw [List.mem_singleton.mp hm]
      exact hn1
  · exact ⟨List.mem_append_left _ (hs.edges_mem e he).1, List.mem_append_left _ (hs.edges_mem e he).2⟩
  · simpa [addCommand] using hs.tracks.resolve hs.wellFormed (fixtureOf gb1.fixture n) n

/-- A property of the state and of the items taken so far, kept by taking each item, holds after a fold. -/
theorem foldl_invariant {α β : Type} (P : β → List α → Prop) {f : β → α → β}
    (step : ∀ b done a, P b done → P (f b a) (done ++ [a])) :
    ∀ (l : List α) (b : β) (done : List α), P b done → P (l.foldl f b) (done ++ l)
  | [], b, done, h => by simpa using h
  | a :: l, b, done, h => by simpa using foldl_invariant P step l (f b a) (done ++ [a]) (step b done a h)

/-- A fixture built from a builder with no fixture and an empty graph mentions the names of its edges, then those of
its nodes, and adds its edges. -/
theorem fixtureState_applyFixture (b : Builder) (made : List (String × CommandId)) (f : FixtureSpec) :
    FixtureState (({ builder := b, made } : GraphBuilder).applyFixture f)
      (f.edges.flatMap (fun e => [e.1, e.2]) ++ f.nodes) f.edges := by
  unfold GraphBuilder.applyFixture
  -- the three folds, from the last: nodes, then edges, extend the state; the recorders keep the keys and the graph
  refine foldl_invariant (fun gb done => FixtureState gb (f.edges.flatMap (fun e => [e.1, e.2]) ++ done) f.edges)
    (fun gb done n h => ?_) f.nodes _ [] ?_
  · rw [← List.append_assoc]
    exact h.node Prod.mk.eta.symm
  · rw [List.append_nil]
    refine foldl_invariant (fun gb done => FixtureState gb (done.flatMap fun e => [e.1, e.2]) done)
      (fun gb done e h => ?_) f.edges _ [] (fixtureState_empty ?_)
    · obtain ⟨a, b⟩ := e
      rw [List.flatMap_append, List.flatMap_singleton]
      exact h.edge Prod.mk.eta.symm Prod.mk.eta.symm
    · refine foldl_invariant (fun (gb : GraphBuilder) (_ : List Recorder) => gb.FixtureKeys ∧ gb.graph = {})
        (fun gb _ r h => ⟨h.1.record r List.filter_sublist (by simp), h.2⟩) f.commands _ [] ⟨⟨?_, ?_, ?_, ?_⟩, rfl⟩ <;>
        simp

end GraphBuilder

/-- What a fixture graph is: one node per distinct name of its edges and then of its nodes, in order of first mention;
one edge per distinct pair of names joined; and, once validated, as the in-degree of each of its names the number of
distinct names joined to it. -/
structure FixtureBuilds (gb : GraphBuilder) (f : FixtureSpec) : Prop where
  names : gb.graph.names.toList = (f.edges.flatMap (fun e => [e.1, e.2]) ++ f.nodes).eraseDups
  edgeCount : gb.graph.edgeCount = f.edges.eraseDups.length
  inDegreeOf : ∀ vg, gb.graph.validate = .ok vg → ∀ n ∈ f.edges.flatMap (fun e => [e.1, e.2]) ++ f.nodes,
    vg.inDegreeOf? n = some ((f.edges.filter (·.2 = n)).map Prod.fst).eraseDups.length

namespace GraphBuilder

/-- Names that stand for distinct commands make the graph of names that the fixture describes. -/
theorem FixtureState.builds {gb : GraphBuilder} {f : FixtureSpec}
    (h : FixtureState gb (f.edges.flatMap (fun e => [e.1, e.2]) ++ f.nodes) f.edges) : FixtureBuilds gb f := by
  have hobj : ∀ a ∈ f.edges.flatMap (fun e => [e.1, e.2]) ++ f.nodes,
      ∀ b ∈ f.edges.flatMap (fun e => [e.1, e.2]) ++ f.nodes, fixtureOf gb.fixture a = fixtureOf gb.fixture b → a = b :=
    fun a ha b hb => h.keys.fixtureOf_inj (h.mem a ha) (h.mem b hb)
  refine ⟨h.tracks.names_named hobj, h.tracks.edgeCount_named hobj h.edges_mem, fun vg hv n hn => ?_⟩
  have hgv := (validate_eq_ok hv).2
  exact h.tracks.inDegreeOf_named hobj h.edges_mem ⟨hgv ▸ h.wellFormed, hgv ▸ hv⟩ hgv hn

end GraphBuilder

/-- Building a dependency graph yields exactly the commands and edges mentioned, by any calls (`BuildsExactly`), and a
fixture graph one node per distinct name (`FixtureBuilds`). -/
theorem graph_builds_exactly :
    (∀ calls, DependencyGraph.BuildsExactly calls) ∧
      ∀ (b : Builder) (made : List (String × CommandId)) (f : FixtureSpec),
        FixtureBuilds (({ builder := b, made } : GraphBuilder).applyFixture f) f :=
  ⟨buildsExactly, fun b made f => (GraphBuilder.fixtureState_applyFixture b made f).builds⟩

/- A repeated edge is one edge, and `b` has the two distinct names `a` and `c` upstream. -/
example : (({ builder := {} } : GraphBuilder).applyFixture
    { edges := [("a", "b"), ("a", "b"), ("c", "b")] }).graph.names.toList = ["a", "b", "c"] := by
  cbv

example : ((({ builder := {} } : GraphBuilder).applyFixture
    { edges := [("a", "b"), ("a", "b"), ("c", "b")] }).graph.validate.toOption.bind (·.inDegreeOf? "b")) = some 2 := by
  cbv

end Session

end CommandEngine
