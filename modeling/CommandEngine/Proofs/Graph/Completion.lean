import CommandEngine.Proofs.Graph.Skipping

/-!
# Completing a running node

When the command of a running node reports back, `RunState.complete` ends the node and settles the edges out of it, and
out of each dependent a failure skips, through a stack of skipped nodes still to be settled. At every point of every
run (`Scheduler.complete_settles_exactly`) it:

* ends the node as its command reported, and changes no other node but the ones it skips;
* takes off each counter exactly the edges into it out of the node and out of the nodes it skipped;
* after a failure under the policy that skips dependents, skips exactly the pending nodes below the node, each once,
  and makes no node ready;
* otherwise skips nothing, and makes ready exactly the pending dependents whose counter reached zero, each once;
* pops its work stack at most once a node: a node goes onto the stack only when it turns from pending to skipped, so
  the loop ends within as many pops as the graph has nodes (`RunState.DrainsWithin`).
-/

namespace CommandEngine.Graph

open Relation

namespace RunState

/-! ## The settling loop ends -/

/-- The settling loop, from the work stack `W` (top first), empties its stack within `n` pops. -/
def DrainsWithin (skip : Bool) : Nat → List Nat → RunState → SettleStep → Prop
  | _, [], _, _ => True
  | 0, _ :: _, _, _ => False
  | n + 1, u :: rest, s, st =>
    let (s, st, pushed) := settleEdges skip (s.dependents.getD u []) s st
    DrainsWithin skip n (pushed.reverse ++ rest) s st

variable {skip : Bool}

/-- The loop does nothing once its work stack is empty, whatever its fuel. -/
theorem drain_nil (n : Nat) (s : RunState) (st : SettleStep) : s.drain skip n [] st = (s, st) := by
  cases n <;> rfl

/-- A loop that empties its stack within `n` pops is done after them: more fuel changes nothing. -/
theorem DrainsWithin.drain_add : ∀ {n : Nat} {W : List Nat} {s : RunState} {st : SettleStep},
    DrainsWithin skip n W s st → ∀ k, s.drain skip (n + k) W st = s.drain skip n W st
  | n, [], s, st, _, k => by rw [drain_nil, drain_nil]
  | 0, _ :: _, _, _, h, _ => h.elim
  | n + 1, u :: rest, s, st, h, k => by
    rw [show n + 1 + k = n + k + 1 by omega]
    simp only [DrainsWithin] at h
    simp only [drain]
    generalize s.settleEdges skip (s.dependents.getD u []) st = r at h
    obtain ⟨s1, st1, pushed⟩ := r
    exact h.drain_add k

variable {s₀ : RunState}

/-- A budget of pops beyond the work stack and the pending nodes is enough: each pop takes one node off the stack, and
each node pushed was pending until then. -/
theorem Drain.drainsWithin : ∀ (n : Nat) (W : List Nat) (cur : Nat) (s : RunState) (st : SettleStep),
    Drain skip s₀ W cur [] s st → W.length + s.pendingCount ≤ n → DrainsWithin skip n W s st
  | n, [], _, _, _, _, _ => by cases n <;> trivial
  | 0, _ :: _, _, _, _, _, hn => absurd hn (by simp)
  | n + 1, u :: rest, _, s, st, h, hn => by
    obtain ⟨h1, hc1⟩ := h.pop.settleEdges
    have hdeps : s.dependents.getD u [] = s.dependentsOf u := rfl
    simp only [DrainsWithin, hdeps]
    generalize s.settleEdges skip (s.dependentsOf u) st = r at h1 hc1
    obtain ⟨s1, st1, pushed⟩ := r
    dsimp only at h1 hc1 ⊢
    refine Drain.drainsWithin n _ u s1 st1 (h1.perm (List.perm_append_right_iff _ |>.mpr (List.reverse_perm _).symm)) ?_
    simp only [List.length_cons] at hn
    simp only [List.length_append, List.length_reverse]
    omega

section Complete

variable {s : RunState} (ht : s.Tally) (hlive : ∀ x < s.states.size, s.stateOf x = .pending → 0 < s.pendingOf x)
  {v : Nat} (hv : v < s.states.size) (hrun : s.stateOf v = .running) (b : Bool)
include ht hlive hv hrun

/-- Completing a running node pops its work stack at most once a node: the node itself, and each node it skips, which
was pending until then. -/
theorem complete_drainsWithin :
    DrainsWithin (!b && decide (s.policy = .skipDependents)) s.states.size [v] (s.ended v b) {} := by
  have hself : (s.ended v b).stateOf v ≠ .pending := by
    rw [stateOf_ended hv]
    cases b <;> simp
  have hlt := pendingCount_lt (s := s.ended v b) (by simpa using hv) hself
  refine Drain.drainsWithin _ _ _ _ _ (Drain.init ht hlive hv hrun b) ?_
  simp only [List.length_singleton, ended_states_size] at hlt ⊢
  omega

/-- What completing a running node gives is what its loop leaves after at most one pop a node. -/
theorem complete_eq_drain_size :
    s.complete v b = (s.ended v b).drain (!b && decide (s.policy = .skipDependents)) s.states.size [v] {} := by
  rw [complete_eq (by simp [hrun, NodeState.isTerminal]), ended_states_size]
  exact (complete_drainsWithin ht hlive hv hrun b).drain_add 1

end Complete

/-- Some node of a work stack has an edge into a node the stack still owes an edge. -/
theorem exists_edge_of_debt_pos {s : RunState} {W : List Nat} {x : Nat} (h : 0 < s.debt W x) :
    ∃ u ∈ W, s.Edge u x := by
  obtain ⟨c, hc, hpos⟩ := List.sum_pos_iff_exists_pos_nat.mp h
  obtain ⟨u, hu, rfl⟩ := List.mem_map.mp hc
  exact ⟨u, hu, List.count_pos_iff.mp hpos⟩

end RunState

/-! ## Completing a node of a run -/

/-- What completing the running node `v` with success `b` does to the state `s` of a run of `g`, giving the state `s'`
and the step `st`. -/
structure SettlesExactly (g : ValidatedGraph) (s : RunState) (v : Nat) (b : Bool) (s' : RunState) (st : SettleStep) :
    Prop where
  /-- The node ends as its command reported. -/
  ends : s'.stateOf v = if b then .succeeded else .failed
  /-- Every other node keeps its state, but the nodes newly skipped. -/
  others : ∀ x, x ≠ v → s'.stateOf x = if x ∈ st.skipped then .skipped else s.stateOf x
  /-- Each counter drops by exactly the edges into it out of the node and out of the nodes newly skipped. -/
  counters : ∀ x < g.size,
    s'.pendingOf x + ((v :: st.skipped).map fun u => (g.graph.succ u).count x).sum = s.pendingOf x
  /-- After a failure under the policy that skips dependents, no node becomes ready, and the nodes newly skipped are
  the pending nodes below the node, each once. -/
  skips : b = false → s.policy = .skipDependents →
    st.ready = [] ∧ st.skipped.Nodup ∧ ∀ x, x ∈ st.skipped ↔ TransGen g.graph.Edge v x ∧ s.stateOf x = .pending
  /-- Otherwise no node is skipped, and the nodes made ready are the pending dependents whose counter reached zero, each
  once. -/
  releases : b = true ∨ s.policy = .runDependents →
    st.skipped = [] ∧ st.ready.Nodup ∧
      ∀ x, x ∈ st.ready ↔ x ∈ g.graph.succ v ∧ s.stateOf x = .pending ∧ s'.pendingOf x = 0
  /-- The settling loop empties its stack within one pop a node, and what it leaves then is the result. -/
  pops : RunState.DrainsWithin (!b && decide (s.policy = .skipDependents)) g.size [v] (s.ended v b) {} ∧
    (s', st) = (s.ended v b).drain (!b && decide (s.policy = .skipDependents)) g.size [v] {}

namespace Run

variable {g : ValidatedGraph} {policy : FailurePolicy} {r : Run} {w : World}

/-- The edges of the run's state are the graph's, before and after completing a node. -/
theorem Inv.completed_edge (hI : r.Inv g policy w) {v : Nat} (hv : r.state.stateOf v = .running) (b : Bool) :
    (r.state.complete v b).1.Edge = g.graph.Edge := by
  funext u x
  rw [← hI.edge_eq]
  simp [RunState.Edge, RunState.dependentsOf, (hI.completed hv b).dependents_eq]

/-- The stack of a completion owes a node exactly the edges into it out of the completed node and the skipped ones. -/
theorem Inv.debt_eq (hI : r.Inv g policy w) (W : List Nat) (x : Nat) :
    r.state.debt W x = (W.map fun u => (g.graph.succ u).count x).sum := by
  simp only [RunState.debt, hI.dependentsOf_eq]

section Complete

variable (hI : r.Inv g policy w) {v : Nat} (hv : r.state.stateOf v = .running) (b : Bool)
include hI hv

/-- A node newly made ready was pending before, and its counter dropped because of an edge out of the completed node or
out of a node it skipped. -/
theorem Inv.ready_below {x : Nat} (hx : x ∈ (r.state.complete v b).2.ready) :
    r.state.stateOf x = .pending ∧ ∃ u ∈ v :: (r.state.complete v b).2.skipped, x ∈ g.graph.succ u := by
  have hC := hI.completed hv b
  obtain ⟨hxn, hxp, hx0⟩ := hC.mem_ready x hx
  have hp : r.state.stateOf x = .pending := (hI.ready_fresh hv b hx).2.1
  have hpos := hI.live x (hI.size_eq ▸ hxn) hp
  -- the counter fell from above zero to zero, so the stack owed it an edge
  have hdebt : 0 < r.state.debt (v :: (r.state.complete v b).2.skipped) x := by
    have := hC.settled_once x hxn
    omega
  obtain ⟨u, hu, he⟩ := RunState.exists_edge_of_debt_pos hdebt
  exact ⟨hp, u, hu, by rw [← hI.dependentsOf_eq]; exact he⟩

/-- After a failure under the policy that skips dependents, a node is newly skipped exactly when it was pending and lies
below the failed node: a pending node below is reached by the skipping, and a node skipped below another failed node
was skipped already. -/
theorem Inv.mem_skipped_iff (hb : b = false) (hp : policy = .skipDependents) (x : Nat) :
    x ∈ (r.state.complete v b).2.skipped ↔ TransGen g.graph.Edge v x ∧ r.state.stateOf x = .pending := by
  have hC := hI.completed hv b
  have hpol : (r.state.complete v b).1.policy = .skipDependents := hC.policy_eq.trans (hI.policy_eq.trans hp)
  have hfailed : (r.state.complete v b).1.stateOf v = .failed := by
    rw [hC.stateOf_self]
    simp [hb]
  rw [hC.mem_skipped]
  constructor
  · rintro ⟨hpend, hsk⟩
    obtain ⟨f, hf, hpath⟩ := hC.tally.origin x hsk
    rw [hI.completed_edge hv b] at hpath
    rcases hC.settled_of (t := .failed) (by decide) hf with ⟨rfl, -⟩ | hf'
    · exact ⟨hpath, hpend⟩
    · -- below a node that had failed before, the node would have been skipped already
      have := hI.skipped_below hp (.inl hf') hpath
      rw [hpend] at this
      cases this
  · rintro ⟨hpath, hpend⟩
    refine ⟨hpend, hC.tally.skipped_below hpol (.inl hfailed) ?_⟩
    rwa [hI.completed_edge hv b]

/-- After a failure under the policy that skips dependents, no node becomes ready: every node the completion owed an
edge is skipped. -/
theorem Inv.ready_eq_nil (hb : b = false) (hp : policy = .skipDependents) : (r.state.complete v b).2.ready = [] := by
  have hC := hI.completed hv b
  have hpol : (r.state.complete v b).1.policy = .skipDependents := hC.policy_eq.trans (hI.policy_eq.trans hp)
  refine List.eq_nil_iff_forall_not_mem.mpr fun x hx => ?_
  obtain ⟨-, u, hu, he⟩ := hI.ready_below hv b hx
  have hu' : (r.state.complete v b).1.stateOf u = .failed ∨ (r.state.complete v b).1.stateOf u = .skipped := by
    rcases List.mem_cons.mp hu with rfl | hu
    · exact .inl (by rw [hC.stateOf_self]; simp [hb])
    · exact .inr ((hC.mem_skipped u).mp hu).2
  have hsk := hC.tally.closure hpol u x (by rw [hI.completed_edge hv b]; exact he) hu'
  have := (hC.mem_ready x hx).2.1
  rw [hsk] at this
  cases this

/-- Unless a failure skips dependents, completing a node changes the state of no other node. -/
theorem Inv.stateOf_complete_other (hno : b = true ∨ policy = .runDependents) {x : Nat} (hxv : x ≠ v) :
    (r.state.complete v b).1.stateOf x = r.state.stateOf x := by
  rcases (hI.completed hv b).stateOf_other x hxv with h | ⟨hb, hp, -⟩
  · exact h
  · rcases hno with hb' | hp'
    · rw [hb] at hb'
      cases hb'
    · rw [hI.policy_eq, hp'] at hp
      cases hp

/-- Unless a failure skips dependents, completing a node skips nothing. -/
theorem Inv.skipped_eq_nil (hno : b = true ∨ policy = .runDependents) : (r.state.complete v b).2.skipped = [] := by
  refine List.eq_nil_iff_forall_not_mem.mpr fun x hx => ?_
  obtain ⟨hpend, hsk⟩ := ((hI.completed hv b).mem_skipped x).mp hx
  have hxv : x ≠ v := by
    rintro rfl
    rw [hv] at hpend
    cases hpend
  rw [hI.stateOf_complete_other hv b hno hxv, hpend] at hsk
  cases hsk

/-- Completing a running node does exactly what `SettlesExactly` says. -/
theorem Inv.settlesExactly : SettlesExactly g r.state v b (r.state.complete v b).1 (r.state.complete v b).2 := by
  have hC := hI.completed hv b
  have hvn : v < r.state.states.size := hI.size_eq ▸ hI.lt_of_ne_pending (by simp [hv])
  have hlive : ∀ x < r.state.states.size, r.state.stateOf x = .pending → 0 < r.state.pendingOf x :=
    fun x hx => hI.live x (hI.size_eq ▸ hx)
  refine ⟨hC.stateOf_self, fun x hxv => ?_, fun x hx => ?_, fun hb hp => ?_, fun hno => ?_, ?_⟩
  · -- a node that changed besides the completed one was pending and is now skipped
    split
    · exact ((hC.mem_skipped x).mp ‹_›).2
    · rename_i hxs
      rcases hC.stateOf_other x hxv with h | ⟨-, -, hpend, hsk⟩
      · exact h
      · exact absurd ((hC.mem_skipped x).mpr ⟨hpend, hsk⟩) hxs
  · rw [← hI.debt_eq]
    exact hC.settled_once x (hI.size_eq ▸ hx)
  · have hp' : policy = .skipDependents := hI.policy_eq ▸ hp
    exact ⟨hI.ready_eq_nil hv b hb hp', hC.skipped_nodup, hI.mem_skipped_iff hv b hb hp'⟩
  · have hno' : b = true ∨ policy = .runDependents := hI.policy_eq ▸ hno
    have hnil := hI.skipped_eq_nil hv b hno'
    refine ⟨hnil, hC.ready_nodup, fun x => ⟨fun hx => ?_, fun ⟨hsucc, hpend, hzero⟩ => ?_⟩⟩
    · obtain ⟨hpend, u, hu, he⟩ := hI.ready_below hv b hx
      rw [hnil, List.mem_singleton] at hu
      exact ⟨hu ▸ he, hpend, (hC.mem_ready x hx).2.2⟩
    · -- a pending dependent keeps its state, so with its counter at zero it was reported ready
      have hxv : x ≠ v := by
        rintro rfl
        rw [hv] at hpend
        cases hpend
      have hxn : x < r.state.states.size := hI.tally.dependents_lt v x (by rw [hI.dependentsOf_eq]; exact hsucc)
      have hpend' : (r.state.complete v b).1.stateOf x = .pending := by
        rw [hI.stateOf_complete_other hv b hno' hxv, hpend]
      rcases hC.live x hxn hpend' with hpos | hmem
      · omega
      · exact hmem
  · rw [← hI.size_eq]
    exact ⟨RunState.complete_drainsWithin hI.tally hlive hvn hv b,
      RunState.complete_eq_drain_size hI.tally hlive hvn hv b⟩

end Complete

end Run

namespace Scheduler

variable {g : ValidatedGraph}

/-- At every point of every run, completing a running node ends it as its command reported, settles each edge out of
it and out of the nodes it skips exactly once, skips exactly the pending nodes below it after a failure that skips
dependents and makes none ready then, makes ready exactly its pending dependents whose counter reached zero otherwise,
and empties its work stack within one pop a node. -/
theorem complete_settles_exactly (hg : g.Valid) (s : Scheduler) (sched : Schedule) (followsCaller : Bool) (w : World)
    (i : Nat) {v : Nat} (hv : (s.trace sched g followsCaller w i).1.state.stateOf v = .running) (b : Bool) :
    SettlesExactly g (s.trace sched g followsCaller w i).1.state v b
      ((s.trace sched g followsCaller w i).1.state.complete v b).1
      ((s.trace sched g followsCaller w i).1.state.complete v b).2 :=
  (inv_trace hg s sched followsCaller w i).settlesExactly hv b

/-- Before its first move, a run of the two-node graph that skips dependents has its first node running; that node
failing settles as `SettlesExactly` says. -/
theorem settles_exactly_buildThenTest :
    buildThenTestValidated.Valid ∧
      (Scheduler.trace { workers := .fixed 1, policy := .skipDependents } Schedule.sequential buildThenTestValidated
        false {} 0).1.state.stateOf 0 = .running ∧
      SettlesExactly buildThenTestValidated
        (Scheduler.trace { workers := .fixed 1, policy := .skipDependents } Schedule.sequential buildThenTestValidated
          false {} 0).1.state 0 false
        ((Scheduler.trace { workers := .fixed 1, policy := .skipDependents } Schedule.sequential buildThenTestValidated
          false {} 0).1.state.complete 0 false).1
        ((Scheduler.trace { workers := .fixed 1, policy := .skipDependents } Schedule.sequential buildThenTestValidated
          false {} 0).1.state.complete 0 false).2 :=
  have hrun : (Scheduler.trace { workers := .fixed 1, policy := .skipDependents } Schedule.sequential
      buildThenTestValidated false {} 0).1.state.stateOf 0 = .running := by cbv
  ⟨valid_buildThenTest, hrun, complete_settles_exactly valid_buildThenTest _ _ _ _ 0 hrun false⟩

end Scheduler

end CommandEngine.Graph
