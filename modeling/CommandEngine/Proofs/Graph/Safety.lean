import CommandEngine.Proofs.Graph.History

/-!
# Safety of a graph run

A run counts, for each node, the edges into it that are still to settle: at every point of every run, a node's counter
is its in-degree less the edges out of nodes that succeeded, failed or were skipped (`Run.Inv.counter_law`). A running
node has seen every edge into it settle, out of predecessors that succeeded, or failed under the policy that runs
dependents anyway (`Run.Inv.preds_of_released`).

Together with the event logs this gives `Scheduler.KahnSafe`: no node is handed on twice, settles twice or has its
command started twice, a command starts only after the command of each predecessor reported back, and settling a node
takes each released edge off its counter exactly once.
-/

namespace CommandEngine.Graph

open DependencyGraph

/-! ## Edges counted -/

namespace ValidatedGraph

variable {g : ValidatedGraph}

/-- Edges are never repeated, so summing the edges into `x` out of the nodes of which `p` holds counts those nodes. -/
theorem Valid.sum_count_eq_card (hg : g.Valid) (x : Nat) (p : Nat → Prop) [DecidablePred p] :
    ∑ u ∈ Finset.range g.size, (if p u then (g.graph.succ u).count x else 0) =
      ((Finset.range g.size).filter fun u => x ∈ g.graph.succ u ∧ p u).card := by
  rw [Finset.card_filter]
  refine Finset.sum_congr rfl fun u _ => ?_
  rw [(hg.wellFormed.succ_nodup u).count]
  by_cases hp : p u <;> by_cases hx : x ∈ g.graph.succ u <;> simp [hp, hx]

/-- Summing a function over a list of distinct nodes is summing it over those nodes among all. -/
theorem sum_map_eq_sum_ite {L : List Nat} (hL : L.Nodup) {n : Nat} (hlt : ∀ u ∈ L, u < n) (f : Nat → Nat) :
    (L.map f).sum = ∑ u ∈ Finset.range n, (if u ∈ L then f u else 0) := by
  rw [← Finset.sum_filter, ← List.sum_toFinset f hL]
  congr 1
  ext u
  simp only [List.mem_toFinset, Finset.mem_filter, Finset.mem_range]
  exact ⟨fun h => ⟨hlt u h, h⟩, fun h => h.2⟩

end ValidatedGraph

namespace Run

variable {g : ValidatedGraph} {policy : FailurePolicy} {r : Run} {w : World}

/-- The counter law: the edges still to settle into `v` are the edges into it less those out of nodes that succeeded,
failed or were skipped. -/
theorem Inv.counter_law (hg : g.Valid) (hI : r.Inv g policy w) {v : Nat} (hv : v < g.size) :
    r.state.pendingOf v +
        ((Finset.range g.size).filter fun u => v ∈ g.graph.succ u ∧ (r.state.stateOf u).releases).card =
      g.inDegree.getD v 0 := by
  rw [← hg.sum_count_eq_card, hI.tally.counter v (hI.size_eq ▸ hv), RunState.owed, hI.size_eq, hg.inDegree_getD hv,
    ← Finset.sum_add_distrib]
  refine Finset.sum_congr rfl fun u _ => ?_
  rw [hI.dependentsOf_eq]
  split <;> simp

/-- A node that is neither pending nor skipped has every predecessor succeeded, or failed under the policy that runs
dependents: the edge out of a predecessor that did not release it would still be owed, and under the policy that skips
dependents the node would have been skipped. -/
theorem Inv.preds_of_released (hg : g.Valid) (hI : r.Inv g policy w) {x : Nat} (hp : r.state.stateOf x ≠ .pending)
    (hs : r.state.stateOf x ≠ .skipped) (u : Nat) (hu : x ∈ g.graph.succ u) :
    r.state.stateOf u = .succeeded ∨ (policy = .runDependents ∧ r.state.stateOf u = .failed) := by
  have hxlt : x < r.state.states.size := by rw [hI.size_eq]; exact hI.lt_of_ne_pending hp
  have hult : u < r.state.states.size := by
    rw [hI.size_eq]
    exact (hg.wellFormed.edge_lt hu).1
  have howed : r.state.owed x = 0 := (hI.tally.counter x hxlt).symm.trans (hI.tally.released x hxlt hp hs)
  have hterm := Finset.sum_eq_zero_iff.mp howed u (Finset.mem_range.mpr hult)
  -- the edge `u → x` is no longer owed, so `u` released its edges
  have hrel : (r.state.stateOf u).releases = true := by
    by_contra hn
    rw [if_neg hn, hI.dependentsOf_eq] at hterm
    exact (List.count_pos_iff.mpr hu).ne' hterm
  have hedge : r.state.Edge u x := by
    show x ∈ r.state.dependentsOf u
    rw [hI.dependentsOf_eq]
    exact hu
  cases hpol : policy
  · have := hI.tally.noSkip (hI.policy_eq.trans hpol) u
    revert hrel this
    cases r.state.stateOf u <;> simp [NodeState.releases]
  · have hclosed : ¬ (r.state.stateOf u = .failed ∨ r.state.stateOf u = .skipped) :=
      fun h => hs (hI.tally.closure (hI.policy_eq.trans hpol) u x hedge h)
    revert hrel hclosed
    cases r.state.stateOf u <;> simp [NodeState.releases]

/-- Settling a node takes off each counter exactly the edges into it out of that node and out of the nodes its failure
skipped: no counter is ever lowered below zero, and no released edge is missed. -/
theorem Inv.settle_accounting (hg : g.Valid) (hI : r.Inv g policy w) {m : Move} {v : Nat}
    (h : r.settledBy w m = some v) {x : Nat} (hx : x < g.size) :
    (r.step w m).1.state.pendingOf x + ((Finset.range g.size).filter fun u => x ∈ g.graph.succ u ∧
        (u = v ∨ (r.state.stateOf u = .pending ∧ (r.step w m).1.state.stateOf u = .skipped))).card =
      r.state.pendingOf x := by
  obtain ⟨i, hi, -, rfl, hstep⟩ := settledBy_eq_some h
  rw [hstep]
  dsimp only
  have hrun := hI.running_of_executing hi
  have hC := hI.completed hrun r.executing[i].result.isOk
  have hnew := hI.stateOf_report (w := w) hi
  -- handing the ready nodes on writes states only, so the counters are those completing left
  have hpend : (finishOne w { r with executing := r.executing.eraseIdx i } r.executing[i]).state.pendingOf x =
      (r.state.complete r.executing[i].node r.executing[i].result.isOk).1.pendingOf x := by
    obtain ⟨-, hp, -⟩ := RunState.Tally.handOn (r.isCancelled w) _ _ hC.tally hC.ready_nodup
      (fun x hx => ⟨(hC.mem_ready x hx).2.1, (hC.mem_ready x hx).2.2⟩)
    rw [RunState.pendingOf, (finishOne_spec w _ _).2.1]
    exact congrArg (·.getD x 0) hp
  rw [hpend]
  generalize (finishOne w { r with executing := r.executing.eraseIdx i } r.executing[i]).state = s₁ at hnew
  generalize r.executing[i].node = v at hC hnew hrun ⊢
  generalize r.state.complete v r.executing[i].result.isOk = p at hC hnew
  obtain ⟨s', st⟩ := p
  have hnd : (v :: st.skipped).Nodup := by
    refine List.nodup_cons.mpr ⟨fun hv => ?_, hC.skipped_nodup⟩
    have := ((hC.mem_skipped v).mp hv).1
    rw [hrun] at this
    cases this
  have hlt : ∀ u ∈ v :: st.skipped, u < g.size := by
    intro u hu
    rcases List.mem_cons.mp hu with rfl | hu
    · exact hI.lt_of_ne_pending (by simp [hrun])
    · have hsk := ((hC.mem_skipped u).mp hu).2
      rw [← hI.size_eq, ← hC.states_size]
      exact RunState.lt_size_of_ne_pending (by simp [hsk])
  -- the nodes skipped are the pending nodes that the move leaves skipped
  have hmem : ∀ u, u ∈ v :: st.skipped ↔ u = v ∨ (r.state.stateOf u = .pending ∧ s₁.stateOf u = .skipped) := by
    intro u
    rw [List.mem_cons, hC.mem_skipped, hnew]
    by_cases hu : u ∈ st.ready
    · have := (hC.mem_ready u hu).2.1
      rw [if_pos hu]
      split <;> simp [this]
    · rw [if_neg hu]
  rw [← hC.settled_once x (hI.size_eq ▸ hx), RunState.debt]
  simp only [hI.dependentsOf_eq]
  rw [ValidatedGraph.sum_map_eq_sum_ite hnd hlt, hg.sum_count_eq_card]
  congr 2
  ext u
  simp only [Finset.mem_filter, hmem]

end Run

/-! ## Kahn safety -/

namespace Scheduler

open Run

/-- Kahn safety of a run after its first `i` moves. -/
structure KahnSafe (s : Scheduler) (sched : Schedule) (g : ValidatedGraph) (followsCaller : Bool) (w : World)
    (i : Nat) : Prop where
  /-- A node's counter is its in-degree less the edges out of nodes that succeeded, failed or were skipped. -/
  counter : ∀ v < g.size, (s.trace sched g followsCaller w i).1.state.pendingOf v +
      ((Finset.range g.size).filter fun u => v ∈ g.graph.succ u ∧
        ((s.trace sched g followsCaller w i).1.state.stateOf u).releases).card = g.inDegree.getD v 0
  /-- No node is handed on twice: the start nodes once at the start, every other node at most once when it became
  ready. -/
  handed_nodup : (s.handed sched g followsCaller w i).Nodup
  /-- A running node has seen every edge into it settle, out of predecessors that succeeded, or failed under the policy
  that runs dependents. -/
  running : ∀ v, (s.trace sched g followsCaller w i).1.state.stateOf v = .running →
    (s.trace sched g followsCaller w i).1.state.pendingOf v = 0 ∧
    ∀ u, v ∈ g.graph.succ u → (s.trace sched g followsCaller w i).1.state.stateOf u = .succeeded ∨
      (s.policy = .runDependents ∧ (s.trace sched g followsCaller w i).1.state.stateOf u = .failed)
  /-- No node settles twice. -/
  settled_nodup : (s.settled sched g followsCaller w i).Nodup
  /-- No command starts twice. -/
  started_nodup : (s.started sched g followsCaller w i).Nodup
  /-- A command starts only after the command of each of its predecessors reported back. -/
  after_preds : ∀ j < i, ∀ v,
    (s.trace sched g followsCaller w j).1.startedBy (s.trace sched g followsCaller w j).2 (sched j) = some v →
      ∀ u, v ∈ g.graph.succ u → u ∈ s.settled sched g followsCaller w j
  /-- A node settles while it runs, never once terminal, and its settling takes off each counter exactly the edges into
  it out of that node and out of the nodes its failure skipped. -/
  settles_once : ∀ j < i, ∀ v,
    (s.trace sched g followsCaller w j).1.settledBy (s.trace sched g followsCaller w j).2 (sched j) = some v →
      (s.trace sched g followsCaller w j).1.state.stateOf v = .running ∧
      ∀ x < g.size, (s.trace sched g followsCaller w (j + 1)).1.state.pendingOf x +
        ((Finset.range g.size).filter fun u => x ∈ g.graph.succ u ∧
          (u = v ∨ ((s.trace sched g followsCaller w j).1.state.stateOf u = .pending ∧
            (s.trace sched g followsCaller w (j + 1)).1.state.stateOf u = .skipped))).card =
        (s.trace sched g followsCaller w j).1.state.pendingOf x

variable {g : ValidatedGraph}

/-- Every run of a validated graph is Kahn safe at every point: whatever the policy, the number of workers, the
schedule, the results and panics of the commands, and whenever the caller's signal fires or the scheduler shuts down. -/
theorem run_is_kahn_safe (hg : g.Valid) (s : Scheduler) (sched : Schedule) (followsCaller : Bool) (w : World)
    (i : Nat) : s.KahnSafe sched g followsCaller w i where
  counter v hv := (inv_trace hg s sched followsCaller w i).counter_law hg hv
  handed_nodup := (handed_spec s sched followsCaller w hg i).2
  running v hv := ⟨(inv_trace hg s sched followsCaller w i).pendingOf_running hv,
    (inv_trace hg s sched followsCaller w i).preds_of_released hg (by simp [hv]) (by simp [hv])⟩
  settled_nodup := (settled_spec s sched followsCaller w hg i).2
  started_nodup := (started_spec s sched followsCaller w hg i).2
  after_preds j _ v h u hu := by
    have hI := inv_trace hg s sched followsCaller w j
    obtain ⟨rest, -, hw, -⟩ := startedBy_eq_some h
    have hrun := (hI.inLine hw).1
    -- the predecessor succeeded or failed, so its command reported back
    have hdone := hI.preds_of_released hg (by simp [hrun]) (by simp [hrun]) u hu
    refine ((settled_spec s sched followsCaller w hg j).1 u).mpr ((hI.finished_iff u).mpr ?_)
    rcases hdone with h | h
    · exact .inl h
    · exact .inr h.2
  settles_once j _ v h := ⟨(inv_trace hg s sched followsCaller w j).running_of_settledBy h,
    fun _ hx => (inv_trace hg s sched followsCaller w j).settle_accounting hg h hx⟩

end Scheduler

/-- The graph of two commands, `build` and then `test`. -/
def buildThenTest : DependencyGraph :=
  ({} : DependencyGraph).addEdge (0, "build") (1, "test")

/-- `buildThenTest` as validation freezes it. -/
def buildThenTestValidated : ValidatedGraph :=
  { graph := buildThenTest, inDegree := #[0, 1], startNodes := [0], order := [0, 1] }

theorem valid_buildThenTest : buildThenTestValidated.Valid :=
  ⟨wellFormed_empty.addEdge _ _, by cbv⟩

theorem Scheduler.kahn_safe_buildThenTest :
    buildThenTestValidated.Valid ∧
      Scheduler.KahnSafe { workers := .fixed 1 } Schedule.sequential buildThenTestValidated false {} 4 :=
  ⟨valid_buildThenTest, Scheduler.run_is_kahn_safe valid_buildThenTest _ _ _ _ _⟩

end CommandEngine.Graph
