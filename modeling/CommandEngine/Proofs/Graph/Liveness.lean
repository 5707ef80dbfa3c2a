import CommandEngine.Proofs.Graph.Safety
import CommandEngine.Proofs.Graph.Search

/-!
# No graph run stalls

Every move of a run that is not quiet does work: a command that reports back settles its node and takes the nodes it
makes ready or skips off the pending ones, and a task that has its turn starts its command or cancels its node. Twice
the pending nodes and the waiting tasks, plus the executing commands, is a measure that every such move lowers
(`Run.Inv.workLeft_step`). It starts at no more than twice the number of nodes, so the run is quiet by the time the
driver loop runs out of moves (`Scheduler.quiet_trace`).

A quiet run has no running node; unless it is cancelled, it has no pending node either. The first pending node in the
graph's topological order would still wait for an edge out of a predecessor that has not released it: one neither
running, in a quiet run, nor cancelled, in a run not cancelled, so pending and earlier in the order
(`Run.Inv.not_pending_of_quiet`).
-/

namespace CommandEngine

/-- A state neither pending nor running is terminal. -/
theorem NodeState.isTerminal_of_ne {st : NodeState} (hp : st ≠ .pending) (hr : st ≠ .running) :
    st.isTerminal = true := by
  cases st <;> simp_all [NodeState.isTerminal]

namespace Graph

open DependencyGraph

/-! ## Counting pending nodes -/

namespace RunState

/-- The pending count is the number of pending nodes. -/
theorem pendingCount_eq_card (s : RunState) :
    s.pendingCount = ((Finset.range s.states.size).filter fun u => s.stateOf u = .pending).card := by
  rw [pendingCount, Finset.card_filter]

/-- A change of states that makes no node pending lowers the pending count at least by the number of nodes that it
takes out of the pending state. -/
theorem pendingCount_add_le {s s' : RunState} (hsize : s'.states.size = s.states.size)
    (hkeep : ∀ x, s'.stateOf x = .pending → s.stateOf x = .pending) {R : List Nat} (hR : R.Nodup)
    (hleave : ∀ x ∈ R, x < s.states.size ∧ s.stateOf x = .pending ∧ s'.stateOf x ≠ .pending) :
    s'.pendingCount + R.length ≤ s.pendingCount := by
  rw [pendingCount_eq_card, pendingCount_eq_card, hsize, ← List.toFinset_card_of_nodup hR,
    ← Finset.card_union_of_disjoint]
  · apply Finset.card_le_card
    intro x hx
    simp only [Finset.mem_union, Finset.mem_filter, Finset.mem_range, List.mem_toFinset] at hx ⊢
    rcases hx with ⟨hlt, hp⟩ | hx
    · exact ⟨hlt, hkeep x hp⟩
    · exact ⟨(hleave x hx).1, (hleave x hx).2.1⟩
  · rw [Finset.disjoint_left]
    intro x hx hxR
    simp only [Finset.mem_filter, List.mem_toFinset] at hx hxR
    exact (hleave x hxR).2.2 hx.2

/-- Cancelling a node makes no node pending. -/
theorem pendingCount_cancel_le (s : RunState) (v : Nat) : (s.cancel v).pendingCount ≤ s.pendingCount := by
  have hsize : (s.cancel v).states.size = s.states.size := by
    unfold cancel
    split
    · rfl
    · simp
  have hkeep : ∀ x, (s.cancel v).stateOf x = .pending → s.stateOf x = .pending := by
    intro x hx
    rw [stateOf_cancel] at hx
    split at hx
    · cases hx
    · exact hx
  simpa using pendingCount_add_le hsize hkeep List.nodup_nil (fun x hx => absurd hx List.not_mem_nil)

/-- At the start every node is pending. -/
theorem pendingCount_start (g : ValidatedGraph) (p : FailurePolicy) : (start g p).pendingCount = g.size := by
  have hsize : (start g p).states.size = g.size := by simp [start]
  rw [pendingCount, hsize]
  simp

/-- Completing a node makes no node pending. -/
theorem Completed.pending_of_pending {s s' : RunState} {v : Nat} {b : Bool} {st : SettleStep}
    (hC : Completed s v b s' st) {x : Nat} (hx : s'.stateOf x = .pending) : s.stateOf x = .pending := by
  by_cases hxv : x = v
  · subst hxv
    rw [hC.stateOf_self] at hx
    cases b <;> cases hx
  · rcases hC.stateOf_other x hxv with h | ⟨-, -, hp, -⟩
    · rw [← h]
      exact hx
    · exact hp

/-- Cancelling the pending nodes cancels exactly those. -/
theorem stateOf_cancelPending (s : RunState) {x : Nat} (hx : x < s.states.size) :
    s.cancelPending.stateOf x = if s.stateOf x = .pending then .cancelled else s.stateOf x := by
  simp [cancelPending, stateOf, Array.getD_eq_getD_getElem?, hx]

/-- No node is unsettled once every node is terminal. -/
theorem unsettled_eq_nil {s : RunState} (h : ∀ x < s.states.size, (s.stateOf x).isTerminal = true) :
    s.unsettled = [] := by
  rw [unsettled, List.filter_eq_nil_iff]
  intro x hx
  simp [h x (List.mem_range.mp hx)]

end RunState

/-! ## The work left in a run -/

namespace Run

/-- The work left in a run: a pending node is still to be handed on and then to have its turn, a waiting task to have
its turn, an executing command to report back. -/
def workLeft (r : Run) : Nat :=
  2 * r.state.pendingCount + 2 * r.waiting.length + r.executing.length

variable {g : ValidatedGraph} {policy : FailurePolicy} {r : Run} {w : World}

/-- A run that lets no command report back and has no task waiting is quiet: had a command been executing, it would
have reported back. -/
theorem quiet_of_reportIndex_none {m : Move} (h : r.reportIndex w m = none) (hw : r.waiting = []) : r.Quiet := by
  have hm : r.mayBegin w = false := by simp [mayBegin, hw]
  have h0 : ¬ 0 < r.executing.length := by
    intro h0
    cases m with
    | start => simp [reportIndex, hm, h0] at h
    | report i =>
      simp only [reportIndex, h0, if_true] at h
      split at h <;> cases h
  exact ⟨hw, List.eq_nil_of_length_eq_zero (by omega)⟩

/-- A command that reports back lowers the work left: it is done with, and each node its settling hands on leaves the
pending ones, which is worth more than the task it gets. -/
theorem Inv.workLeft_report (hI : r.Inv g policy w) {i : Nat} (hi : i < r.executing.length) :
    (finishOne w { r with executing := r.executing.eraseIdx i } r.executing[i]).workLeft < r.workLeft := by
  have hC := hI.completed (hI.running_of_executing hi) r.executing[i].result.isOk
  have hnew := hI.stateOf_report (w := w) hi
  have hI' := hI.report hi
  obtain ⟨-, -, hwait, hexec, -⟩ := finishOne_spec w { r with executing := r.executing.eraseIdx i } r.executing[i]
  generalize finishOne w { r with executing := r.executing.eraseIdx i } r.executing[i] = r' at *
  generalize r.state.complete r.executing[i].node r.executing[i].result.isOk = p at hC hnew hwait
  obtain ⟨s', st⟩ := p
  have hpend : r'.state.pendingCount + st.ready.length ≤ r.state.pendingCount := by
    refine RunState.pendingCount_add_le (by rw [hI'.size_eq, hI.size_eq]) (fun x hx => ?_) hC.ready_nodup
      (fun x hx => ⟨(hC.mem_ready x hx).1, hC.pending_of_pending (hC.mem_ready x hx).2.1, ?_⟩)
    · rw [hnew] at hx
      split at hx
      · split at hx <;> cases hx
      · exact hC.pending_of_pending hx
    · rw [hnew, if_pos hx]
      split <;> simp
  have hw' : r'.waiting.length ≤ r.waiting.length + st.ready.length := by
    rw [hwait]
    split <;> simp
  have he' : r'.executing.length + 1 = r.executing.length := by
    rw [hexec, List.length_eraseIdx_of_lt hi]
    omega
  unfold workLeft
  omega

/-- Every move of a run that is not quiet lowers the work left: a command reports back, or the task that has its turn
leaves the waiting ones, starting at most one command. -/
theorem Inv.workLeft_step (hI : r.Inv g policy w) (hq : ¬ r.Quiet) (m : Move) :
    (r.step w m).1.workLeft < r.workLeft := by
  rcases step_cases r w m with ⟨i, hi, -, hstep⟩ | ⟨hidx, hw, -⟩ | ⟨v, rest, -, -, hw, -, hstep⟩ |
      ⟨v, rest, -, -, hw, -, -, hstep⟩ | ⟨v, rest, -, -, hw, -, -, hstep⟩
  · rw [hstep]
    exact hI.workLeft_report hi
  · exact absurd (quiet_of_reportIndex_none hidx hw) hq
  all_goals
    have hcancel := RunState.pendingCount_cancel_le r.state v
    rw [hstep]
    simp only [workLeft, hw.length_eq, List.length_cons, List.length_append, List.length_nil]
    omega

/-- A run with no work left is quiet. -/
theorem quiet_of_workLeft_eq_zero (h : r.workLeft = 0) : r.Quiet := by
  unfold workLeft at h
  exact ⟨List.eq_nil_of_length_eq_zero (by omega), List.eq_nil_of_length_eq_zero (by omega)⟩

/-- After `i` moves a run is quiet, or has at least `i` less work left. -/
theorem Inv.quiet_or_workLeft (hI : r.Inv g policy w) (sched : Schedule) :
    ∀ i, (Run.trace sched r w i).1.Quiet ∨ (Run.trace sched r w i).1.workLeft + i ≤ r.workLeft
  | 0 => .inr (by simp [Run.trace])
  | i + 1 => by
    by_cases hq : (Run.trace sched r w i).1.Quiet
    · left
      rw [Run.trace, step_quiet hq]
      exact hq
    · right
      have hlt := (hI.trace sched i).workLeft_step hq (sched i)
      have hle := (hI.quiet_or_workLeft sched i).resolve_left hq
      rw [Run.trace]
      omega

/-- A run is quiet once it has made as many moves as it had work left, and stays so. -/
theorem Inv.quiet_trace (hI : r.Inv g policy w) (sched : Schedule) {i : Nat} (hi : r.workLeft ≤ i) :
    (Run.trace sched r w i).1.Quiet := by
  have hq : (Run.trace sched r w r.workLeft).1.Quiet :=
    (hI.quiet_or_workLeft sched r.workLeft).elim id fun hle => quiet_of_workLeft_eq_zero (by omega)
  rw [trace_quiet hq i hi]
  exact hq

/-- No move changes whether the run follows its caller's signal. -/
theorem followsCaller_step (r : Run) (w : World) (m : Move) : (r.step w m).1.followsCaller = r.followsCaller := by
  rcases step_cases r w m with ⟨_, _, -, hstep⟩ | ⟨-, -, hstep⟩ | ⟨_, _, -, -, -, -, hstep⟩ |
      ⟨_, _, -, -, -, -, -, hstep⟩ | ⟨_, _, -, -, -, -, -, hstep⟩ <;> rw [hstep]
  exact (finishOne_spec _ _ _).2.2.2.2.2.1

theorem followsCaller_trace (sched : Schedule) (r : Run) (w : World) :
    ∀ i, (Run.trace sched r w i).1.followsCaller = r.followsCaller
  | 0 => rfl
  | i + 1 => (followsCaller_step _ _ _).trans (followsCaller_trace sched r w i)

/-! ## A quiet run -/

/-- A quiet run has no running node: no task waits and no command executes. -/
theorem Inv.not_running_of_quiet (hI : r.Inv g policy w) (hq : r.Quiet) (x : Nat) : r.state.stateOf x ≠ .running := by
  rw [Ne, hI.running_iff, hq.1, executingNodes, hq.2]
  simp

/-- A pending node waits for an edge out of a predecessor that has not released it. -/
theorem Inv.exists_unreleased_pred (hI : r.Inv g policy w) {x : Nat} (hx : x < g.size)
    (hp : r.state.stateOf x = .pending) :
    ∃ u < g.size, x ∈ g.graph.succ u ∧ (r.state.stateOf u).releases = false := by
  have hpos := hI.live x hx hp
  rw [hI.tally.counter x (hI.size_eq ▸ hx), RunState.owed] at hpos
  obtain ⟨u, hu, hne⟩ := Finset.exists_ne_zero_of_sum_ne_zero hpos.ne'
  have hrel : (r.state.stateOf u).releases = false := by
    by_contra h
    exact hne (if_pos (by simpa using h))
  rw [if_neg (by simp [hrel]), hI.dependentsOf_eq] at hne
  exact ⟨u, hI.size_eq ▸ Finset.mem_range.mp hu, List.count_pos_iff.mp (Nat.pos_of_ne_zero hne), hrel⟩

/-- A quiet run that is not cancelled has no pending node. -/
theorem Inv.not_pending_of_quiet (hg : g.Valid) (hI : r.Inv g policy w) (hq : r.Quiet) (hc : r.isCancelled w = false) :
    ∀ x < g.size, r.state.stateOf x ≠ .pending := by
  obtain ⟨hnd, hclosed, hall⟩ := hg.order_spec
  -- the predecessor that has not released a pending node is neither running nor cancelled, so pending too
  have hpred : ∀ x, (x < g.size ∧ r.state.stateOf x = .pending) →
      ∃ u, x ∈ g.graph.succ u ∧ (u < g.size ∧ r.state.stateOf u = .pending) := by
    rintro x ⟨hx, hp⟩
    obtain ⟨u, hu, hxu, hrel⟩ := hI.exists_unreleased_pred hx hp
    have hrun := hI.not_running_of_quiet hq u
    have hcan : r.state.stateOf u ≠ .cancelled := fun h => by simp [hI.cancelled_run u h] at hc
    refine ⟨u, hxu, hu, ?_⟩
    revert hrel hrun hcan
    cases r.state.stateOf u <;> simp [NodeState.releases]
  intro x hx hp
  exact hclosed.forall_not hnd (fun x hx => hall x hx.1) hpred x ⟨hx, hp⟩

/-- In a quiet run every node is terminal, except the pending nodes of a cancelled run. -/
theorem Inv.terminal_of_quiet (hg : g.Valid) (hI : r.Inv g policy w) (hq : r.Quiet) :
    ∀ v < g.size, (r.state.stateOf v).isTerminal = true ∨ (r.state.stateOf v = .pending ∧ r.isCancelled w = true) := by
  intro v hv
  have hrun := hI.not_running_of_quiet hq v
  cases hc : r.isCancelled w
  · exact .inl (NodeState.isTerminal_of_ne (hI.not_pending_of_quiet hg hq hc v hv) hrun)
  · by_cases hp : r.state.stateOf v = .pending
    · exact .inr ⟨hp, rfl⟩
    · exact .inl (NodeState.isTerminal_of_ne hp hrun)

/-- In a quiet run that is not cancelled every node of the graph succeeded, failed or was skipped. -/
theorem Inv.settled_of_quiet (hg : g.Valid) (hI : r.Inv g policy w) (hq : r.Quiet) (hc : r.isCancelled w = false)
    {x : Nat} (hx : x < g.size) :
    r.state.stateOf x = .succeeded ∨ r.state.stateOf x = .failed ∨ r.state.stateOf x = .skipped := by
  have hpend := hI.not_pending_of_quiet hg hq hc x hx
  have hrun := hI.not_running_of_quiet hq x
  have hcan : r.state.stateOf x ≠ .cancelled := fun h => by simp [hI.cancelled_run x h] at hc
  revert hpend hrun hcan
  cases r.state.stateOf x <;> simp

/-! ## The report of a quiet run -/

/-- The states a run ends with, before the sweep for stalled nodes: in a cancelled run every pending node is
cancelled. -/
def endState (r : Run) (w : World) : RunState :=
  if r.isCancelled w then r.state.cancelPending else r.state

theorem endState_size (r : Run) (w : World) : (r.endState w).states.size = r.state.states.size := by
  unfold endState
  split
  · simp [RunState.cancelPending]
  · rfl

theorem endState_of_not_cancelled (hc : r.isCancelled w = false) : r.endState w = r.state := by
  simp [endState, hc]

/-- When no node is left for the sweep for stalled nodes, the report lists each node in the state the run ends it in,
and the failures that the commands recorded. -/
theorem finish_of_unsettled_nil (h : (r.endState w).unsettled = []) :
    (r.finish w).nodes =
        (List.range r.reports.size).map (fun v => { r.reportOf v with state := (r.endState w).stateOf v }) ∧
      (r.finish w).failures = r.failures.toList := by
  unfold endState at h ⊢
  unfold finish failUnsettled
  by_cases hc : r.isCancelled w
  · simp only [hc, if_true] at h ⊢
    rw [h]
    exact ⟨rfl, rfl⟩
  · simp only [hc, Bool.false_eq_true, if_false] at h ⊢
    rw [h]
    exact ⟨rfl, rfl⟩

/-- In a quiet run every node ends terminal. -/
theorem Inv.endState_terminal (hg : g.Valid) (hI : r.Inv g policy w) (hq : r.Quiet) :
    ∀ v < g.size, ((r.endState w).stateOf v).isTerminal = true := by
  intro v hv
  have hv' : v < r.state.states.size := hI.size_eq ▸ hv
  unfold endState
  rcases hI.terminal_of_quiet hg hq v hv with ht | ⟨hp, hc⟩
  · split
    · rw [RunState.stateOf_cancelPending _ hv', if_neg (fun h => by rw [h] at ht; cases ht)]
      exact ht
    · exact ht
  · rw [if_pos hc, RunState.stateOf_cancelPending _ hv', if_pos hp]
    rfl

/-- A quiet run leaves no node for the sweep for stalled nodes. -/
theorem Inv.unsettled_of_quiet (hg : g.Valid) (hI : r.Inv g policy w) (hq : r.Quiet) :
    (r.endState w).unsettled = [] := by
  refine RunState.unsettled_eq_nil fun x hx => hI.endState_terminal hg hq x ?_
  rw [endState_size, hI.size_eq] at hx
  exact hx

/-- Each node of the report of a quiet run is a node of the graph, in the state the run ends it in. -/
theorem Inv.mem_finish_nodes (hg : g.Valid) (hI : r.Inv g policy w) (hq : r.Quiet) {n : NodeReport}
    (hn : n ∈ (r.finish w).nodes) : ∃ v < g.size, n.state = (r.endState w).stateOf v := by
  rw [(finish_of_unsettled_nil (hI.unsettled_of_quiet hg hq)).1] at hn
  obtain ⟨v, hv, rfl⟩ := List.mem_map.mp hn
  exact ⟨v, hI.reports_size ▸ List.mem_range.mp hv, rfl⟩

/-- The report of a quiet run has no pending and no running node. -/
theorem Inv.finish_settled (hg : g.Valid) (hI : r.Inv g policy w) (hq : r.Quiet) :
    ∀ n ∈ (r.finish w).nodes, n.state ≠ .pending ∧ n.state ≠ .running := by
  intro n hn
  obtain ⟨v, hv, hst⟩ := hI.mem_finish_nodes hg hq hn
  have ht := hI.endState_terminal hg hq v hv
  rw [hst]
  constructor <;> intro h <;> rw [h] at ht <;> cases ht

/-- In the report of a quiet run that is not cancelled, every node succeeded, failed or was skipped. -/
theorem Inv.finish_uncancelled (hg : g.Valid) (hI : r.Inv g policy w) (hq : r.Quiet) (hc : r.isCancelled w = false) :
    ∀ n ∈ (r.finish w).nodes, n.state = .succeeded ∨ n.state = .failed ∨ n.state = .skipped := by
  intro n hn
  obtain ⟨v, hv, hst⟩ := hI.mem_finish_nodes hg hq hn
  rw [hst, endState_of_not_cancelled hc]
  exact hI.settled_of_quiet hg hq hc hv

/-- In a quiet run that is not cancelled, under the policy that runs dependents, every node's command started: no node
is skipped, so each succeeded or failed. -/
theorem Inv.started_of_quiet (hg : g.Valid) (hI : r.Inv g policy w) (hq : r.Quiet) (hc : r.isCancelled w = false)
    (hp : policy = .runDependents) : ∀ v < g.size, (r.reportOf v).startedAt.isSome := by
  intro v hv
  rw [hI.started_iff]
  right
  rcases hI.settled_of_quiet hg hq hc hv with h | h | h
  · exact .inl h
  · exact .inr h
  · exact absurd h (hI.tally.noSkip (hI.policy_eq.trans hp) v)

end Run

/-! ## Every run drains -/

namespace Scheduler

open Run

variable {g : ValidatedGraph}

theorem start_followsCaller (s : Scheduler) (g : ValidatedGraph) (followsCaller : Bool) (w : World) :
    (s.start g followsCaller w).followsCaller = followsCaller := by
  unfold start
  rw [submit_eq]

/-- Before the first move the work left is at most twice the number of nodes: each start node waits or is cancelled,
and the other nodes are pending. -/
theorem workLeft_start (hg : g.Valid) (s : Scheduler) (followsCaller : Bool) (w : World) :
    (s.start g followsCaller w).workLeft ≤ 2 * g.size := by
  unfold start
  rw [submit_eq]
  generalize Run.isCancelled _ w = c
  obtain ⟨-, -, -, -, hsz, hst⟩ := RunState.Tally.handOn c g.startNodes _ (RunState.tally_start hg)
    hg.startNodes_nodup (fun x hx => ⟨RunState.stateOf_start x, ((hg.mem_startNodes x).mp hx).2⟩)
  have hsize : (RunState.start g s.policy).states.size = g.size := by simp [RunState.start]
  have hleave : ∀ x ∈ g.startNodes, x < (RunState.start g s.policy).states.size ∧
      (RunState.start g s.policy).stateOf x = .pending ∧
      (g.startNodes.foldl (RunState.handOne c) (RunState.start g s.policy)).stateOf x ≠ .pending := by
    intro x hx
    have hlt : x < (RunState.start g s.policy).states.size := hsize ▸ ((hg.mem_startNodes x).mp hx).1
    refine ⟨hlt, RunState.stateOf_start x, ?_⟩
    rw [hst, if_pos ⟨hx, hlt⟩]
    split <;> simp
  have hpend := RunState.pendingCount_add_le hsz (fun x _ => RunState.stateOf_start x) hg.startNodes_nodup hleave
  rw [RunState.pendingCount_start] at hpend
  have hwait : (if c = true then ([] : List Nat) else [] ++ g.startNodes).length ≤ g.startNodes.length := by
    split <;> simp
  simp only [workLeft, List.length_nil]
  omega

/-- A run of `g` is quiet after `2 * g.size` moves, whatever the schedule, the commands' results and the signals. -/
theorem quiet_trace (hg : g.Valid) (s : Scheduler) (sched : Schedule) (followsCaller : Bool) (w : World) {i : Nat}
    (hi : 2 * g.size ≤ i) : (s.trace sched g followsCaller w i).1.Quiet :=
  (inv_start hg s followsCaller w).quiet_trace sched ((workLeft_start hg s followsCaller w).trans hi)

/-- The run of `g` and its world when the driver loop ends. -/
def final (s : Scheduler) (sched : Schedule) (g : ValidatedGraph) (followsCaller : Bool) (w : World) : Run × World :=
  s.trace sched g followsCaller w (2 * g.size + 1)

/-- A run that neither a shutdown nor the caller's signal reached by the end of its driver loop is not cancelled: it
cancels itself only on a shutdown, and follows the caller's signal only when asked to. -/
theorem final_not_cancelled (hg : g.Valid) (s : Scheduler) (sched : Schedule) (followsCaller : Bool) (w : World)
    (hsd : (s.final sched g followsCaller w).2.shutDown = false)
    (hsig : (followsCaller && (s.final sched g followsCaller w).2.signal) = false) :
    (s.final sched g followsCaller w).1.isCancelled (s.final sched g followsCaller w).2 = false := by
  have hI : (s.final sched g followsCaller w).1.Inv g s.policy (s.final sched g followsCaller w).2 :=
    inv_trace hg s sched followsCaller w _
  have hfc : (s.final sched g followsCaller w).1.followsCaller = followsCaller :=
    (followsCaller_trace sched _ w _).trans (start_followsCaller s g followsCaller w)
  have hcan : (s.final sched g followsCaller w).1.cancelled = false := by
    cases hc : (s.final sched g followsCaller w).1.cancelled
    · rfl
    · simp [hI.shutDown hc] at hsd
  simp only [isCancelled, hcan, hfc, Bool.false_or]
  exact hsig

/-- What a run of `g` leaves behind when its driver loop ends, and its report `rep`. -/
structure Drained (s : Scheduler) (sched : Schedule) (g : ValidatedGraph) (followsCaller : Bool) (w : World)
    (rep : RunReport) : Prop where
  /-- The loop ends with no task waiting and no command executing. -/
  quiet : (s.final sched g followsCaller w).1.Quiet
  /-- Every node is terminal then, but for the pending nodes of a cancelled run; -/
  terminal : ∀ v < g.size, ((s.final sched g followsCaller w).1.state.stateOf v).isTerminal = true ∨
    ((s.final sched g followsCaller w).1.state.stateOf v = .pending ∧
      (s.final sched g followsCaller w).1.isCancelled (s.final sched g followsCaller w).2 = true)
  /-- once these are cancelled, no node is left for the sweep that fails stalled nodes, -/
  unsettled_nil : ((s.final sched g followsCaller w).1.endState (s.final sched g followsCaller w).2).unsettled = []
  /-- so the report holds the failures that the commands recorded, and no other. -/
  failures_eq : rep.failures = (s.final sched g followsCaller w).1.failures.toList
  /-- The report lists every node, none of them pending or running. -/
  nodes_length : rep.nodes.length = g.size
  settled : ∀ n ∈ rep.nodes, n.state ≠ .pending ∧ n.state ≠ .running
  /-- In a run that neither a shutdown nor the caller's signal reached, every node succeeded, failed or was skipped,
  and under the policy that runs dependents every node's command started exactly once. -/
  uncancelled : (s.final sched g followsCaller w).2.shutDown = false →
    (followsCaller && (s.final sched g followsCaller w).2.signal) = false →
    (∀ n ∈ rep.nodes, n.state = .succeeded ∨ n.state = .failed ∨ n.state = .skipped) ∧
    (s.policy = .runDependents → ∀ v < g.size, (s.started sched g followsCaller w (2 * g.size + 1)).count v = 1)

/-- No run stalls or loses a node. A scheduler that is not shut down returns a report, made once the run is quiet, in
which every node is settled and no failure was added for a stalled node; in a run that no signal and no shutdown
reached, every node succeeded, failed or was skipped, and under the policy that runs dependents every command ran
once. Signals never go out, so the final world says whether one ever fired. -/
theorem run_drains (hg : g.Valid) (s : Scheduler) (sched : Schedule) (followsCaller : Bool) {w : World}
    (hw : w.shutDown = false) :
    ∃ rep, s.run sched g followsCaller w = ((s.final sched g followsCaller w).2, .ok rep) ∧
      s.Drained sched g followsCaller w rep := by
  have hI : (s.final sched g followsCaller w).1.Inv g s.policy (s.final sched g followsCaller w).2 :=
    inv_trace hg s sched followsCaller w _
  have hq : (s.final sched g followsCaller w).1.Quiet := quiet_trace hg s sched followsCaller w (Nat.le_succ _)
  obtain ⟨hnodes, hfail⟩ := finish_of_unsettled_nil (hI.unsettled_of_quiet hg hq)
  refine ⟨(s.final sched g followsCaller w).1.finish (s.final sched g followsCaller w).2, run_eq s sched g followsCaller hw,
    hq, hI.terminal_of_quiet hg hq, hI.unsettled_of_quiet hg hq, hfail, ?_, hI.finish_settled hg hq, fun hsd hsig => ?_⟩
  · rw [hnodes, List.length_map, List.length_range, hI.reports_size]
  · have hc := final_not_cancelled hg s sched followsCaller w hsd hsig
    refine ⟨hI.finish_uncancelled hg hq hc, fun hp v hv => ?_⟩
    obtain ⟨hmem, hnd⟩ := started_spec s sched followsCaller w hg (2 * g.size + 1)
    exact List.count_eq_one_of_mem hnd ((hmem v).mpr (hI.started_of_quiet hg hq hc hp v hv))

/-- The run of the two-node graph in the sequential schedule drains. -/
theorem drained_buildThenTest :
    buildThenTestValidated.Valid ∧ ({} : World).shutDown = false ∧
      ∃ rep, Scheduler.run { workers := .fixed 1 } Schedule.sequential buildThenTestValidated false {} =
          ((Scheduler.final { workers := .fixed 1 } Schedule.sequential buildThenTestValidated false {}).2, .ok rep) ∧
        Scheduler.Drained { workers := .fixed 1 } Schedule.sequential buildThenTestValidated false {} rep :=
  ⟨valid_buildThenTest, rfl, run_drains valid_buildThenTest _ _ _ rfl⟩

end Scheduler

end Graph

end CommandEngine
