import CommandEngine.Proofs.Graph.Moves

/-!
# The invariant of a graph run

`Run.Inv` is what holds of every state of a run, whatever the schedule, the command results and the signals: the
counters agree with the node states (`RunState.Tally`), a pending node still waits for an edge, the running nodes are
exactly those whose task waits or whose command executes, each once, a node's report has a start time exactly when its
command started and an end time exactly when it reported back, and a node is cancelled only in a cancelled run.

`Run.Inv.step` proves it preserved by every move, one kind of move at a time: a task refused because the scheduler was
shut down, a task that finds the run cancelled, a command that starts, and a command that reports back. Its base is
`Run.Inv.start`, the state after the start nodes were handed on, and `Scheduler.inv_trace` takes it along every run.
-/

namespace CommandEngine.Graph

open RunState

/-! ## Handing nodes on -/

namespace RunState

variable {s : RunState}

/-- Only the nodes of a run are ever other than pending. -/
theorem lt_size_of_ne_pending {x : Nat} (h : s.stateOf x ≠ .pending) : x < s.states.size := by
  by_contra hge
  apply h
  simp only [stateOf, Array.getD_eq_getD_getElem?]
  rw [Array.getElem?_eq_none (by omega)]
  rfl

/-- Writing a state that does not release edges over one that does not either keeps the counters in agreement, for a
node whose counter is at zero. -/
theorem Tally.setState (ht : s.Tally) {v : Nat} (st : NodeState) (hold : (s.stateOf v).releases = false)
    (hnew : st.releases = false) (hzero : s.pendingOf v = 0) :
    ({ s with states := s.states.setIfInBounds v st } : RunState).Tally := by
  have hst : ∀ x, ({ s with states := s.states.setIfInBounds v st } : RunState).stateOf x =
      if v = x ∧ v < s.states.size then st else s.stateOf x := fun x => stateOf_setIfInBounds s v x st
  -- a state that does not release edges is neither failed nor skipped
  have hfs : ∀ t : NodeState, t.releases = false → t ≠ .failed ∧ t ≠ .skipped := by
    intro t ht
    cases t <;> simp_all [NodeState.releases]
  have hkeep : ∀ x, ({ s with states := s.states.setIfInBounds v st } : RunState).stateOf x = .failed ∨
      ({ s with states := s.states.setIfInBounds v st } : RunState).stateOf x = .skipped →
      x ≠ v ∧ ({ s with states := s.states.setIfInBounds v st } : RunState).stateOf x = s.stateOf x := by
    intro x hx
    by_cases hxv : x = v
    · subst hxv
      rw [hst] at hx
      split at hx
      · exact absurd hx (by simp [(hfs st hnew).1, (hfs st hnew).2])
      · exact absurd hx (by simp [(hfs _ hold).1, (hfs _ hold).2])
    · exact ⟨hxv, by rw [hst, if_neg (fun h => hxv h.1.symm)]⟩
  refine ⟨by simpa using ht.pending_size, by simpa using ht.dependents_lt, fun x hx => ?_, fun x hx hp hs => ?_,
    fun hp u x he hu => ?_, fun x hx => ?_, fun hp x hx => ?_⟩
  · rw [owed_keep (by rw [hold, hnew])]
    exact ht.counter x (by simpa using hx)
  · simp only [pendingOf_setState]
    by_cases hxv : x = v
    · rw [hxv, hzero]
    · rw [hst, if_neg (fun h => hxv h.1.symm)] at hp hs
      exact ht.released x (by simpa using hx) hp hs
  · obtain ⟨-, hu'⟩ := hkeep u hu
    have hx := ht.closure hp u x he (hu' ▸ hu)
    have hxv : x ≠ v := by
      rintro rfl
      exact (hfs _ hold).2 hx
    rw [hst, if_neg (fun h => hxv h.1.symm), hx]
  · obtain ⟨-, hx'⟩ := hkeep x (.inr hx)
    obtain ⟨f, hf, hr⟩ := ht.origin x (hx' ▸ hx)
    have hfv : f ≠ v := by
      rintro rfl
      exact (hfs _ hold).1 hf
    exact ⟨f, by rw [hst, if_neg (fun h => hfv h.1.symm), hf], hr⟩
  · obtain ⟨-, hx'⟩ := hkeep x (.inr hx)
    exact ht.noSkip hp x (hx' ▸ hx)

/-- Handing one node on: running it, or cancelling it in a cancelled run. -/
def handOne (cancelled : Bool) (s : RunState) (v : Nat) : RunState :=
  if cancelled then s.cancel v else s.markRunning v

/-- Handing on pending nodes with a counter at zero, each once, keeps the counters in agreement, makes each of them
running (cancelled in a cancelled run) and leaves every other node as it was. -/
theorem Tally.handOn (c : Bool) :
    ∀ (R : List Nat) (s : RunState), s.Tally → R.Nodup →
      (∀ x ∈ R, s.stateOf x = .pending ∧ s.pendingOf x = 0) →
      (R.foldl (handOne c) s).Tally ∧ (R.foldl (handOne c) s).pending = s.pending ∧
        (R.foldl (handOne c) s).dependents = s.dependents ∧ (R.foldl (handOne c) s).policy = s.policy ∧
        (R.foldl (handOne c) s).states.size = s.states.size ∧
        ∀ x, (R.foldl (handOne c) s).stateOf x =
          if x ∈ R ∧ x < s.states.size then (if c then .cancelled else .running) else s.stateOf x
  | [], s, ht, _, _ => ⟨ht, rfl, rfl, rfl, rfl, by simp⟩
  | v :: rest, s, ht, hnd, hR => by
    obtain ⟨hvp, hv0⟩ := hR v List.mem_cons_self
    obtain ⟨hvr, hnd'⟩ := List.nodup_cons.mp hnd
    -- handing `v` on writes one state over its pending one
    have hone : handOne c s v = { s with states := s.states.setIfInBounds v (if c then .cancelled else .running) } := by
      cases c
      · rfl
      · simp [handOne, cancel, hvp, NodeState.isTerminal]
    have ht1 : (handOne c s v).Tally := by
      rw [hone]
      exact ht.setState _ (by simp [hvp, NodeState.releases]) (by cases c <;> rfl) hv0
    have hst1 : ∀ x, (handOne c s v).stateOf x =
        if v = x ∧ v < s.states.size then (if c then .cancelled else .running) else s.stateOf x := by
      intro x
      rw [hone, stateOf_setIfInBounds]
    have hR' : ∀ x ∈ rest, (handOne c s v).stateOf x = .pending ∧ (handOne c s v).pendingOf x = 0 := by
      intro x hx
      have hxv : v ≠ x := fun h => hvr (h ▸ hx)
      rw [hst1, if_neg (fun h => hxv h.1)]
      exact ⟨(hR x (List.mem_cons_of_mem _ hx)).1, by rw [hone]; exact (hR x (List.mem_cons_of_mem _ hx)).2⟩
    obtain ⟨h1, h2, h3, h4, h5, h6⟩ := Tally.handOn c rest (handOne c s v) ht1 hnd' hR'
    simp only [List.foldl_cons]
    refine ⟨h1, by rw [h2, hone], by rw [h3, hone], by rw [h4, hone], by rw [h5, hone]; simp, fun x => ?_⟩
    rw [h6, hst1]
    have hsz : (handOne c s v).states.size = s.states.size := by rw [hone]; simp
    rw [hsz]
    by_cases hxv : x = v
    · subst hxv
      simp [hvr]
    · simp [hxv, Ne.symm hxv]

end RunState

namespace Run

/-- Handing on a list of nodes writes each node's state the same way, as the run's cancellation decides, and queues
their tasks unless the run is cancelled. -/
theorem submit_eq (w : World) : ∀ (R : List Nat) (r : Run),
    submit w R r = { r with
      state := R.foldl (RunState.handOne (r.isCancelled w)) r.state
      waiting := if r.isCancelled w then r.waiting else r.waiting ++ R }
  | [], r => by simp [submit]
  | v :: rest, r => by
    -- handing a node on leaves the run's cancellation as it was
    have hc : (if r.isCancelled w then { r with state := r.state.cancel v }
        else { r with state := r.state.markRunning v, waiting := r.waiting ++ [v] }).isCancelled w =
        r.isCancelled w := by
      split <;> rfl
    simp only [submit]
    rw [submit_eq w rest, hc]
    by_cases h : r.isCancelled w
    · simp [h, RunState.handOne]
    · simp [h, RunState.handOne]

/-! ## Node reports -/

/-- The report of node `v`. -/
def reportOf (r : Run) (v : Nat) : NodeReport :=
  r.reports.getD v default

/-- The nodes whose command executes, in the order they started. -/
def executingNodes (r : Run) : List Nat :=
  r.executing.map (·.node)

theorem getD_modify {α : Type} [Inhabited α] (a : Array α) (v x : Nat) (f : α → α) :
    (a.modify v f).getD x default = if x = v ∧ v < a.size then f (a.getD v default) else a.getD x default := by
  simp only [Array.getD_eq_getD_getElem?, Array.getElem?_modify]
  by_cases hxv : x = v
  · subst hxv
    by_cases hx : x < a.size
    · simp [hx]
    · simp [hx]
  · simp [Ne.symm hxv, hxv]

/-- Rewriting an entry with a function that keeps a field keeps that field of every entry. -/
theorem getD_modify_of_keeps {α β : Type} [Inhabited α] (a : Array α) (v x : Nat) (f : α → α) (field : α → β)
    (hf : ∀ n, field (f n) = field n) : field ((a.modify v f).getD x default) = field (a.getD x default) := by
  rw [getD_modify]
  split
  · rename_i h
    rw [hf, h.1]
  · rfl

/-- Settling a node completes it in the run state and hands on the nodes that became ready. -/
theorem settle_eq (w : World) (r : Run) (v : Nat) (b : Bool) :
    settle w r v b = { r with
      state := (r.state.complete v b).2.ready.foldl (RunState.handOne (r.isCancelled w)) (r.state.complete v b).1
      waiting := if r.isCancelled w then r.waiting else r.waiting ++ (r.state.complete v b).2.ready } := by
  unfold settle
  generalize r.state.complete v b = p
  obtain ⟨s', st⟩ := p
  dsimp only
  rw [submit_eq]
  rfl

/-- A command reporting back stamps the end on its node's report, records its outcome or failure there, advances the
clock, and settles the node, as succeeded exactly when the command was. -/
theorem finishOne_eq (w : World) (r : Run) (e : Executing) :
    ∃ (reports : Array NodeReport) (failures : Array ExecutionError),
      finishOne w r e = settle w { r with reports, failures, clock := r.clock + 1 } e.node e.result.isOk ∧
      reports.size = r.reports.size ∧
      ∀ x, (reports.getD x default).startedAt = (r.reportOf x).startedAt ∧
        (reports.getD x default).finishedAt =
          if x = e.node ∧ e.node < r.reports.size then some r.clock else (r.reportOf x).finishedAt := by
  -- each way of reporting back writes the end stamp, then a field that neither stamp reads
  have hstamp : ∀ f : NodeReport → NodeReport, (∀ n, (f n).startedAt = n.startedAt) →
      (∀ n, (f n).finishedAt = n.finishedAt) →
      ((r.reports.modify e.node fun n => { n with finishedAt := some r.clock }).modify e.node f).size =
        r.reports.size ∧
      ∀ x, (((r.reports.modify e.node fun n => { n with finishedAt := some r.clock }).modify e.node f).getD x
          default).startedAt = (r.reportOf x).startedAt ∧
        (((r.reports.modify e.node fun n => { n with finishedAt := some r.clock }).modify e.node f).getD x
          default).finishedAt =
          if x = e.node ∧ e.node < r.reports.size then some r.clock else (r.reportOf x).finishedAt := by
    intro f hs hf
    refine ⟨by simp, fun x => ⟨?_, ?_⟩⟩
    · rw [getD_modify_of_keeps _ _ _ f NodeReport.startedAt hs,
        getD_modify_of_keeps _ _ _ (fun n => { n with finishedAt := some r.clock }) NodeReport.startedAt
          (fun _ => rfl)]
      rfl
    · rw [getD_modify_of_keeps _ _ _ f NodeReport.finishedAt hf, getD_modify]
      split <;> rfl
  unfold finishOne
  split <;> rename_i hres <;> rw [hres] <;> exact ⟨_, _, rfl, hstamp _ (fun _ => rfl) (fun _ => rfl)⟩

/-- A member of a list without repeats is gone once its position is erased, and nothing else is. -/
theorem mem_eraseIdx_of_nodup {l : List Nat} (hl : l.Nodup) {i : Nat} (hi : i < l.length) (x : Nat) :
    x ∈ l.eraseIdx i ↔ x ≠ l[i] ∧ x ∈ l :=
  (List.erase_getElem hi).mem_iff.symm.trans hl.mem_erase_iff

/-! ## The invariant -/

/-- A fired signal stays fired: a run cancelled in one world is cancelled in every world that keeps its signals. -/
theorem isCancelled_of_keeps {r : Run} {w w' : World} (hk : w.Keeps w') (h : r.isCancelled w = true) :
    r.isCancelled w' = true := by
  simp only [isCancelled, Bool.or_eq_true, Bool.and_eq_true] at h ⊢
  exact h.imp id fun h => ⟨h.1, hk.1 h.2⟩

/-- What holds of every state of a run of `g` under `policy`, in the world `w` it has reached. -/
structure Inv (g : ValidatedGraph) (policy : FailurePolicy) (r : Run) (w : World) : Prop where
  graph_eq : r.graph = g
  size_eq : r.state.states.size = g.size
  reports_size : r.reports.size = g.size
  policy_eq : r.state.policy = policy
  dependentsOf_eq : ∀ u, r.state.dependentsOf u = g.graph.succ u
  tally : r.state.Tally
  /-- A pending node still waits for an edge: a node whose last edge settled was handed on. -/
  live : ∀ x < g.size, r.state.stateOf x = .pending → 0 < r.state.pendingOf x
  /-- No node has two tasks. -/
  tasks_nodup : (r.waiting ++ r.executingNodes).Nodup
  /-- The running nodes are those whose task waits for its turn or whose command executes. -/
  running_iff : ∀ x, r.state.stateOf x = .running ↔ x ∈ r.waiting ∨ x ∈ r.executingNodes
  /-- A node's command started exactly when it executes or its node succeeded or failed. -/
  started_iff : ∀ x, (r.reportOf x).startedAt.isSome ↔
    x ∈ r.executingNodes ∨ r.state.stateOf x = .succeeded ∨ r.state.stateOf x = .failed
  /-- A node's command reported back exactly when its node succeeded or failed. -/
  finished_iff : ∀ x, (r.reportOf x).finishedAt.isSome ↔
    r.state.stateOf x = .succeeded ∨ r.state.stateOf x = .failed
  /-- Nodes are cancelled only in a cancelled run. -/
  cancelled_run : ∀ x, r.state.stateOf x = .cancelled → r.isCancelled w = true
  /-- The run cancels itself only when the scheduler was shut down. -/
  shutDown : r.cancelled = true → w.shutDown = true

variable {g : ValidatedGraph} {policy : FailurePolicy} {r : Run} {w : World}

/-- The invariant survives every change of the world that keeps its signals. -/
theorem Inv.keeps (hI : r.Inv g policy w) {w' : World} (hk : w.Keeps w') : r.Inv g policy w' :=
  { hI with
    cancelled_run := fun x hx => isCancelled_of_keeps hk (hI.cancelled_run x hx)
    shutDown := fun h => hk.2 (hI.shutDown h) }

/-- Only the nodes of the graph are ever other than pending. -/
theorem Inv.lt_of_ne_pending (hI : r.Inv g policy w) {x : Nat} (hx : r.state.stateOf x ≠ .pending) : x < g.size :=
  hI.size_eq ▸ RunState.lt_size_of_ne_pending hx

/-- A waiting or executing node is running, hence neither pending nor skipped, so its counter is at zero. -/
theorem Inv.pendingOf_running (hI : r.Inv g policy w) {x : Nat} (hx : r.state.stateOf x = .running) :
    r.state.pendingOf x = 0 :=
  hI.tally.released x (by rw [hI.size_eq]; exact hI.lt_of_ne_pending (by simp [hx])) (by simp [hx]) (by simp [hx])

/-- A running node has no stamp: its command has not started if it waits, and has not reported back. -/
theorem Inv.finishedAt_running (hI : r.Inv g policy w) {x : Nat} (hx : r.state.stateOf x = .running) :
    (r.reportOf x).finishedAt = none := by
  have h := hI.finished_iff x
  rw [hx] at h
  simpa using h

/-! ## A task has its turn -/

/-- A node in line is running, and is neither among the other waiting nodes nor executing. -/
theorem Inv.inLine (hI : r.Inv g policy w) {v : Nat} {rest : List Nat} (hw : r.waiting.Perm (v :: rest)) :
    r.state.stateOf v = .running ∧ v < g.size ∧ v ∉ rest ∧ v ∉ r.executingNodes ∧ (rest ++ r.executingNodes).Nodup := by
  have hrun : r.state.stateOf v = .running := (hI.running_iff v).mpr (.inl (hw.mem_iff.mpr (List.mem_cons_self ..)))
  have hnd := (hw.append_right r.executingNodes).nodup_iff.mp hI.tasks_nodup
  rw [List.cons_append, List.nodup_cons, List.mem_append, not_or] at hnd
  exact ⟨hrun, hI.lt_of_ne_pending (by simp [hrun]), hnd.1.1, hnd.1.2, hnd.2⟩

/-- Cancelling a running node changes its state to cancelled and no other. -/
theorem stateOf_cancel_running {s : RunState} {v : Nat} (hv : v < s.states.size) (hrun : s.stateOf v = .running)
    (x : Nat) : (s.cancel v).stateOf x = if x = v then .cancelled else s.stateOf x := by
  rw [stateOf_cancel]
  by_cases hxv : x = v
  · subst hxv
    simp [hv, hrun, NodeState.isTerminal]
  · simp [hxv, Ne.symm hxv]

/-- Cancelling a node in line, which is running, changes its state to cancelled and no other. -/
theorem Inv.stateOf_cancel_inLine (hI : r.Inv g policy w) {v : Nat} {rest : List Nat}
    (hw : r.waiting.Perm (v :: rest)) (x : Nat) :
    (r.state.cancel v).stateOf x = if x = v then .cancelled else r.state.stateOf x := by
  obtain ⟨hrun, hv, -⟩ := hI.inLine hw
  exact stateOf_cancel_running (hI.size_eq ▸ hv) hrun x

/-- A task that does not start cancels its node, which leaves the line, in a run that is then cancelled: by the run
itself, when it was refused by a shut-down scheduler, or because the run was cancelled already. -/
theorem Inv.cancelInLine (hI : r.Inv g policy w) {v : Nat} {rest : List Nat} (hw : r.waiting.Perm (v :: rest))
    (c : Bool) (hcs : c = true → w.shutDown = true) (hcan : ({ r with cancelled := c } : Run).isCancelled w = true) :
    ({ r with waiting := rest, cancelled := c, state := r.state.cancel v } : Run).Inv g policy w := by
  obtain ⟨hrun, hv, hrest, hexec, hnd⟩ := hI.inLine hw
  have hst := hI.stateOf_cancel_inLine hw
  have heq : r.state.cancel v = { r.state with states := r.state.states.setIfInBounds v .cancelled } := by
    simp [cancel, hrun, NodeState.isTerminal]
  -- the node's report has neither stamp: it waited, so its command never started
  have hstart : (r.reportOf v).startedAt = none := by
    have h := hI.started_iff v
    rw [hrun] at h
    simpa [hexec] using h
  refine ⟨hI.graph_eq, by rw [heq]; simpa using hI.size_eq, hI.reports_size, by rw [heq]; exact hI.policy_eq,
    by rw [heq]; exact hI.dependentsOf_eq, ?_, fun x hx hp => ?_, hnd, fun x => ?_, fun x => ?_, fun x => ?_,
    fun _ _ => hcan, hcs⟩
  · rw [heq]
    exact hI.tally.setState .cancelled (by simp [hrun, NodeState.releases]) rfl (hI.pendingOf_running hrun)
  · rw [hst] at hp
    split at hp
    · cases hp
    · rw [heq]
      exact hI.live x hx hp
  · show (r.state.cancel v).stateOf x = .running ↔ x ∈ rest ∨ x ∈ r.executingNodes
    rw [hst]
    by_cases hxv : x = v
    · subst hxv
      simp [hrest, hexec]
    · rw [if_neg hxv, hI.running_iff, hw.mem_iff]
      simp [hxv]
  · show (r.reportOf x).startedAt.isSome ↔ x ∈ r.executingNodes ∨ (r.state.cancel v).stateOf x = .succeeded ∨
      (r.state.cancel v).stateOf x = .failed
    rw [hst]
    by_cases hxv : x = v
    · subst hxv
      simp [hstart, hexec]
    · rw [if_neg hxv]
      exact hI.started_iff x
  · show (r.reportOf x).finishedAt.isSome ↔ _
    rw [hst]
    by_cases hxv : x = v
    · subst hxv
      simp [hI.finishedAt_running hrun]
    · rw [if_neg hxv]
      exact hI.finished_iff x

/-- A task that starts its command stamps the start on its node's report and moves the node from the waiting tasks to
the executing commands, whatever the command will report. -/
theorem Inv.begin (hI : r.Inv g policy w) {v : Nat} {rest : List Nat} (hw : r.waiting.Perm (v :: rest))
    (res : Except Interrupt Outcome) :
    ({ r with
        waiting := rest
        reports := r.reports.modify v fun n => { n with startedAt := some r.clock }
        executing := r.executing ++ [⟨v, res⟩]
        clock := r.clock + 1 } : Run).Inv g policy w := by
  obtain ⟨hrun, hv, hrest, hexec, hnd⟩ := hI.inLine hw
  have hnodes : (r.executing ++ [(⟨v, res⟩ : Executing)]).map (·.node) = r.executingNodes ++ [v] := by
    simp [executingNodes]
  refine ⟨hI.graph_eq, hI.size_eq, by simpa using hI.reports_size, hI.policy_eq, hI.dependentsOf_eq, hI.tally,
    hI.live, ?_, fun x => ?_, fun x => ?_, fun x => ?_, hI.cancelled_run, hI.shutDown⟩
  · show (rest ++ (r.executing ++ [(⟨v, res⟩ : Executing)]).map (·.node)).Nodup
    rw [hnodes, ← List.append_assoc]
    exact (List.perm_append_singleton v _).nodup_iff.mpr (List.nodup_cons.mpr ⟨by simp [hrest, hexec], hnd⟩)
  · show r.state.stateOf x = .running ↔ x ∈ rest ∨ x ∈ (r.executing ++ [(⟨v, res⟩ : Executing)]).map (·.node)
    rw [hnodes, hI.running_iff, hw.mem_iff]
    simp only [List.mem_cons, List.mem_append]
    tauto
  · show ((r.reports.modify v fun n => { n with startedAt := some r.clock }).getD x default).startedAt.isSome ↔
      x ∈ (r.executing ++ [(⟨v, res⟩ : Executing)]).map (·.node) ∨ _
    rw [hnodes, getD_modify]
    by_cases hxv : x = v
    · subst hxv
      simp [hI.reports_size, hv]
    · rw [if_neg (fun h => hxv h.1)]
      simp only [List.mem_append, List.mem_singleton, hxv, or_false]
      exact hI.started_iff x
  · show ((r.reports.modify v fun n => { n with startedAt := some r.clock }).getD x default).finishedAt.isSome ↔ _
    rw [getD_modify_of_keeps _ _ _ (fun n => { n with startedAt := some r.clock }) NodeReport.finishedAt
      (fun _ => rfl)]
    exact hI.finished_iff x

/-! ## A command reports back -/

/-- What a command reporting back changes in a run: it settles the node, hands on the nodes that became ready, stamps
the end on the node's report, and leaves the executing commands and the start stamps as they were. -/
theorem finishOne_spec (w : World) (r : Run) (e : Executing) :
    (finishOne w r e).graph = r.graph ∧
    (finishOne w r e).state = (r.state.complete e.node e.result.isOk).2.ready.foldl
      (RunState.handOne (r.isCancelled w)) (r.state.complete e.node e.result.isOk).1 ∧
    (finishOne w r e).waiting =
      (if r.isCancelled w then r.waiting else r.waiting ++ (r.state.complete e.node e.result.isOk).2.ready) ∧
    (finishOne w r e).executing = r.executing ∧
    (finishOne w r e).cancelled = r.cancelled ∧
    (finishOne w r e).followsCaller = r.followsCaller ∧
    (finishOne w r e).reports.size = r.reports.size ∧
    ∀ x, ((finishOne w r e).reportOf x).startedAt = (r.reportOf x).startedAt ∧
      ((finishOne w r e).reportOf x).finishedAt =
        if x = e.node ∧ e.node < r.reports.size then some r.clock else (r.reportOf x).finishedAt := by
  obtain ⟨reports, failures, hfin, hsize, hstamps⟩ := finishOne_eq w r e
  rw [hfin, settle_eq]
  exact ⟨rfl, rfl, rfl, rfl, rfl, rfl, hsize, hstamps⟩

/-- A node whose command executes is running. -/
theorem Inv.running_of_executing (hI : r.Inv g policy w) {i : Nat} (hi : i < r.executing.length) :
    r.state.stateOf r.executing[i].node = .running :=
  (hI.running_iff _).mpr (.inr (List.mem_map_of_mem (f := (·.node)) (List.getElem_mem hi)))

/-- Completing a running node of a run: `complete_spec`, its hypotheses read off the invariant. -/
theorem Inv.completed (hI : r.Inv g policy w) {v : Nat} (hv : r.state.stateOf v = .running) (b : Bool) :
    Completed r.state v b (r.state.complete v b).1 (r.state.complete v b).2 :=
  complete_spec hI.tally (fun x hx => hI.live x (hI.size_eq ▸ hx))
    (hI.size_eq ▸ hI.lt_of_ne_pending (by simp [hv])) hv b

/-- The node of the command at position `i` has no other task: it waits for no turn, and once the command is taken
off, the executing nodes are the others. -/
theorem Inv.mem_eraseIdx_executing (hI : r.Inv g policy w) {i : Nat} (hi : i < r.executing.length) :
    r.executing[i].node ∉ r.waiting ∧
      ∀ x, x ∈ (r.executing.eraseIdx i).map (·.node) ↔ x ≠ r.executing[i].node ∧ x ∈ r.executingNodes := by
  have hnl : i < r.executingNodes.length := by simp [executingNodes, hi]
  have hvi : r.executingNodes[i] = r.executing[i].node := by simp [executingNodes]
  have hnd := List.nodup_append.mp hI.tasks_nodup
  refine ⟨fun h => hnd.2.2 _ h _ (hvi ▸ List.getElem_mem hnl) rfl, fun x => ?_⟩
  have h := mem_eraseIdx_of_nodup hnd.2.1 hnl x
  rw [hvi] at h
  rw [← List.eraseIdx_map]
  exact h

/-- The nodes that completing a running node makes ready are other nodes, pending until then, with no task. -/
theorem Inv.ready_fresh (hI : r.Inv g policy w) {v : Nat} (hrun : r.state.stateOf v = .running) (b : Bool) {x : Nat}
    (hx : x ∈ (r.state.complete v b).2.ready) :
    x ≠ v ∧ r.state.stateOf x = .pending ∧ x ∉ r.waiting ∧ x ∉ r.executingNodes := by
  have hC := hI.completed hrun b
  have hxv : x ≠ v := by
    rintro rfl
    have h := (hC.mem_ready x hx).2.1
    rw [hC.stateOf_self] at h
    cases b <;> cases h
  have hp : r.state.stateOf x = .pending := by
    rcases hC.stateOf_other x hxv with h | h
    · exact h ▸ (hC.mem_ready x hx).2.1
    · exact h.2.2.1
  exact ⟨hxv, hp, not_or.mp (mt (hI.running_iff x).mpr (by simp [hp]))⟩

/-- The nodes that completing a running node makes ready join the tasks without giving a node two tasks. -/
theorem Inv.nodup_ready (hI : r.Inv g policy w) {v : Nat} (hrun : r.state.stateOf v = .running) (b : Bool) :
    (r.waiting ++ (r.state.complete v b).2.ready ++ r.executingNodes).Nodup := by
  have hfresh := fun x => hI.ready_fresh hrun b (x := x)
  have hnd : ((r.state.complete v b).2.ready ++ (r.waiting ++ r.executingNodes)).Nodup := by
    refine List.nodup_append.mpr ⟨(hI.completed hrun b).ready_nodup, hI.tasks_nodup, fun a ha c hc hac => ?_⟩
    subst hac
    rcases List.mem_append.mp hc with h | h
    · exact (hfresh a ha).2.2.1 h
    · exact (hfresh a ha).2.2.2 h
  have hperm : (r.waiting ++ (r.state.complete v b).2.ready ++ r.executingNodes).Perm
      ((r.state.complete v b).2.ready ++ (r.waiting ++ r.executingNodes)) := by
    rw [← List.append_assoc]
    exact List.perm_append_comm.append_right _
  exact hperm.nodup_iff.mpr hnd

/-- The states after the command at position `i` reports back: the nodes its settling made ready are handed on, every
other node is as completing left it. -/
theorem Inv.stateOf_report (hI : r.Inv g policy w) {i : Nat} (hi : i < r.executing.length) (x : Nat) :
    (finishOne w { r with executing := r.executing.eraseIdx i } r.executing[i]).state.stateOf x =
      if x ∈ (r.state.complete r.executing[i].node r.executing[i].result.isOk).2.ready then
        (if r.isCancelled w then .cancelled else .running)
      else (r.state.complete r.executing[i].node r.executing[i].result.isOk).1.stateOf x := by
  have hC := hI.completed (hI.running_of_executing hi) r.executing[i].result.isOk
  obtain ⟨-, -, -, -, -, hst⟩ := Tally.handOn (r.isCancelled w) _ _ hC.tally hC.ready_nodup
    (fun x hx => ⟨(hC.mem_ready x hx).2.1, (hC.mem_ready x hx).2.2⟩)
  rw [(finishOne_spec w _ _).2.1]
  refine (hst x).trans ?_
  by_cases hx : x ∈ (r.state.complete r.executing[i].node r.executing[i].result.isOk).2.ready
  · simp [hx, (hC.mem_ready x hx).1, hC.states_size]
  · simp [hx]

/-- When the command at position `i` reports back, every other node has succeeded or failed exactly when it had. -/
theorem Inv.done_report (hI : r.Inv g policy w) {i : Nat} (hi : i < r.executing.length) {x : Nat}
    (hx : x ≠ r.executing[i].node) :
    ((finishOne w { r with executing := r.executing.eraseIdx i } r.executing[i]).state.stateOf x = .succeeded ∨
      (finishOne w { r with executing := r.executing.eraseIdx i } r.executing[i]).state.stateOf x = .failed) ↔
    (r.state.stateOf x = .succeeded ∨ r.state.stateOf x = .failed) := by
  have hrun := hI.running_of_executing hi
  rw [hI.stateOf_report hi]
  by_cases hr : x ∈ (r.state.complete r.executing[i].node r.executing[i].result.isOk).2.ready
  · simp only [hr, if_true, (hI.ready_fresh hrun _ hr).2.1]
    split <;> simp
  · rw [if_neg hr]
    rcases (hI.completed hrun _).stateOf_other x hx with h | h
    · rw [h]
    · simp [h.2.2.1, h.2.2.2]

/-- The command at position `i` among those executing reports back: its node succeeds or fails, what its settling made
ready is handed on, and the invariant holds again. -/
theorem Inv.report (hI : r.Inv g policy w) {i : Nat} (hi : i < r.executing.length) :
    (finishOne w { r with executing := r.executing.eraseIdx i } r.executing[i]).Inv g policy w := by
  have hnew := hI.stateOf_report (w := w) hi
  have hdone := fun x => hI.done_report (w := w) hi (x := x)
  have hrun := hI.running_of_executing hi
  have hfresh := fun x => hI.ready_fresh hrun r.executing[i].result.isOk (x := x)
  obtain ⟨hvw, hexecE⟩ := hI.mem_eraseIdx_executing hi
  obtain ⟨hgraph, hstate, hwait, hexec, hcan, hfc, hsize, hstamps⟩ :=
    finishOne_spec w { r with executing := r.executing.eraseIdx i } r.executing[i]
  dsimp only at hgraph hstate hwait hexec hcan hfc hsize hstamps
  have hic : ({ r with executing := r.executing.eraseIdx i } : Run).isCancelled w = r.isCancelled w := rfl
  have hro : ∀ x, ({ r with executing := r.executing.eraseIdx i } : Run).reportOf x = r.reportOf x := fun _ => rfl
  simp only [hic, hro] at hstate hwait hstamps
  generalize finishOne w { r with executing := r.executing.eraseIdx i } r.executing[i] = r' at *
  generalize r.executing[i].node = v at *
  generalize r.executing[i].result.isOk = b at *
  have hvexec : v ∈ r.executingNodes := ((hI.running_iff v).mp hrun).resolve_left hvw
  have hvlt : v < g.size := hI.lt_of_ne_pending (by simp [hrun])
  have hexecN : ∀ x, x ∈ r'.executingNodes ↔ x ≠ v ∧ x ∈ r.executingNodes := by
    intro x
    rw [executingNodes, hexec]
    exact hexecE x
  have hnd := hI.tasks_nodup
  have hready := hI.nodup_ready hrun b
  have hC := hI.completed hrun b
  generalize r.state.complete v b = p at hC hstate hwait hnew hfresh hready
  obtain ⟨s', st⟩ := p
  obtain ⟨hT, hpend, hdeps, hpol, hsz, hst⟩ := Tally.handOn (r.isCancelled w) st.ready s' hC.tally hC.ready_nodup
    (fun x hx => ⟨(hC.mem_ready x hx).2.1, (hC.mem_ready x hx).2.2⟩)
  have hvready : v ∉ st.ready := fun h => (hfresh v h).1 rfl
  have hvdone : r'.state.stateOf v = .succeeded ∨ r'.state.stateOf v = .failed := by
    rw [hnew, if_neg hvready, hC.stateOf_self]
    cases b <;> simp
  refine ⟨hgraph.trans hI.graph_eq, ?_, ?_, ?_, fun u => ?_, hstate ▸ hT, fun x hx hp => ?_, ?_, fun x => ?_,
    fun x => ?_, fun x => ?_, fun x hx => ?_, fun h => hI.shutDown (hcan ▸ h)⟩
  · rw [hstate, hsz, hC.states_size, hI.size_eq]
  · rw [hsize, hI.reports_size]
  · rw [hstate, hpol, hC.policy_eq, hI.policy_eq]
  · rw [dependentsOf, hstate, hdeps, hC.dependents_eq]
    exact hI.dependentsOf_eq u
  · -- a node still pending was not made ready, so an edge into it is still to settle
    rw [hnew] at hp
    split at hp
    · split at hp <;> cases hp
    · rename_i hx'
      have h := hC.live x (by rw [hI.size_eq]; exact hx) hp
      rw [pendingOf, hstate, hpend]
      exact h.resolve_right hx'
  · have hsub : r'.executingNodes.Sublist r.executingNodes := by
      rw [executingNodes, hexec]
      exact (List.eraseIdx_sublist _ _).map _
    rw [hwait]
    split
    · exact hnd.sublist (hsub.append_left _)
    · exact hready.sublist (hsub.append_left _)
  · rw [hnew, hwait, hexecN]
    by_cases hx : x ∈ st.ready
    · obtain ⟨hxv, -, hxw, hxe⟩ := hfresh x hx
      rw [if_pos hx]
      split <;> simp [hx, hxw, hxe]
    · rw [if_neg hx]
      by_cases hxv : x = v
      · subst hxv
        rw [hC.stateOf_self]
        cases b <;> by_cases hc : r.isCancelled w <;> simp [hc, hvw, hvready]
      · rcases hC.stateOf_other x hxv with h | h
        · rw [h, hI.running_iff]
          split <;> simp [hx, hxv]
        · obtain ⟨hxw, hxe⟩ := not_or.mp (mt (hI.running_iff x).mpr (by simp [h.2.2.1]))
          rw [h.2.2.2]
          split <;> simp [hx, hxw, hxe]
  · rw [(hstamps x).1, hexecN]
    by_cases hxv : x = v
    · subst hxv
      simp only [ne_eq, not_true_eq_false, false_and, false_or]
      exact ⟨fun _ => hvdone, fun _ => (hI.started_iff x).mpr (.inl hvexec)⟩
    · rw [hdone x hxv, hI.started_iff x]
      simp [hxv]
  · rw [(hstamps x).2]
    by_cases hxv : x = v
    · subst hxv
      rw [if_pos ⟨rfl, by rw [hI.reports_size]; exact hvlt⟩]
      simp only [Option.isSome_some, true_iff]
      exact hvdone
    · rw [if_neg (fun h => hxv h.1), hdone x hxv]
      exact hI.finished_iff x
  · -- a node cancelled by this move was made ready in a cancelled run
    have hic' : r'.isCancelled w = r.isCancelled w := by simp only [isCancelled, hcan, hfc]
    rw [hic']
    rw [hnew] at hx
    split at hx
    · split at hx
      · assumption
      · cases hx
    · by_cases hxv : x = v
      · subst hxv
        rw [hC.stateOf_self] at hx
        cases b <;> cases hx
      · rcases hC.stateOf_other x hxv with h | h
        · exact hI.cancelled_run x (h ▸ hx)
        · rw [h.2.2.2] at hx
          cases hx

/-! ## Every move -/

/-- Every move keeps the invariant, in the world it leaves behind. -/
theorem Inv.step (hI : r.Inv g policy w) (m : Move) : (r.step w m).1.Inv g policy (r.step w m).2 := by
  rcases step_cases r w m with ⟨i, hi, -, hstep⟩ | ⟨-, -, hstep⟩ | ⟨v, rest, -, -, hw, hsd, hstep⟩ |
      ⟨v, rest, -, -, hw, -, hc, hstep⟩ | ⟨v, rest, -, -, hw, -, -, hstep⟩ <;> rw [hstep]
  · exact hI.report hi
  · exact hI
  · exact hI.cancelInLine hw true (fun _ => hsd) (by simp [isCancelled])
  · exact hI.cancelInLine hw r.cancelled hI.shutDown hc
  · -- the command runs, and may fire a signal, never withdraw one
    exact (hI.begin hw _).keeps (stable_startCommand World.stable_keeps World.keeps_probe r w v)

section Stable

variable {R : World → World → Prop} (hR : World.Stable R) (hprobe : ∀ w p, R w { w with probe := p })
include hR hprobe

/-- A move changes the world only by starting a command, so it keeps every relation that the effects of commands keep
and that what the probe saw does not matter to. -/
theorem stable_step (r : Run) (w : World) (m : Move) : R w (r.step w m).2 := by
  rw [step_eq]
  split
  · exact hR.refl w
  · exact stable_beginAt hR hprobe r w _

/-- The world at any point of a trace is related to the world it started in by every relation that the effects of
commands keep and that what the probe saw does not matter to. -/
theorem stable_trace (sched : Schedule) (r : Run) (w : World) : ∀ i, R w (trace sched r w i).2
  | 0 => hR.refl w
  | i + 1 => hR.trans (stable_trace sched r w i) (stable_step hR hprobe _ _ _)

end Stable

/-- The invariant holds along every trace that starts in it. -/
theorem Inv.trace (hI : r.Inv g policy w) (sched : Schedule) :
    ∀ i, (Run.trace sched r w i).1.Inv g policy (Run.trace sched r w i).2
  | 0 => hI
  | i + 1 => (hI.trace sched i).step (sched i)

end Run

/-! ## The start of a run -/

namespace RunState

variable {g : ValidatedGraph} {p : FailurePolicy}

@[simp] theorem stateOf_start (x : Nat) : (start g p).stateOf x = .pending := by
  simp only [stateOf, start, Array.getD_eq_getD_getElem?, Array.getElem?_replicate]
  split <;> rfl

theorem dependentsOf_start (hg : g.Valid) (u : Nat) : (start g p).dependentsOf u = g.graph.succ u := by
  simp only [dependentsOf, start, Array.getD_eq_getD_getElem?, List.getElem?_toArray, List.getElem?_map,
    DependencyGraph.indices]
  by_cases hu : u < g.graph.size
  · simp [List.getElem?_range hu]
  · rw [List.getElem?_eq_none (by simpa using hu)]
    simp only [Option.map_none, Option.getD_none, DependencyGraph.succ, Array.getD_eq_getD_getElem?]
    rw [Array.getElem?_eq_none (by rw [hg.wellFormed.successors_size]; omega)]
    rfl

/-- At the start every node is pending and counts every edge into it. -/
theorem tally_start (hg : g.Valid) : (start g p).Tally := by
  have hsize : (start g p).states.size = g.size := by simp [start]
  refine ⟨by rw [hsize]; exact hg.inDegree_size, fun u x hx => ?_, fun x hx => ?_, fun x _ h _ => absurd (stateOf_start x) h,
    fun _ u x _ h => by simp at h, fun x h => by simp at h, fun _ x => by simp⟩
  · rw [dependentsOf_start hg] at hx
    rw [hsize]
    exact hg.wellFormed.succ_lt u x hx
  · rw [hsize] at hx
    simp only [owed, hsize, stateOf_start, NodeState.releases, dependentsOf_start hg]
    exact hg.inDegree_getD hx

end RunState

namespace Scheduler

open Run

/-- The run of `g` and its world after the first `i` moves of `sched`. -/
def trace (s : Scheduler) (sched : Schedule) (g : ValidatedGraph) (followsCaller : Bool) (w : World) (i : Nat) :
    Run × World :=
  Run.trace sched (s.start g followsCaller w) w i

/-- A scheduler that is not shut down makes `2 * g.size + 1` moves of the schedule, or stops earlier once the run is
quiet, and reports on the run as it then stands. -/
theorem run_eq (s : Scheduler) (sched : Schedule) (g : ValidatedGraph) (followsCaller : Bool) {w : World}
    (hw : w.shutDown = false) :
    s.run sched g followsCaller w =
      ((s.trace sched g followsCaller w (2 * g.size + 1)).2,
        .ok ((s.trace sched g followsCaller w (2 * g.size + 1)).1.finish
          (s.trace sched g followsCaller w (2 * g.size + 1)).2)) := by
  unfold run
  rw [if_neg (by simp [hw])]
  dsimp only
  rw [drive_eq_trace]
  simp only [Nat.zero_add]
  rfl

variable {g : ValidatedGraph}

/-- No report has a stamp before the first move. -/
theorem stamps_start (x : Nat) :
    ((g.graph.indices.map fun v => ({ name := g.graph.nameOf v } : NodeReport)).toArray.getD x default).startedAt =
      none ∧
    ((g.graph.indices.map fun v => ({ name := g.graph.nameOf v } : NodeReport)).toArray.getD x default).finishedAt =
      none := by
  simp only [Array.getD_eq_getD_getElem?, List.getElem?_toArray, List.getElem?_map]
  cases g.graph.indices[x]? <;> exact ⟨rfl, rfl⟩

/-- The invariant holds before the first move. -/
theorem inv_start (hg : g.Valid) (s : Scheduler) (followsCaller : Bool) (w : World) :
    (s.start g followsCaller w).Inv g s.policy w := by
  unfold start
  rw [submit_eq]
  generalize hc : Run.isCancelled _ w = c
  have hzero : ∀ x ∈ g.startNodes, (RunState.start g s.policy).stateOf x = .pending ∧
      (RunState.start g s.policy).pendingOf x = 0 := fun x hx =>
    ⟨RunState.stateOf_start x, ((hg.mem_startNodes x).mp hx).2⟩
  obtain ⟨hT, hpend, hdeps, hpol, hsz, hst⟩ :=
    RunState.Tally.handOn c g.startNodes _ (RunState.tally_start hg) hg.startNodes_nodup hzero
  have hsize : (RunState.start g s.policy).states.size = g.size := by simp [RunState.start]
  rw [hsize] at hst
  dsimp only
  refine ⟨rfl, by rw [hsz, hsize], by simp [DependencyGraph.indices, ValidatedGraph.size], hpol, fun u => ?_, hT,
    fun x hx hp => ?_, ?_, fun x => ?_, fun x => ?_, fun x => ?_, fun x hx => ?_, fun h => by cases h⟩
  · rw [RunState.dependentsOf, hdeps]
    exact RunState.dependentsOf_start hg u
  · -- a node not handed on has an edge into it
    rw [hst] at hp
    split at hp
    · split at hp <;> cases hp
    · rename_i hx'
      rw [RunState.pendingOf, hpend]
      have h := (hg.mem_startNodes x).not.mp (fun h => hx' ⟨h, hx⟩)
      simp only [not_and] at h
      exact Nat.pos_of_ne_zero (h hx)
  · show ((if c then [] else g.startNodes) ++ ([] : List Executing).map (·.node)).Nodup
    split
    · exact List.nodup_nil
    · simpa using hg.startNodes_nodup
  · show _ ↔ x ∈ (if c then [] else g.startNodes) ∨ x ∈ ([] : List Executing).map (·.node)
    rw [hst]
    by_cases hx : x ∈ g.startNodes ∧ x < g.size
    · rw [if_pos hx]
      cases c <;> simp [hx.1]
    · rw [if_neg hx]
      have : x ∉ g.startNodes := fun h => hx ⟨h, ((hg.mem_startNodes x).mp h).1⟩
      cases c <;> simp [this]
  · dsimp only [reportOf, executingNodes]
    rw [(stamps_start x).1, hst]
    split <;> [split; skip] <;> simp
  · dsimp only [reportOf]
    rw [(stamps_start x).2, hst]
    split <;> [split; skip] <;> simp
  · -- a node cancelled before the first move was handed on in a cancelled run
    rw [hst] at hx
    split at hx
    · split at hx
      · rename_i hct
        exact hc.trans hct
      · cases hx
    · simp at hx

/-- The invariant holds at every point of every run: whatever the schedule, the commands' results and the signals. -/
theorem inv_trace (hg : g.Valid) (s : Scheduler) (sched : Schedule) (followsCaller : Bool) (w : World) (i : Nat) :
    (s.trace sched g followsCaller w i).1.Inv g s.policy (s.trace sched g followsCaller w i).2 :=
  (inv_start hg s followsCaller w).trace sched i

end Scheduler

end CommandEngine.Graph
