import CommandEngine.Proofs.Graph.Invariant

/-!
# What a run did

The events of a run, move by move: the nodes whose command started (`Scheduler.started`), the nodes that settled when
their command reported back (`Scheduler.settled`), and the nodes handed on, the start nodes first and then those each
settling made ready (`Scheduler.handed`).

Each list is read off the state of the run: a node's command started exactly when its report has a start stamp, it
settled exactly when its report has an end stamp, and it was handed on exactly when it is neither pending nor skipped.
A move adds to a list only a node the list did not hold, so no command starts twice, no node settles twice, and no node
is handed on twice.
-/

namespace CommandEngine.Graph

namespace Run

/-- The events of the first `i` moves of a trace, as `ev` reads them off each move. -/
def history (ev : Run → World → Move → List Nat) (sched : Schedule) (r : Run) (w : World) : Nat → List Nat
  | 0 => []
  | i + 1 => history ev sched r w i ++ ev (trace sched r w i).1 (trace sched r w i).2 (sched i)

variable {g : ValidatedGraph} {policy : FailurePolicy} {r : Run} {w : World} {m : Move}

/-! ## Starting a command -/

/-- A move that starts a command starts the command of a node in line, in a world that is not shut down and a run
that is not cancelled. -/
theorem startedBy_eq_some {v : Nat} (h : r.startedBy w m = some v) :
    ∃ rest, r.reportIndex w m = none ∧ r.waiting.Perm (v :: rest) ∧ w.shutDown = false ∧ r.isCancelled w = false ∧
      r.step w m = ({ r with
        waiting := rest
        reports := r.reports.modify v fun n => { n with startedAt := some r.clock }
        executing := r.executing ++ [⟨v, (r.startCommand w v).2⟩]
        clock := r.clock + 1 }, (r.startCommand w v).1) := by
  rcases step_cases r w m with ⟨i, -, hidx, -⟩ | ⟨hidx, hw, -⟩ | ⟨v', rest, hidx, hget, -, hsd, -⟩ |
      ⟨v', rest, hidx, hget, -, -, hc, -⟩ | ⟨v', rest, hidx, hget, hw, hsd, hc, hstep⟩
  · simp [startedBy, hidx] at h
  · simp [startedBy, hidx, hw] at h
  · simp [startedBy, hidx, hget, hsd] at h
  · simp [startedBy, hidx, hget, hc] at h
  · simp only [startedBy, hidx, hget, hsd, hc, Bool.or_false, Bool.false_eq_true, if_false, Option.some.injEq] at h
    subst h
    exact ⟨rest, hidx, hw, hsd, hc, hstep⟩

/-- A move that starts no command leaves the world and every start stamp as they were. -/
theorem step_of_startedBy_none (h : r.startedBy w m = none) :
    (r.step w m).2 = w ∧ ∀ x, ((r.step w m).1.reportOf x).startedAt = (r.reportOf x).startedAt := by
  rcases step_cases r w m with ⟨i, hi, -, hstep⟩ | ⟨-, -, hstep⟩ | ⟨_, _, -, -, -, -, hstep⟩ |
      ⟨_, _, -, -, -, -, -, hstep⟩ | ⟨v, rest, hidx, hget, -, hsd, hc, -⟩
  · rw [hstep]
    exact ⟨rfl, fun x => ((finishOne_spec _ _ _).2.2.2.2.2.2.2 x).1⟩
  · rw [hstep]
    exact ⟨rfl, fun _ => rfl⟩
  · rw [hstep]
    exact ⟨rfl, fun _ => rfl⟩
  · rw [hstep]
    exact ⟨rfl, fun _ => rfl⟩
  · simp [startedBy, hidx, hget, hsd, hc] at h

/-- The start stamps after a move: those before it, and the one of the node whose command it starts. -/
theorem Inv.startedAt_step (hI : r.Inv g policy w) (m : Move) (x : Nat) :
    ((r.step w m).1.reportOf x).startedAt.isSome ↔ (r.reportOf x).startedAt.isSome ∨ r.startedBy w m = some x := by
  cases hs : r.startedBy w m with
  | none =>
    rw [(step_of_startedBy_none hs).2 x]
    simp
  | some v =>
    obtain ⟨rest, -, hw, -, -, hstep⟩ := startedBy_eq_some hs
    have hv := (hI.inLine hw).2.1
    rw [hstep]
    dsimp only [reportOf]
    rw [getD_modify]
    by_cases hxv : x = v
    · subst hxv
      simp [hI.reports_size, hv]
    · rw [if_neg (fun h => hxv h.1)]
      simp [Ne.symm hxv]

/-- The node whose command a move starts has no start stamp yet. -/
theorem Inv.startedAt_of_startedBy (hI : r.Inv g policy w) {v : Nat} (h : r.startedBy w m = some v) :
    (r.reportOf v).startedAt = none := by
  obtain ⟨rest, -, hw, -, -, -⟩ := startedBy_eq_some h
  obtain ⟨hrun, -, -, hexec, -⟩ := hI.inLine hw
  have h := hI.started_iff v
  rw [hrun] at h
  simpa [hexec] using h

/-! ## Settling a node -/

/-- A move that settles a node lets the command of that node, at some position among those executing, report back. -/
theorem settledBy_eq_some {v : Nat} (h : r.settledBy w m = some v) :
    ∃ i, ∃ hi : i < r.executing.length, r.reportIndex w m = some i ∧ r.executing[i].node = v ∧
      r.step w m = (finishOne w { r with executing := r.executing.eraseIdx i } r.executing[i], w) := by
  unfold settledBy at h
  obtain ⟨i, hidx, hv⟩ := Option.map_eq_some_iff.mp h
  have hi := reportIndex_lt hidx
  refine ⟨i, hi, hidx, getD_executing hi ▸ hv, ?_⟩
  rw [step_eq, hidx]
  dsimp only
  rw [getD_executing hi]

/-- A move that reports nothing back gives a task in line its turn, which leaves every end stamp as it was. -/
theorem finishedAt_step_of_none (hidx : r.reportIndex w m = none) (x : Nat) :
    ((r.step w m).1.reportOf x).finishedAt = (r.reportOf x).finishedAt := by
  rcases step_cases r w m with ⟨i, -, hidx', -⟩ | ⟨-, -, hstep⟩ | ⟨_, _, -, -, -, -, hstep⟩ |
      ⟨_, _, -, -, -, -, -, hstep⟩ | ⟨_, _, -, -, -, -, -, hstep⟩
  · simp [hidx] at hidx'
  all_goals rw [hstep]
  · rfl
  · rfl
  · exact getD_modify_of_keeps _ _ _ (fun n => { n with startedAt := some r.clock }) NodeReport.finishedAt
      (fun _ => rfl)

/-- The end stamps after a move: those before it, and the one of the node it settles. -/
theorem Inv.finishedAt_step (hI : r.Inv g policy w) (m : Move) (x : Nat) :
    ((r.step w m).1.reportOf x).finishedAt.isSome ↔ (r.reportOf x).finishedAt.isSome ∨ r.settledBy w m = some x := by
  cases hs : r.settledBy w m with
  | none =>
    have hidx : r.reportIndex w m = none := by simpa [settledBy] using hs
    rw [finishedAt_step_of_none hidx]
    simp
  | some v =>
    obtain ⟨i, hi, -, hv, hstep⟩ := settledBy_eq_some hs
    have hlt : r.executing[i].node < r.reports.size :=
      hI.reports_size ▸ hI.lt_of_ne_pending (by simp [hI.running_of_executing hi])
    rw [hstep, ((finishOne_spec _ _ _).2.2.2.2.2.2.2 x).2]
    by_cases hxv : x = v
    · subst hxv
      rw [if_pos ⟨hv.symm, hlt⟩]
      simp
    · rw [if_neg (fun h => hxv (h.1.trans hv))]
      exact (or_iff_left (by simpa using Ne.symm hxv)).symm

/-- The node a move settles is running. -/
theorem Inv.running_of_settledBy (hI : r.Inv g policy w) {v : Nat} (h : r.settledBy w m = some v) :
    r.state.stateOf v = .running := by
  obtain ⟨i, hi, -, hv, -⟩ := settledBy_eq_some h
  exact hv ▸ hI.running_of_executing hi

/-! ## Handing nodes on -/

/-- The nodes a move hands on are those its settling made ready. -/
theorem handedOn_of_reportIndex {i : Nat} (hidx : r.reportIndex w m = some i) (hi : i < r.executing.length) :
    r.handedOn w m = (r.state.complete r.executing[i].node r.executing[i].result.isOk).2.ready := by
  simp [handedOn, hidx, List.getD_eq_getElem?_getD, hi]

/-- Cancelling a node in line leaves every node handed on or not as it was: a running node is handed on, and so is a
cancelled one. -/
theorem Inv.handed_cancel (hI : r.Inv g policy w) {v : Nat} {rest : List Nat} (hw : r.waiting.Perm (v :: rest))
    (x : Nat) : (r.state.cancel v).stateOf x ≠ .pending ∧ (r.state.cancel v).stateOf x ≠ .skipped ↔
      r.state.stateOf x ≠ .pending ∧ r.state.stateOf x ≠ .skipped := by
  rw [hI.stateOf_cancel_inLine hw]
  by_cases hxv : x = v
  · subst hxv
    simp [(hI.inLine hw).1]
  · simp [hxv]

/-- The nodes handed on after a move: those handed on before it, and those it hands on. A node handed on is one that
is neither pending nor skipped. -/
theorem Inv.handed_step (hI : r.Inv g policy w) (m : Move) (x : Nat) :
    ((r.step w m).1.state.stateOf x ≠ .pending ∧ (r.step w m).1.state.stateOf x ≠ .skipped) ↔
      (r.state.stateOf x ≠ .pending ∧ r.state.stateOf x ≠ .skipped) ∨ x ∈ r.handedOn w m := by
  cases hidx : r.reportIndex w m with
  | none =>
    have hnil : r.handedOn w m = [] := by simp [handedOn, hidx]
    rw [hnil]
    -- no command reports back: the states change only when the task that has its turn is cancelled
    rcases step_cases r w m with ⟨i, -, hidx', -⟩ | ⟨-, -, hstep⟩ | ⟨v, rest, -, -, hw, -, hstep⟩ |
        ⟨v, rest, -, -, hw, -, -, hstep⟩ | ⟨_, _, -, -, -, -, -, hstep⟩
    · simp [hidx] at hidx'
    all_goals rw [hstep]
    · simp
    · simpa using hI.handed_cancel hw x
    · simpa using hI.handed_cancel hw x
    · simp
  | some i =>
    have hi := reportIndex_lt hidx
    have hC := hI.completed (hI.running_of_executing hi) r.executing[i].result.isOk
    rw [step_eq, hidx, handedOn_of_reportIndex hidx hi]
    dsimp only
    rw [getD_executing hi, hI.stateOf_report hi]
    by_cases hx : x ∈ (r.state.complete r.executing[i].node r.executing[i].result.isOk).2.ready
    · rw [if_pos hx]
      split <;> simp [hx]
    · rw [if_neg hx]
      simp only [hx, or_false]
      by_cases hxv : x = r.executing[i].node
      · subst hxv
        rw [hC.stateOf_self, hI.running_of_executing hi]
        split <;> simp
      · rcases hC.stateOf_other x hxv with h | h
        · rw [h]
        · simp [h.2.2.1, h.2.2.2]

/-- A move hands on only pending nodes, each once. -/
theorem Inv.handedOn_pending (hI : r.Inv g policy w) (m : Move) :
    (r.handedOn w m).Nodup ∧ ∀ x ∈ r.handedOn w m, r.state.stateOf x = .pending := by
  cases hidx : r.reportIndex w m with
  | none => simp [handedOn, hidx]
  | some i =>
    have hi := reportIndex_lt hidx
    have hC := hI.completed (hI.running_of_executing hi) r.executing[i].result.isOk
    rw [handedOn_of_reportIndex hidx hi]
    refine ⟨hC.ready_nodup, fun x hx => ?_⟩
    have hxv : x ≠ r.executing[i].node := by
      rintro rfl
      have := (hC.mem_ready _ hx).2.1
      rw [hC.stateOf_self] at this
      split at this <;> cases this
    rcases hC.stateOf_other x hxv with h | h
    · exact h ▸ (hC.mem_ready x hx).2.1
    · exact h.2.2.1

/-! ## Event logs -/

/-- An event log that starts as the nodes of which `P` holds, and to which each move adds the nodes of which `P` comes to
hold, one at a time and only such nodes, lists at every point of a trace the nodes of which `P` holds, each once. -/
theorem Inv.history_spec (hI : r.Inv g policy w) (sched : Schedule) (ev : Run → World → Move → List Nat)
    (P : Run → World → Nat → Prop) (L₀ : List Nat) (h₀ : ∀ x, x ∈ L₀ ↔ P r w x) (hnd₀ : L₀.Nodup)
    (hstep : ∀ {r : Run} {w : World}, r.Inv g policy w → ∀ m x,
      P (r.step w m).1 (r.step w m).2 x ↔ P r w x ∨ x ∈ ev r w m)
    (hfresh : ∀ {r : Run} {w : World}, r.Inv g policy w → ∀ m, ∀ x ∈ ev r w m, ¬ P r w x)
    (hnd : ∀ {r : Run} {w : World}, r.Inv g policy w → ∀ m, (ev r w m).Nodup) :
    ∀ i, (∀ x, x ∈ L₀ ++ history ev sched r w i ↔ P (Run.trace sched r w i).1 (Run.trace sched r w i).2 x) ∧
      (L₀ ++ history ev sched r w i).Nodup
  | 0 => ⟨by simpa [history, Run.trace] using h₀, by simpa [history] using hnd₀⟩
  | i + 1 => by
    obtain ⟨hmem, hnodup⟩ := hI.history_spec sched ev P L₀ h₀ hnd₀ hstep hfresh hnd i
    have hIi := hI.trace sched i
    simp only [history, ← List.append_assoc]
    refine ⟨fun x => ?_, List.nodup_append.mpr ⟨hnodup, hnd hIi _, fun a ha b hb hab => ?_⟩⟩
    · rw [List.mem_append, hmem, Run.trace, hstep hIi]
    · subst hab
      exact hfresh hIi _ a hb ((hmem a).mp ha)

end Run

namespace Scheduler

open Run

variable {g : ValidatedGraph}

/-- The nodes whose command started in the first `i` moves, in the order they started. -/
def started (s : Scheduler) (sched : Schedule) (g : ValidatedGraph) (followsCaller : Bool) (w : World) (i : Nat) :
    List Nat :=
  Run.history (fun r w m => (r.startedBy w m).toList) sched (s.start g followsCaller w) w i

/-- The nodes that settled in the first `i` moves, in the order their commands reported back. -/
def settled (s : Scheduler) (sched : Schedule) (g : ValidatedGraph) (followsCaller : Bool) (w : World) (i : Nat) :
    List Nat :=
  Run.history (fun r w m => (r.settledBy w m).toList) sched (s.start g followsCaller w) w i

/-- The nodes handed on by the end of the first `i` moves: the start nodes, then those each settling made ready. -/
def handed (s : Scheduler) (sched : Schedule) (g : ValidatedGraph) (followsCaller : Bool) (w : World) (i : Nat) :
    List Nat :=
  g.startNodes ++ Run.history Run.handedOn sched (s.start g followsCaller w) w i

variable (s : Scheduler) (sched : Schedule) (followsCaller : Bool) (w : World)

/-- No report has a stamp before the first move. -/
theorem stamps_start_run (x : Nat) :
    ((s.start g followsCaller w).reportOf x).startedAt = none ∧
      ((s.start g followsCaller w).reportOf x).finishedAt = none := by
  unfold start
  rw [submit_eq]
  exact stamps_start x

variable (hg : g.Valid)
include hg

/-- Before the first move, the nodes handed on are the start nodes. -/
theorem handed_start (x : Nat) :
    ((s.start g followsCaller w).state.stateOf x ≠ .pending ∧ (s.start g followsCaller w).state.stateOf x ≠ .skipped) ↔
      x ∈ g.startNodes := by
  unfold start
  rw [submit_eq]
  dsimp only
  obtain ⟨-, -, -, -, -, hst⟩ := RunState.Tally.handOn (Run.isCancelled _ w) g.startNodes _ (RunState.tally_start hg)
    hg.startNodes_nodup (fun x hx => ⟨RunState.stateOf_start x, ((hg.mem_startNodes x).mp hx).2⟩)
  rw [hst]
  by_cases hx : x ∈ g.startNodes
  · have hlt : x < (RunState.start g s.policy).states.size := by
      simpa [RunState.start] using ((hg.mem_startNodes x).mp hx).1
    rw [if_pos ⟨hx, hlt⟩]
    split <;> simp [hx]
  · rw [if_neg (fun h => hx h.1)]
    simp [hx]

/-- The commands started so far are those whose report has a start stamp, each started once. -/
theorem started_spec (i : Nat) :
    (∀ x, x ∈ s.started sched g followsCaller w i ↔
      ((s.trace sched g followsCaller w i).1.reportOf x).startedAt.isSome) ∧
    (s.started sched g followsCaller w i).Nodup := by
  have h := (inv_start hg s followsCaller w).history_spec sched (fun r w m => (r.startedBy w m).toList)
    (fun r _ x => (r.reportOf x).startedAt.isSome) []
    (fun x => iff_of_false List.not_mem_nil (by
      show ¬ ((s.start g followsCaller w).reportOf x).startedAt.isSome
      simp [(stamps_start_run s followsCaller w x).1]))
    List.nodup_nil (fun hI m x => by rw [Option.mem_toList]; exact hI.startedAt_step m x)
    (fun hI m x hx => by simp [hI.startedAt_of_startedBy (Option.mem_toList.mp hx)])
    (fun _ m => by cases Run.startedBy _ _ m <;> simp) i
  simp only [List.nil_append] at h
  exact h

/-- The nodes settled so far are those whose report has an end stamp, each settled once. -/
theorem settled_spec (i : Nat) :
    (∀ x, x ∈ s.settled sched g followsCaller w i ↔
      ((s.trace sched g followsCaller w i).1.reportOf x).finishedAt.isSome) ∧
    (s.settled sched g followsCaller w i).Nodup := by
  have h := (inv_start hg s followsCaller w).history_spec sched (fun r w m => (r.settledBy w m).toList)
    (fun r _ x => (r.reportOf x).finishedAt.isSome) []
    (fun x => iff_of_false List.not_mem_nil (by
      show ¬ ((s.start g followsCaller w).reportOf x).finishedAt.isSome
      simp [(stamps_start_run s followsCaller w x).2]))
    List.nodup_nil (fun hI m x => by rw [Option.mem_toList]; exact hI.finishedAt_step m x)
    (fun hI m x hx => by simp [hI.finishedAt_running (hI.running_of_settledBy (Option.mem_toList.mp hx))])
    (fun _ m => by cases Run.settledBy _ _ m <;> simp) i
  simp only [List.nil_append] at h
  exact h

/-- The nodes handed on so far are those neither pending nor skipped, each handed on once. -/
theorem handed_spec (i : Nat) :
    (∀ x, x ∈ s.handed sched g followsCaller w i ↔
      (s.trace sched g followsCaller w i).1.state.stateOf x ≠ .pending ∧
        (s.trace sched g followsCaller w i).1.state.stateOf x ≠ .skipped) ∧
    (s.handed sched g followsCaller w i).Nodup :=
  (inv_start hg s followsCaller w).history_spec sched Run.handedOn
    (fun r _ x => r.state.stateOf x ≠ .pending ∧ r.state.stateOf x ≠ .skipped) g.startNodes
    (fun x => (handed_start s followsCaller w hg x).symm) hg.startNodes_nodup (fun hI m x => hI.handed_step m x)
    (fun hI m x hx h => h.1 ((hI.handedOn_pending m).2 x hx)) (fun hI m => (hI.handedOn_pending m).1) i

end Scheduler

end CommandEngine.Graph
