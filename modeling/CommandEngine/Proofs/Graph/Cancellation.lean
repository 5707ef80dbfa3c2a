import CommandEngine.Proofs.Graph.Skipping

/-!
# Cancellation and shutdown stop new work, and nothing else

A run stops taking on new work once its scheduler is shut down or the run is cancelled (`Run.Stopped`), and it stays
stopped: signals only fire, and the run never withdraws its own cancellation (`Run.stopped_step`). A stopped run starts
no command; a task that has its turn then cancels its node, and one refused by a shut-down scheduler cancels the whole
run.

Nothing else changes. The run touches its world only through the commands it starts (`Run.world_step`), so it never
fires its caller's signal itself; every command that started reports back and its node succeeds or fails; a node whose
command never started ends cancelled unless it was skipped, and only in a cancelled run (`Scheduler.StopsNewWork`).
-/

namespace CommandEngine.Graph

namespace Run

variable {g : ValidatedGraph} {policy : FailurePolicy} {r : Run} {w : World} {m : Move}

/-- Whether a run takes on no new work: its scheduler is shut down, or the run is cancelled. -/
def Stopped (r : Run) (w : World) : Prop :=
  w.shutDown = true ∨ r.isCancelled w = true

/-- A stopped run starts no command. -/
theorem startedBy_of_stopped (h : r.Stopped w) (m : Move) : r.startedBy w m = none := by
  unfold startedBy
  split
  · rcases h with h | h <;> simp [h]
  · rfl

/-- No move withdraws the run's own cancellation. -/
theorem cancelled_step (h : r.cancelled = true) (m : Move) : (r.step w m).1.cancelled = true := by
  rcases step_cases r w m with ⟨_, _, -, hstep⟩ | ⟨-, -, hstep⟩ | ⟨_, _, -, -, -, -, hstep⟩ |
      ⟨_, _, -, -, -, -, -, hstep⟩ | ⟨_, _, -, -, -, -, -, hstep⟩ <;> rw [hstep]
  · rw [(finishOne_spec _ _ _).2.2.2.2.1]
    exact h
  all_goals exact h

/-- A stopped run stays stopped: a shutdown and a fired signal stay, the run's own cancellation stays, and so does
whether the run follows its caller. -/
theorem stopped_step (h : r.Stopped w) (m : Move) : (r.step w m).1.Stopped (r.step w m).2 := by
  have hk := stable_step World.stable_keeps World.keeps_probe r w m
  rcases h with h | h
  · exact .inl (hk.2 h)
  · right
    simp only [isCancelled, Bool.or_eq_true, Bool.and_eq_true] at h ⊢
    rw [followsCaller_step]
    rcases h with h | ⟨hf, hs⟩
    · exact .inl (cancelled_step h m)
    · exact .inr ⟨hf, hk.1 hs⟩

/-- Once a run has stopped, it stays stopped for the rest of its trace. -/
theorem stopped_trace (sched : Schedule) (r : Run) (w : World) {j : Nat}
    (h : (Run.trace sched r w j).1.Stopped (Run.trace sched r w j).2) :
    ∀ i, j ≤ i → (Run.trace sched r w i).1.Stopped (Run.trace sched r w i).2 := by
  intro i hi
  induction i, hi using Nat.le_induction with
  | base => exact h
  | succ i _ ih => exact stopped_step ih (sched i)

/-- A task that has its turn in a shut-down world is refused, which cancels the run. -/
theorem cancelled_of_refused (hw : w.shutDown = true) (hidx : r.reportIndex w m = none) (hwait : r.waiting ≠ []) :
    (r.step w m).1.cancelled = true := by
  rcases step_cases r w m with ⟨_, _, hidx', -⟩ | ⟨-, hnil, -⟩ | ⟨_, _, -, -, -, -, hstep⟩ | ⟨_, _, -, -, -, hsd, -⟩ |
      ⟨_, _, -, -, -, hsd, -⟩
  · rw [hidx] at hidx'
    cases hidx'
  · exact absurd hnil hwait
  · rw [hstep]
  · rw [hw] at hsd
    cases hsd
  · rw [hw] at hsd
    cases hsd

/-- A move changes the world only by starting a command: a move that starts none leaves the world as it was. -/
theorem world_step (r : Run) (w : World) (m : Move) :
    (r.startedBy w m = none → (r.step w m).2 = w) ∧
      ∀ v, r.startedBy w m = some v → (r.step w m).2 = (r.startCommand w v).1 := by
  refine ⟨fun h => (step_of_startedBy_none h).1, fun v h => ?_⟩
  obtain ⟨rest, -, -, -, -, hstep⟩ := startedBy_eq_some h
  rw [hstep]

/-- The states a run ends with: in a cancelled run its pending nodes are cancelled. -/
theorem endState_stateOf {x : Nat} (hx : x < r.state.states.size) :
    (r.endState w).stateOf x =
      if r.isCancelled w = true ∧ r.state.stateOf x = .pending then .cancelled else r.state.stateOf x := by
  unfold endState
  split
  · rename_i hc
    rw [RunState.stateOf_cancelPending _ hx]
    simp [hc]
  · rename_i hc
    simp [hc]

/-! ## The report of a quiet run -/

/-- In the report of a quiet run, a node whose command never started is cancelled, unless it was skipped. -/
theorem Inv.unstarted_of_quiet (hg : g.Valid) (hI : r.Inv g policy w) (hq : r.Quiet) {v : Nat} (hv : v < g.size)
    (hs : (r.reportOf v).startedAt.isSome = false) :
    (r.finish w).stateAt v = .cancelled ∨ (r.finish w).stateAt v = .skipped := by
  have hns : ¬ (r.state.stateOf v = .succeeded ∨ r.state.stateOf v = .failed) := by
    rw [← hI.startedAt_of_quiet hq v, hs]
    decide
  rw [hI.stateAt_finish hg hq hv, endState_stateOf (hI.size_eq ▸ hv)]
  rcases hI.terminal_of_quiet hg hq v hv with ht | ⟨hp, hc⟩
  · -- a terminal node that neither succeeded nor failed was skipped or cancelled
    rw [if_neg (fun h => by rw [h.2] at ht; cases ht)]
    revert ht hns
    cases r.state.stateOf v <;> simp [NodeState.isTerminal]
  · rw [if_pos ⟨hc, hp⟩]
    exact .inl rfl

/-- In the report of a quiet run, a node is cancelled only if the run is. -/
theorem Inv.cancelled_of_stateAt (hg : g.Valid) (hI : r.Inv g policy w) (hq : r.Quiet) {v : Nat}
    (h : (r.finish w).stateAt v = .cancelled) : r.isCancelled w = true := by
  by_cases hv : v < g.size
  · rw [hI.stateAt_finish hg hq hv, endState_stateOf (hI.size_eq ▸ hv)] at h
    split at h
    · rename_i hc
      exact hc.1
    · exact hI.cancelled_run v h
  · rw [hI.stateAt_finish_of_not_lt hg hq hv] at h
    cases h

/-- The report of a quiet run says that the run was cancelled exactly when some node of the graph was. -/
theorem Inv.wasCancelled_iff (hg : g.Valid) (hI : r.Inv g policy w) (hq : r.Quiet) :
    (r.finish w).wasCancelled = true ↔ ∃ v < g.size, (r.finish w).stateAt v = .cancelled := by
  have hnodes := (finish_of_unsettled_nil (hI.unsettled_of_quiet hg hq)).1
  have hany : (r.finish w).wasCancelled = (r.finish w).nodes.any (·.state = .cancelled) := rfl
  rw [hany, List.any_eq_true]
  constructor
  · rintro ⟨n, hn, hc⟩
    obtain ⟨v, hv, hst⟩ := hI.mem_finish_nodes hg hq hn
    refine ⟨v, hv, ?_⟩
    rw [hI.stateAt_finish hg hq hv, ← hst]
    simpa using hc
  · rintro ⟨v, hv, hc⟩
    have hlen : v < (r.finish w).nodes.length := by
      rw [hnodes, List.length_map, List.length_range, hI.reports_size]
      exact hv
    refine ⟨(r.finish w).nodes[v], List.getElem_mem hlen, ?_⟩
    rw [RunReport.stateAt, List.getD_eq_getElem?_getD, List.getElem?_eq_getElem hlen, Option.getD_some] at hc
    simp [hc]

end Run

/-! ## What stopping does to a run -/

namespace Scheduler

open Run

variable {g : ValidatedGraph}

/-- What a shutdown or a cancellation does to a run of `g` that ends with the report `rep`: it stops new work, and
nothing else. -/
structure StopsNewWork (s : Scheduler) (sched : Schedule) (g : ValidatedGraph) (followsCaller : Bool) (w : World)
    (rep : RunReport) : Prop where
  /-- A command starts only in a world that is not shut down and a run that is not cancelled; -/
  start_live : ∀ i v, (s.trace sched g followsCaller w i).1.startedBy (s.trace sched g followsCaller w i).2 (sched i) =
      some v → (s.trace sched g followsCaller w i).2.shutDown = false ∧
        (s.trace sched g followsCaller w i).1.isCancelled (s.trace sched g followsCaller w i).2 = false
  /-- once the scheduler is shut down or the run cancelled, no command starts again; -/
  no_start_after_stop : ∀ j i, j ≤ i →
    (s.trace sched g followsCaller w j).1.Stopped (s.trace sched g followsCaller w j).2 →
    (s.trace sched g followsCaller w i).1.startedBy (s.trace sched g followsCaller w i).2 (sched i) = none
  /-- a task refused by a shut-down scheduler cancels the run; -/
  refused_cancels : ∀ i, (s.trace sched g followsCaller w i).2.shutDown = true →
    (s.trace sched g followsCaller w i).1.reportIndex (s.trace sched g followsCaller w i).2 (sched i) = none →
    (s.trace sched g followsCaller w i).1.waiting ≠ [] → (s.trace sched g followsCaller w (i + 1)).1.cancelled = true
  /-- the run changes its world only through the commands it starts, so it never fires its caller's signal itself; -/
  world_unchanged : ∀ i,
    (s.trace sched g followsCaller w i).1.startedBy (s.trace sched g followsCaller w i).2 (sched i) = none →
    (s.trace sched g followsCaller w (i + 1)).2 = (s.trace sched g followsCaller w i).2
  world_command : ∀ i v,
    (s.trace sched g followsCaller w i).1.startedBy (s.trace sched g followsCaller w i).2 (sched i) = some v →
    (s.trace sched g followsCaller w (i + 1)).2 =
      ((s.trace sched g followsCaller w i).1.startCommand (s.trace sched g followsCaller w i).2 v).1
  /-- every command that started reported back, and its node succeeded or failed; -/
  started_settled : ∀ v, v ∈ s.started sched g followsCaller w (2 * g.size + 1) ↔
    v ∈ s.settled sched g followsCaller w (2 * g.size + 1)
  started_ends : ∀ v ∈ s.started sched g followsCaller w (2 * g.size + 1),
    rep.stateAt v = .succeeded ∨ rep.stateAt v = .failed
  /-- every node whose command never started ends cancelled, unless it was skipped, and a node ends cancelled only in a
  cancelled run; -/
  unstarted_ends : ∀ v < g.size, v ∉ s.started sched g followsCaller w (2 * g.size + 1) →
    rep.stateAt v = .cancelled ∨ rep.stateAt v = .skipped
  cancelled_only_if : ∀ v, rep.stateAt v = .cancelled →
    (s.final sched g followsCaller w).1.isCancelled (s.final sched g followsCaller w).2 = true
  /-- and the report says that the run was cancelled exactly when some node was. -/
  wasCancelled_iff : rep.wasCancelled = true ↔ ∃ v < g.size, rep.stateAt v = .cancelled

/-- Cancellation and shutdown stop new work, and nothing else: a shut-down scheduler refuses the run, and otherwise the
run and its report do as `StopsNewWork` says. -/
theorem run_stops_new_work (hg : g.Valid) (s : Scheduler) (sched : Schedule) (followsCaller : Bool) (w : World) :
    (w.shutDown = true → s.run sched g followsCaller w = (w, .error .schedulerShutdown)) ∧
    (w.shutDown = false → ∃ rep, s.run sched g followsCaller w = ((s.final sched g followsCaller w).2, .ok rep) ∧
      s.StopsNewWork sched g followsCaller w rep) := by
  refine ⟨fun hw => by simp [run, hw], fun hw => ?_⟩
  have hI : (s.final sched g followsCaller w).1.Inv g s.policy (s.final sched g followsCaller w).2 :=
    inv_trace hg s sched followsCaller w _
  have hq : (s.final sched g followsCaller w).1.Quiet := quiet_trace hg s sched followsCaller w (Nat.le_succ _)
  have hIi := inv_trace hg s sched followsCaller w
  have hstarted : ∀ x, x ∈ s.started sched g followsCaller w (2 * g.size + 1) ↔
      ((s.final sched g followsCaller w).1.reportOf x).startedAt.isSome :=
    (started_spec s sched followsCaller w hg (2 * g.size + 1)).1
  have hsettled : ∀ x, x ∈ s.settled sched g followsCaller w (2 * g.size + 1) ↔
      ((s.final sched g followsCaller w).1.reportOf x).finishedAt.isSome :=
    (settled_spec s sched followsCaller w hg (2 * g.size + 1)).1
  refine ⟨(s.final sched g followsCaller w).1.finish (s.final sched g followsCaller w).2, run_eq s sched g followsCaller hw,
    ⟨fun i v h => ?_, fun j i hji hj => ?_, fun i hsd hidx hwait => cancelled_of_refused hsd hidx hwait,
      fun i h => (world_step _ _ (sched i)).1 h, fun i v h => (world_step _ _ (sched i)).2 v h, fun v => ?_,
      fun v hv => ?_, fun v hv hs => ?_, fun v h => hI.cancelled_of_stateAt hg hq h, hI.wasCancelled_iff hg hq⟩⟩
  · obtain ⟨-, -, -, hsd, hc, -⟩ := startedBy_eq_some h
    exact ⟨hsd, hc⟩
  · exact startedBy_of_stopped (stopped_trace sched (s.start g followsCaller w) w hj i hji) (sched i)
  · -- both logs hold the nodes that succeeded or failed
    rw [hstarted, hsettled, hI.startedAt_of_quiet hq, hI.finished_iff]
  · rcases (hI.startedAt_of_quiet hq v).mp ((hstarted v).mp hv) with h | h
    · exact .inl ((hI.stateAt_finish_eq_iff hg hq (by decide) (by decide) v).mpr h)
    · exact .inr ((hI.stateAt_finish_eq_iff hg hq (by decide) (by decide) v).mpr h)
  · exact hI.unstarted_of_quiet hg hq hv (by simpa using (hstarted v).not.mp hs)

/-- A run of the two-node graph that follows a caller whose signal fired before it started stops new work. -/
theorem stopsNewWork_buildThenTest :
    buildThenTestValidated.Valid ∧
      (({ signal := true } : World).shutDown = true →
        Scheduler.run { workers := .fixed 1 } Schedule.sequential buildThenTestValidated true { signal := true } =
          ({ signal := true }, .error .schedulerShutdown)) ∧
      (({ signal := true } : World).shutDown = false →
        ∃ rep, Scheduler.run { workers := .fixed 1 } Schedule.sequential buildThenTestValidated true { signal := true } =
            ((Scheduler.final { workers := .fixed 1 } Schedule.sequential buildThenTestValidated true
              { signal := true }).2, .ok rep) ∧
          Scheduler.StopsNewWork { workers := .fixed 1 } Schedule.sequential buildThenTestValidated true
            { signal := true } rep) :=
  ⟨valid_buildThenTest, run_stops_new_work valid_buildThenTest _ _ _ _⟩

end Scheduler

end CommandEngine.Graph
