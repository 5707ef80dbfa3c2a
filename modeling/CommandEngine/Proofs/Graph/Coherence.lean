import CommandEngine.Proofs.Graph.Confluence

/-!
# A run's report agrees with itself

The report of a run reads its nodes' states one way and its failures and cancellation another, and its outcome is
made from the failures and the cancellation only. The two agree because every failed node has exactly one recorded
failure, whose text its report holds, every skipped node lies below a failed one, and no node is left pending or
running (`RunReport.Coherent`, `Scheduler.run_report_coherent`). So the outcome is an outcome exactly when the report
counts the run a success.
-/

namespace CommandEngine.Graph

/-- What the report `rep` of a run says of itself, `ran` holding of the nodes whose command ran. -/
structure RunReport.Coherent (rep : RunReport) (ran : Nat → Prop) : Prop where
  /-- The failures are one for each failed node, in some order, each the failure whose text that node's report holds; -/
  failures : ∃ L : List Nat, L.Nodup ∧ (∀ v, v ∈ L ↔ v < rep.nodes.length ∧ rep.stateAt v = .failed) ∧
    List.Forall₂ (fun e v => (rep.nodes.getD v default).error = some e.message) rep.failures L
  /-- so there are as many failures as failed nodes. -/
  failures_length : rep.failures.length = rep.countIn .failed
  /-- A node's report holds a failure text exactly when it failed, an outcome exactly when it succeeded, and a start
  exactly when its command ran. -/
  error : ∀ n ∈ rep.nodes, n.error.isSome = true ↔ n.state = .failed
  outcome : ∀ n ∈ rep.nodes, n.outcome.isSome = true ↔ n.state = .succeeded
  started : ∀ v < rep.nodes.length, (rep.nodes.getD v default).startedAt.isSome = true ↔ ran v
  /-- The run was cancelled exactly when some node was; -/
  cancelled : rep.wasCancelled = true ↔ ∃ n ∈ rep.nodes, n.state = .cancelled
  /-- its outcome is the cancellation if it was cancelled, else its failures if some node failed, else `finished`; -/
  intoOutcome : rep.intoOutcome =
    if rep.wasCancelled then .error (.cancelled rep)
    else if rep.countIn .failed = 0 then .ok .finished
    else .error (.graphFailed rep.failures { rep with failures := [] })
  /-- so it is an outcome exactly when the run is a success. -/
  ok_iff_success : rep.intoOutcome.isOk = rep.isSuccess

/-! ## The outcome of a report -/

namespace RunReport

variable {rep : RunReport}

/-- A report with as many failures as failed nodes has failures exactly when some node failed. -/
theorem failures_isEmpty (h : rep.failures.length = rep.countIn .failed) :
    rep.failures.isEmpty = decide (rep.countIn .failed = 0) := by
  rw [← h]
  cases rep.failures <;> simp

/-- A report with as many failures as failed nodes ends in its cancellation, else in its failures when some node
failed, else in `finished`. -/
theorem intoOutcome_eq (h : rep.failures.length = rep.countIn .failed) :
    rep.intoOutcome =
      if rep.wasCancelled then .error (.cancelled rep)
      else if rep.countIn .failed = 0 then .ok .finished
      else .error (.graphFailed rep.failures { rep with failures := [] }) := by
  unfold intoOutcome wasCancelled
  rw [failures_isEmpty h]
  simp only [decide_eq_true_eq]

/-- No node of a report failed when all succeeded. -/
theorem countIn_failed_of_all (hall : ∀ n ∈ rep.nodes, n.state = .succeeded) : rep.countIn .failed = 0 := by
  unfold countIn
  rw [List.length_eq_zero_iff, List.filter_eq_nil_iff]
  intro n hn
  simp [hall n hn]

/-- When a report that is not cancelled and has no failed node has only succeeded nodes, its outcome is an outcome
exactly when it counts as a success. -/
theorem isOk_intoOutcome (h : rep.failures.length = rep.countIn .failed)
    (hall : rep.cancelled = false → rep.countIn .failed = 0 → ∀ n ∈ rep.nodes, n.state = .succeeded) :
    rep.intoOutcome.isOk = rep.isSuccess := by
  rw [intoOutcome_eq h]
  unfold isSuccess wasCancelled
  cases hc : rep.cancelled
  · simp only [Bool.false_eq_true, if_false, Bool.not_false, Bool.true_and]
    by_cases hf : rep.countIn .failed = 0
    · rw [if_pos hf, List.all_eq_true.mpr fun n hn => decide_eq_true (hall hc hf n hn)]
      rfl
    · -- some node failed, so not all succeeded
      have hns : rep.nodes.all (·.state = .succeeded) = false := by
        by_contra hall'
        rw [Bool.not_eq_false, List.all_eq_true] at hall'
        exact hf (countIn_failed_of_all fun n hn => by simpa using hall' n hn)
      rw [if_neg hf, hns]
      rfl
  · rfl

end RunReport

/-! ## Failures paired with failed nodes -/

/-- Lists whose images are permutations of each other pair up: each member of the first stands beside a member of a
permutation of the second, with the same image. -/
theorem exists_perm_forall₂_of_perm_map {α β γ : Type} {f : α → γ} {g : β → γ} {l : List α} {L : List β}
    (h : (l.map f).Perm (L.map g)) : ∃ M, M.Perm L ∧ List.Forall₂ (fun a v => f a = g v ∧ v ∈ L) l M := by
  have hL : List.Forall₂ (fun c v => c = g v ∧ v ∈ L) (L.map g) L :=
    List.forall₂_map_left_iff.mpr (List.forall₂_same.mpr fun v hv => ⟨rfl, hv⟩)
  obtain ⟨M, hM, hperm⟩ := List.perm_comp_forall₂ h hL
  exact ⟨M, hperm, List.forall₂_map_left_iff.mp hM⟩

namespace Run

variable {g : ValidatedGraph} {policy : FailurePolicy} {r : Run} {w : World} {ans : Nat → Except Interrupt Outcome}

section Quiet

variable (hg : g.Valid) (hI : r.Inv g policy w) (hq : r.Quiet)
include hg hI hq

/-- The report of a quiet run lists the nodes of the graph. -/
theorem Inv.length_finish_nodes : (r.finish w).nodes.length = g.size := by
  rw [(finish_of_unsettled_nil (hI.unsettled_of_quiet hg hq)).1, List.length_map, List.length_range, hI.reports_size]

/-- The report of a quiet run gives a node of the graph its report, in the state the run ends it in. -/
theorem Inv.getD_finish_nodes {x : Nat} (hx : x < g.size) :
    (r.finish w).nodes.getD x default = { r.reportOf x with state := (r.endState w).stateOf x } := by
  rw [(finish_of_unsettled_nil (hI.unsettled_of_quiet hg hq)).1, List.getD_eq_getElem?_getD, List.getElem?_map,
    List.getElem?_range (hI.reports_size ▸ hx)]
  rfl

/-- Each node of the report of a quiet run is the report of a node of the graph, in the state the run ends it in. -/
theorem Inv.eq_of_mem_finish_nodes {n : NodeReport} (hn : n ∈ (r.finish w).nodes) :
    ∃ x < g.size, n = { r.reportOf x with state := (r.endState w).stateOf x } := by
  rw [(finish_of_unsettled_nil (hI.unsettled_of_quiet hg hq)).1] at hn
  obtain ⟨x, hx, rfl⟩ := List.mem_map.mp hn
  exact ⟨x, hI.reports_size ▸ List.mem_range.mp hx, rfl⟩

/-- The report of a quiet run counts the nodes of the graph that the run ends in a state. -/
theorem Inv.countIn_finish (st : NodeState) :
    (r.finish w).countIn st = ((List.range g.size).filter fun x => (r.endState w).stateOf x = st).length := by
  rw [RunReport.countIn, (finish_of_unsettled_nil (hI.unsettled_of_quiet hg hq)).1, List.filter_map, List.length_map,
    hI.reports_size]
  rfl

/-- In the report of a quiet run that holds the answers `ans`, a node holds a failure text exactly when it failed. -/
theorem Inv.error_finish (hR : r.Recorded g ans) : ∀ n ∈ (r.finish w).nodes, n.error.isSome = true ↔ n.state = .failed := by
  intro n hn
  obtain ⟨x, -, rfl⟩ := hI.eq_of_mem_finish_nodes hg hq hn
  show (r.reportOf x).error.isSome = true ↔ (r.endState w).stateOf x = .failed
  rw [hR.error x, endState_stateOf_eq_iff (by decide) (by decide)]
  split <;> simp [*]

/-- In the report of a quiet run that holds the answers `ans`, a node holds an outcome exactly when it succeeded. -/
theorem Inv.outcome_finish (hR : r.Recorded g ans) :
    ∀ n ∈ (r.finish w).nodes, n.outcome.isSome = true ↔ n.state = .succeeded := by
  intro n hn
  obtain ⟨x, -, rfl⟩ := hI.eq_of_mem_finish_nodes hg hq hn
  show (r.reportOf x).outcome.isSome = true ↔ (r.endState w).stateOf x = .succeeded
  rw [hR.outcome x, endState_stateOf_eq_iff (by decide) (by decide)]
  by_cases hs : r.state.stateOf x = .succeeded
  · -- a node succeeded only on an outcome
    have hok := hR.succeeded x hs
    rw [if_pos hs]
    revert hok
    rcases ans x with _ | o <;> simp [hs, Except.isOk, Except.toBool, Except.toOption]
  · simp [hs]

/-- The failures of the report of a quiet run that holds the answers `ans` pair up with the failed nodes of the graph:
one for each, each holding the failure text of its node's report. -/
theorem Inv.failures_paired (hR : r.Recorded g ans) :
    ∃ L, L.Perm ((List.range g.size).filter fun x => r.state.stateOf x = .failed) ∧
      List.Forall₂ (fun e v => ((r.finish w).nodes.getD v default).error = some e.message) (r.finish w).failures L := by
  obtain ⟨L, hperm, hpair⟩ := exists_perm_forall₂_of_perm_map hR.failures
  refine ⟨L, hperm, ?_⟩
  rw [(finish_of_unsettled_nil (hI.unsettled_of_quiet hg hq)).2]
  refine hpair.imp fun e v ⟨hcause, hv⟩ => ?_
  obtain ⟨hlt, hfail⟩ := by simpa using hv
  rw [hI.getD_finish_nodes hg hq hlt]
  show (r.reportOf v).error = some e.message
  rw [hR.error v, if_pos hfail, ExecutionError.message_eq_of_cause hcause]

/-- In a quiet run whose report is not cancelled and shows no failed node, every node succeeded: a skipped node would
lie below a failed one, and none is left pending or running. -/
theorem Inv.succeeded_of_no_failed (hc : (r.finish w).cancelled = false) (hf : (r.finish w).countIn .failed = 0) :
    ∀ n ∈ (r.finish w).nodes, n.state = .succeeded := by
  have hnofail : ∀ x, r.state.stateOf x ≠ .failed := by
    intro x hx
    have hlt : x < g.size := hI.lt_of_ne_pending (by simp [hx])
    rw [hI.countIn_finish hg hq, List.length_eq_zero_iff, List.filter_eq_nil_iff] at hf
    exact hf x (List.mem_range.mpr hlt) (by simpa [endState_stateOf_eq_iff] using hx)
  intro n hn
  obtain ⟨x, hx, rfl⟩ := hI.eq_of_mem_finish_nodes hg hq hn
  have hnc : (r.endState w).stateOf x ≠ .cancelled := by
    intro h
    have hany : (r.finish w).cancelled = (r.finish w).nodes.any (·.state = .cancelled) := rfl
    rw [hany, List.any_eq_false] at hc
    exact hc _ hn (by simpa using h)
  have hns : (r.endState w).stateOf x ≠ .skipped := by
    intro h
    obtain ⟨f, hfailed, -⟩ := hI.origin ((endState_stateOf_eq_iff (by decide) (by decide) x).mp h)
    exact hnofail f hfailed
  have hnf : (r.endState w).stateOf x ≠ .failed := fun h =>
    hnofail x ((endState_stateOf_eq_iff (by decide) (by decide) x).mp h)
  have ht := hI.endState_terminal hg hq x hx
  show (r.endState w).stateOf x = .succeeded
  revert hnc hns hnf ht
  cases (r.endState w).stateOf x <;> simp [NodeState.isTerminal]

/-- The report of a quiet run that holds the answers `ans`, in which a node's command ran exactly when `ran` holds of
it, agrees with itself. -/
theorem Inv.coherent_finish (hR : r.Recorded g ans) {ran : Nat → Prop}
    (hran : ∀ x, ran x ↔ (r.reportOf x).startedAt.isSome) : (r.finish w).Coherent ran := by
  obtain ⟨L, hperm, hpair⟩ := hI.failures_paired hg hq hR
  have hlen := hI.length_finish_nodes hg hq
  have hcount : (r.finish w).failures.length = (r.finish w).countIn .failed := by
    rw [hpair.length_eq, hperm.length_eq, hI.countIn_finish hg hq]
    congr 1
    exact List.filter_congr fun x _ => by simp [endState_stateOf_eq_iff]
  refine ⟨⟨L, hperm.nodup_iff.mpr ((List.nodup_range).filter _), fun v => ?_, hpair⟩, hcount,
    hI.error_finish hg hq hR, hI.outcome_finish hg hq hR, fun v hv => ?_, ?_,
    RunReport.intoOutcome_eq hcount, RunReport.isOk_intoOutcome hcount (hI.succeeded_of_no_failed hg hq)⟩
  · rw [hperm.mem_iff, hlen]
    simp only [List.mem_filter, List.mem_range, decide_eq_true_eq]
    exact and_congr_right fun hv => (hI.stateAt_finish_eq_iff hg hq (by decide) (by decide) v).symm
  · rw [hlen] at hv
    rw [hI.getD_finish_nodes hg hq hv, hran]
  · have hany : (r.finish w).wasCancelled = (r.finish w).nodes.any (·.state = .cancelled) := rfl
    rw [hany, List.any_eq_true]
    simp

end Quiet

end Run

/-! ## The report of every run -/

namespace Scheduler

open Run

variable {g : ValidatedGraph}

/-- The report of a run agrees with itself: a scheduler that is not shut down reports on every run, and its report is
`Coherent`, whatever the policy, the workers, the schedule, the commands and the signals. -/
theorem run_report_coherent (hg : g.Valid) (s : Scheduler) (sched : Schedule) (followsCaller : Bool) {w : World}
    (hw : w.shutDown = false) :
    ∃ rep, s.run sched g followsCaller w = ((s.final sched g followsCaller w).2, .ok rep) ∧
      rep.Coherent (· ∈ s.started sched g followsCaller w (2 * g.size + 1)) := by
  have hI : (s.final sched g followsCaller w).1.Inv g s.policy (s.final sched g followsCaller w).2 :=
    inv_trace hg s sched followsCaller w _
  have hq : (s.final sched g followsCaller w).1.Quiet := quiet_trace hg s sched followsCaller w (Nat.le_succ _)
  exact ⟨_, run_eq s sched g followsCaller hw,
    hI.coherent_finish hg hq (recorded_resultIn hg _) (started_spec s sched followsCaller w hg _).1⟩

/-- The report of the two-node graph in the sequential schedule agrees with itself. -/
theorem report_coherent_buildThenTest :
    buildThenTestValidated.Valid ∧ ({} : World).shutDown = false ∧
      ∃ rep, Scheduler.run { workers := .fixed 1 } Schedule.sequential buildThenTestValidated false {} =
          ((Scheduler.final { workers := .fixed 1 } Schedule.sequential buildThenTestValidated false {}).2, .ok rep) ∧
        rep.Coherent (· ∈ Scheduler.started { workers := .fixed 1 } Schedule.sequential buildThenTestValidated false {}
          (2 * buildThenTestValidated.size + 1)) :=
  ⟨valid_buildThenTest, rfl, run_report_coherent valid_buildThenTest _ _ _ rfl⟩

end Scheduler

end CommandEngine.Graph
