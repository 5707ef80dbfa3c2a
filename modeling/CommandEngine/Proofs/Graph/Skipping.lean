import CommandEngine.Proofs.Graph.Liveness

/-!
# Skipping is the closure of failure

Under the policy that skips dependents, the states of a run keep two laws at every point (`RunState.Tally`): a node
below a failed or skipped node is skipped, and a skipped node lies below a failed one. Along paths of the graph the
first gives the whole downstream closure (`RunState.Tally.skipped_below`). A node that is neither pending nor skipped
has all its predecessors succeeded, so along paths all its ancestors (`Run.Inv.succeeded_above`).

In the report of a run these read: a node is skipped exactly when it lies strictly below a failed node, no failed node
lies below another, no skipped node's command ever started, and a node whose command started has only succeeded
ancestors (`Scheduler.SkipLaw`). When each command's verdict is fixed, failing for the nodes of a set `fails` and
succeeding for the others, a run that nothing cancels skips exactly what lies below `fails`, fails the rest of
`fails` and succeeds everywhere else.
-/

namespace CommandEngine.Graph

open DependencyGraph Relation

/-- The state of node `v` in a report; a node beyond the last one reads as pending. -/
def RunReport.stateAt (rep : RunReport) (v : Nat) : NodeState :=
  (rep.nodes.getD v default).state

/-! ## Closure along paths -/

namespace RunState

variable {s : RunState}

/-- Under the policy that skips dependents, every node below a failed or skipped node is skipped. -/
theorem Tally.skipped_below (ht : s.Tally) (hp : s.policy = .skipDependents) {f x : Nat}
    (hf : s.stateOf f = .failed ∨ s.stateOf f = .skipped) (h : TransGen s.Edge f x) : s.stateOf x = .skipped := by
  induction h with
  | single he => exact ht.closure hp _ _ he hf
  | tail _ he ih => exact ht.closure hp _ _ he (.inr ih)

/-- Completing a node settles no other node: a node succeeded or failed after it was so before, unless it is the node
itself, which ends as its command reported. -/
theorem Completed.settled_of {s s' : RunState} {v : Nat} {b : Bool}
    {st : SettleStep} (hC : Completed s v b s' st) {x : Nat} {t : NodeState} (ht : t ≠ .skipped)
    (hx : s'.stateOf x = t) : (x = v ∧ t = if b then .succeeded else .failed) ∨ s.stateOf x = t := by
  by_cases hxv : x = v
  · subst hxv
    exact .inl ⟨rfl, hx ▸ hC.stateOf_self⟩
  · rcases hC.stateOf_other x hxv with h | ⟨-, -, -, h⟩
    · exact .inr (h ▸ hx)
    · exact absurd (hx.symm.trans h) ht

end RunState

namespace Run

variable {g : ValidatedGraph} {policy : FailurePolicy} {r : Run} {w : World}

/-- The edges a run keeps are those of its graph. -/
theorem Inv.edge_eq (hI : r.Inv g policy w) : r.state.Edge = g.graph.Edge := by
  funext u x
  simp [RunState.Edge, DependencyGraph.Edge, hI.dependentsOf_eq]

/-- Under the policy that skips dependents, every node below a failed or skipped node is skipped. -/
theorem Inv.skipped_below (hI : r.Inv g policy w) (hp : policy = .skipDependents) {f x : Nat}
    (hf : r.state.stateOf f = .failed ∨ r.state.stateOf f = .skipped) (h : TransGen g.graph.Edge f x) :
    r.state.stateOf x = .skipped :=
  hI.tally.skipped_below (hI.policy_eq.trans hp) hf (hI.edge_eq ▸ h)

/-- A skipped node lies below a failed node. -/
theorem Inv.origin (hI : r.Inv g policy w) {x : Nat} (hx : r.state.stateOf x = .skipped) :
    ∃ f, r.state.stateOf f = .failed ∧ TransGen g.graph.Edge f x := by
  obtain ⟨f, hf, hpath⟩ := hI.tally.origin x hx
  exact ⟨f, hf, hI.edge_eq ▸ hpath⟩

/-- Under the policy that skips dependents, every ancestor of a node that is neither pending nor skipped succeeded. -/
theorem Inv.succeeded_above (hg : g.Valid) (hI : r.Inv g policy w) (hp : policy = .skipDependents) {u x : Nat}
    (h : TransGen g.graph.Edge u x) (hx : r.state.stateOf x ≠ .pending) (hs : r.state.stateOf x ≠ .skipped) :
    r.state.stateOf u = .succeeded := by
  -- the induction runs down the path, from its last edge back to `u`
  induction h with
  | single he =>
    rcases hI.preds_of_released hg hx hs _ he with h | ⟨hrun, -⟩
    · exact h
    · rw [hp] at hrun
      cases hrun
  | tail _ he ih =>
    rcases hI.preds_of_released hg hx hs _ he with h | ⟨hrun, -⟩
    · exact ih (by simp [h]) (by simp [h])
    · rw [hp] at hrun
      cases hrun

/-! ## The report of a quiet run, node by node -/

/-- The states of a run's end that are not pending or cancelled are those the run holds. -/
theorem endState_stateOf_eq_iff {st : NodeState} (hp : st ≠ .pending) (hc : st ≠ .cancelled) (x : Nat) :
    (r.endState w).stateOf x = st ↔ r.state.stateOf x = st := by
  unfold endState
  split
  · by_cases hx : x < r.state.states.size
    · rw [RunState.stateOf_cancelPending _ hx]
      split
      · rename_i hpend
        rw [hpend]
        exact ⟨fun h => absurd h.symm hc, fun h => absurd h.symm hp⟩
      · exact Iff.rfl
    · -- beyond the last node both read as pending
      have hpend : ∀ s : RunState, s.states.size = r.state.states.size → s.stateOf x = .pending := by
        intro s hs
        by_contra h
        exact hx (hs ▸ RunState.lt_size_of_ne_pending h)
      rw [hpend _ (by simp [RunState.cancelPending]), hpend _ rfl]
  · exact Iff.rfl

/-- The report of a quiet run gives each node of the graph the state the run ends it in. -/
theorem Inv.stateAt_finish (hg : g.Valid) (hI : r.Inv g policy w) (hq : r.Quiet) {x : Nat} (hx : x < g.size) :
    (r.finish w).stateAt x = (r.endState w).stateOf x := by
  rw [RunReport.stateAt, (finish_of_unsettled_nil (hI.unsettled_of_quiet hg hq)).1, List.getD_eq_getElem?_getD,
    List.getElem?_map, List.getElem?_range (hI.reports_size ▸ hx)]
  rfl

/-- Beyond the last node the report of a quiet run reads pending. -/
theorem Inv.stateAt_finish_of_not_lt (hg : g.Valid) (hI : r.Inv g policy w) (hq : r.Quiet) {x : Nat}
    (hx : ¬ x < g.size) : (r.finish w).stateAt x = .pending := by
  rw [RunReport.stateAt, (finish_of_unsettled_nil (hI.unsettled_of_quiet hg hq)).1, List.getD_eq_getElem?_getD,
    List.getElem?_eq_none (by simpa [hI.reports_size] using hx)]
  rfl

/-- In the report of a quiet run, a node is succeeded, failed or skipped exactly when the run holds it so. -/
theorem Inv.stateAt_finish_eq_iff (hg : g.Valid) (hI : r.Inv g policy w) (hq : r.Quiet) {st : NodeState}
    (hp : st ≠ .pending) (hc : st ≠ .cancelled) (x : Nat) :
    (r.finish w).stateAt x = st ↔ r.state.stateOf x = st := by
  by_cases hx : x < g.size
  · rw [hI.stateAt_finish hg hq hx]
    exact endState_stateOf_eq_iff hp hc x
  · -- beyond the last node the report and the run read as pending
    have hpend : r.state.stateOf x = .pending := by
      by_contra h
      exact hx (hI.lt_of_ne_pending h)
    rw [hI.stateAt_finish_of_not_lt hg hq hx, hpend]

/-- In a quiet run, a node's command started exactly when the node succeeded or failed. -/
theorem Inv.startedAt_of_quiet (hI : r.Inv g policy w) (hq : r.Quiet) (x : Nat) :
    (r.reportOf x).startedAt.isSome ↔ r.state.stateOf x = .succeeded ∨ r.state.stateOf x = .failed := by
  rw [hI.started_iff, executingNodes, hq.2]
  simp

/-! ## Fixed verdicts -/

/-- A run agrees with the verdicts `fails`: an executing command reports a failure exactly when its node is one of
`fails`, a node succeeded only outside `fails` and failed only inside it. -/
structure Agrees (fails : Nat → Prop) (r : Run) : Prop where
  executing : ∀ e ∈ r.executing, (e.result.isOk = false ↔ fails e.node)
  succeeded : ∀ x, r.state.stateOf x = .succeeded → ¬ fails x
  failed : ∀ x, r.state.stateOf x = .failed → fails x

variable {fails : Nat → Prop}

/-- A run that executes only commands an agreeing run executes, and succeeded or failed only where that run did,
agrees too. -/
theorem Agrees.mono {r' : Run} (hA : r.Agrees fails) (hexec : ∀ e ∈ r'.executing, e ∈ r.executing)
    (hsucc : ∀ x, r'.state.stateOf x = .succeeded → r.state.stateOf x = .succeeded)
    (hfail : ∀ x, r'.state.stateOf x = .failed → r.state.stateOf x = .failed) : r'.Agrees fails :=
  ⟨fun e he => hA.executing e (hexec e he), fun x hx => hA.succeeded x (hsucc x hx),
    fun x hx => hA.failed x (hfail x hx)⟩

/-- A command that reports back keeps the run in agreement: its node ends as the command reported, which is its
verdict. -/
theorem Inv.agrees_report (hI : r.Inv g policy w) (hA : r.Agrees fails) {i : Nat} (hi : i < r.executing.length) :
    (finishOne w { r with executing := r.executing.eraseIdx i } r.executing[i]).Agrees fails := by
  have hC := hI.completed (hI.running_of_executing hi) r.executing[i].result.isOk
  have hnew := hI.stateOf_report (w := w) hi
  have hverdict := hA.executing r.executing[i] (List.getElem_mem hi)
  obtain ⟨-, -, -, hexec, -⟩ := finishOne_spec w { r with executing := r.executing.eraseIdx i } r.executing[i]
  have hsettled : ∀ x t, t ≠ .skipped → t ≠ .running → t ≠ .cancelled →
      (finishOne w { r with executing := r.executing.eraseIdx i } r.executing[i]).state.stateOf x = t →
      (x = r.executing[i].node ∧ t = if r.executing[i].result.isOk then .succeeded else .failed) ∨
        r.state.stateOf x = t := by
    intro x t hts htr htc hx
    rw [hnew] at hx
    split at hx
    · split at hx
      · exact absurd hx.symm htc
      · exact absurd hx.symm htr
    · exact hC.settled_of hts hx
  refine ⟨fun e he => hA.executing e (List.mem_of_mem_eraseIdx (hexec ▸ he)), fun x hx => ?_, fun x hx => ?_⟩
  · rcases hsettled x .succeeded (by decide) (by decide) (by decide) hx with ⟨rfl, hok⟩ | h
    · intro hf
      have hfalse := hverdict.mpr hf
      rw [hfalse] at hok
      cases hok
    · exact hA.succeeded x h
  · rcases hsettled x .failed (by decide) (by decide) (by decide) hx with ⟨rfl, hok⟩ | h
    · apply hverdict.mp
      cases hres : r.executing[i].result.isOk
      · rfl
      · rw [hres] at hok
        cases hok
    · exact hA.failed x h

/-- A move keeps the run in agreement, when the command it may start has, in the world the move is made in, the
verdict that `fails` gives. -/
theorem Inv.agrees_step (hI : r.Inv g policy w) (hA : r.Agrees fails)
    (hF : ∀ v < g.size, ((w.runCommand (g.graph.nodes.getD v 0)).2.isOk = false ↔ fails v)) (m : Move) :
    (r.step w m).1.Agrees fails := by
  -- a node that does not start is cancelled, which neither succeeds nor fails it
  have hcancel : ∀ v x t, t ≠ .cancelled → (r.state.cancel v).stateOf x = t → r.state.stateOf x = t := by
    intro v x t ht hx
    rw [RunState.stateOf_cancel] at hx
    split at hx
    · exact absurd hx.symm ht
    · exact hx
  rcases step_cases r w m with ⟨i, hi, -, hstep⟩ | ⟨-, -, hstep⟩ | ⟨v, rest, -, -, -, -, hstep⟩ |
      ⟨v, rest, -, -, -, -, -, hstep⟩ | ⟨v, rest, -, -, hw, -, -, hstep⟩ <;> rw [hstep]
  · exact hI.agrees_report hA hi
  · exact hA
  · exact hA.mono (fun e he => he) (fun x => hcancel v x _ (by decide)) (fun x => hcancel v x _ (by decide))
  · exact hA.mono (fun e he => he) (fun x => hcancel v x _ (by decide)) (fun x => hcancel v x _ (by decide))
  · -- the command that starts has the verdict of its node
    refine ⟨fun e he => ?_, hA.succeeded, hA.failed⟩
    rcases List.mem_append.mp he with he | he
    · exact hA.executing e he
    · rw [List.mem_singleton.mp he, startCommand_snd, hI.graph_eq]
      exact hF v (hI.inLine hw).2.1

/-- A run that starts in agreement stays so along its trace, when every command has at every point the verdict that
`fails` gives. -/
theorem Inv.agrees_trace (hI : r.Inv g policy w) (hA : r.Agrees fails) (sched : Schedule)
    (hF : ∀ i, ∀ v < g.size,
      (((Run.trace sched r w i).2.runCommand (g.graph.nodes.getD v 0)).2.isOk = false ↔ fails v)) :
    ∀ i, (Run.trace sched r w i).1.Agrees fails
  | 0 => hA
  | i + 1 => (hI.trace sched i).agrees_step (hI.agrees_trace hA sched hF i) (hF i) (sched i)

/-- In a quiet run under the policy that skips dependents, not cancelled and agreeing with the verdicts `fails`, a node
is skipped exactly when it lies below a node of `fails`. -/
theorem Inv.skipped_iff_below_fails (hg : g.Valid) (hI : r.Inv g policy w) (hq : r.Quiet)
    (hc : r.isCancelled w = false) (hp : policy = .skipDependents) (hA : r.Agrees fails) (v : Nat) :
    r.state.stateOf v = .skipped ↔ ∃ f, fails f ∧ TransGen g.graph.Edge f v := by
  constructor
  · intro hv
    obtain ⟨f, hf, hpath⟩ := hI.origin hv
    exact ⟨f, hA.failed f hf, hpath⟩
  · rintro ⟨f, hf, hpath⟩
    obtain ⟨b, hfb, -⟩ := TransGen.head'_iff.mp hpath
    -- a node of `fails` did not succeed, so it failed or was skipped, and all below it is skipped
    have hfs : r.state.stateOf f = .failed ∨ r.state.stateOf f = .skipped := by
      rcases hI.settled_of_quiet hg hq hc (hg.wellFormed.edge_lt hfb).1 with h | h
      · exact absurd hf (hA.succeeded f h)
      · exact h
    exact hI.skipped_below hp hfs hpath

/-- In a quiet run under the policy that skips dependents, not cancelled and agreeing with the verdicts `fails`: the
skipped nodes are those below `fails`, the failed nodes the other nodes of `fails`, and every other node succeeded. -/
theorem Inv.verdicts_of_quiet (hg : g.Valid) (hI : r.Inv g policy w) (hq : r.Quiet) (hc : r.isCancelled w = false)
    (hp : policy = .skipDependents) (hA : r.Agrees fails) {v : Nat} (hv : v < g.size) :
    (r.state.stateOf v = .skipped ↔ ∃ f, fails f ∧ TransGen g.graph.Edge f v) ∧
    (r.state.stateOf v = .failed ↔ fails v ∧ ¬ ∃ f, fails f ∧ TransGen g.graph.Edge f v) ∧
    (r.state.stateOf v = .succeeded ↔ ¬ fails v ∧ ¬ ∃ f, fails f ∧ TransGen g.graph.Edge f v) := by
  have hskip := hI.skipped_iff_below_fails hg hq hc hp hA v
  have hsettled := hI.settled_of_quiet hg hq hc hv
  refine ⟨hskip, ⟨fun h => ⟨hA.failed v h, fun hb => ?_⟩, fun ⟨hfv, hb⟩ => ?_⟩,
    ⟨fun h => ⟨hA.succeeded v h, fun hb => ?_⟩, fun ⟨hfv, hb⟩ => ?_⟩⟩
  · rw [← hskip, h] at hb
    cases hb
  · rcases hsettled with h | h | h
    · exact absurd hfv (hA.succeeded v h)
    · exact h
    · exact absurd (hskip.mp h) hb
  · rw [← hskip, h] at hb
    cases hb
  · rcases hsettled with h | h | h
    · exact h
    · exact absurd (hA.failed v h) hfv
    · exact absurd (hskip.mp h) hb

end Run

/-! ## The law of skipping in a report -/

namespace Scheduler

open Run

variable {g : ValidatedGraph}

/-- Before the first move no command executes and no node succeeded or failed, so a run agrees with any verdicts. -/
theorem agrees_start (hg : g.Valid) (s : Scheduler) (followsCaller : Bool) (w : World) (fails : Nat → Prop) :
    (s.start g followsCaller w).Agrees fails := by
  have hI := inv_start hg s followsCaller w
  have hnone : ∀ x, ¬ ((s.start g followsCaller w).state.stateOf x = .succeeded ∨
      (s.start g followsCaller w).state.stateOf x = .failed) := by
    intro x h
    have h' := (hI.finished_iff x).mpr h
    simp [(stamps_start_run s followsCaller w x).2] at h'
  have hexec : (s.start g followsCaller w).executing = [] := by
    unfold start
    rw [submit_eq]
  refine ⟨fun e he => ?_, fun x hx => absurd (.inl hx) (hnone x), fun x hx => absurd (.inr hx) (hnone x)⟩
  rw [hexec] at he
  cases he

/-- Commands never change the table of commands, so a verdict that holds in every world with the table the run starts
with holds at every point of the run. -/
theorem verdicts_of_commands (s : Scheduler) (sched : Schedule) (g : ValidatedGraph) (followsCaller : Bool) (w : World)
    {fails : Nat → Prop} (h : ∀ w' : World, w'.commands = w.commands →
      ∀ v < g.size, ((w'.runCommand (g.graph.nodes.getD v 0)).2.isOk = false ↔ fails v)) :
    ∀ i, ∀ v < g.size,
      (((s.trace sched g followsCaller w i).2.runCommand (g.graph.nodes.getD v 0)).2.isOk = false ↔ fails v) :=
  fun i => h _ ((stable_trace World.stable_fixed World.fixed_probe sched _ w i).1)

/-- What the report `rep` of a run of `g` shows of skipping. -/
structure SkipLaw (s : Scheduler) (sched : Schedule) (g : ValidatedGraph) (followsCaller : Bool) (w : World)
    (rep : RunReport) : Prop where
  /-- Under the policy that skips dependents, a node is skipped exactly when it lies strictly below a failed node; -/
  skipped_iff : s.policy = .skipDependents → ∀ v,
    rep.stateAt v = .skipped ↔ ∃ f, rep.stateAt f = .failed ∧ TransGen g.graph.Edge f v
  /-- no failed node lies below another; -/
  failed_not_below_failed : s.policy = .skipDependents → ∀ f v, rep.stateAt f = .failed →
    TransGen g.graph.Edge f v → rep.stateAt v ≠ .failed
  /-- and a node whose command started has only succeeded ancestors. -/
  started_below_succeeded : s.policy = .skipDependents → ∀ v ∈ s.started sched g followsCaller w (2 * g.size + 1),
    ∀ u, TransGen g.graph.Edge u v → rep.stateAt u = .succeeded
  /-- Under either policy, no skipped node's command ever started. -/
  skipped_not_started : ∀ v, rep.stateAt v = .skipped → v ∉ s.started sched g followsCaller w (2 * g.size + 1)
  /-- Under the policy that runs dependents no node is skipped, -/
  no_skip : s.policy = .runDependents → ∀ v, rep.stateAt v ≠ .skipped
  /-- and in a run that neither a shutdown nor the caller's signal reached, the dependents of a failed node run. -/
  dependents_run : s.policy = .runDependents → (s.final sched g followsCaller w).2.shutDown = false →
    (followsCaller && (s.final sched g followsCaller w).2.signal) = false →
    ∀ f v, rep.stateAt f = .failed → v ∈ g.graph.succ f → v ∈ s.started sched g followsCaller w (2 * g.size + 1)
  /-- With `fails` the nodes whose command fails whenever it runs, a run under the policy that skips dependents that
  neither a shutdown nor the caller's signal reached skips exactly the nodes below `fails`, fails the other nodes of
  `fails`, and succeeds everywhere else. -/
  verdicts : s.policy = .skipDependents → (s.final sched g followsCaller w).2.shutDown = false →
    (followsCaller && (s.final sched g followsCaller w).2.signal) = false → ∀ fails : Nat → Prop,
    (∀ i, ∀ v < g.size,
      (((s.trace sched g followsCaller w i).2.runCommand (g.graph.nodes.getD v 0)).2.isOk = false ↔ fails v)) →
    ∀ v < g.size, (rep.stateAt v = .skipped ↔ ∃ f, fails f ∧ TransGen g.graph.Edge f v) ∧
      (rep.stateAt v = .failed ↔ fails v ∧ ¬ ∃ f, fails f ∧ TransGen g.graph.Edge f v) ∧
      (rep.stateAt v = .succeeded ↔ ¬ fails v ∧ ¬ ∃ f, fails f ∧ TransGen g.graph.Edge f v)

/-- When whether each node's command fails is fixed by the table of commands, a run that skips dependents and that
nothing stops has the verdicts of the failing commands: commands never change the table, so the verdict of a node holds
at every point of the run. -/
theorem SkipLaw.verdicts_of_table {s : Scheduler} {sched : Schedule} {followsCaller : Bool} {w : World}
    {rep : RunReport} (h : s.SkipLaw sched g followsCaller w rep) (hp : s.policy = .skipDependents)
    (hsd : (s.final sched g followsCaller w).2.shutDown = false)
    (hsig : (followsCaller && (s.final sched g followsCaller w).2.signal) = false) {fails : Nat → Prop}
    (hF : ∀ w' : World, w'.commands = w.commands →
      ∀ v < g.size, ((w'.runCommand (g.graph.nodes.getD v 0)).2.isOk = false ↔ fails v)) :
    ∀ v < g.size, (rep.stateAt v = .skipped ↔ ∃ f, fails f ∧ TransGen g.graph.Edge f v) ∧
      (rep.stateAt v = .failed ↔ fails v ∧ ¬ ∃ f, fails f ∧ TransGen g.graph.Edge f v) ∧
      (rep.stateAt v = .succeeded ↔ ¬ fails v ∧ ¬ ∃ f, fails f ∧ TransGen g.graph.Edge f v) :=
  h.verdicts hp hsd hsig fails (verdicts_of_commands s sched g followsCaller w hF)

/-- Skipping is exactly the downstream closure of failure: every run of a scheduler that is not shut down reports
as `SkipLaw` says, under either policy. -/
theorem run_skips_below_failures (hg : g.Valid) (s : Scheduler) (sched : Schedule) (followsCaller : Bool) {w : World}
    (hw : w.shutDown = false) :
    ∃ rep, s.run sched g followsCaller w = ((s.final sched g followsCaller w).2, .ok rep) ∧
      s.SkipLaw sched g followsCaller w rep := by
  have hI : (s.final sched g followsCaller w).1.Inv g s.policy (s.final sched g followsCaller w).2 :=
    inv_trace hg s sched followsCaller w _
  have hq : (s.final sched g followsCaller w).1.Quiet := quiet_trace hg s sched followsCaller w (Nat.le_succ _)
  have hstate : ∀ {st : NodeState}, st ≠ .pending → st ≠ .cancelled → ∀ x,
      ((s.final sched g followsCaller w).1.finish (s.final sched g followsCaller w).2).stateAt x = st ↔
        (s.final sched g followsCaller w).1.state.stateOf x = st :=
    fun hp hc x => hI.stateAt_finish_eq_iff hg hq hp hc x
  have hstarted : ∀ x, x ∈ s.started sched g followsCaller w (2 * g.size + 1) ↔
      (s.final sched g followsCaller w).1.state.stateOf x = .succeeded ∨
        (s.final sched g followsCaller w).1.state.stateOf x = .failed :=
    fun x => ((started_spec s sched followsCaller w hg _).1 x).trans (hI.startedAt_of_quiet hq x)
  refine ⟨(s.final sched g followsCaller w).1.finish (s.final sched g followsCaller w).2, run_eq s sched g followsCaller hw,
    ⟨fun hp v => ?_, fun hp f v hf hpath hv => ?_, fun hp v hv u hpath => ?_, fun v hv hvs => ?_, fun hp v hv => ?_,
      fun hp hsd hsig f v _ hfv => ?_, fun hp hsd hsig fails hF v hv => ?_⟩⟩
  · rw [hstate (by decide) (by decide) v]
    constructor
    · intro hv
      obtain ⟨f, hf, hpath⟩ := hI.origin hv
      exact ⟨f, (hstate (by decide) (by decide) f).mpr hf, hpath⟩
    · rintro ⟨f, hf, hpath⟩
      exact hI.skipped_below hp (.inl ((hstate (by decide) (by decide) f).mp hf)) hpath
  · have h := hI.skipped_below hp (.inl ((hstate (by decide) (by decide) f).mp hf)) hpath
    rw [hstate (by decide) (by decide) v, h] at hv
    cases hv
  · have hvs := (hstarted v).mp hv
    refine (hstate (by decide) (by decide) u).mpr (hI.succeeded_above hg hp hpath ?_ ?_)
    · rcases hvs with h | h <;> simp [h]
    · rcases hvs with h | h <;> simp [h]
  · have h := (hstate (by decide) (by decide) v).mp hv
    rcases (hstarted v).mp hvs with h' | h' <;> rw [h] at h' <;> cases h'
  · exact hI.tally.noSkip (hI.policy_eq.trans hp) v ((hstate (by decide) (by decide) v).mp hv)
  · have hc := final_not_cancelled hg s sched followsCaller w hsd hsig
    exact ((started_spec s sched followsCaller w hg _).1 v).mpr
      (hI.started_of_quiet hg hq hc hp v (hg.wellFormed.edge_lt hfv).2)
  · have hc := final_not_cancelled hg s sched followsCaller w hsd hsig
    have hA := (inv_start hg s followsCaller w).agrees_trace (agrees_start hg s followsCaller w fails) sched hF
      (2 * g.size + 1)
    rw [hstate (by decide) (by decide) v, hstate (by decide) (by decide) v, hstate (by decide) (by decide) v]
    exact hI.verdicts_of_quiet hg hq hc hp hA hv

/-- A world in which `build` fails and `test` would go on. -/
def failingBuildWorld : World :=
  { commands := #[.script { name := "build", fails := some "compile error" }, .script { name := "test" }] }

/-- Every path of `buildThenTest` is its one edge, from `build` to `test`. -/
theorem buildThenTest_transGen {u x : Nat} (h : TransGen buildThenTestValidated.graph.Edge u x) : u = 0 ∧ x = 1 := by
  have hsucc : buildThenTestValidated.graph.successors = #[[1], []] := by cbv
  have hedge : ∀ {u x : Nat}, buildThenTestValidated.graph.Edge u x → u = 0 ∧ x = 1 := by
    intro u x he
    simp only [Edge, succ, hsucc] at he
    rcases u with _ | _ | u
    · simpa using he
    · simp at he
    · simp at he
  induction h with
  | single he => exact hedge he
  | tail _ he ih => exact ⟨ih.1, (hedge he).2⟩

/-- In a world with the commands of `failingBuildWorld`, `build` fails and `test` goes on. -/
theorem fails_failingBuild (w' : World) (hc : w'.commands = failingBuildWorld.commands) :
    ∀ v < buildThenTestValidated.size,
      ((w'.runCommand (buildThenTestValidated.graph.nodes.getD v 0)).2.isOk = false ↔ v = 0) := by
  have hnodes : buildThenTestValidated.graph.nodes = #[0, 1] := by cbv
  have hsize : buildThenTestValidated.size = 2 := by cbv
  intro v hv
  rcases (by omega : v = 0 ∨ v = 1) with rfl | rfl <;>
    simp [hnodes, World.runCommand, World.exec, World.command, hc, failingBuildWorld, World.runPlain, Script.run,
      Except.isOk, Except.toBool]

/-- A run of the two-node graph that skips dependents, in which `build` fails, keeps the law of skipping: `build` is
reported failed and `test` skipped. -/
theorem skipLaw_failingBuild :
    buildThenTestValidated.Valid ∧ failingBuildWorld.shutDown = false ∧
      ∃ rep, Scheduler.run { workers := .fixed 1, policy := .skipDependents } Schedule.sequential buildThenTestValidated
          false failingBuildWorld =
          ((Scheduler.final { workers := .fixed 1, policy := .skipDependents } Schedule.sequential
            buildThenTestValidated false failingBuildWorld).2, .ok rep) ∧
        Scheduler.SkipLaw { workers := .fixed 1, policy := .skipDependents } Schedule.sequential buildThenTestValidated
          false failingBuildWorld rep ∧
        rep.stateAt 0 = .failed ∧ rep.stateAt 1 = .skipped := by
  obtain ⟨rep, hrun, hlaw⟩ := run_skips_below_failures valid_buildThenTest
    { workers := .fixed 1, policy := .skipDependents } Schedule.sequential false (rfl : failingBuildWorld.shutDown = false)
  have hsd : (Scheduler.final { workers := .fixed 1, policy := .skipDependents } Schedule.sequential
      buildThenTestValidated false failingBuildWorld).2.shutDown = false := by cbv
  have hV := hlaw.verdicts_of_table rfl hsd rfl fails_failingBuild
  have hsize : buildThenTestValidated.size = 2 := by cbv
  have hedge : buildThenTestValidated.graph.Edge 0 1 := by
    show 1 ∈ buildThenTestValidated.graph.succ 0
    rw [show buildThenTestValidated.graph.succ 0 = [1] by cbv]
    exact List.mem_singleton_self 1
  refine ⟨valid_buildThenTest, rfl, rep, hrun, hlaw, ?_, ?_⟩
  · -- `build` fails, and no path leads into it
    refine (hV 0 (by omega)).2.1.mpr ⟨rfl, ?_⟩
    rintro ⟨_, _, hpath⟩
    exact absurd (buildThenTest_transGen hpath).2 (by decide)
  · exact (hV 1 (by omega)).1.mpr ⟨0, rfl, .single hedge⟩

end Scheduler

end CommandEngine.Graph
