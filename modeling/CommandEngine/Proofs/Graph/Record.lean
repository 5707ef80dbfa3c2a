import CommandEngine.Proofs.Graph.Cancellation
import CommandEngine.Proofs.Chain.Wrapping

/-!
# What a run records of its commands' answers

A command answers when it starts; the run keeps the answer with the command until it reports back, and the node then
settles as the answer says. `Run.Recorded g ans` states that a run holds the answers `ans` and nothing else: each
executing command will report its node's answer, a node succeeded only on an outcome and failed only without one, its
report holds the outcome or the failure text of that answer and no other, and the failures recorded are those of the
failed nodes, in some order. Every move keeps it when the command it starts answers as `ans` says
(`Run.Inv.recorded_step`), so every point of a run does (`Scheduler.recorded_trace`).

A failure also records the keys of the context at the time its command reported back. The record leaves them out
(`ExecutionError.cause`): they are no part of the failure's text.

In the report of a quiet run, a node is then known from three things (`Run.Inv.observed_finish`,
`Run.Inv.endState_started`, `Run.Inv.endState_unstarted`): whether its command ran, the answer it gave, and, for a node
whose command never ran, whether it lies below a failed node.
-/

namespace CommandEngine

open Relation

namespace ExecutionError

/-- The command an execution error names and its inner text: all of it but the context's keys. -/
def cause (e : ExecutionError) : String × String :=
  (e.command, e.source)

/-- The keys offered to the wrapping do not change the cause of the error it gives. -/
theorem cause_ofFault (c : String) (keys : List String) (f : Fault) :
    (ofFault c keys f).cause = (ofFault c [] f).cause := by
  rw [ofFault_eq_getD, ofFault_eq_getD]
  cases f.wrapped? <;> rfl

/-- An error's text is made of its cause. -/
theorem message_eq_of_cause {e e' : ExecutionError} (h : e.cause = e'.cause) : e.message = e'.message := by
  obtain ⟨c, k, s⟩ := e
  obtain ⟨c', k', s'⟩ := e'
  simp only [cause, Prod.mk.injEq] at h
  obtain ⟨rfl, rfl⟩ := h
  rfl

end ExecutionError

/-- The fault a run records for a command of the node named `name` that answered `a` with no outcome: its failure, or
its panic. -/
def faultOf (name : String) : Except Interrupt Outcome → Fault
  | .error (.failed f) => f
  | .error (.panicked _) => .text ("command '" ++ name ++ "' panicked")
  | .ok _ => default

namespace Graph

/-- The failure, with no keys, that a run records for node `v` of `g` whose command answered `a`. -/
def ValidatedGraph.failureOf (g : ValidatedGraph) (v : Nat) (a : Except Interrupt Outcome) : ExecutionError :=
  ExecutionError.ofFault (g.graph.nameOf v) [] (faultOf (g.graph.nameOf v) a)

/-- What a report says of a node, but for the times on the run's clock: its name, state, outcome and failure text, and
whether its command ran. -/
def NodeReport.observed (n : NodeReport) : String × NodeState × Option Outcome × Option String × Bool :=
  (n.name, n.state, n.outcome, n.error, n.startedAt.isSome)

namespace Run

/-! ## Reporting back -/

/-- A command reporting back writes the outcome it answered in its node's report, or else its failure's text, and adds
that failure, wrapped with the node's name and the keys of the context then; nothing else of the reports changes. -/
theorem finishOne_record (w : World) (r : Run) (e : Executing) (hv : e.node < r.reports.size) (x : Nat) :
    ((finishOne w r e).reportOf x).name = (r.reportOf x).name ∧
    ((finishOne w r e).reportOf x).outcome =
      (if x = e.node ∧ e.result.isOk = true then e.result.toOption else (r.reportOf x).outcome) ∧
    ((finishOne w r e).reportOf x).error =
      (if x = e.node ∧ e.result.isOk = false then
        some (ExecutionError.ofFault (r.graph.graph.nameOf e.node) w.context.keys
          (faultOf (r.graph.graph.nameOf e.node) e.result)).message
      else (r.reportOf x).error) ∧
    (finishOne w r e).failures.toList = r.failures.toList ++
      (if e.result.isOk = true then [] else
        [ExecutionError.ofFault (r.graph.graph.nameOf e.node) w.context.keys
          (faultOf (r.graph.graph.nameOf e.node) e.result)]) := by
  unfold finishOne
  rcases he : e.result with (f | m) | o <;>
    simp only [settle_eq, recordFailure, reportOf, getD_modify, Array.size_modify, hv, and_true] <;>
    by_cases hx : x = e.node <;>
    simp [hx, faultOf, Except.isOk, Except.toBool, Except.toOption]

variable {g : ValidatedGraph} {policy : FailurePolicy} {r : Run} {w : World} {ans : Nat → Except Interrupt Outcome}

/-- When the command at position `i` reports back, its node succeeds or fails as it answered, and every other node has
succeeded, or failed, exactly when it had. -/
theorem Inv.verdict_report (hI : r.Inv g policy w) {i : Nat} (hi : i < r.executing.length) {t : NodeState}
    (ht : t = .succeeded ∨ t = .failed) (x : Nat) :
    (finishOne w { r with executing := r.executing.eraseIdx i } r.executing[i]).state.stateOf x = t ↔
      if x = r.executing[i].node then t = if r.executing[i].result.isOk then .succeeded else .failed
      else r.state.stateOf x = t := by
  have hrun := hI.running_of_executing hi
  have hC := hI.completed hrun r.executing[i].result.isOk
  rw [hI.stateOf_report hi]
  by_cases hx : x ∈ (r.state.complete r.executing[i].node r.executing[i].result.isOk).2.ready
  · -- a node made ready is handed on, running or cancelled, and was pending
    obtain ⟨hxv, hp, -⟩ := hI.ready_fresh hrun _ hx
    rw [if_pos hx, if_neg hxv, hp]
    rcases ht with rfl | rfl <;> split <;> simp
  · rw [if_neg hx]
    split
    · rename_i hxv
      rw [hxv, hC.stateOf_self]
      exact eq_comm
    · rename_i hxv
      rcases hC.stateOf_other x hxv with h | ⟨-, -, hp, hs⟩
      · rw [h]
      · rw [hs, hp]
        rcases ht with rfl | rfl <;> simp

/-! ## The record -/

/-- A run holds the answers `ans` of the commands of `g` and nothing else: each executing command will report its node's
answer; a node succeeded only on an outcome and failed only without one; a node's report has its node's name, the
outcome of its answer exactly when it succeeded and the text of its failure exactly when it failed; and the failures
recorded are, up to order, those of the failed nodes. -/
structure Recorded (g : ValidatedGraph) (ans : Nat → Except Interrupt Outcome) (r : Run) : Prop where
  executing : ∀ e ∈ r.executing, e.result = ans e.node
  succeeded : ∀ x, r.state.stateOf x = .succeeded → (ans x).isOk = true
  failed : ∀ x, r.state.stateOf x = .failed → (ans x).isOk = false
  name : ∀ x < g.size, (r.reportOf x).name = g.graph.nameOf x
  outcome : ∀ x, (r.reportOf x).outcome = if r.state.stateOf x = .succeeded then (ans x).toOption else none
  error : ∀ x, (r.reportOf x).error =
    if r.state.stateOf x = .failed then some (g.failureOf x (ans x)).message else none
  failures : (r.failures.toList.map ExecutionError.cause).Perm
    (((List.range g.size).filter fun x => r.state.stateOf x = .failed).map fun x => (g.failureOf x (ans x)).cause)

/-- A run that keeps the answers of the executing commands, the names, outcomes and failure texts of the reports, the
failures, and which nodes succeeded and which failed, keeps the record. -/
theorem Recorded.of_eq (hR : r.Recorded g ans) {r' : Run}
    (hexec : ∀ e ∈ r'.executing, e ∈ r.executing ∨ e.result = ans e.node)
    (hrep : ∀ x, (r'.reportOf x).name = (r.reportOf x).name ∧ (r'.reportOf x).outcome = (r.reportOf x).outcome ∧
      (r'.reportOf x).error = (r.reportOf x).error)
    (hfail : r'.failures = r.failures)
    (hst : ∀ x, (r'.state.stateOf x = .succeeded ↔ r.state.stateOf x = .succeeded) ∧
      (r'.state.stateOf x = .failed ↔ r.state.stateOf x = .failed)) :
    r'.Recorded g ans := by
  have hfilter : ((List.range g.size).filter fun x => r'.state.stateOf x = .failed) =
      (List.range g.size).filter fun x => r.state.stateOf x = .failed :=
    List.filter_congr fun x _ => by simp only [(hst x).2]
  refine ⟨fun e he => (hexec e he).elim (hR.executing e) id, fun x hx => hR.succeeded x ((hst x).1.mp hx),
    fun x hx => hR.failed x ((hst x).2.mp hx), fun x hx => (hrep x).1.trans (hR.name x hx), fun x => ?_, fun x => ?_,
    by rw [hfail, hfilter]; exact hR.failures⟩
  · rw [(hrep x).2.1, hR.outcome x]
    simp only [(hst x).1]
  · rw [(hrep x).2.2, hR.error x]
    simp only [(hst x).2]

/-- Adding a node to those a filter of `List.range n` keeps gives the same nodes as adding it at the end. -/
theorem perm_filter_range_insert {p q : Nat → Bool} {n v : Nat} (hv : v < n) (hpv : p v = false)
    (hq : ∀ x, q x = (p x || x == v)) :
    ((List.range n).filter q).Perm ((List.range n).filter p ++ [v]) := by
  refine (List.perm_ext_iff_of_nodup ((List.nodup_range).filter q) ?_).mpr fun x => ?_
  · refine List.nodup_append.mpr ⟨(List.nodup_range).filter p, List.nodup_singleton v, fun a ha b hb hab => ?_⟩
    rw [List.mem_singleton.mp hb] at hab
    subst hab
    simp [hpv] at ha
  · simp only [List.mem_filter, List.mem_range, hq, Bool.or_eq_true, beq_iff_eq, List.mem_append,
      List.mem_singleton]
    constructor
    · rintro ⟨hx, h | rfl⟩
      · exact .inl ⟨hx, h⟩
      · exact .inr rfl
    · rintro (⟨hx, h⟩ | rfl)
      · exact ⟨hx, .inl h⟩
      · exact ⟨hv, .inr rfl⟩

/-- The command at position `i` reporting back keeps the record: its node settles as it answered, and its report and
the failures take the outcome or the failure of that answer. -/
theorem Inv.recorded_report (hI : r.Inv g policy w) (hR : r.Recorded g ans) {i : Nat} (hi : i < r.executing.length) :
    (finishOne w { r with executing := r.executing.eraseIdx i } r.executing[i]).Recorded g ans := by
  have hrun := hI.running_of_executing hi
  have hv : r.executing[i].node < g.size := hI.lt_of_ne_pending (by simp [hrun])
  have hres : r.executing[i].result = ans r.executing[i].node := hR.executing _ (List.getElem_mem hi)
  have hrec := finishOne_record w { r with executing := r.executing.eraseIdx i } r.executing[i]
    (by simpa [hI.reports_size] using hv)
  -- taking the command off the executing ones changes none of the reports
  have hkeep : ∀ x, ({ r with executing := r.executing.eraseIdx i } : Run).reportOf x = r.reportOf x := fun _ => rfl
  simp only [hkeep] at hrec
  have hsucc := fun x => hI.verdict_report (w := w) hi (t := .succeeded) (.inl rfl) x
  have hfail := fun x => hI.verdict_report (w := w) hi (t := .failed) (.inr rfl) x
  obtain ⟨-, -, -, hexec, -⟩ := finishOne_spec w { r with executing := r.executing.eraseIdx i } r.executing[i]
  generalize finishOne w { r with executing := r.executing.eraseIdx i } r.executing[i] = r' at hrec hsucc hfail hexec ⊢
  generalize r.executing[i] = e at hrun hv hres hrec hsucc hfail
  obtain ⟨v, res⟩ := e
  dsimp only at hrun hv hres hrec hsucc hfail
  subst hres
  -- the failure recorded has the cause of the node's answer
  have hcause : (ExecutionError.ofFault (r.graph.graph.nameOf v) w.context.keys (faultOf (r.graph.graph.nameOf v)
      (ans v))).cause = (g.failureOf v (ans v)).cause := by
    rw [ExecutionError.cause_ofFault, hI.graph_eq]
    rfl
  refine ⟨fun e he => hR.executing e (List.mem_of_mem_eraseIdx (hexec ▸ he)), fun x hx => ?_, fun x hx => ?_,
    fun x hx => (hrec x).1.trans (hR.name x hx), fun x => ?_, fun x => ?_, ?_⟩
  · rw [hsucc] at hx
    split at hx
    · rename_i hxv
      subst hxv
      revert hx
      cases (ans x).isOk <;> simp
    · exact hR.succeeded x hx
  · rw [hfail] at hx
    split at hx
    · rename_i hxv
      subst hxv
      revert hx
      cases (ans x).isOk <;> simp
    · exact hR.failed x hx
  · rw [(hrec x).2.1, hR.outcome x]
    by_cases hxv : x = v
    · subst hxv
      have h : r'.state.stateOf x = .succeeded ↔ (ans x).isOk = true := by
        rw [hsucc x, if_pos rfl]
        cases (ans x).isOk <;> simp
      simp only [h, hrun, true_and, reduceCtorEq, if_false]
    · have h : r'.state.stateOf x = .succeeded ↔ r.state.stateOf x = .succeeded := by rw [hsucc x, if_neg hxv]
      simp only [h, hxv, false_and, if_false]
  · rw [(hrec x).2.2.1, hR.error x]
    by_cases hxv : x = v
    · subst hxv
      have h : r'.state.stateOf x = .failed ↔ (ans x).isOk = false := by
        rw [hfail x, if_pos rfl]
        cases (ans x).isOk <;> simp
      simp only [h, hrun, true_and, reduceCtorEq, if_false]
      split
      · rw [ExecutionError.message_eq_of_cause hcause]
      · rfl
    · have h : r'.state.stateOf x = .failed ↔ r.state.stateOf x = .failed := by rw [hfail x, if_neg hxv]
      simp only [h, hxv, false_and, if_false]
  · rw [(hrec 0).2.2.2]
    cases hok : (ans v).isOk
    · -- a failure is recorded, and the node joins the failed nodes
      have hperm := perm_filter_range_insert (n := g.size) (p := fun x => decide (r.state.stateOf x = .failed))
        (q := fun x => decide (r'.state.stateOf x = .failed)) hv
        (by simp [hrun]) (fun x => by
          rw [Bool.eq_iff_iff, decide_eq_true_iff, hfail x]
          by_cases hxv : x = v <;> simp [hxv, hok])
      simp only [if_false, Bool.false_eq_true, List.map_append, List.map_cons, List.map_nil, hcause]
      exact (hR.failures.append_right _).trans ((hperm.map _).trans (by simp)).symm
    · -- no failure is recorded, and the failed nodes stay as they were
      have hfilter : ((List.range g.size).filter fun x => r'.state.stateOf x = .failed) =
          (List.range g.size).filter fun x => r.state.stateOf x = .failed := by
        refine List.filter_congr fun x _ => ?_
        rw [Bool.eq_iff_iff, decide_eq_true_iff, decide_eq_true_iff, hfail x]
        by_cases hxv : x = v
        · subst hxv
          simp [hok, hrun]
        · simp [hxv]
      simp only [if_true, List.append_nil, hfilter]
      exact hR.failures

/-- A move keeps the record, when the command it may start answers as `ans` says. -/
theorem Inv.recorded_step (hI : r.Inv g policy w) (hR : r.Recorded g ans) (m : Move)
    (hans : ∀ v, r.startedBy w m = some v → (w.runCommand (g.graph.nodes.getD v 0)).2 = ans v) :
    (r.step w m).1.Recorded g ans := by
  -- a node whose task does not start was running, and is cancelled: it neither succeeded nor failed
  have hcancel : ∀ v rest, r.waiting.Perm (v :: rest) → ∀ x,
      ((r.state.cancel v).stateOf x = .succeeded ↔ r.state.stateOf x = .succeeded) ∧
      ((r.state.cancel v).stateOf x = .failed ↔ r.state.stateOf x = .failed) := by
    intro v rest hw x
    rw [hI.stateOf_cancel_inLine hw]
    by_cases hxv : x = v
    · simp [hxv, (hI.inLine hw).1]
    · simp [hxv]
  rcases step_cases r w m with ⟨i, hi, -, hstep⟩ | ⟨-, -, hstep⟩ | ⟨v, rest, -, -, hw, -, hstep⟩ |
      ⟨v, rest, -, -, hw, -, -, hstep⟩ | ⟨v, rest, hidx, hget, -, hsd, hc, hstep⟩ <;> rw [hstep]
  · exact hI.recorded_report hR hi
  · exact hR
  · exact hR.of_eq (fun e he => .inl he) (fun _ => ⟨rfl, rfl, rfl⟩) rfl (hcancel v rest hw)
  · exact hR.of_eq (fun e he => .inl he) (fun _ => ⟨rfl, rfl, rfl⟩) rfl (hcancel v rest hw)
  · -- the command that starts answers as `ans` says, and only the start stamp of its report changes
    have hstart : r.startedBy w m = some v := by simp [startedBy, hidx, hget, hsd, hc]
    have hkeep : ∀ {β : Type} (field : NodeReport → β), (∀ n : NodeReport, field { n with startedAt := some r.clock } = field n) →
        ∀ x, field ((r.reports.modify v fun n => { n with startedAt := some r.clock }).getD x default) =
          field (r.reportOf x) :=
      fun field hf x => getD_modify_of_keeps _ _ _ _ field hf
    refine hR.of_eq (fun e he => ?_) (fun x => ⟨hkeep _ (fun _ => rfl) x, hkeep _ (fun _ => rfl) x,
      hkeep _ (fun _ => rfl) x⟩) rfl (fun _ => ⟨Iff.rfl, Iff.rfl⟩)
    rcases List.mem_append.mp he with he | he
    · exact .inl he
    · rw [List.mem_singleton.mp he, startCommand_snd, hI.graph_eq]
      exact .inr (hans v hstart)

/-! ## The report of a quiet run -/

/-- In a quiet run a node failed exactly when its command ran and answered with no outcome. -/
theorem Inv.failed_iff (hI : r.Inv g policy w) (hq : r.Quiet) (hR : r.Recorded g ans) (x : Nat) :
    r.state.stateOf x = .failed ↔ (r.reportOf x).startedAt.isSome ∧ (ans x).isOk = false := by
  rw [hI.startedAt_of_quiet hq x]
  constructor
  · intro h
    exact ⟨.inr h, hR.failed x h⟩
  · rintro ⟨h | h, hok⟩
    · rw [hR.succeeded x h] at hok
      cases hok
    · exact h

/-- In a quiet run a node whose command ran ends as it answered. -/
theorem Inv.endState_ran (hI : r.Inv g policy w) (hq : r.Quiet) (hR : r.Recorded g ans) {x : Nat}
    (hx : (r.reportOf x).startedAt.isSome) :
    (r.endState w).stateOf x = if (ans x).isOk then .succeeded else .failed := by
  rcases (hI.startedAt_of_quiet hq x).mp hx with h | h
  · rw [(endState_stateOf_eq_iff (by decide) (by decide) x).mpr h, hR.succeeded x h, if_pos rfl]
  · rw [(endState_stateOf_eq_iff (by decide) (by decide) x).mpr h, hR.failed x h]
    rfl

/-- In a quiet run a node of the graph whose command never ran ends skipped or cancelled: skipped exactly under the
policy that skips dependents, when the command of a node above it ran and answered with no outcome. -/
theorem Inv.endState_unran (hg : g.Valid) (hI : r.Inv g policy w) (hq : r.Quiet) (hR : r.Recorded g ans) {x : Nat}
    (hx : x < g.size) (hns : (r.reportOf x).startedAt.isSome = false) :
    ((r.endState w).stateOf x = .skipped ↔ policy = .skipDependents ∧
      ∃ f, TransGen g.graph.Edge f x ∧ (r.reportOf f).startedAt.isSome ∧ (ans f).isOk = false) ∧
    ((r.endState w).stateOf x = .skipped ∨ (r.endState w).stateOf x = .cancelled) := by
  refine ⟨?_, ?_⟩
  · rw [endState_stateOf_eq_iff (by decide) (by decide) x]
    constructor
    · intro h
      obtain ⟨f, hf, hpath⟩ := hI.origin h
      refine ⟨?_, f, hpath, (hI.failed_iff hq hR f).mp hf⟩
      cases hp : policy
      · exact absurd h (hI.tally.noSkip (hI.policy_eq.trans hp) x)
      · rfl
    · rintro ⟨hp, f, hpath, hf⟩
      exact hI.skipped_below hp (.inl ((hI.failed_iff hq hR f).mpr hf)) hpath
  · -- it neither succeeded nor failed, and a quiet run ends every node of the graph terminal
    have hnot : ¬ ((r.endState w).stateOf x = .succeeded ∨ (r.endState w).stateOf x = .failed) := by
      rw [endState_stateOf_eq_iff (by decide) (by decide), endState_stateOf_eq_iff (by decide) (by decide),
        ← hI.startedAt_of_quiet hq x, hns]
      decide
    have ht := hI.endState_terminal hg hq x hx
    revert hnot ht
    cases (r.endState w).stateOf x <;> simp [NodeState.isTerminal]

/-- The report of a quiet run lists each node of the graph with its name, the state the run ends it in, the outcome or
failure text its answer gives in that state, and whether its command ran. -/
theorem Inv.observed_finish (hg : g.Valid) (hI : r.Inv g policy w) (hq : r.Quiet) (hR : r.Recorded g ans) :
    (r.finish w).nodes.map NodeReport.observed = (List.range g.size).map fun x =>
      (g.graph.nameOf x, (r.endState w).stateOf x,
        if (r.endState w).stateOf x = .succeeded then (ans x).toOption else none,
        if (r.endState w).stateOf x = .failed then some (g.failureOf x (ans x)).message else none,
        (r.reportOf x).startedAt.isSome) := by
  rw [(finish_of_unsettled_nil (hI.unsettled_of_quiet hg hq)).1, hI.reports_size, List.map_map]
  refine List.map_congr_left fun x hx => ?_
  have hsucc := endState_stateOf_eq_iff (r := r) (w := w) (by decide : NodeState.succeeded ≠ .pending) (by decide) x
  have hfail := endState_stateOf_eq_iff (r := r) (w := w) (by decide : NodeState.failed ≠ .pending) (by decide) x
  simp only [Function.comp_apply, NodeReport.observed, hR.name x (List.mem_range.mp hx), hR.outcome x, hR.error x,
    hsucc, hfail]

/-- The failures in the report of a quiet run are, up to order and keys, those of the nodes whose command ran and
answered with no outcome. -/
theorem Inv.failures_finish (hg : g.Valid) (hI : r.Inv g policy w) (hq : r.Quiet) (hR : r.Recorded g ans) :
    ((r.finish w).failures.map ExecutionError.cause).Perm
      (((List.range g.size).filter fun x => (r.reportOf x).startedAt.isSome ∧ (ans x).isOk = false).map
        fun x => (g.failureOf x (ans x)).cause) := by
  have hfilter : ((List.range g.size).filter fun x => r.state.stateOf x = .failed) =
      (List.range g.size).filter fun x => (r.reportOf x).startedAt.isSome ∧ (ans x).isOk = false :=
    List.filter_congr fun x _ => by simp only [hI.failed_iff hq hR x]
  rw [(finish_of_unsettled_nil (hI.unsettled_of_quiet hg hq)).2, ← hfilter]
  exact hR.failures

/-- Two quiet runs of `g` under one policy, whose commands ran on the same nodes and answered alike there, report
alike: the same name, state, outcome and failure text for each node, the same failures up to order and keys, and the
same cancellation. -/
theorem Inv.finish_congr (hg : g.Valid) {r₁ r₂ : Run} {w₁ w₂ : World} {ans₁ ans₂ : Nat → Except Interrupt Outcome}
    (hI₁ : r₁.Inv g policy w₁) (hq₁ : r₁.Quiet) (hR₁ : r₁.Recorded g ans₁)
    (hI₂ : r₂.Inv g policy w₂) (hq₂ : r₂.Quiet) (hR₂ : r₂.Recorded g ans₂)
    (hran : ∀ x, (r₁.reportOf x).startedAt.isSome ↔ (r₂.reportOf x).startedAt.isSome)
    (hans : ∀ x, (r₁.reportOf x).startedAt.isSome → ans₁ x = ans₂ x) :
    (r₁.finish w₁).nodes.map NodeReport.observed = (r₂.finish w₂).nodes.map NodeReport.observed ∧
    ((r₁.finish w₁).failures.map ExecutionError.cause).Perm ((r₂.finish w₂).failures.map ExecutionError.cause) ∧
    (r₁.finish w₁).cancelled = (r₂.finish w₂).cancelled := by
  have hstate : ∀ x < g.size, (r₁.endState w₁).stateOf x = (r₂.endState w₂).stateOf x := by
    intro x hx
    by_cases hran₁ : (r₁.reportOf x).startedAt.isSome
    · rw [hI₁.endState_ran hq₁ hR₁ hran₁, hI₂.endState_ran hq₂ hR₂ ((hran x).mp hran₁), hans x hran₁]
    · -- both runs skip it exactly when a command above it ran and failed, and cancel it otherwise
      have hran₂ : (r₂.reportOf x).startedAt.isSome = false := by simpa using (hran x).not.mp hran₁
      obtain ⟨hskip₁, hsc₁⟩ := hI₁.endState_unran hg hq₁ hR₁ hx (by simpa using hran₁)
      obtain ⟨hskip₂, hsc₂⟩ := hI₂.endState_unran hg hq₂ hR₂ hx hran₂
      have hsame : (∃ f, TransGen g.graph.Edge f x ∧ (r₁.reportOf f).startedAt.isSome ∧ (ans₁ f).isOk = false) ↔
          ∃ f, TransGen g.graph.Edge f x ∧ (r₂.reportOf f).startedAt.isSome ∧ (ans₂ f).isOk = false :=
        exists_congr fun f => and_congr_right fun _ =>
          ⟨fun ⟨h, ho⟩ => ⟨(hran f).mp h, hans f h ▸ ho⟩,
            fun ⟨h, ho⟩ => ⟨(hran f).mpr h, (hans f ((hran f).mpr h)).symm ▸ ho⟩⟩
      have hiff : (r₁.endState w₁).stateOf x = .skipped ↔ (r₂.endState w₂).stateOf x = .skipped := by
        rw [hskip₁, hskip₂, hsame]
      rcases hsc₁ with h₁ | h₁ <;> rcases hsc₂ with h₂ | h₂
      · rw [h₁, h₂]
      · exact absurd (hiff.mp h₁) (by rw [h₂]; decide)
      · exact absurd (hiff.mpr h₂) (by rw [h₁]; decide)
      · rw [h₁, h₂]
  have hobs : (r₁.finish w₁).nodes.map NodeReport.observed = (r₂.finish w₂).nodes.map NodeReport.observed := by
    rw [hI₁.observed_finish hg hq₁ hR₁, hI₂.observed_finish hg hq₂ hR₂]
    refine List.map_congr_left fun x hx => ?_
    rw [hstate x (List.mem_range.mp hx)]
    by_cases hran₁ : (r₁.reportOf x).startedAt.isSome
    · rw [hans x hran₁, hran₁, (hran x).mp hran₁]
    · -- a node whose command never ran neither succeeded nor failed
      have hran₂ : (r₂.reportOf x).startedAt.isSome = false := by simpa using (hran x).not.mp hran₁
      rcases (hI₂.endState_unran hg hq₂ hR₂ (List.mem_range.mp hx) hran₂).2 with h | h <;>
        simp [h, hran₂, Bool.eq_false_iff.mpr hran₁]
  refine ⟨hobs, ?_, ?_⟩
  · have hfilter : ((List.range g.size).filter fun x => (r₁.reportOf x).startedAt.isSome ∧ (ans₁ x).isOk = false) =
        (List.range g.size).filter fun x => (r₂.reportOf x).startedAt.isSome ∧ (ans₂ x).isOk = false := by
      refine List.filter_congr fun x _ => ?_
      by_cases hran₁ : (r₁.reportOf x).startedAt.isSome
      · simp only [hran₁, (hran x).mp hran₁, hans x hran₁]
      · have hran₂ : (r₂.reportOf x).startedAt.isSome = false := by simpa using (hran x).not.mp hran₁
        simp [hran₂, Bool.eq_false_iff.mpr hran₁]
    have hmap : (((List.range g.size).filter fun x => (r₂.reportOf x).startedAt.isSome ∧ (ans₂ x).isOk = false).map
        fun x => (g.failureOf x (ans₁ x)).cause) =
        ((List.range g.size).filter fun x => (r₂.reportOf x).startedAt.isSome ∧ (ans₂ x).isOk = false).map
          fun x => (g.failureOf x (ans₂ x)).cause := by
      refine List.map_congr_left fun x hx => ?_
      have hx' : (r₂.reportOf x).startedAt.isSome ∧ (ans₂ x).isOk = false := by simpa using (List.mem_filter.mp hx).2
      rw [hans x ((hran x).mpr hx'.1)]
    exact (hI₁.failures_finish hg hq₁ hR₁).trans (hfilter ▸ hmap ▸ (hI₂.failures_finish hg hq₂ hR₂).symm)
  · -- a report is cancelled exactly when one of its nodes is
    have hany : ∀ (r : Run) (w : World), (r.finish w).cancelled =
        ((r.finish w).nodes.map NodeReport.observed).any fun o => o.2.1 = .cancelled := by
      intro r w
      rw [List.any_map]
      rfl
    rw [hany, hany, hobs]

end Run

/-! ## The record of a run -/

namespace Scheduler

open Run

variable {g : ValidatedGraph}

/-- Before the first move no command executes, no node succeeded or failed, and no report holds an outcome or a
failure, so a run holds any answers. -/
theorem recorded_start (hg : g.Valid) (s : Scheduler) (followsCaller : Bool) (w : World)
    (ans : Nat → Except Interrupt Outcome) : (s.start g followsCaller w).Recorded g ans := by
  have hI := inv_start hg s followsCaller w
  have hnone : ∀ x, (s.start g followsCaller w).state.stateOf x ≠ .succeeded ∧
      (s.start g followsCaller w).state.stateOf x ≠ .failed := by
    intro x
    have h := (hI.finished_iff x).not
    simp only [(stamps_start_run s followsCaller w x).2, Option.isSome_none, Bool.false_eq_true, not_false_eq_true,
      not_or, true_iff] at h
    exact h
  have hreports : ∀ x, (s.start g followsCaller w).reportOf x =
      (g.graph.indices.map fun v => ({ name := g.graph.nameOf v } : NodeReport)).toArray.getD x default := by
    intro x
    unfold start
    rw [submit_eq]
    rfl
  have hfield : ∀ x, ((s.start g followsCaller w).reportOf x).outcome = none ∧
      ((s.start g followsCaller w).reportOf x).error = none := by
    intro x
    rw [hreports x]
    simp only [Array.getD_eq_getD_getElem?, List.getElem?_toArray, List.getElem?_map]
    cases g.graph.indices[x]? <;> exact ⟨rfl, rfl⟩
  have hexec : (s.start g followsCaller w).executing = [] := by
    unfold start
    rw [submit_eq]
  have hfail : (s.start g followsCaller w).failures = #[] := by
    unfold start
    rw [submit_eq]
  refine ⟨fun e he => by simp [hexec] at he, fun x hx => absurd hx (hnone x).1, fun x hx => absurd hx (hnone x).2,
    fun x hx => ?_, fun x => by simp [(hfield x).1, (hnone x).1], fun x => by simp [(hfield x).2, (hnone x).2], ?_⟩
  · rw [hreports x]
    simp [Array.getD_eq_getD_getElem?, DependencyGraph.indices, ValidatedGraph.size] at hx ⊢
    simp [hx]
  · have hnil : ((List.range g.size).filter fun x => (s.start g followsCaller w).state.stateOf x = .failed) = [] :=
      List.filter_eq_nil_iff.mpr fun x _ => by simp [(hnone x).2]
    rw [hfail, hnil]
    exact List.Perm.refl _

/-- Every point of a run holds the answers `ans`, when each command the run starts answers as `ans` says. -/
theorem recorded_trace (hg : g.Valid) (s : Scheduler) (sched : Schedule) (followsCaller : Bool) (w : World)
    {ans : Nat → Except Interrupt Outcome}
    (hans : ∀ j v, (s.trace sched g followsCaller w j).1.startedBy (s.trace sched g followsCaller w j).2 (sched j) =
      some v → ((s.trace sched g followsCaller w j).2.runCommand (g.graph.nodes.getD v 0)).2 = ans v) :
    ∀ i, (s.trace sched g followsCaller w i).1.Recorded g ans
  | 0 => recorded_start hg s followsCaller w ans
  | i + 1 => (inv_trace hg s sched followsCaller w i).recorded_step (recorded_trace hg s sched followsCaller w hans i)
      (sched i) (hans i)

end Scheduler

end Graph

end CommandEngine
