import CommandEngine.Proofs.Graph.Record
import CommandEngine.Proofs.Graph.Cycle

/-!
# A run's result does not depend on the order its commands report back

Two runs of one graph from one world may start their commands in different orders: which executing command reports
back next, and so which dependents are handed on first, is up to the schedule. When every command writes only keys of
its own node, reads only keys written by its ancestors or by no node, and only a node comparable with every other node
may stop the run, the two runs report alike and leave the same context (`Scheduler.run_order_independent`).

The argument follows the starts of each run. A command starts only after the commands of all its ancestors started
(`Scheduler.ancestor_starts_before`); under a key, the context then holds what its writer left there, or what it held at
the start if no command of the run wrote it (`Scheduler.context_written`, `Scheduler.context_unwritten`). So a node's
command sees the same keys in both runs, by induction on the move that starts it, and does alike
(`Scheduler.acts_alike`). Which commands start is read off the graph and what the started ones did
(`Scheduler.started_iff`): a node's command runs exactly when its predecessors' ran, with an outcome unless the policy
runs dependents anyway, and no command above it stopped the run. By induction along a topological order both runs start
the same commands (`Scheduler.started_same`), and the report of a quiet run is a function of these
(`Run.Inv.finish_congr`).
-/

namespace CommandEngine

open Relation

/-- Whether a run stops taking on work in world `w`: the scheduler is shut down, or the caller's signal fired and the
run follows it. -/
def World.stops (followsCaller : Bool) (w : World) : Bool :=
  w.shutDown || (followsCaller && w.signal)

namespace Graph

/-- The command of node `v` of `g`, run from `w`. -/
def ValidatedGraph.runNode (g : ValidatedGraph) (v : Nat) (w : World) : World × Except Interrupt Outcome :=
  w.runCommand (g.graph.nodes.getD v 0)

/-- Whether node `v` is an ancestor or a descendant of every other node of `g`. -/
def DependencyGraph.Comparable (g : DependencyGraph) (v : Nat) : Prop :=
  ∀ u < g.size, u ≠ v → TransGen g.Edge u v ∨ TransGen g.Edge v u

/-- Whether node `v` may read key `k` when the nodes write the keys `writes` says: an ancestor of `v` writes it, or no
node of `g` does. -/
def DependencyGraph.Reads (g : DependencyGraph) (writes : Nat → String → Prop) (v : Nat) (k : String) : Prop :=
  (∃ a, TransGen g.Edge a v ∧ writes a k) ∨ ∀ a < g.size, ¬ writes a k

/-- A run is stopped exactly when its world stops it: the run cancels itself only once the scheduler is shut down. -/
theorem Run.Inv.stopped_iff {policy : FailurePolicy} {g : ValidatedGraph} {r : Run} {w : World}
    (hI : r.Inv g policy w) : r.Stopped w ↔ w.stops r.followsCaller = true := by
  unfold Run.Stopped World.stops Run.isCancelled
  cases hc : r.cancelled
  · simp
  · simp [hI.shutDown hc]

/-- Node `v` is released by what the commands of the nodes `ran` did (`result`): it is a node of the graph, the command
of each of its predecessors ran, with an outcome unless the policy runs dependents anyway, and no command of a node above
it stopped the run. -/
def ValidatedGraph.Released (g : ValidatedGraph) (policy : FailurePolicy) (followsCaller : Bool) (ran : Nat → Prop)
    (result : Nat → World × Except Interrupt Outcome) (v : Nat) : Prop :=
  v < g.size ∧ (∀ u, g.graph.Edge u v → ran u ∧ (policy = .runDependents ∨ (result u).2.isOk = true)) ∧
    ¬ ∃ a, TransGen g.graph.Edge a v ∧ ran a ∧ (result a).1.stops followsCaller = true

/-- Whether a node is released depends only on the nodes above it: which of them ran, and what those did. -/
theorem ValidatedGraph.released_congr {g : ValidatedGraph} {policy : FailurePolicy} {followsCaller : Bool}
    {ran₁ ran₂ : Nat → Prop} {result₁ result₂ : Nat → World × Except Interrupt Outcome} {v : Nat}
    (hran : ∀ a, TransGen g.graph.Edge a v → (ran₁ a ↔ ran₂ a))
    (hres : ∀ a, TransGen g.graph.Edge a v → ran₁ a →
      (result₁ a).2.isOk = (result₂ a).2.isOk ∧ (result₁ a).1.stops followsCaller = (result₂ a).1.stops followsCaller) :
    g.Released policy followsCaller ran₁ result₁ v ↔ g.Released policy followsCaller ran₂ result₂ v := by
  unfold ValidatedGraph.Released
  refine and_congr_right fun _ => and_congr (forall_congr' fun u => forall_congr' fun hu => ?_)
    (not_congr (exists_congr fun a => ?_))
  · constructor
    · rintro ⟨h, hok⟩
      exact ⟨(hran u (.single hu)).mp h, by rwa [← (hres u (.single hu) h).1]⟩
    · rintro ⟨h, hok⟩
      have h₁ := (hran u (.single hu)).mpr h
      exact ⟨h₁, by rwa [(hres u (.single hu) h₁).1]⟩
  · constructor
    · rintro ⟨ha, h, hs⟩
      exact ⟨ha, (hran a ha).mp h, by rwa [← (hres a ha h).2]⟩
    · rintro ⟨ha, h, hs⟩
      have h₁ := (hran a ha).mpr h
      exact ⟨ha, h₁, by rwa [(hres a ha h₁).2]⟩

namespace Scheduler

open Run

/-- Move `j` of run `sched` starts the command of node `v`. -/
def StartsAt (s : Scheduler) (sched : Schedule) (g : ValidatedGraph) (followsCaller : Bool) (w : World)
    (j v : Nat) : Prop :=
  (s.trace sched g followsCaller w j).1.startedBy (s.trace sched g followsCaller w j).2 (sched j) = some v

/-- What the command of node `v` did in run `sched`: the world it left and its answer, run from the world of the move
that started it; the world the run started from and `proceed`, if no move started it. -/
def resultIn (s : Scheduler) (sched : Schedule) (g : ValidatedGraph) (followsCaller : Bool) (w : World) (v : Nat) :
    World × Except Interrupt Outcome :=
  match (List.range (2 * g.size)).find? fun j =>
      (s.trace sched g followsCaller w j).1.startedBy (s.trace sched g followsCaller w j).2 (sched j) == some v with
  | some j => g.runNode v (s.trace sched g followsCaller w j).2
  | none => (w, .ok .proceed)

/-- What the commands of run `sched` do, as `writes` says which keys each node writes: each command changes the context
only under keys of its node, and only a node that is an ancestor or a descendant of every other node stops the run. -/
structure Confined (s : Scheduler) (sched : Schedule) (g : ValidatedGraph) (followsCaller : Bool) (w : World)
    (writes : Nat → String → Prop) : Prop where
  frame : ∀ j v, s.StartsAt sched g followsCaller w j v → ∀ k, ¬ writes v k →
    (g.runNode v (s.trace sched g followsCaller w j).2).1.context.get? k =
      (s.trace sched g followsCaller w j).2.context.get? k
  comparable : ∀ j v, s.StartsAt sched g followsCaller w j v →
    (g.runNode v (s.trace sched g followsCaller w j).2).1.stops followsCaller = true → g.graph.Comparable v

/-- Two runs of the command of node `v` act alike: the same answer, the same values under the keys of `v`, and both
stop the run or neither. -/
def ActsAlike (writes : Nat → String → Prop) (followsCaller : Bool) (v : Nat) (x y : World × Except Interrupt Outcome) :
    Prop :=
  x.2 = y.2 ∧ (∀ k, writes v k → x.1.context.get? k = y.1.context.get? k) ∧
    x.1.stops followsCaller = y.1.stops followsCaller

/-- Two runs of `g` from `w`, under the schedules `sched₁` and `sched₂`, whose commands are isolated from each other: no
key is written by two nodes, the commands of each run keep to their keys and only a node comparable with every other
node stops a run, and a command acts alike in the two runs when it starts from worlds that agree on the keys its node
may read. -/
structure Isolated (s : Scheduler) (sched₁ sched₂ : Schedule) (g : ValidatedGraph) (followsCaller : Bool) (w : World)
    (writes : Nat → String → Prop) : Prop where
  disjoint : ∀ u v k, writes u k → writes v k → u = v
  confined₁ : s.Confined sched₁ g followsCaller w writes
  confined₂ : s.Confined sched₂ g followsCaller w writes
  determined : ∀ j₁ j₂ v, s.StartsAt sched₁ g followsCaller w j₁ v → s.StartsAt sched₂ g followsCaller w j₂ v →
    (∀ k, g.graph.Reads writes v k →
      (s.trace sched₁ g followsCaller w j₁).2.context.get? k = (s.trace sched₂ g followsCaller w j₂).2.context.get? k) →
    ActsAlike writes followsCaller v (g.runNode v (s.trace sched₁ g followsCaller w j₁).2)
      (g.runNode v (s.trace sched₂ g followsCaller w j₂).2)

/-- What two runs show alike: for each node its name, state, outcome and failure text and whether its command ran; the
failures up to their order and the context keys they recorded; the cancellation; and the context. -/
structure SameResult (rep₁ rep₂ : RunReport) (w₁ w₂ : World) : Prop where
  nodes : rep₁.nodes.map NodeReport.observed = rep₂.nodes.map NodeReport.observed
  failures : (rep₁.failures.map ExecutionError.cause).Perm (rep₂.failures.map ExecutionError.cause)
  cancelled : rep₁.cancelled = rep₂.cancelled
  context : ∀ k, w₁.context.get? k = w₂.context.get? k

variable {g : ValidatedGraph} {s : Scheduler} {sched : Schedule} {followsCaller : Bool} {w : World}

/-! ## The starts of one run -/

/-- Only commands of nodes of the graph start. -/
theorem startsAt_lt_size (hg : g.Valid) {j v : Nat} (h : s.StartsAt sched g followsCaller w j v) : v < g.size := by
  obtain ⟨rest, -, hw, -⟩ := startedBy_eq_some h
  exact ((inv_trace hg s sched followsCaller w j).inLine hw).2.1

/-- Every command starts within the first `2 * g.size` moves, before the run is quiet. -/
theorem startsAt_lt (hg : g.Valid) {j v : Nat} (h : s.StartsAt sched g followsCaller w j v) : j < 2 * g.size := by
  by_contra hj
  obtain ⟨rest, -, hw, -⟩ := startedBy_eq_some h
  rw [(quiet_trace hg s sched followsCaller w (Nat.le_of_not_lt hj)).1] at hw
  simp at hw

/-- The log of starts lists the nodes whose command one of the moves so far started. -/
theorem mem_started_iff (i v : Nat) :
    v ∈ s.started sched g followsCaller w i ↔ ∃ j < i, s.StartsAt sched g followsCaller w j v := by
  induction i with
  | zero => simp [started, history]
  | succ i ih =>
    have h : s.started sched g followsCaller w (i + 1) = s.started sched g followsCaller w i ++
        ((s.trace sched g followsCaller w i).1.startedBy (s.trace sched g followsCaller w i).2 (sched i)).toList :=
      rfl
    rw [h, List.mem_append, ih, Option.mem_toList]
    constructor
    · rintro (⟨j, hj, hs⟩ | hs)
      · exact ⟨j, by omega, hs⟩
      · exact ⟨i, by omega, hs⟩
    · rintro ⟨j, hj, hs⟩
      rcases Nat.lt_succ_iff_lt_or_eq.mp hj with hj | rfl
      · exact .inl ⟨j, hj, hs⟩
      · exact .inr hs

/-- No command starts twice. -/
theorem startsAt_unique (hg : g.Valid) {j j' v : Nat} (h : s.StartsAt sched g followsCaller w j v)
    (h' : s.StartsAt sched g followsCaller w j' v) : j = j' := by
  -- a command started at two moves would stand twice in the log of starts
  have hnot : ∀ {i i'}, i < i' → s.StartsAt sched g followsCaller w i v →
      ¬ s.StartsAt sched g followsCaller w i' v := by
    intro i i' hlt hi hi'
    have hnd := (started_spec s sched followsCaller w hg (i' + 1)).2
    have hlog : s.started sched g followsCaller w (i' + 1) = s.started sched g followsCaller w i' ++ [v] := by
      show s.started sched g followsCaller w i' ++ ((s.trace sched g followsCaller w i').1.startedBy
        (s.trace sched g followsCaller w i').2 (sched i')).toList = _
      rw [show (s.trace sched g followsCaller w i').1.startedBy (s.trace sched g followsCaller w i').2 (sched i') =
        some v from hi']
      rfl
    rw [hlog] at hnd
    exact (List.nodup_append.mp hnd).2.2 v ((mem_started_iff i' v).mpr ⟨i, hlt, hi⟩) v
      (List.mem_singleton_self v) rfl
  rcases Nat.lt_trichotomy j j' with hlt | heq | hlt
  · exact absurd h' (hnot hlt h)
  · exact heq
  · exact absurd h (hnot hlt h')

/-- What a started command did is what it did at the move that started it. -/
theorem resultIn_eq (hg : g.Valid) {j v : Nat} (h : s.StartsAt sched g followsCaller w j v) :
    s.resultIn sched g followsCaller w v = g.runNode v (s.trace sched g followsCaller w j).2 := by
  unfold resultIn
  rcases hf : (List.range (2 * g.size)).find? (fun j =>
      (s.trace sched g followsCaller w j).1.startedBy (s.trace sched g followsCaller w j).2 (sched j) == some v)
    with _ | j'
  · exact absurd (List.find?_eq_none.mp hf j (List.mem_range.mpr (startsAt_lt hg h))) (by simpa [StartsAt] using h)
  · have h' : s.StartsAt sched g followsCaller w j' v := by simpa [StartsAt] using List.find?_some hf
    rw [startsAt_unique hg h' h]

/-- The move that starts a command leaves the world that command left, but for what the probe saw. -/
theorem trace_succ_of_startsAt (hg : g.Valid) {j v : Nat} (h : s.StartsAt sched g followsCaller w j v) :
    ∃ p, (s.trace sched g followsCaller w (j + 1)).2 = { (s.resultIn sched g followsCaller w v).1 with probe := p } := by
  obtain ⟨p, hp⟩ := startCommand_eq (s.trace sched g followsCaller w j).1 (s.trace sched g followsCaller w j).2 v
  refine ⟨p, ((world_step _ _ (sched j)).2 v h).trans ?_⟩
  rw [hp, resultIn_eq hg h, (inv_trace hg s sched followsCaller w j).graph_eq]
  rfl

/-- The move that starts a command leaves the context that command left. -/
theorem context_succ_of_startsAt (hg : g.Valid) {j v : Nat} (h : s.StartsAt sched g followsCaller w j v) :
    (s.trace sched g followsCaller w (j + 1)).2.context = (s.resultIn sched g followsCaller w v).1.context := by
  obtain ⟨p, hp⟩ := trace_succ_of_startsAt hg h
  rw [hp]

/-- The move that starts a command stops the run exactly when that command does. -/
theorem stops_succ_of_startsAt (hg : g.Valid) {j v : Nat} (h : s.StartsAt sched g followsCaller w j v) :
    (s.trace sched g followsCaller w (j + 1)).2.stops followsCaller =
      (s.resultIn sched g followsCaller w v).1.stops followsCaller := by
  obtain ⟨p, hp⟩ := trace_succ_of_startsAt hg h
  rw [hp]
  rfl

/-- A move that starts no command leaves the world as it was. -/
theorem trace_succ_of_none {i : Nat}
    (hs : (s.trace sched g followsCaller w i).1.startedBy (s.trace sched g followsCaller w i).2 (sched i) = none) :
    (s.trace sched g followsCaller w (i + 1)).2 = (s.trace sched g followsCaller w i).2 :=
  (world_step _ _ (sched i)).1 hs

/-- Every point of a run holds the answers its commands gave when they started. -/
theorem recorded_resultIn (hg : g.Valid) (i : Nat) :
    (s.trace sched g followsCaller w i).1.Recorded g fun x => (s.resultIn sched g followsCaller w x).2 :=
  recorded_trace hg s sched followsCaller w (fun j x hx => by rw [resultIn_eq hg hx]; rfl) i

/-- A node's command starts only after the command of each of its predecessors started: each reported back before. -/
theorem pred_starts_before (hg : g.Valid) {j u v : Nat} (h : s.StartsAt sched g followsCaller w j v)
    (hu : g.graph.Edge u v) : ∃ i < j, s.StartsAt sched g followsCaller w i u := by
  have hI := inv_trace hg s sched followsCaller w j
  obtain ⟨rest, -, hw, -⟩ := startedBy_eq_some h
  have hrun := (hI.inLine hw).1
  -- the predecessor succeeded or failed, so its command started
  have hdone := hI.preds_of_released hg (by simp [hrun]) (by simp [hrun]) u hu
  have hran : ((s.trace sched g followsCaller w j).1.reportOf u).startedAt.isSome :=
    (hI.started_iff u).mpr (.inr (hdone.imp id And.right))
  exact (mem_started_iff j u).mp (((started_spec s sched followsCaller w hg j).1 u).mpr hran)

/-- A node's command starts only after the command of each of its ancestors started. -/
theorem ancestor_starts_before (hg : g.Valid) {j u v : Nat} (h : s.StartsAt sched g followsCaller w j v)
    (hu : TransGen g.graph.Edge u v) : ∃ i < j, s.StartsAt sched g followsCaller w i u := by
  induction hu generalizing j with
  | single he => exact pred_starts_before hg h he
  | tail _ he ih =>
    obtain ⟨i, hi, hs⟩ := pred_starts_before hg h he
    obtain ⟨i', hi', hs'⟩ := ih hs
    exact ⟨i', hi'.trans hi, hs'⟩

/-! ## Stopping -/

/-- The run follows its caller's signal as it was asked to, at every move. -/
theorem followsCaller_trace_eq (i : Nat) :
    (s.trace sched g followsCaller w i).1.followsCaller = followsCaller :=
  (followsCaller_trace sched _ w i).trans (start_followsCaller s g followsCaller w)

/-- A run from a world that does not stop it is stopped only once a command it started stopped it. -/
theorem stop_origin (hg : g.Valid) (hw : w.stops followsCaller = false) :
    ∀ i, (s.trace sched g followsCaller w i).2.stops followsCaller = true →
      ∃ j < i, ∃ x, s.StartsAt sched g followsCaller w j x ∧
        (s.resultIn sched g followsCaller w x).1.stops followsCaller = true
  | 0, h => absurd h (by simpa [Scheduler.trace, Run.trace] using hw)
  | i + 1, h => by
    cases hs : (s.trace sched g followsCaller w i).1.startedBy (s.trace sched g followsCaller w i).2 (sched i) with
    | none =>
      obtain ⟨j, hj, x, hx, hstop⟩ := stop_origin hg hw i (by rw [← trace_succ_of_none hs]; exact h)
      exact ⟨j, by omega, x, hx, hstop⟩
    | some x => exact ⟨i, by omega, x, hs, by rw [← stops_succ_of_startsAt hg hs]; exact h⟩

/-- No command starts after a command that stopped the run. -/
theorem startsAt_le_of_stop (hg : g.Valid) {i j v x : Nat} (hx : s.StartsAt sched g followsCaller w j x)
    (hstop : (s.resultIn sched g followsCaller w x).1.stops followsCaller = true)
    (hv : s.StartsAt sched g followsCaller w i v) : i ≤ j := by
  by_contra hij
  have hstopped : (s.trace sched g followsCaller w (j + 1)).1.Stopped (s.trace sched g followsCaller w (j + 1)).2 := by
    rw [(inv_trace hg s sched followsCaller w (j + 1)).stopped_iff, followsCaller_trace_eq,
      stops_succ_of_startsAt hg hx]
    exact hstop
  have hnone := startedBy_of_stopped (stopped_trace sched _ w hstopped i (by omega)) (sched i)
  cases hv.symm.trans hnone


/-! ## The context along one run -/

section Context

variable {writes : Nat → String → Prop}

/-- Under a key that no command of the run wrote before move `i`, the context holds what it held when the run started. -/
theorem context_unwritten (hg : g.Valid) (hC : s.Confined sched g followsCaller w writes) :
    ∀ i k, (∀ j < i, ∀ a, s.StartsAt sched g followsCaller w j a → ¬ writes a k) →
      (s.trace sched g followsCaller w i).2.context.get? k = w.context.get? k
  | 0, _, _ => rfl
  | i + 1, k, h => by
    rw [← context_unwritten hg hC i k fun j hj a ha => h j (by omega) a ha]
    cases hs : (s.trace sched g followsCaller w i).1.startedBy (s.trace sched g followsCaller w i).2 (sched i) with
    | none => rw [trace_succ_of_none hs]
    | some v =>
      rw [context_succ_of_startsAt hg hs, resultIn_eq hg hs]
      exact hC.frame i v hs k (h i (by omega) v hs)

/-- Under a key that the command of node `a` wrote, the context holds what that command left there from then on. -/
theorem context_written (hg : g.Valid) (hdis : ∀ u v k, writes u k → writes v k → u = v)
    (hC : s.Confined sched g followsCaller w writes) {j a : Nat} {k : String}
    (ha : s.StartsAt sched g followsCaller w j a) (hk : writes a k) :
    ∀ i, j < i → (s.trace sched g followsCaller w i).2.context.get? k =
      (s.resultIn sched g followsCaller w a).1.context.get? k := by
  intro i hi
  induction i, (hi : j + 1 ≤ i) using Nat.le_induction with
  | base => rw [context_succ_of_startsAt hg ha]
  | succ i hji ih =>
    rw [← ih]
    cases hs : (s.trace sched g followsCaller w i).1.startedBy (s.trace sched g followsCaller w i).2 (sched i) with
    | none => rw [trace_succ_of_none hs]
    | some v =>
      -- the command started then is another node's, which does not write the key
      have hva : v ≠ a := by
        rintro rfl
        have := startsAt_unique hg hs ha
        omega
      rw [context_succ_of_startsAt hg hs, resultIn_eq hg hs]
      exact hC.frame i v hs k fun hv => hva (hdis v a k hv hk)

end Context

/-! ## Which commands start -/

/-- A node whose command started is released: its predecessors' commands ran before it, each with an outcome unless the
policy runs dependents anyway, and no command above it stopped the run, since none starts after such a command. -/
theorem released_of_started (hg : g.Valid) {v : Nat} (h : v ∈ s.started sched g followsCaller w (2 * g.size + 1)) :
    g.Released s.policy followsCaller (· ∈ s.started sched g followsCaller w (2 * g.size + 1))
      (s.resultIn sched g followsCaller w) v := by
  obtain ⟨j, hj, hs⟩ := (mem_started_iff _ v).mp h
  have hI := inv_trace hg s sched followsCaller w j
  have hR : (s.trace sched g followsCaller w j).1.Recorded g fun x => (s.resultIn sched g followsCaller w x).2 :=
    recorded_resultIn hg j
  obtain ⟨rest, -, hwait, -⟩ := startedBy_eq_some hs
  have hrun := (hI.inLine hwait).1
  refine ⟨startsAt_lt_size hg hs, fun u hu => ?_, ?_⟩
  · obtain ⟨i, hi, hu'⟩ := pred_starts_before hg hs hu
    refine ⟨(mem_started_iff _ u).mpr ⟨i, by omega, hu'⟩, ?_⟩
    rcases hI.preds_of_released hg (by simp [hrun]) (by simp [hrun]) u hu with h | ⟨h, -⟩
    · exact .inr (hR.succeeded u h)
    · exact .inl h
  · rintro ⟨a, ha, -, hstop⟩
    obtain ⟨i, hi, ha'⟩ := ancestor_starts_before hg hs ha
    have := startsAt_le_of_stop hg ha' hstop hs
    omega

/-- In a run from a world that does not stop it, where only nodes comparable with every other node stop the run, the
command of a released node starts. A node left skipped lies below a failed node, so one of its predecessors failed or
was skipped; a node left pending or cancelled lies in a stopped run, stopped by a command comparable with it, which lies
neither above it, being released, nor below it, since that command would have started after it. -/
theorem started_of_released (hg : g.Valid) (hw : w.stops followsCaller = false) {writes : Nat → String → Prop}
    (hC : s.Confined sched g followsCaller w writes) {v : Nat}
    (hrel : g.Released s.policy followsCaller (· ∈ s.started sched g followsCaller w (2 * g.size + 1))
      (s.resultIn sched g followsCaller w) v) :
    v ∈ s.started sched g followsCaller w (2 * g.size + 1) := by
  obtain ⟨hv, hpred, hnostop⟩ := hrel
  by_contra hns
  have hI := inv_trace hg s sched followsCaller w (2 * g.size + 1)
  have hq := quiet_trace hg s sched followsCaller w (Nat.le_succ (2 * g.size))
  have hR : (s.trace sched g followsCaller w (2 * g.size + 1)).1.Recorded g
      fun x => (s.resultIn sched g followsCaller w x).2 :=
    recorded_resultIn hg _
  have hran : ∀ x, x ∈ s.started sched g followsCaller w (2 * g.size + 1) ↔
      (s.trace sched g followsCaller w (2 * g.size + 1)).1.state.stateOf x = .succeeded ∨
        (s.trace sched g followsCaller w (2 * g.size + 1)).1.state.stateOf x = .failed :=
    fun x => ((started_spec s sched followsCaller w hg _).1 x).trans (hI.startedAt_of_quiet hq x)
  -- a cancelled run was stopped by a command comparable with `v`
  have hstopped : (s.trace sched g followsCaller w (2 * g.size + 1)).1.isCancelled
      (s.trace sched g followsCaller w (2 * g.size + 1)).2 = true → False := by
    intro hc
    have hstops := hI.stopped_iff.mp (.inr hc)
    rw [followsCaller_trace_eq] at hstops
    obtain ⟨j, hj, x, hx, hxstop⟩ := stop_origin hg hw _ hstops
    have hxran : x ∈ s.started sched g followsCaller w (2 * g.size + 1) := (mem_started_iff _ x).mpr ⟨j, hj, hx⟩
    have hxv : v ≠ x := fun h => hns (h ▸ hxran)
    rcases hC.comparable j x hx (by rw [← resultIn_eq hg hx]; exact hxstop) v hv hxv with hvx | hxv'
    · -- `v` lies above `x`, so its command started before
      obtain ⟨i, hi, hvs⟩ := ancestor_starts_before hg hx hvx
      exact hns ((mem_started_iff _ v).mpr ⟨i, by omega, hvs⟩)
    · exact hnostop ⟨x, hxv', hxran, hxstop⟩
  cases hst : (s.trace sched g followsCaller w (2 * g.size + 1)).1.state.stateOf v with
  | succeeded => exact hns ((hran v).mpr (.inl hst))
  | failed => exact hns ((hran v).mpr (.inr hst))
  | running => exact hI.not_running_of_quiet hq v hst
  | cancelled => exact hstopped (hI.cancelled_run v hst)
  | pending =>
    rcases hI.terminal_of_quiet hg hq v hv with ht | ⟨-, hc⟩
    · rw [hst] at ht
      cases ht
    · exact hstopped hc
  | skipped =>
    -- under the policy that skips dependents every predecessor ran with an outcome, so succeeded; yet the one on the
    -- path from the failed node above `v` is that node or lies below it
    obtain ⟨f, hf, hpath⟩ := hI.origin hst
    have hp : s.policy = .skipDependents := by
      cases hp : s.policy
      · exact absurd hst (hI.tally.noSkip (hI.policy_eq.trans hp) v)
      · rfl
    obtain ⟨b, hfb, hbv⟩ := TransGen.tail'_iff.mp hpath
    obtain ⟨hbran, hbok⟩ := hpred b hbv
    have hbsucc : (s.trace sched g followsCaller w (2 * g.size + 1)).1.state.stateOf b = .succeeded := by
      rcases (hran b).mp hbran with h | h
      · exact h
      · have hfalse := hR.failed b h
        rw [hbok.resolve_left (by rw [hp]; decide)] at hfalse
        cases hfalse
    rcases reflTransGen_iff_eq_or_transGen.mp hfb with rfl | hfb'
    · rw [hbsucc] at hf
      cases hf
    · have h := hI.skipped_below hp (.inl hf) hfb'
      rw [hbsucc] at h
      cases h

/-- Which commands a run starts, read off the graph and what the started commands did: in a run from a world that does
not stop it, where only nodes comparable with every other node stop the run, the command of a node starts exactly when
the node is released. -/
theorem started_iff (hg : g.Valid) (hw : w.stops followsCaller = false) {writes : Nat → String → Prop}
    (hC : s.Confined sched g followsCaller w writes) (v : Nat) :
    v ∈ s.started sched g followsCaller w (2 * g.size + 1) ↔
      g.Released s.policy followsCaller (· ∈ s.started sched g followsCaller w (2 * g.size + 1))
        (s.resultIn sched g followsCaller w) v :=
  ⟨released_of_started hg, started_of_released hg hw hC⟩

/-! ## Two runs -/

section TwoRuns

variable {sched₁ sched₂ : Schedule} {writes : Nat → String → Prop}

/-- A command acts alike in two isolated runs: by induction on the move of the first run that starts it, the keys its
node may read were written alike by the commands above it, or by none. -/
theorem acts_alike (hg : g.Valid) (hiso : s.Isolated sched₁ sched₂ g followsCaller w writes) (j₁ : Nat) :
    ∀ v j₂, s.StartsAt sched₁ g followsCaller w j₁ v → s.StartsAt sched₂ g followsCaller w j₂ v →
      ActsAlike writes followsCaller v (s.resultIn sched₁ g followsCaller w v) (s.resultIn sched₂ g followsCaller w v) := by
  induction j₁ using Nat.strong_induction_on with
  | _ j₁ ih =>
  intro v j₂ h₁ h₂
  rw [resultIn_eq hg h₁, resultIn_eq hg h₂]
  refine hiso.determined j₁ j₂ v h₁ h₂ fun k hk => ?_
  rcases hk with ⟨a, hav, hak⟩ | hnone
  · -- the key's writer lies above `v`: it wrote the key before, alike in both runs
    obtain ⟨i₁, hi₁, ha₁⟩ := ancestor_starts_before hg h₁ hav
    obtain ⟨i₂, hi₂, ha₂⟩ := ancestor_starts_before hg h₂ hav
    rw [context_written hg hiso.disjoint hiso.confined₁ ha₁ hak j₁ hi₁,
      context_written hg hiso.disjoint hiso.confined₂ ha₂ hak j₂ hi₂]
    exact (ih i₁ hi₁ a i₂ ha₁ ha₂).2.1 k hak
  · -- no node writes the key: both runs hold what they started with
    rw [context_unwritten hg hiso.confined₁ j₁ k fun j _ a ha => hnone a (startsAt_lt_size hg ha),
      context_unwritten hg hiso.confined₂ j₂ k fun j _ a ha => hnone a (startsAt_lt_size hg ha)]

/-- A command that starts in both of two isolated runs acts alike in both. -/
theorem acts_alike_of_started (hg : g.Valid) (hiso : s.Isolated sched₁ sched₂ g followsCaller w writes) {x i₁ i₂ : Nat}
    (h₁ : x ∈ s.started sched₁ g followsCaller w i₁) (h₂ : x ∈ s.started sched₂ g followsCaller w i₂) :
    ActsAlike writes followsCaller x (s.resultIn sched₁ g followsCaller w x) (s.resultIn sched₂ g followsCaller w x) := by
  obtain ⟨j₁, -, hs₁⟩ := (mem_started_iff _ x).mp h₁
  obtain ⟨j₂, -, hs₂⟩ := (mem_started_iff _ x).mp h₂
  exact acts_alike hg hiso j₁ x j₂ hs₁ hs₂

/-- Two isolated runs from a world that does not stop them start the same commands: by induction along a topological
order, a node is released alike in both, since the nodes above it started alike and their commands acted alike. -/
theorem started_same (hg : g.Valid) (hw : w.stops followsCaller = false)
    (hiso : s.Isolated sched₁ sched₂ g followsCaller w writes) (v : Nat) :
    v ∈ s.started sched₁ g followsCaller w (2 * g.size + 1) ↔ v ∈ s.started sched₂ g followsCaller w (2 * g.size + 1) := by
  obtain ⟨hnd, hcl, hall⟩ := hg.order_spec
  suffices h : ∀ n v, g.order.idxOf v = n → (v ∈ s.started sched₁ g followsCaller w (2 * g.size + 1) ↔
      v ∈ s.started sched₂ g followsCaller w (2 * g.size + 1)) from h _ v rfl
  intro n
  induction n using Nat.strong_induction_on with
  | _ n ih =>
  intro v hn
  rw [started_iff hg hw hiso.confined₁ v, started_iff hg hw hiso.confined₂ v]
  -- the nodes above `v` come earlier in the topological order
  have habove : ∀ a, TransGen g.graph.Edge a v → (a ∈ s.started sched₁ g followsCaller w (2 * g.size + 1) ↔
      a ∈ s.started sched₂ g followsCaller w (2 * g.size + 1)) := fun a ha =>
    ih _ (hn ▸ hcl.idxOf_lt_of_transGen hg.wellFormed hnd hall ha) a rfl
  refine ValidatedGraph.released_congr habove fun a ha ha₁ => ?_
  have halike := acts_alike_of_started hg hiso ha₁ ((habove a ha).mp ha₁)
  exact ⟨by rw [halike.1], halike.2.2⟩

end TwoRuns

/-- A run's result does not depend on the order its tasks have their turn and its commands report back, when the nodes
keep to keys of their own, act alike on what their ancestors wrote, and only a node comparable to every other may stop
the run: two runs under any two schedules report alike and end with the same context. -/
theorem run_order_independent (hg : g.Valid) (s : Scheduler) (sched₁ sched₂ : Schedule) (followsCaller : Bool)
    {w : World} (writes : Nat → String → Prop) (hw : w.stops followsCaller = false)
    (hiso : s.Isolated sched₁ sched₂ g followsCaller w writes) :
    ∃ rep₁ rep₂, s.run sched₁ g followsCaller w = ((s.final sched₁ g followsCaller w).2, .ok rep₁) ∧
      s.run sched₂ g followsCaller w = ((s.final sched₂ g followsCaller w).2, .ok rep₂) ∧
      SameResult rep₁ rep₂ (s.final sched₁ g followsCaller w).2 (s.final sched₂ g followsCaller w).2 := by
  have hsd : w.shutDown = false := by
    simp only [World.stops, Bool.or_eq_false_iff] at hw
    exact hw.1
  have hsame := started_same hg hw hiso
  have hran : ∀ x, ((s.final sched₁ g followsCaller w).1.reportOf x).startedAt.isSome ↔
      ((s.final sched₂ g followsCaller w).1.reportOf x).startedAt.isSome := fun x =>
    ((started_spec s sched₁ followsCaller w hg _).1 x).symm.trans
      ((hsame x).trans ((started_spec s sched₂ followsCaller w hg _).1 x))
  -- a command that ran in both runs acted alike
  have halike : ∀ x, x ∈ s.started sched₁ g followsCaller w (2 * g.size + 1) →
      ActsAlike writes followsCaller x (s.resultIn sched₁ g followsCaller w x) (s.resultIn sched₂ g followsCaller w x) :=
    fun x hx => acts_alike_of_started hg hiso hx ((hsame x).mp hx)
  obtain ⟨hobs, hfail, hcan⟩ := (inv_trace hg s sched₁ followsCaller w _).finish_congr hg
    (quiet_trace hg s sched₁ followsCaller w (Nat.le_succ _)) (recorded_resultIn hg _)
    (inv_trace hg s sched₂ followsCaller w _) (quiet_trace hg s sched₂ followsCaller w (Nat.le_succ _))
    (recorded_resultIn hg _) hran fun x hx => (halike x (((started_spec s sched₁ followsCaller w hg _).1 x).mpr hx)).1
  refine ⟨_, _, run_eq s sched₁ g followsCaller hsd, run_eq s sched₂ g followsCaller hsd, hobs, hfail, hcan, fun k => ?_⟩
  unfold final
  by_cases hk : ∃ a ∈ s.started sched₁ g followsCaller w (2 * g.size + 1), writes a k
  · -- the key's writer ran in both runs, and wrote it alike
    obtain ⟨a, ha, hak⟩ := hk
    obtain ⟨j₁, hj₁, hs₁⟩ := (mem_started_iff _ a).mp ha
    obtain ⟨j₂, hj₂, hs₂⟩ := (mem_started_iff _ a).mp ((hsame a).mp ha)
    rw [context_written hg hiso.disjoint hiso.confined₁ hs₁ hak _ hj₁,
      context_written hg hiso.disjoint hiso.confined₂ hs₂ hak _ hj₂]
    exact (halike a ha).2.1 k hak
  · -- no command of either run wrote the key
    have hno : ∀ a ∈ s.started sched₁ g followsCaller w (2 * g.size + 1), ¬ writes a k :=
      fun a ha hak => hk ⟨a, ha, hak⟩
    rw [context_unwritten hg hiso.confined₁ _ k fun j hj a ha => hno a ((mem_started_iff _ a).mpr ⟨j, hj, ha⟩),
      context_unwritten hg hiso.confined₂ _ k fun j hj a ha =>
        hno a ((hsame a).mpr ((mem_started_iff _ a).mpr ⟨j, hj, ha⟩))]


/-! ## Two commands, one after the other -/

/-- The world of `buildThenTest`: `build` writes `built`, and `test` copies it to `tested`. -/
def buildThenTestWorld : World :=
  { commands := #[.script { name := "build", writes := [("built", "yes")] }, .copy "tested" (.key "built")] }

/-- The keys the nodes of `buildThenTest` write: `built` by `build`, `tested` by `test`. -/
def buildThenTestWrites (v : Nat) (k : String) : Prop :=
  (v = 0 ∧ k = "built") ∨ (v = 1 ∧ k = "tested")

theorem buildThenTest_size : buildThenTestValidated.graph.size = 2 := by cbv

/-- In a world with the commands of `buildThenTestWorld`, `build` writes `built` and `test` copies `built` to `tested`;
both go on, and neither touches the signals. -/
theorem runNode_buildThenTest {B : World} (hB : B.commands = buildThenTestWorld.commands) :
    buildThenTestValidated.runNode 0 B = ((B.log "run:build").write [("built", "yes")], .ok .proceed) ∧
    buildThenTestValidated.runNode 1 B = ({ B with context := match B.context.get? "built" with
      | some v => B.context.insert "tested" v
      | none => B.context.erase "tested" }, .ok .proceed) := by
  have hnodes : buildThenTestValidated.graph.nodes = #[0, 1] := by cbv
  have hcmd : ∀ id, B.command id = buildThenTestWorld.command id := fun id => by simp only [World.command, hB]
  unfold ValidatedGraph.runNode World.runCommand
  rw [hnodes]
  refine ⟨?_, ?_⟩
  · rw [World.exec_plain (fun c h => by rw [hcmd] at h; cases h), hcmd]
    rfl
  · rw [World.exec_plain (fun c h => by rw [hcmd] at h; cases h), hcmd]
    rfl

/-- Each node of `buildThenTest` is an ancestor or a descendant of the other. -/
theorem comparable_buildThenTest {v : Nat} (hv : v < buildThenTestValidated.size) :
    buildThenTestValidated.graph.Comparable v := by
  have hedge : buildThenTestValidated.graph.Edge 0 1 := by
    show 1 ∈ buildThenTestValidated.graph.succ 0
    rw [show buildThenTestValidated.graph.succ 0 = [1] by cbv]
    exact List.mem_singleton_self 1
  intro u hu huv
  have hu' : u < 2 := lt_of_lt_of_eq hu buildThenTest_size
  have hv' : v < 2 := lt_of_lt_of_eq hv buildThenTest_size
  rcases (by omega : u = 0 ∧ v = 1 ∨ u = 1 ∧ v = 0) with ⟨rfl, rfl⟩ | ⟨rfl, rfl⟩
  · exact .inl (.single hedge)
  · exact .inr (.single hedge)

/-- Every run of `buildThenTest` from `buildThenTestWorld` keeps its commands to their keys. -/
theorem confined_buildThenTest (s : Scheduler) (sched : Schedule) :
    s.Confined sched buildThenTestValidated false buildThenTestWorld buildThenTestWrites where
  frame j v hv k hk := by
    have hB : (s.trace sched buildThenTestValidated false buildThenTestWorld j).2.commands =
        buildThenTestWorld.commands := (stable_trace World.stable_fixed World.fixed_probe sched _ buildThenTestWorld j).1
    obtain ⟨h0, h1⟩ := runNode_buildThenTest hB
    have hlt : v < 2 := lt_of_lt_of_eq (startsAt_lt_size valid_buildThenTest hv) buildThenTest_size
    rcases (by omega : v = 0 ∨ v = 1) with rfl | rfl
    · have hkb : "built" ≠ k := fun h => hk (.inl ⟨rfl, h.symm⟩)
      rw [h0]
      simp [World.write, World.log, hkb]
    · have hkt : "tested" ≠ k := fun h => hk (.inr ⟨rfl, h.symm⟩)
      rw [h1]
      split <;> simp [hkt]
  comparable j v hv _ := comparable_buildThenTest (startsAt_lt_size valid_buildThenTest hv)

/-- Any two runs of `buildThenTest` from `buildThenTestWorld` are isolated: `build` does the same from every world, and
`test` reads only `built`, which `build` writes above it. -/
theorem isolated_buildThenTest (s : Scheduler) (sched₁ sched₂ : Schedule) :
    s.Isolated sched₁ sched₂ buildThenTestValidated false buildThenTestWorld buildThenTestWrites where
  disjoint u v k hu hv := by
    rcases hu with ⟨rfl, rfl⟩ | ⟨rfl, rfl⟩ <;> rcases hv with ⟨rfl, h⟩ | ⟨rfl, h⟩ <;>
      first | rfl | exact absurd h (by decide)
  confined₁ := confined_buildThenTest s sched₁
  confined₂ := confined_buildThenTest s sched₂
  determined j₁ j₂ v h₁ h₂ hreads := by
    have hB₁ : (s.trace sched₁ buildThenTestValidated false buildThenTestWorld j₁).2.commands =
        buildThenTestWorld.commands := (stable_trace World.stable_fixed World.fixed_probe sched₁ _ buildThenTestWorld j₁).1
    have hB₂ : (s.trace sched₂ buildThenTestValidated false buildThenTestWorld j₂).2.commands =
        buildThenTestWorld.commands := (stable_trace World.stable_fixed World.fixed_probe sched₂ _ buildThenTestWorld j₂).1
    obtain ⟨h0₁, h1₁⟩ := runNode_buildThenTest hB₁
    obtain ⟨h0₂, h1₂⟩ := runNode_buildThenTest hB₂
    -- neither run is shut down when a command starts, and neither command shuts it down
    obtain ⟨-, -, -, hsd₁, -⟩ := startedBy_eq_some h₁
    obtain ⟨-, -, -, hsd₂, -⟩ := startedBy_eq_some h₂
    have hlt : v < 2 := lt_of_lt_of_eq (startsAt_lt_size valid_buildThenTest h₁) buildThenTest_size
    rcases (by omega : v = 0 ∨ v = 1) with rfl | rfl
    · rw [h0₁, h0₂]
      refine ⟨rfl, fun k hk => ?_, ?_⟩
      · rcases hk with ⟨-, rfl⟩ | ⟨h, -⟩
        · simp [World.write, World.log]
        · cases h
      simp [World.stops, World.write, World.log, hsd₁, hsd₂]
    · -- `test` copies `built`, which its ancestor `build` writes
      have hbuilt := hreads "built" (.inl ⟨0, .single (by
        show 1 ∈ buildThenTestValidated.graph.succ 0
        rw [show buildThenTestValidated.graph.succ 0 = [1] by cbv]
        exact List.mem_singleton_self 1), .inl ⟨rfl, rfl⟩⟩)
      rw [h1₁, h1₂]
      refine ⟨rfl, fun k hk => ?_, by simp [World.stops, hsd₁, hsd₂]⟩
      rcases hk with ⟨h, -⟩ | ⟨-, rfl⟩
      · cases h
      · dsimp only
        rw [← hbuilt]
        split <;> simp


/-- Two runs of `buildThenTest` from `buildThenTestWorld`, one where each command reports back before the next task
has its turn and one where waiting tasks always go first, report alike and leave the same context. -/
theorem run_order_independent_buildThenTest :
    buildThenTestValidated.Valid ∧ buildThenTestWorld.stops false = false ∧
      Scheduler.Isolated { workers := .fixed 2 } Schedule.sequential (fun _ => .start 0) buildThenTestValidated false
        buildThenTestWorld buildThenTestWrites ∧
      ∃ rep₁ rep₂,
        Scheduler.run { workers := .fixed 2 } Schedule.sequential buildThenTestValidated false buildThenTestWorld =
          ((Scheduler.final { workers := .fixed 2 } Schedule.sequential buildThenTestValidated false
            buildThenTestWorld).2, .ok rep₁) ∧
        Scheduler.run { workers := .fixed 2 } (fun _ => .start 0) buildThenTestValidated false buildThenTestWorld =
          ((Scheduler.final { workers := .fixed 2 } (fun _ => .start 0) buildThenTestValidated false
            buildThenTestWorld).2, .ok rep₂) ∧
        SameResult rep₁ rep₂
          (Scheduler.final { workers := .fixed 2 } Schedule.sequential buildThenTestValidated false
            buildThenTestWorld).2
          (Scheduler.final { workers := .fixed 2 } (fun _ => .start 0) buildThenTestValidated false
            buildThenTestWorld).2 :=
  ⟨valid_buildThenTest, rfl, isolated_buildThenTest _ _ _,
    Scheduler.run_order_independent valid_buildThenTest _ _ _ false _ rfl (isolated_buildThenTest _ _ _)⟩

end Scheduler

/-! ## Two appends racing to one chain

Commands can act on more than the context: a command may append to a chain that a node below runs. Then whether a
command stops the run is not fixed by the keys its node reads, and the order of reporting back decides the result. In
`chainRace`, `a` appends to the chain `race` a command that fails and `b` one that cancels the run; the node running
`race` lies below both, and `d` below it. If `a` appends first, the chain fails before its cancelling command is reached
and `d` runs; if `b` appends first, the chain cancels the run before failing alike, and `d` is cancelled. -/

/-- The graph of `chainRace`: `p` then `a`, `q` then `b`, both then `race`, then `d`. -/
def chainRace : DependencyGraph :=
  ((((({} : DependencyGraph).addEdge (0, "p") (2, "a")).addEdge (1, "q") (3, "b")).addEdge (2, "a") (4, "race")).addEdge
    (3, "b") (4, "race")).addEdge (4, "race") (5, "d")

/-- `chainRace` as validation freezes it. -/
def chainRaceValidated : ValidatedGraph :=
  { graph := chainRace, inDegree := #[0, 1, 0, 1, 2, 1], startNodes := [0, 2], order := [2, 3, 0, 1, 4, 5] }

theorem valid_chainRace : chainRaceValidated.Valid :=
  ⟨((((DependencyGraph.wellFormed_empty.addEdge _ _).addEdge _ _).addEdge _ _).addEdge _ _).addEdge _ _, by cbv⟩

theorem chainRace_size : chainRaceValidated.graph.size = 6 := by cbv

/-- The world of `chainRace`: `p`, `q` and `d` only log; `a` appends `f`, which fails, to the empty chain `race`, and
`b` appends `k`, which cancels the run. -/
def chainRaceWorld : World :=
  { commands := #[.script { name := "p" }, .script { name := "q" }, .append "a" 0 6, .append "b" 0 7, .chain 0,
      .script { name := "d" }, .script { name := "f", fails := some "boom" }, .cancelRun "k"]
    chains := #[{ name := "race" }] }

/-- Two workers, and dependents of a failed node run. -/
def pairScheduler : Scheduler := { workers := .fixed 2 }

/-- Tasks take their turn as soon as a worker is free; when none is, the command executing longest reports back. -/
def Schedule.eager : Schedule := fun _ => .start 0

/-- As `Schedule.eager`, except that at move `i` the second command executing reports back before the first. -/
def Schedule.overtakeAt (i : Nat) : Schedule := fun j => if j = i then .report 1 else .start 0

/-- `race` lies below `p`, `a`, `q` and `b`, and above `d`. -/
theorem comparable_chainRace : chainRaceValidated.graph.Comparable 4 := by
  have hedge : ∀ {u v : Nat} {l : List Nat}, chainRaceValidated.graph.succ u = l → v ∈ l →
      chainRaceValidated.graph.Edge u v := fun hl hv => by
    unfold DependencyGraph.Edge
    rw [hl]
    exact hv
  have e01 : chainRaceValidated.graph.Edge 0 1 := hedge (l := [1]) (by cbv) (by decide)
  have e14 : chainRaceValidated.graph.Edge 1 4 := hedge (l := [4]) (by cbv) (by decide)
  have e23 : chainRaceValidated.graph.Edge 2 3 := hedge (l := [3]) (by cbv) (by decide)
  have e34 : chainRaceValidated.graph.Edge 3 4 := hedge (l := [4]) (by cbv) (by decide)
  have e45 : chainRaceValidated.graph.Edge 4 5 := hedge (l := [5]) (by cbv) (by decide)
  intro u hu hne
  have hu' : u < 6 := lt_of_lt_of_eq hu chainRace_size
  interval_cases u
  · exact .inl (.tail (.single e01) e14)
  · exact .inl (.single e14)
  · exact .inl (.tail (.single e23) e34)
  · exact .inl (.single e34)
  · exact absurd rfl hne
  · exact .inr (.single e45)

namespace Scheduler

/-- When tasks go as soon as they can, `a` starts at move 3, before `b` at move 5, and every command starts. -/
theorem chainRace_eager_start {j v : Nat}
    (h : pairScheduler.StartsAt Schedule.eager chainRaceValidated true chainRaceWorld j v) :
    v < 6 ∧ j = [0, 3, 1, 5, 8, 10].getD v 0 := by
  have hv : v < 6 := lt_of_lt_of_eq (startsAt_lt_size valid_chainRace h) chainRace_size
  refine ⟨hv, ?_⟩
  interval_cases v <;> exact startsAt_unique valid_chainRace h (by cbv)

/-- When `q` reports back before `p`, `b` starts at move 3, before `a` at move 5, and `d` never starts. -/
theorem chainRace_overtake_start {j v : Nat}
    (h : pairScheduler.StartsAt (Schedule.overtakeAt 2) chainRaceValidated true chainRaceWorld j v) :
    v < 5 ∧ j = [0, 5, 1, 3, 8].getD v 0 := by
  have hv : v < 6 := lt_of_lt_of_eq (startsAt_lt_size valid_chainRace h) chainRace_size
  -- `d` would stand in the final report as started
  have hd : v ≠ 5 := by
    rintro rfl
    have hmem := (mem_started_iff (2 * chainRaceValidated.size + 1) 5).mpr
      ⟨j, by have := startsAt_lt valid_chainRace h; omega, h⟩
    exact absurd (((started_spec _ _ _ _ valid_chainRace _).1 5).mp hmem) (by cbv; exact Bool.false_ne_true)
  refine ⟨by omega, ?_⟩
  interval_cases v
  all_goals first | exact absurd rfl hd | exact startsAt_unique valid_chainRace h (by cbv)

/-- When tasks go as soon as they can, no command of `chainRace` touches the context or stops the run: the chain fails
at `f`, before reaching `k`. -/
theorem chainRace_eager_effects {j v : Nat}
    (h : pairScheduler.StartsAt Schedule.eager chainRaceValidated true chainRaceWorld j v) :
    (chainRaceValidated.runNode v (pairScheduler.trace Schedule.eager chainRaceValidated true chainRaceWorld j).2).1.context =
        (pairScheduler.trace Schedule.eager chainRaceValidated true chainRaceWorld j).2.context ∧
      (chainRaceValidated.runNode v
        (pairScheduler.trace Schedule.eager chainRaceValidated true chainRaceWorld j).2).1.stops true = false := by
  obtain ⟨hv, rfl⟩ := chainRace_eager_start h
  interval_cases v <;> cbv

/-- When `q` reports back before `p`, no command of `chainRace` touches the context, and only `race` stops the run: the
chain reaches `k` first. -/
theorem chainRace_overtake_effects {j v : Nat}
    (h : pairScheduler.StartsAt (Schedule.overtakeAt 2) chainRaceValidated true chainRaceWorld j v) :
    (chainRaceValidated.runNode v
        (pairScheduler.trace (Schedule.overtakeAt 2) chainRaceValidated true chainRaceWorld j).2).1.context =
        (pairScheduler.trace (Schedule.overtakeAt 2) chainRaceValidated true chainRaceWorld j).2.context ∧
      ((chainRaceValidated.runNode v
        (pairScheduler.trace (Schedule.overtakeAt 2) chainRaceValidated true chainRaceWorld j).2).1.stops true = false ∨
        v = 4) := by
  obtain ⟨hv, rfl⟩ := chainRace_overtake_start h
  interval_cases v
  all_goals first | exact ⟨by cbv, .inr rfl⟩ | cbv

/-- A command of `chainRace` gives the same answer in both runs: in particular `race` fails at `f` in both. -/
theorem chainRace_same_answer {j₁ j₂ v : Nat}
    (h₁ : pairScheduler.StartsAt Schedule.eager chainRaceValidated true chainRaceWorld j₁ v)
    (h₂ : pairScheduler.StartsAt (Schedule.overtakeAt 2) chainRaceValidated true chainRaceWorld j₂ v) :
    (chainRaceValidated.runNode v (pairScheduler.trace Schedule.eager chainRaceValidated true chainRaceWorld j₁).2).2 =
      (chainRaceValidated.runNode v
        (pairScheduler.trace (Schedule.overtakeAt 2) chainRaceValidated true chainRaceWorld j₂).2).2 := by
  obtain ⟨-, rfl⟩ := chainRace_eager_start h₁
  obtain ⟨hv, rfl⟩ := chainRace_overtake_start h₂
  interval_cases v <;> cbv

theorem confined_chainRace_eager :
    pairScheduler.Confined Schedule.eager chainRaceValidated true chainRaceWorld fun _ _ => False where
  frame _ _ h _ _ := by rw [(chainRace_eager_effects h).1]
  comparable _ _ h hstop := absurd hstop (by rw [(chainRace_eager_effects h).2]; decide)

theorem confined_chainRace_overtake :
    pairScheduler.Confined (Schedule.overtakeAt 2) chainRaceValidated true chainRaceWorld fun _ _ => False where
  frame _ _ h _ _ := by rw [(chainRace_overtake_effects h).1]
  comparable _ _ h hstop := by
    rcases (chainRace_overtake_effects h).2 with hs | rfl
    · rw [hs] at hstop
      cases hstop
    · exact comparable_chainRace

/-- The order in which commands report back can decide a node's state. In `chainRace`, two runs with two workers that
differ only in whether `p` or `q` reports back first: no command touches the context, every command answers alike in
both runs, and only `race`, comparable with every node, stops a run. Yet `d` succeeds in the first run and is cancelled
in the second. -/
theorem report_order_decides_cancellation :
    chainRaceValidated.Valid ∧ chainRaceWorld.stops true = false ∧
      pairScheduler.Confined Schedule.eager chainRaceValidated true chainRaceWorld (fun _ _ => False) ∧
      pairScheduler.Confined (Schedule.overtakeAt 2) chainRaceValidated true chainRaceWorld (fun _ _ => False) ∧
      (∀ j₁ j₂ v, pairScheduler.StartsAt Schedule.eager chainRaceValidated true chainRaceWorld j₁ v →
        pairScheduler.StartsAt (Schedule.overtakeAt 2) chainRaceValidated true chainRaceWorld j₂ v →
        (chainRaceValidated.runNode v (pairScheduler.trace Schedule.eager chainRaceValidated true chainRaceWorld j₁).2).2 =
          (chainRaceValidated.runNode v
            (pairScheduler.trace (Schedule.overtakeAt 2) chainRaceValidated true chainRaceWorld j₂).2).2) ∧
      ∃ rep₁ rep₂,
        pairScheduler.run Schedule.eager chainRaceValidated true chainRaceWorld =
          ((pairScheduler.final Schedule.eager chainRaceValidated true chainRaceWorld).2, .ok rep₁) ∧
        pairScheduler.run (Schedule.overtakeAt 2) chainRaceValidated true chainRaceWorld =
          ((pairScheduler.final (Schedule.overtakeAt 2) chainRaceValidated true chainRaceWorld).2, .ok rep₂) ∧
        rep₁.stateOf? "d" = some .succeeded ∧ rep₂.stateOf? "d" = some .cancelled :=
  ⟨valid_chainRace, rfl, confined_chainRace_eager, confined_chainRace_overtake,
    fun _ _ _ h₁ h₂ => chainRace_same_answer h₁ h₂, _, _, run_eq _ _ _ _ rfl, run_eq _ _ _ _ rfl, by cbv, by cbv⟩

end Scheduler

end Graph

end CommandEngine
