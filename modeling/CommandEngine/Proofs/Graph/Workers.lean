import CommandEngine.Proofs.Graph.Liveness
import CommandEngine.Graph.Pool
import CommandEngine.Config.Model

/-!
# The worker bound

A command holds a worker from its start until it reports back, and a task starts its command only when a worker is
free. The runs of one scheduler and its clones share their workers (`Pool`): each move takes a worker only when one is
free, gives one back only when a command reports back, and returns a run only with none of its commands executing
(`Pool.MoveUses`), so across any interleaving of their moves at most as many commands execute at once as the workers
allow on the host (`Pool.busy_le_run`). A run made on its own is run `0` of a pool of its own (`Pool.run_poolMoves`), so
it keeps to the same bound whatever the order of its moves, and it returns only once every command it started has
reported back, having given back every worker it took (`Scheduler.BoundedRuns`).

A scheduler made with `n` workers admits `n` commands at once. One sized to the host, as made with the default
concurrency or from a configuration that sets none (`Scheduler.fromConfig_of_none`), admits as many as the host has
processing units, and at least one; no command changes the host, so that bound holds throughout
(`Scheduler.machine_within_units`).

The probe sees what the bound allows: a run from a world whose probe is at rest leaves it at rest between moves, and the
most probed commands it saw executing at once is within the bound (`Scheduler.probe_within_workers`).
-/

namespace CommandEngine.Graph

namespace Run

/-- Handing tasks on starts no command. -/
theorem submit_keeps (w : World) (vs : List Nat) (r : Run) :
    (submit w vs r).executing = r.executing ∧ (submit w vs r).workers = r.workers := by
  rw [submit_eq]
  exact ⟨rfl, rfl⟩

/-- A command reporting back settles its node and starts no other command. -/
theorem finishOne_keeps (w : World) (r : Run) (e : Executing) :
    (finishOne w r e).executing = r.executing ∧ (finishOne w r e).workers = r.workers := by
  obtain ⟨reports, failures, h, -⟩ := finishOne_eq w r e
  rw [h, settle_eq]
  exact ⟨rfl, rfl⟩

/-- A task's turn starts its command exactly when the task is neither refused nor cancelled. -/
theorem length_executing_begin (r : Run) (w : World) (v : Nat) :
    (r.begin w v).1.executing.length =
      r.executing.length + if w.shutDown = false ∧ r.isCancelled w = false then 1 else 0 := by
  unfold Run.begin
  by_cases hsd : w.shutDown = true
  · simp [hsd]
  · by_cases hc : r.isCancelled w = true
    · simp [hsd, hc]
    · simp only [Bool.not_eq_true] at hsd hc
      simp [hsd, hc]

/-- The task at position `i` in line starts its command exactly when there is a task in line and it is neither refused
nor cancelled. -/
theorem length_executing_beginAt (r : Run) (w : World) (i : Nat) :
    (r.beginAt w i).1.executing.length =
      r.executing.length + if r.waiting ≠ [] ∧ w.shutDown = false ∧ r.isCancelled w = false then 1 else 0 := by
  have hat : ∀ j, j < r.waiting.length → (r.beginAt w j).1.executing.length =
      r.executing.length + if w.shutDown = false ∧ r.isCancelled w = false then 1 else 0 := by
    intro j hj
    unfold beginAt
    rw [List.getElem?_eq_getElem hj]
    exact length_executing_begin _ w _
  by_cases hw : r.waiting = []
  · rw [beginAt_of_length_le (by simp [hw])]
    simp [beginNext, hw]
  · simp only [ne_eq, hw, not_false_eq_true, true_and]
    by_cases hi : i < r.waiting.length
    · exact hat i hi
    · -- past the end of the line, the turn is the first task's
      rw [beginAt_of_length_le (Nat.le_of_not_lt hi), ← beginAt_zero]
      exact hat 0 (List.length_pos_iff.mpr hw)

theorem workers_beginAt (r : Run) (w : World) (i : Nat) : (r.beginAt w i).1.workers = r.workers := by
  unfold beginAt beginNext Run.begin
  repeat' split
  all_goals rfl

/-- A command that reports back gives back its worker. -/
theorem reportAt_keeps {r r' : Run} {w : World} {i : Nat} (h : r.reportAt w i = some r') :
    r'.executing.length + 1 = r.executing.length ∧ r'.workers = r.workers := by
  unfold reportAt at h
  split at h
  · rename_i e he
    cases h
    obtain ⟨hex, hwk⟩ := finishOne_keeps w { r with executing := r.executing.eraseIdx i } e
    have hi : i < r.executing.length := (List.getElem?_eq_some_iff.mp he).1
    rw [hex, hwk, List.length_eraseIdx_of_lt hi]
    exact ⟨by omega, rfl⟩
  · cases h

theorem workers_step (r : Run) (w : World) (m : Move) : (r.step w m).1.workers = r.workers := by
  rw [step_eq]
  split
  · exact (finishOne_keeps _ _ _).2
  · exact workers_beginAt r w _

/-- A move that names no command to report back gives a task in line its turn, and the run makes it only when a worker
is free, when no command executes, or when the task will not start. -/
theorem reportIndex_eq_none {r : Run} {w : World} {m : Move} (h : r.reportIndex w m = none) :
    r.mayBegin w = true ∨ r.executing.length = 0 := by
  cases m with
  | start _ =>
    simp only [reportIndex] at h
    split_ifs at h with hb h0
    · exact .inl hb
    · exact .inr (by omega)
  | report i =>
    simp only [reportIndex] at h
    split_ifs at h with hi h0
    exact .inr (by omega)

theorem workers_trace (sched : Schedule) (r : Run) (w : World) : ∀ i, (trace sched r w i).1.workers = r.workers
  | 0 => rfl
  | i + 1 => (workers_step _ _ _).trans (workers_trace sched r w i)

/-- The pool move by which run `j` of a pool makes move `m` as the run would on its own: the command that `m` or the
fallback names reports back, or else the task at `turnAt` has its turn. -/
def poolMove (r : Run) (w : World) (j : Nat) (m : Move) : PoolMove :=
  match r.reportIndex w m with
  | some i => .move j (.report i)
  | none => .move j (.start (r.turnAt w m))

/-- The pool moves by which run `0` of a pool makes the first `i` moves of `sched` as the run would on its own. -/
def poolMoves (sched : Schedule) (r : Run) (w : World) : Nat → List PoolMove
  | 0 => []
  | i + 1 => poolMoves sched r w i ++ [(trace sched r w i).1.poolMove (trace sched r w i).2 0 (sched i)]

end Run

namespace Scheduler

/-- A run starts with no command executing, bounded by its scheduler's workers. -/
theorem start_keeps (s : Scheduler) (g : ValidatedGraph) (followsCaller : Bool) (w : World) :
    (s.start g followsCaller w).executing = [] ∧ (s.start g followsCaller w).workers = s.workers :=
  Run.submit_keeps w _ _

end Scheduler

namespace Pool

theorem busy_eq_sum (p : Pool) : p.busy = (p.runs.map fun r => r.executing.length).sum := rfl

/-- A run that joins the pool takes the workers its commands hold. -/
theorem busy_append (p : Pool) (r : Run) :
    ({ p with runs := p.runs ++ [r] } : Pool).busy = p.busy + r.executing.length := by
  simp [busy_eq_sum]

/-- A run that moves changes the workers taken by what it takes itself. -/
theorem busy_set {p : Pool} {j : Nat} {r : Run} (hj : p.runs[j]? = some r) (r' : Run) :
    ({ p with runs := p.runs.set j r' } : Pool).busy + r.executing.length = p.busy + r'.executing.length := by
  obtain ⟨hlt, rfl⟩ := List.getElem?_eq_some_iff.mp hj
  have hl : j < (p.runs.map fun r => r.executing.length).length := by simpa using hlt
  -- both sums split at position `j` into the run there and the same other runs
  have hold := List.CommMonoid.add_sum_eraseIdx hl
  have hnew := List.CommMonoid.add_sum_eraseIdx
    (l := (p.runs.map fun r => r.executing.length).set j r'.executing.length) (i := j) (by simpa using hl)
  rw [List.eraseIdx_set_eq, List.getElem_set_self] at hnew
  rw [List.getElem_map] at hold
  simp only [busy_eq_sum, List.map_set]
  omega

/-- A run that leaves the pool gives back the workers its commands held. -/
theorem busy_eraseIdx {p : Pool} {j : Nat} {r : Run} (hj : p.runs[j]? = some r) (returned : List RunReport) :
    ({ p with runs := p.runs.eraseIdx j, returned } : Pool).busy + r.executing.length = p.busy := by
  obtain ⟨hlt, rfl⟩ := List.getElem?_eq_some_iff.mp hj
  have h := List.CommMonoid.add_sum_eraseIdx (l := p.runs.map fun r => r.executing.length) (i := j) (by simpa using hlt)
  simp only [busy_eq_sum, ← List.eraseIdx_map]
  simp only [List.getElem_map] at h
  omega

/-- A run joins the pool with none of its commands executing. -/
theorem busy_launch (p : Pool) (w : World) (policy : FailurePolicy) (g : ValidatedGraph) (followsCaller : Bool) :
    (p.step w (.launch policy g followsCaller)).1.busy = p.busy := by
  by_cases hsd : w.shutDown = true
  · simp [step, hsd]
  · simp only [step, hsd, Bool.false_eq_true, if_false]
    rw [busy_append, (Scheduler.start_keeps _ g followsCaller w).1]
    rfl

/-- A task's turn takes a worker only when one is free across the runs. -/
theorem busy_start (p : Pool) (w : World) (j i : Nat) :
    (p.step w (.move j (.start i))).1.busy = p.busy ∨
      ((p.step w (.move j (.start i))).1.busy = p.busy + 1 ∧ p.workers.admits w.units p.busy = true) := by
  cases hj : p.runs[j]? with
  | none => simp [step, hj]
  | some r =>
    by_cases hb : p.mayBegin r w = true
    · have hset := busy_set hj (r.beginAt w i).1
      simp only [step, hj, hb, if_true]
      rw [Run.length_executing_beginAt] at hset
      split_ifs at hset with hstart
      · -- the task starts its command, so it found a worker free
        obtain ⟨-, hsd, hc⟩ := hstart
        simp only [mayBegin, hsd, hc, Bool.or_false, Bool.and_eq_true] at hb
        exact .inr ⟨by omega, hb.2⟩
      · exact .inl (by omega)
    · simp [step, hj, hb]

/-- A command that reports back gives back its worker. -/
theorem busy_report (p : Pool) (w : World) (j i : Nat) :
    (p.step w (.move j (.report i))).1.busy = p.busy ∨ (p.step w (.move j (.report i))).1.busy + 1 = p.busy := by
  cases hj : p.runs[j]? with
  | none => simp [step, hj]
  | some r =>
    cases hr : r.reportAt w i with
    | none => simp [step, hj, hr]
    | some r' =>
      have hset := busy_set hj r'
      have hlen := (Run.reportAt_keeps hr).1
      simp only [step, hj, hr]
      exact .inr (by omega)

/-- A run returns only with none of its commands executing, so the workers taken stay as they are. -/
theorem busy_retire (p : Pool) (w : World) (j : Nat) : (p.step w (.retire j)).1.busy = p.busy := by
  cases hj : p.runs[j]? with
  | none => simp [step, hj]
  | some r =>
    by_cases hq : (r.waiting.isEmpty && r.executing.isEmpty) = true
    · have herase := busy_eraseIdx hj (p.returned ++ [r.finish w])
      simp only [step, hj, hq, if_true]
      simp only [Bool.and_eq_true, List.isEmpty_iff] at hq
      rw [hq.2] at herase
      exact herase
    · simp [step, hj, hq]

/-- One move changes the workers taken by at most one: it takes one only when one is free, and gives one back only when
a command reports back. -/
theorem busy_step (p : Pool) (w : World) (m : PoolMove) :
    (p.step w m).1.busy = p.busy ∨
      ((p.step w m).1.busy = p.busy + 1 ∧ p.workers.admits w.units p.busy = true) ∨
      ((p.step w m).1.busy + 1 = p.busy ∧ ∃ j i, m = .move j (.report i)) := by
  cases m with
  | launch policy g followsCaller => exact .inl (busy_launch p w policy g followsCaller)
  | move j m =>
    cases m with
    | start i => exact (busy_start p w j i).imp_right .inl
    | report i => exact (busy_report p w j i).imp_right fun h => .inr ⟨h, j, i, rfl⟩
  | retire j => exact .inl (busy_retire p w j)

theorem workers_step (p : Pool) (w : World) (m : PoolMove) : (p.step w m).1.workers = p.workers := by
  unfold step
  repeat' split
  all_goals rfl

/-- A run returns its report only once no task of it waits and no command of it executes. -/
theorem returned_step (p : Pool) (w : World) (m : PoolMove) :
    ∀ rep ∈ (p.step w m).1.returned, rep ∈ p.returned ∨
      ∃ r ∈ p.runs, r.Quiet ∧ rep = r.finish w := by
  intro rep hrep
  cases m with
  | retire j =>
    simp only [step] at hrep
    split at hrep
    · rename_i r hj
      split_ifs at hrep with hq
      · simp only [Bool.and_eq_true, List.isEmpty_iff] at hq
        rcases List.mem_append.mp hrep with h | h
        · exact .inl h
        · exact .inr ⟨r, List.mem_of_getElem? hj, hq, List.mem_singleton.mp h⟩
      · exact .inl hrep
    · exact .inl hrep
  | launch policy g followsCaller =>
    simp only [step] at hrep
    split_ifs at hrep <;> exact .inl hrep
  | move j m =>
    cases m with
    | start i =>
      simp only [step] at hrep
      repeat' split at hrep
      all_goals exact .inl hrep
    | report i =>
      simp only [step] at hrep
      repeat' split at hrep
      all_goals exact .inl hrep

section Stable

variable {R : World → World → Prop} (hR : World.Stable R) (hprobe : ∀ w p, R w { w with probe := p })
include hR hprobe

/-- A move of the runs changes the world only by starting a command. -/
theorem stable_step (p : Pool) (w : World) (m : PoolMove) : R w (p.step w m).2 := by
  cases m with
  | launch policy g followsCaller =>
    simp only [step]
    split_ifs <;> exact hR.refl w
  | move j m =>
    cases m with
    | start i =>
      simp only [step]
      split
      · split_ifs
        · exact Run.stable_beginAt hR hprobe _ w i
        · exact hR.refl w
      · exact hR.refl w
    | report i =>
      simp only [step]
      repeat' split
      all_goals exact hR.refl w
  | retire j =>
    simp only [step]
    split
    · split_ifs <;> exact hR.refl w
    · exact hR.refl w

end Stable

/-- The runs keep to one host. -/
theorem units_step (p : Pool) (w : World) (m : PoolMove) : (p.step w m).2.units = w.units :=
  (stable_step World.stable_fixed World.fixed_probe p w m).2

/-- One move keeps the commands executing across the runs within the bound of their workers on the host. -/
theorem busy_le_step {p : Pool} {w : World} (hle : p.busy ≤ p.workers.bound w.units) (m : PoolMove) :
    (p.step w m).1.busy ≤ p.workers.bound w.units := by
  rcases busy_step p w m with h | ⟨h, hfree⟩ | ⟨h, -⟩
  · omega
  · simp only [Workers.admits, decide_eq_true_eq] at hfree
    omega
  · omega

/-- Across every interleaving of the runs' moves at most as many commands execute at once as their workers allow on
the host. -/
theorem busy_le_run {p : Pool} {w : World} (hle : p.busy ≤ p.workers.bound w.units) (moves : List PoolMove) :
    (p.run w moves).1.busy ≤ p.workers.bound w.units := by
  induction moves generalizing p w with
  | nil => exact hle
  | cons m rest ih =>
    -- the move keeps the workers and the host, so the bound after it is the bound before
    have hkeep : (p.step w m).1.workers.bound (p.step w m).2.units = p.workers.bound w.units := by
      rw [workers_step, units_step]
    have h := ih (p := (p.step w m).1) (w := (p.step w m).2) (hkeep ▸ busy_le_step hle m)
    rw [hkeep] at h
    exact h

/-- What one move of the runs sharing a pool's workers does with them. -/
structure MoveUses (p : Pool) (w : World) (m : PoolMove) : Prop where
  /-- A worker is taken only when one is free, and one at a time. -/
  takes : p.busy < (p.step w m).1.busy → (p.step w m).1.busy = p.busy + 1 ∧ p.workers.admits w.units p.busy = true
  /-- A worker comes back only when a command reports back. -/
  gives : (p.step w m).1.busy < p.busy → (p.step w m).1.busy + 1 = p.busy ∧ ∃ j i, m = .move j (.report i)
  /-- The runs go on sharing the same workers. -/
  workers : (p.step w m).1.workers = p.workers
  /-- A run returns its report only with no task of it waiting and no command of it executing. -/
  returns : ∀ rep ∈ (p.step w m).1.returned, rep ∈ p.returned ∨ ∃ r ∈ p.runs, r.Quiet ∧ rep = r.finish w

theorem moveUses (p : Pool) (w : World) (m : PoolMove) : p.MoveUses w m where
  takes h := by
    rcases busy_step p w m with h' | h' | ⟨h', -⟩
    · omega
    · exact h'
    · omega
  gives h := by
    rcases busy_step p w m with h' | ⟨h', -⟩ | h'
    · omega
    · omega
    · exact h'
  workers := workers_step p w m
  returns := returned_step p w m

theorem run_append (p : Pool) (w : World) (moves : List PoolMove) (m : PoolMove) :
    p.run w (moves ++ [m]) = (p.run w moves).1.step (p.run w moves).2 m := by
  induction moves generalizing p w with
  | nil => rfl
  | cons m' rest ih => exact ih _ _

/-- A run whose commands hold every worker taken moves in the pool as it moves on its own, given that a worker is free
when none is taken. -/
theorem step_poolMove {p : Pool} {j : Nat} {r : Run} (hj : p.runs[j]? = some r) (hw : p.workers = r.workers)
    (hbusy : p.busy = r.executing.length) (hfree : ∀ units, 0 < p.workers.bound units) (w : World) (m : Move) :
    p.step w (r.poolMove w j m) = ({ p with runs := p.runs.set j (r.step w m).1 }, (r.step w m).2) := by
  have hmay : p.mayBegin r w = r.mayBegin w := by simp [mayBegin, Run.mayBegin, hw, hbusy]
  rw [Run.step_eq]
  unfold Run.poolMove
  cases hidx : r.reportIndex w m with
  | some i =>
    have hi := Run.reportIndex_lt hidx
    simp [step, hj, Run.reportAt, List.getElem?_eq_getElem hi]
  | none =>
    by_cases hb : r.mayBegin w = true
    · simp [step, hj, hmay, hb]
    · -- alone, the run falls back on the turn of a task while no command executes; a worker is free then, so no task
      -- waits and the turn does nothing
      have h0 : r.executing.length = 0 := (Run.reportIndex_eq_none hidx).resolve_left hb
      have hwait : r.waiting = [] := by
        simpa [Run.mayBegin, h0, ← hw, Workers.admits, hfree] using hb
      obtain ⟨hlt, -⟩ := List.getElem?_eq_some_iff.mp hj
      have hset : p.runs.set j r = p.runs := by
        rw [(List.getElem?_eq_some_iff.mp hj).2.symm]
        exact List.set_getElem_self hlt
      simp [step, hj, hmay, hb, Run.beginAt, Run.beginNext, hwait, hset]

/-- A run made on its own is run `0` of a pool of its own, moved by `poolMoves`. -/
theorem run_poolMoves (sched : Schedule) {r : Run} (hfree : ∀ units, 0 < r.workers.bound units) (w : World) :
    ∀ i, ({ workers := r.workers, runs := [r] } : Pool).run w (r.poolMoves sched w i) =
      ({ workers := r.workers, runs := [(Run.trace sched r w i).1] }, (Run.trace sched r w i).2)
  | 0 => rfl
  | i + 1 => by
    rw [Run.poolMoves, run_append, run_poolMoves sched hfree w i]
    have hwk := Run.workers_trace sched r w i
    rw [step_poolMove (r := (Run.trace sched r w i).1) rfl hwk.symm (by simp [busy_eq_sum]) hfree]
    rfl

end Pool

namespace Scheduler

theorem new_eq_ok {k : Nat} {s : Scheduler} (h : Scheduler.new k = .ok s) : s.workers = .fixed k ∧ 0 < k := by
  unfold Scheduler.new at h
  split_ifs at h with h0
  cases h
  exact ⟨rfl, Nat.pos_of_ne_zero h0⟩

/-- What a scheduler of `n` workers guarantees of each of its runs, whatever the order of the run's moves: at most `n`
commands execute at once, and the run of a validated graph returns with none executing. -/
structure BoundedRuns (s : Scheduler) (n : Nat) : Prop where
  bound : ∀ (sched : Schedule) (g : ValidatedGraph) (followsCaller : Bool) (w : World) (i : Nat),
    (s.trace sched g followsCaller w i).1.executing.length ≤ n
  returns : ∀ (sched : Schedule) (g : ValidatedGraph) (followsCaller : Bool) (w : World), g.Valid →
    (s.final sched g followsCaller w).1.Quiet

/-- A run of a scheduler whose workers always admit a command is run `0` of a pool of its own, so the bound on the pool
bounds it. -/
theorem executing_le_bound {s : Scheduler} (hfree : ∀ units, 0 < s.workers.bound units) (sched : Schedule)
    (g : ValidatedGraph) (followsCaller : Bool) (w : World) (i : Nat) :
    (s.trace sched g followsCaller w i).1.executing.length ≤ s.workers.bound w.units := by
  obtain ⟨hex, hw⟩ := start_keeps s g followsCaller w
  have hle := Pool.busy_le_run
    (p := { workers := (s.start g followsCaller w).workers, runs := [s.start g followsCaller w] }) (w := w)
    (by simp [Pool.busy_eq_sum, hex]) ((s.start g followsCaller w).poolMoves sched w i)
  rw [Pool.run_poolMoves sched (hw ▸ hfree) w i] at hle
  simpa [Pool.busy_eq_sum, trace, hw] using hle

theorem boundedRuns {s : Scheduler} {n : Nat} (hs : s.workers = .fixed n) (hn : 0 < n) : s.BoundedRuns n where
  bound sched g followsCaller w i := by
    have hfree : ∀ units, 0 < s.workers.bound units := fun _ => by simp [hs, Workers.bound, hn]
    simpa [hs, Workers.bound] using executing_le_bound hfree sched g followsCaller w i
  returns sched g followsCaller w hg := quiet_trace hg s sched followsCaller w (by omega)

/-- A configuration that sets no concurrency yields the scheduler sized to the host. -/
theorem fromConfig_of_none {c : Config.SchedulerConfig} (hc : c.concurrency = none) :
    fromConfig c = .ok (onMachine.withPolicy c.failurePolicy) := by
  simp [fromConfig, hc]

/-- A scheduler sized to the host runs at most as many commands at once as the host has processing units, or one on a
host that reports none: across every interleaving of the runs on it and its clones, and in each run of it or of a clone
made on its own. -/
theorem machine_within_units {s : Scheduler} (hs : s.workers = .machine) (w : World) :
    (∀ moves : List PoolMove, (({ workers := s.workers } : Pool).run w moves).1.busy ≤ max w.units 1) ∧
      ∀ (q : FailurePolicy) (sched : Schedule) (g : ValidatedGraph) (followsCaller : Bool) (i : Nat),
        ((s.withPolicy q).trace sched g followsCaller w i).1.executing.length ≤ max w.units 1 := by
  have hbound : ∀ units, s.workers.bound units = max units 1 := fun _ => by rw [hs]; rfl
  refine ⟨fun moves => ?_, fun q sched g followsCaller i => ?_⟩
  · simpa [hbound] using Pool.busy_le_run (p := { workers := s.workers }) (w := w) (Nat.zero_le _) moves
  · have hfree : ∀ units, 0 < (s.withPolicy q).workers.bound units := fun _ => by simp [withPolicy, hbound]
    simpa [withPolicy, hbound] using executing_le_bound hfree sched g followsCaller w i

end Scheduler

/-! ## What the probe sees -/

namespace Run

variable {r : Run} {w : World}

/-- When a command starts, a probe at rest stays at rest and sees at most the commands then executing, the new one
included. -/
theorem probe_startCommand (hc : w.probe.current = 0) (v : Nat) :
    (r.startCommand w v).1.probe.current = 0 ∧
      (r.startCommand w v).1.probe.peak ≤ max w.probe.peak (r.executing.length + 1) := by
  -- the command itself enters the probe and leaves it again
  obtain ⟨hcur, hpeak⟩ := World.stable_probeSteady.runCommand w (r.graph.graph.nodes.getD v 0)
  rw [hc] at hcur hpeak
  have hone : max w.probe.peak (0 + 1) ≤ max w.probe.peak (r.executing.length + 1) :=
    Nat.max_le.mpr ⟨Nat.le_max_left _ _, le_max_of_le_right (by omega)⟩
  have hprobed : r.probedExecuting w ≤ r.executing.length := List.length_filter_le _ _
  unfold startCommand
  dsimp only
  split
  · -- it is seen beside the probed commands of the run still executing
    exact ⟨hcur, Nat.max_le.mpr ⟨hpeak.trans hone, le_max_of_le_right (by omega)⟩⟩
  · exact ⟨hcur, hpeak.trans hone⟩

/-- Through a move, a probe at rest stays at rest and sees at most the commands executing after it. -/
theorem probe_step (hc : w.probe.current = 0) (m : Move) :
    (r.step w m).2.probe.current = 0 ∧ (r.step w m).2.probe.peak ≤ max w.probe.peak (r.step w m).1.executing.length := by
  cases hs : r.startedBy w m with
  | none =>
    rw [(step_of_startedBy_none hs).1]
    exact ⟨hc, Nat.le_max_left _ _⟩
  | some v =>
    obtain ⟨rest, -, -, -, -, hstep⟩ := startedBy_eq_some hs
    rw [hstep]
    simpa using probe_startCommand hc v

/-- Along a trace, a probe at rest stays at rest between moves, and sees at most as many commands at once as ever
execute together. -/
theorem probe_trace {B : Nat} (sched : Schedule) (r : Run) (w : World) (hc : w.probe.current = 0)
    (hB : ∀ i, (trace sched r w i).1.executing.length ≤ B) :
    ∀ i, (trace sched r w i).2.probe.current = 0 ∧ (trace sched r w i).2.probe.peak ≤ max w.probe.peak B
  | 0 => ⟨hc, Nat.le_max_left _ _⟩
  | i + 1 => by
    obtain ⟨hci, hpi⟩ := probe_trace sched r w hc hB i
    obtain ⟨hc', hp'⟩ := probe_step (r := (trace sched r w i).1) hci (sched i)
    exact ⟨hc', hp'.trans (Nat.max_le.mpr ⟨hpi, le_max_of_le_right (hB (i + 1))⟩)⟩

end Run

namespace Scheduler

/-- The probe never sees more commands executing at once than the scheduler's workers allow on the host: a run from a
world whose probe is at rest leaves it at rest between moves, and the most it saw at once stays within the bound. -/
theorem probe_within_workers {s : Scheduler} (hfree : ∀ units, 0 < s.workers.bound units) (sched : Schedule)
    (g : ValidatedGraph) (followsCaller : Bool) (w : World) (hc : w.probe.current = 0) (i : Nat) :
    (s.trace sched g followsCaller w i).2.probe.current = 0 ∧
      (s.trace sched g followsCaller w i).2.probe.peak ≤ max w.probe.peak (s.workers.bound w.units) :=
  Run.probe_trace sched _ w hc (executing_le_bound hfree sched g followsCaller w) i

/-- Two nodes with no edge between them. -/
def sideBySide : ValidatedGraph :=
  { graph := (({} : DependencyGraph).addCommand 0 "a").addCommand 1 "b", inDegree := #[0, 0], startNodes := [0, 1],
    order := [0, 1] }

/-- A world in which the commands of both nodes report to the probe. -/
def probedPairWorld : World :=
  { commands := #[.recorder { name := "a", probed := true } none, .recorder { name := "b", probed := true } none] }

/-- With two workers both commands execute together, and the probe sees both; with one it sees one at a time. -/
example :
    (final { workers := .fixed 2 } (fun _ => .start 0) sideBySide false probedPairWorld).2.probe.peak = 2 ∧
      (final { workers := .fixed 1 } (fun _ => .start 0) sideBySide false probedPairWorld).2.probe.peak = 1 := by
  cbv

end Scheduler

/-- The worker bound of a scheduler made with `k` workers: each move of the runs sharing workers takes one only when one
is free and gives one back only when a command reports back, so across every interleaving of the runs on the scheduler
and its clones at most `k` commands execute at once; and each run of it or of a clone, made on its own, keeps to the
bound and returns with every worker given back. -/
theorem commands_within_workers :
    (∀ (p : Pool) (w : World) (m : PoolMove), p.MoveUses w m) ∧
      ∀ (k : Nat) (s : Scheduler), Scheduler.new k = .ok s →
        (∀ (w : World) (moves : List PoolMove), (({ workers := s.workers } : Pool).run w moves).1.busy ≤ k) ∧
          ∀ q : FailurePolicy, (s.withPolicy q).BoundedRuns k := by
  refine ⟨Pool.moveUses, fun k s hs => ?_⟩
  obtain ⟨hwk, hk⟩ := Scheduler.new_eq_ok hs
  refine ⟨fun w moves => ?_, fun _ => Scheduler.boundedRuns hwk hk⟩
  simpa [hwk, Workers.bound] using Pool.busy_le_run (p := { workers := s.workers }) (w := w) (Nat.zero_le _) moves

/-- With one worker, the second of two runs waits for the first run's command to report back before it starts its
own. -/
example :
    let launch : PoolMove := .launch .runDependents buildThenTestValidated false
    let w : World := { commands := #[.script { name := "build" }, .script { name := "test" }] }
    let p := ({ workers := .fixed 1 } : Pool).run w [launch, launch, .move 0 (.start 0), .move 1 (.start 0)]
    (p.1.runs.map fun r => r.executing.length) = [1, 0] ∧
      ((p.1.run p.2 [.move 0 (.report 0), .move 1 (.start 0)]).1.runs.map fun r => r.executing.length) = [0, 1] := by
  cbv

end CommandEngine.Graph
