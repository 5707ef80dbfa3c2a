import CommandEngine.Graph.Scheduler

/-!
# Runs sharing a scheduler's workers

A scheduler and its clones share one set of workers: across all the runs made with any of them, at most as many commands
execute at once as the scheduler has workers. Each run keeps its own state and its own line of tasks. A task whose turn
comes takes a worker if one is free across all the runs; otherwise it waits, unless it would not start anyway, because
the scheduler is shut down or its run is cancelled. A command holds its worker from its start until it reports back. A
run returns once no task of it waits and no command of it executes, so it has given back every worker it took; a run
asked of a scheduler that is shut down is refused.

The runs interleave in any order: which run moves next, and how, is a list of pool moves. Sessions make their runs one
after another, each to its end, with `Scheduler.run`; a run whose caller stops waiting for it part of the way is not
modelled.
-/

namespace CommandEngine.Graph

/-- The runs in progress on a scheduler and its clones, which share its workers, and the reports of those that
returned. -/
structure Pool where
  workers : Workers
  runs : List Run := []
  returned : List RunReport := []
  deriving Repr, Inhabited

/-- What happens next among the runs of a pool. -/
inductive PoolMove where
  /-- A run of `g` starts, asked of the scheduler or of a clone of it with failure policy `policy`. -/
  | launch (policy : FailurePolicy) (g : ValidatedGraph) (followsCaller : Bool)
  /-- Run `j` makes move `m`. -/
  | move (j : Nat) (m : Move)
  /-- Run `j` returns its report, if no task of it waits and no command of it executes. -/
  | retire (j : Nat)
  deriving Repr, Inhabited

namespace Pool

/-- The workers taken: the commands executing across the runs. -/
def busy (p : Pool) : Nat :=
  (p.runs.map fun r => r.executing.length).foldr (· + ·) 0

/-- Whether a task in line in run `r` may have its turn now: a worker is free across the runs, or the task will not
start anyway. -/
def mayBegin (p : Pool) (r : Run) (w : World) : Bool :=
  !r.waiting.isEmpty && (p.workers.admits w.units p.busy || w.shutDown || r.isCancelled w)

/-- Makes one move. A task that finds no worker free keeps waiting; a move of a run that is not there, of a command that
does not execute, or of a run that is not done, does nothing. -/
def step (p : Pool) (w : World) : PoolMove → Pool × World
  | .launch policy g followsCaller =>
    if w.shutDown then (p, w)
    else ({ p with runs := p.runs ++ [({ workers := p.workers, policy } : Scheduler).start g followsCaller w] }, w)
  | .move j (.start i) =>
    match p.runs[j]? with
    | some r =>
      if p.mayBegin r w then
        let (r, w) := r.beginAt w i
        ({ p with runs := p.runs.set j r }, w)
      else (p, w)
    | none => (p, w)
  | .move j (.report i) =>
    match p.runs[j]? with
    | some r =>
      match r.reportAt w i with
      | some r => ({ p with runs := p.runs.set j r }, w)
      | none => (p, w)
    | none => (p, w)
  | .retire j =>
    match p.runs[j]? with
    | some r =>
      if r.waiting.isEmpty && r.executing.isEmpty then
        ({ p with runs := p.runs.eraseIdx j, returned := p.returned ++ [r.finish w] }, w)
      else (p, w)
    | none => (p, w)

/-- Makes the moves in order. -/
def run (p : Pool) (w : World) : List PoolMove → Pool × World
  | [] => (p, w)
  | m :: rest => (p.step w m).1.run (p.step w m).2 rest

end Pool

end CommandEngine.Graph
