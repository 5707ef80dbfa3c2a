import CommandEngine.Graph.RunState
import CommandEngine.Chain

/-!
# Graph schedulers and graph runs

A scheduler runs validated graphs: every node's command once, a node only after all its predecessors settled. A run
starts by handing the start nodes to workers; whenever a command ends, its node settles and the dependents that became
ready are handed on. A node handed on after the run was cancelled is cancelled at once; a node that finds the scheduler
shut down when its turn comes is refused, which cancels the rest of the run. Once nothing is left to run, nodes still
pending in a cancelled run are cancelled, and the report is made.

Which task has its turn next, and which executing command reports back next, is a schedule: one move per step. Tasks
wait for a worker in no fixed order, so a move may give its turn to any task in line. A command's effects all happen
when it starts; a command that reports to the probe is seen executing beside the run's other probed commands until they
report back. At most as many commands execute at once as the scheduler has workers, or, for a scheduler sized to the
host, as the host has processing units, and at least one. A run's answer does not depend on the schedule when the nodes
write only keys of their own and read only keys written by their ancestors; the sessions run with the sequential
schedule, where each command reports back before the next starts.

A run follows its caller's cancellation signal (`World.signal`) unless the caller gave it none.
-/

namespace CommandEngine.Graph

/-- How many commands a scheduler lets run at once. -/
inductive Workers where
  | fixed (n : Nat)
  /-- One per processing unit of the host, and at least one. -/
  | machine
  deriving DecidableEq, Repr, Inhabited

/-- The most commands that may execute at once on a host with `units` processing units. -/
def Workers.bound (units : Nat) : Workers → Nat
  | .fixed n => n
  | .machine => max units 1

/-- Whether another command may start while `running` commands execute, on a host with `units` processing units. -/
def Workers.admits (ws : Workers) (units running : Nat) : Bool :=
  running < ws.bound units

/-- A reusable executor of validated graphs. -/
structure Scheduler where
  workers : Workers
  policy : FailurePolicy := .runDependents
  deriving Repr, Inhabited

/-- The largest number of workers a scheduler can be given. -/
def maxWorkers : Nat := 2305843009213693951

namespace Scheduler

/-- A scheduler running at most `n` commands at a time; refused for `n = 0`, and aborting beyond `maxWorkers`. -/
def new (n : Nat) : Attempt Scheduler :=
  if n = 0 then .error (.invalidArgument "scheduler concurrency must be >= 1 (got 0)")
  else if maxWorkers < n then
    .panic ("a semaphore may not have more than MAX_PERMITS permits (" ++ toString maxWorkers ++ ")")
  else .ok { workers := .fixed n }

/-- A scheduler with one worker per processing unit of the host. -/
def onMachine : Scheduler :=
  { workers := .machine }

/-- The scheduler with another failure policy. -/
def withPolicy (s : Scheduler) (p : FailurePolicy) : Scheduler :=
  { s with policy := p }

/-- The number of workers, when it does not depend on the host. -/
def concurrency? (s : Scheduler) : Option Nat :=
  match s.workers with
  | .fixed n => some n
  | .machine => none

end Scheduler

/-- What happens next in a run. -/
inductive Move where
  /-- The worker task at position `i` in line has its turn; a position past the end of the line names the first task. -/
  | start (i : Nat)
  /-- The command at position `i` among those executing reports back. -/
  | report (i : Nat)
  deriving DecidableEq, Repr, Inhabited

/-- The moves of a run, one per step. Every order in which the tasks of a run have their turn and their commands report
back is given by some schedule. -/
abbrev Schedule := Nat → Move

/-- Each command reports back before the next task has its turn, and tasks have their turn in the order their nodes were
handed on. -/
def Schedule.sequential : Schedule := fun _ => .report 0

/-- A command that started and has not reported back yet, with what it will report. -/
structure Executing where
  node : Nat
  result : Except Interrupt Outcome
  deriving Repr, Inhabited

/-- The state of one run in progress. -/
structure Run where
  graph : ValidatedGraph
  state : RunState
  reports : Array NodeReport
  failures : Array ExecutionError := #[]
  /-- The bound on commands executing at once. -/
  workers : Workers
  /-- Nodes handed to worker tasks that have not had their turn, in the order they were handed on. -/
  waiting : List Nat := []
  /-- Commands that started and have not reported back, in the order they started. -/
  executing : List Executing := []
  /-- Whether the run's own signal fired. -/
  cancelled : Bool := false
  /-- Whether the caller's signal cancels the run too. -/
  followsCaller : Bool
  /-- The logical clock that stamps the start and end of commands. -/
  clock : Nat := 0
  deriving Repr, Inhabited

namespace Run

/-- Whether the run is cancelled: its own signal fired, or the caller's signal that it follows. -/
def isCancelled (r : Run) (w : World) : Bool :=
  r.cancelled || (r.followsCaller && w.signal)

/-- Hands ready nodes to worker tasks, or cancels them if the run is cancelled. -/
def submit (w : World) : List Nat → Run → Run
  | [], r => r
  | v :: rest, r =>
    let r := if r.isCancelled w then { r with state := r.state.cancel v }
      else { r with state := r.state.markRunning v, waiting := r.waiting ++ [v] }
    submit w rest r

/-- Settles node `v` and hands on the dependents that became ready. -/
def settle (w : World) (r : Run) (v : Nat) (succeeded : Bool) : Run :=
  let (state, step) := r.state.complete v succeeded
  submit w step.ready { r with state }

/-- Records the failure of node `v`. -/
def recordFailure (w : World) (r : Run) (v : Nat) (f : Fault) : Run :=
  let e := ExecutionError.ofFault (r.graph.graph.nameOf v) w.context.keys f
  { r with
    reports := r.reports.modify v fun n => { n with error := some e.message }
    failures := r.failures.push e }

/-- The commands of the run executing that report to the probe. -/
def probedExecuting (r : Run) (w : World) : Nat :=
  (r.executing.filter fun e => w.probes (r.graph.graph.nodes.getD e.node 0)).length

/-- Starts the command of node `v`. All of its effects happen now; it executes until it reports back, beside the
commands of the run still executing, so a command that reports to the probe shows it those of them that report to it
too. -/
def startCommand (r : Run) (w : World) (v : Nat) : World × Except Interrupt Outcome :=
  let id := r.graph.graph.nodes.getD v 0
  let (w', result) := w.runCommand id
  (if w.probes id then { w' with probe := w'.probe.observe (r.probedExecuting w + 1) } else w', result)

/-- The task of node `v` has its turn: it is refused if the scheduler is shut down, which cancels the rest of the run;
it does not start if the run is cancelled; and otherwise the node's command starts, to report back on a later move. -/
def begin (r : Run) (w : World) (v : Nat) : Run × World :=
  if w.shutDown then ({ r with cancelled := true, state := r.state.cancel v }, w)
  else if r.isCancelled w then ({ r with state := r.state.cancel v }, w)
  else
    let (w, result) := r.startCommand w v
    ({ r with
      reports := r.reports.modify v fun n => { n with startedAt := some r.clock }
      executing := r.executing ++ [⟨v, result⟩]
      clock := r.clock + 1 }, w)

/-- A command reports back: its node is stamped, its outcome or failure recorded, and the node settles. A panic is
recorded as a failure of the node. -/
def finishOne (w : World) (r : Run) (e : Executing) : Run :=
  let v := e.node
  let r := { r with
    reports := r.reports.modify v fun n => { n with finishedAt := some r.clock }
    clock := r.clock + 1 }
  match e.result with
  | .ok o => settle w { r with reports := r.reports.modify v fun n => { n with outcome := some o } } v true
  | .error (.failed f) => settle w (recordFailure w r v f) v false
  | .error (.panicked _) =>
    settle w (recordFailure w r v (.text ("command '" ++ r.graph.graph.nameOf v ++ "' panicked"))) v false

/-- The command at position `i` among those executing reports back, if there is one there. -/
def reportAt (r : Run) (w : World) (i : Nat) : Option Run :=
  match r.executing[i]? with
  | some e => some (finishOne w { r with executing := r.executing.eraseIdx i } e)
  | none => none

/-- The task first in line has its turn. -/
def beginNext (r : Run) (w : World) : Run × World :=
  match r.waiting with
  | [] => (r, w)
  | v :: rest => begin { r with waiting := rest } w v

/-- The task at position `i` in line has its turn; past the end of the line, the task first in line. -/
def beginAt (r : Run) (w : World) (i : Nat) : Run × World :=
  match r.waiting[i]? with
  | some v => begin { r with waiting := r.waiting.eraseIdx i } w v
  | none => r.beginNext w

/-- Whether a task in line may have its turn now: a worker is free, or the task will not start anyway. -/
def mayBegin (r : Run) (w : World) : Bool :=
  !r.waiting.isEmpty && (r.workers.admits w.units r.executing.length || w.shutDown || r.isCancelled w)

/-- The move made when the one scheduled cannot be made: the first command executing reports back, or else the task
first in line has its turn. -/
def fallback (r : Run) (w : World) : Run × World :=
  match r.reportAt w 0 with
  | some r => (r, w)
  | none => r.beginNext w

/-- Makes one move. -/
def step (r : Run) (w : World) : Move → Run × World
  | .start i => if r.mayBegin w then r.beginAt w i else r.fallback w
  | .report i =>
    match r.reportAt w i with
    | some r => (r, w)
    | none => r.fallback w

/-- Makes the moves of `sched` from step `k` on, until no task waits and no command executes. -/
def drive (sched : Schedule) : Nat → Nat → Run → World → Run × World
  | 0, _, r, w => (r, w)
  | fuel + 1, k, r, w =>
    if r.waiting.isEmpty && r.executing.isEmpty then (r, w)
    else
      let (r, w) := r.step w (sched k)
      drive sched fuel (k + 1) r w

/-- Fails every node that never reached a terminal state, as stalled. -/
def failUnsettled (w : World) (r : Run) : Run :=
  let failOne (r : Run) (v : Nat) : Run :=
    let name := r.graph.graph.nameOf v
    let e : ExecutionError := ⟨name, w.context.keys, (EngineError.stalled name).message⟩
    { r with
      state := r.state.markFailed v
      reports := r.reports.modify v fun n => { n with error := some e.message }
      failures := r.failures.push e }
  r.state.unsettled.foldl failOne r

/-- Ends the run and makes its report. -/
def finish (r : Run) (w : World) : RunReport :=
  let r := if r.isCancelled w then { r with state := r.state.cancelPending } else r
  let r := failUnsettled w r
  let nodes := (List.range r.reports.size).map fun v => { r.reports.getD v default with state := r.state.stateOf v }
  { nodes, failures := r.failures.toList, cancelled := nodes.any (·.state = .cancelled) }

end Run

namespace Scheduler

/-- The run as it stands before its first move: every node pending, the start nodes handed on. -/
def start (s : Scheduler) (g : ValidatedGraph) (followsCaller : Bool) (w : World) : Run :=
  Run.submit w g.startNodes {
    graph := g
    state := RunState.start g s.policy
    reports := (g.graph.indices.map fun v => ({ name := g.graph.nameOf v } : NodeReport)).toArray
    workers := s.workers
    followsCaller }

/-- Runs every node of `g` once, in the order `sched` gives, and reports what happened; refused when the scheduler was
shut down. Each node is handed on at most once and each move starts or ends a command, so `2 * g.size` moves end the
run. -/
def run (s : Scheduler) (sched : Schedule) (g : ValidatedGraph) (followsCaller : Bool) (w : World) :
    World × Except EngineError RunReport :=
  if w.shutDown then (w, .error .schedulerShutdown)
  else
    let (r, w) := Run.drive sched (2 * g.size + 1) 0 (s.start g followsCaller w) w
    (w, .ok (r.finish w))

/-- Runs every node of `g` once: `finished` if all went well, else the run's failure or cancellation. -/
def execute (s : Scheduler) (sched : Schedule) (g : ValidatedGraph) (followsCaller : Bool) (w : World) :
    World × Except EngineError Outcome :=
  let (w, r) := s.run sched g followsCaller w
  (w, r.bind RunReport.intoOutcome)

end Scheduler

end CommandEngine.Graph
