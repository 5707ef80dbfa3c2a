import CommandEngine.Session.Build
import CommandEngine.Config.Decode

/-!
# Graph sessions

A graph session builds one dependency graph, validates it and, when it asks for runs and the graph is acyclic, makes
one scheduler and runs the graph with it as often as asked, all runs sharing one world.

Nodes are named by identifiers. Each identifier with a specification stands for one command, and these commands are
all built after the chains, in the order of their identifiers, whether the graph uses them or not; an identifier
without one stands for a scripted command of that name, built on first use. A fixture graph first makes instrumented
commands by name (a later definition of a name replacing an earlier one) and joins them by name; then the session's
own items apply. Runs show what instrumented commands recorded once the session has made one, or has a fixture.

Each run starts with a fresh cancellation signal, fired beforehand when the run asks so; a plain execution has a signal
of its own that nothing fires.
-/

namespace CommandEngine.Session

open CommandEngine.Graph

/-- A graph of instrumented commands given by name. -/
structure FixtureSpec where
  /-- Commands made before the graph, in order; a later one of a name replaces an earlier one. -/
  commands : List Recorder := []
  edges : List (String × String) := []
  /-- Names registered after the edges. -/
  nodes : List String := []
  deriving Repr, Inhabited

/-- How the graph is made. -/
inductive GraphCtor where
  /-- Empty, then the items in order. -/
  | empty
  /-- From the edges among the items, then the other items. -/
  | fromEdges
  /-- From a fixture, then the items in order. -/
  | fixture (f : FixtureSpec)
  deriving Repr, Inhabited

/-- One item of a graph's construction. -/
inductive BuildItem where
  | edge (up down : String)
  | node (id : String)
  deriving Repr, Inhabited

/-- Whether the item is an edge. -/
def BuildItem.isEdge : BuildItem → Bool
  | .edge _ _ => true
  | .node _ => false

/-- How the scheduler is made. -/
inductive SchedulerChoice where
  | sized (n : Nat)
  /-- From the scheduler section of a configuration text. -/
  | configured (text : String)
  /-- With one worker per processing unit. -/
  | machine
  deriving Repr, Inhabited

/-- The scheduler of a session, with a failure policy to apply by name. -/
structure SchedulerSpec where
  choice : SchedulerChoice := .sized 1
  policy : Option String := none
  deriving Repr, Inhabited

/-- What a run does. -/
inductive RunMode where
  /-- Executes with the run's signal. -/
  | execute
  /-- Executes with a signal of its own. -/
  | plain
  /-- Runs with the run's signal and reports. -/
  | report
  | shutdown
  | isShutDown
  deriving DecidableEq, Repr, Inhabited

/-- One run of a session. -/
structure RunSpec where
  mode : RunMode
  /-- Whether the run's signal fires before it starts. -/
  cancelled : Bool := false
  deriving Repr, Inhabited

/-- A graph session. -/
structure GraphRequest where
  ctor : GraphCtor := .empty
  specs : List (String × CommandSpec) := []
  chains : List ChainDecl := []
  items : List BuildItem := []
  /-- Paths `[a, b, c]` adding the edges `a → b` and `b → c`, after the items. -/
  paths : List (List String) := []
  scheduler : SchedulerSpec := {}
  context : List (String × String) := []
  runs : List RunSpec := []
  journalQueries : List String := []
  deriving Repr, Inhabited

/-- The scheduler a session made, or why it could not. -/
inductive SchedulerSetup where
  | ready (s : Scheduler)
  | failed (e : EngineError)
  /-- The failure policy's name was not understood. -/
  | badPolicy (message : String)
  | panicked (message : String)
  deriving Repr, Inhabited

/-- What a run answers. -/
inductive RunReply where
  | executed (r : Except EngineError Outcome)
  | reported (r : Except EngineError RunReport)
  | shutDown (b : Bool)
  deriving Repr, Inhabited

/-- A run's answer with what the run left behind. -/
structure RunResult where
  reply : RunReply
  events : List String
  context : Store
  recorded : Option Recorded
  deriving Repr

/-- What a graph session answers. -/
structure GraphAnswer where
  graph : DependencyGraph
  validated : Except EngineError ValidatedGraph
  /-- The scheduler, made only when runs are asked for and the graph is acyclic. -/
  scheduler : Option SchedulerSetup
  runs : List RunResult
  deriving Repr

/-- A graph under construction, with the commands made for identifiers and for fixture names. -/
structure GraphBuilder where
  builder : Builder
  graph : DependencyGraph := {}
  made : List (String × CommandId) := []
  fixture : List (String × CommandId) := []
  deriving Repr, Inhabited

namespace GraphBuilder

/-- The world being built. -/
def world (gb : GraphBuilder) : World :=
  gb.builder.world

/-- Builds the command of identifier `id` from `spec`. -/
def make (gb : GraphBuilder) (id : String) (spec : CommandSpec) : Except String (GraphBuilder × CommandId) := do
  let (b, c) ← gb.builder.build spec
  pure ({ gb with builder := b, made := gb.made ++ [(id, c)] }, c)

/-- Builds the commands of the identifiers with a specification, in the order of the identifiers. -/
def makeAll (gb : GraphBuilder) (specs : List (String × CommandSpec)) : Except String GraphBuilder :=
  (specs.mergeSort fun a b => !decide (b.1 < a.1)).foldlM (fun gb (id, spec) => do pure (← gb.make id spec).1) gb

/-- The command of identifier `id`: the one built for it, or else a scripted command of that name, built now. -/
def commandOf (gb : GraphBuilder) (id : String) : Except String (GraphBuilder × CommandId) :=
  match gb.made.find? (·.1 = id) with
  | some (_, c) => .ok (gb, c)
  | none => gb.make id (.script { name := id })

/-- The node key of a command: its index and its name. -/
def keyOf (gb : GraphBuilder) (c : CommandId) : Nat × String :=
  (c, gb.world.commandName c)

/-- Applies one construction item. -/
def addItem (gb : GraphBuilder) : BuildItem → Except String GraphBuilder
  | .edge up down => do
    let (gb, u) ← gb.commandOf up
    let (gb, d) ← gb.commandOf down
    pure { gb with graph := gb.graph.addEdge (gb.keyOf u) (gb.keyOf d) }
  | .node id => do
    let (gb, c) ← gb.commandOf id
    let (k, n) := gb.keyOf c
    pure { gb with graph := gb.graph.addCommand k n }

/-- The instrumented command of a fixture name, made on first use. -/
def fixtureCommand (gb : GraphBuilder) (name : String) : GraphBuilder × CommandId :=
  match gb.fixture.find? (·.1 = name) with
  | some (_, c) => (gb, c)
  | none =>
    let (w, c) := gb.world.addCommand (.recorder { name } none)
    ({ gb with builder := { gb.builder with world := w }, fixture := gb.fixture ++ [(name, c)] }, c)

/-- Makes a fixture's commands and graph; the fixture brings its journal. -/
def applyFixture (gb : GraphBuilder) (f : FixtureSpec) : GraphBuilder :=
  let gb := { gb with builder := { gb.builder with journaled := true } }
  let gb := f.commands.foldl (fun gb r =>
    let (w, c) := gb.world.addCommand (.recorder r none)
    { gb with
      builder := { gb.builder with world := w }
      fixture := (gb.fixture.filter (·.1 ≠ r.name)) ++ [(r.name, c)] }) gb
  let gb := f.edges.foldl (fun gb (a, b) =>
    let (gb, u) := gb.fixtureCommand a
    let (gb, d) := gb.fixtureCommand b
    { gb with graph := gb.graph.addEdge (gb.keyOf u) (gb.keyOf d) }) gb
  f.nodes.foldl (fun gb n =>
    let (gb, c) := gb.fixtureCommand n
    let (k, name) := gb.keyOf c
    { gb with graph := gb.graph.addCommand k name }) gb

/-- The edges of a path: each identifier to the next. -/
def pathEdges : List String → List BuildItem
  | a :: b :: rest => .edge a b :: pathEdges (b :: rest)
  | _ => []

end GraphBuilder

/-- Builds the graph of a session. -/
def GraphRequest.buildGraph (r : GraphRequest) : Except String GraphBuilder := do
  let b ← ({ world := { context := Store.ofList r.context } } : Builder).declare r.chains
  let gb ← ({ builder := b } : GraphBuilder).makeAll r.specs
  let (gb, items) := match r.ctor with
    | .empty => (gb, r.items)
    | .fromEdges =>
      (gb, r.items.filter BuildItem.isEdge ++ r.items.filter (fun (i : BuildItem) => !i.isEdge))
    | .fixture f => (gb.applyFixture f, r.items)
  let gb ← items.foldlM GraphBuilder.addItem gb
  (r.paths.flatMap GraphBuilder.pathEdges).foldlM GraphBuilder.addItem gb

/-- Makes the session's scheduler. -/
def SchedulerSpec.make (s : SchedulerSpec) : SchedulerSetup :=
  let base : Attempt Scheduler := match s.choice with
    | .sized n => Scheduler.new n
    | .machine => .ok Scheduler.onMachine
    | .configured text =>
      match Config.parse text with
      | .ok c => Scheduler.fromConfig c.scheduler
      | .error e => .error e
  match base with
  | .error e => .failed e
  | .panic m => .panicked m
  | .ok sch =>
    match s.policy with
    | none => .ready sch
    | some p =>
      match FailurePolicy.parse p with
      | .ok p => .ready (sch.withPolicy p)
      | .error m => .badPolicy m

/-- Takes one run, with the sequential schedule: the answers of the sessions do not depend on the schedule. -/
def runOnce (s : Scheduler) (g : ValidatedGraph) (w : World) (spec : RunSpec) : World × RunReply :=
  let w := { w with signal := spec.cancelled }
  match spec.mode with
  | .execute => let (w, r) := s.execute .sequential g true w; (w, .executed r)
  | .plain => let (w, r) := s.execute .sequential g false w; (w, .executed r)
  | .report => let (w, r) := s.run .sequential g true w; (w, .reported r)
  | .shutdown => ({ w with shutDown := true }, .shutDown true)
  | .isShutDown => (w, .shutDown w.shutDown)

/-- Takes the runs in order. -/
def runAll (r : GraphRequest) (journaled : Bool) (s : Scheduler) (g : ValidatedGraph) :
    World → List RunSpec → List RunResult
  | _, [] => []
  | w, spec :: rest =>
    let before := w.events.size
    let (w, reply) := runOnce s g w spec
    let result : RunResult := {
      reply
      events := w.events.toList.drop before
      context := w.context
      recorded := if journaled then some (Recorded.of w r.journalQueries) else none }
    result :: runAll r journaled s g w rest

/-- Runs a graph session; a panic while making the scheduler ends the whole session. -/
def GraphRequest.run (r : GraphRequest) : Reply GraphAnswer :=
  match r.buildGraph with
  | .error m => .badInput m
  | .ok gb =>
    let validated := gb.graph.validate
    match validated with
    | .ok g =>
      if r.runs.isEmpty then .done { graph := gb.graph, validated, scheduler := none, runs := [] }
      else
        match r.scheduler.make with
        | .panicked m => .panic m
        | setup =>
          let runs := match setup with
            | .ready s => runAll r gb.builder.journaled s g gb.world r.runs
            | _ => []
          .done { graph := gb.graph, validated, scheduler := some setup, runs }
    | .error _ => .done { graph := gb.graph, validated, scheduler := none, runs := [] }

end CommandEngine.Session
