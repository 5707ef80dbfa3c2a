import CommandEngine.Chain

/-!
# Building commands and chains from specifications

A session describes its commands as specifications and its chains as declarations; building them fills the world's
tables. Chains are made in two rounds: first every chain not made from a ready list of commands, empty; then, in
declaration order, each chain's commands are built and either appended to it or, for a chain made from a list, used to
make it. So a chain can refer to any chain of the first round, but to a chain made from a list only once it exists.

Each chain is one command object, whichever specification refers to it.
-/

namespace CommandEngine.Session

/-- What an instrumented filter does when its chain unwinds. -/
structure FilterSpec where
  handles : Bool := false
  fails : Bool := false
  deriving Repr, Inhabited

/-- A command as a session describes it. -/
inductive CommandSpec where
  | script (s : Script)
  | copy (target : String) (source : CopySource)
  | remove (key : String)
  /-- The chain declared under `id`. -/
  | chainRef (id : String)
  /-- Appends the command `added`, built once, to the chain declared under `chain`. -/
  | append (name chain : String) (added : CommandSpec)
  | cancelRun (name : String)
  | shutdown (name : String)
  | recorder (r : Recorder) (filter : Option FilterSpec)
  /-- Fails with the engine error of kind `kind`, built from the other fields. -/
  | raise (name kind message innerCommand : String) (keys : List String)
  deriving Repr, Inhabited

/-- How a declared chain is made. -/
inductive ChainCtor where
  /-- Empty, with the declared name, or `chain` when none is declared. -/
  | named
  /-- Empty, named `chain`. -/
  | plain
  /-- From its list of commands, named `chain`. -/
  | withCommands
  deriving DecidableEq, Repr, Inhabited

/-- A chain as a session declares it. -/
structure ChainDecl where
  id : String
  name : Option String := none
  ctor : ChainCtor := .named
  commands : List CommandSpec := []
  deriving Repr, Inhabited

/-- The fault that an error-raising command fails with, chosen by its kind. -/
def faultOfKind (kind message innerCommand : String) (keys : List String) : Fault :=
  if kind = "invalid_state" then .engine (.invalidState message)
  else if kind = "invalid_argument" then .engine (.invalidArgument message)
  else if kind = "config" then .engine (.config message)
  else if kind = "stalled" then .engine (.stalled message)
  else if kind = "shutdown" then .engine .schedulerShutdown
  else if kind = "cycle" then .engine (.cycleDetected message innerCommand)
  else if kind = "execution" then .engine (.execution ⟨innerCommand, keys, message⟩)
  else if kind = "raw_execution" then .execution ⟨innerCommand, keys, message⟩
  else .text message

/-- A world under construction with the chains declared so far: declaration id, chain, and the chain's command. -/
structure Builder where
  world : World := {}
  chains : List (String × ChainId × CommandId) := []
  /-- Whether an instrumented command has been made, so that the session has a journal to show. -/
  journaled : Bool := false
  deriving Repr, Inhabited

namespace Builder

/-- Makes a chain and its command, under the declaration id `id`. -/
def makeChain (b : Builder) (id : String) (c : Chain) : Builder :=
  let (w, ch) := b.world.addChain c
  let (w, cmd) := w.addCommand (.chain ch)
  { b with world := w, chains := b.chains ++ [(id, ch, cmd)] }

/-- The chain and chain command declared under `id`. -/
def chain? (b : Builder) (id : String) : Option (ChainId × CommandId) :=
  (b.chains.find? (·.1 = id)).map (·.2)

/-- Builds one command; fails on a reference to a chain that does not exist yet. -/
def build (b : Builder) : CommandSpec → Except String (Builder × CommandId)
  | .script s => let (w, id) := b.world.addCommand (.script s); .ok ({ b with world := w }, id)
  | .copy t s => let (w, id) := b.world.addCommand (.copy t s); .ok ({ b with world := w }, id)
  | .remove k => let (w, id) := b.world.addCommand (.remove k); .ok ({ b with world := w }, id)
  | .chainRef ref =>
    match b.chain? ref with
    | some (_, cmd) => .ok (b, cmd)
    | none => .error ("unknown chain '" ++ ref ++ "'")
  | .append name ref added =>
    match b.chain? ref with
    | none => .error ("unknown chain '" ++ ref ++ "'")
    | some (ch, _) => do
      let (b, inner) ← b.build added
      let (w, id) := b.world.addCommand (.append name ch inner)
      pure ({ b with world := w }, id)
  | .cancelRun n => let (w, id) := b.world.addCommand (.cancelRun n); .ok ({ b with world := w }, id)
  | .shutdown n => let (w, id) := b.world.addCommand (.shutdown n); .ok ({ b with world := w }, id)
  | .recorder r none =>
    let (w, id) := b.world.addCommand (.recorder r none)
    .ok ({ b with world := w, journaled := true }, id)
  | .recorder r (some f) =>
    let (w, slot) := b.world.addShown r.name
    let (w, id) := w.addCommand (.recorder r (some { handles := f.handles, fails := f.fails, slot }))
    .ok ({ b with world := w, journaled := true }, id)
  | .raise name kind message inner keys =>
    let (w, id) := b.world.addCommand (.raise name (faultOfKind kind message inner keys))
    .ok ({ b with world := w }, id)

/-- Builds a list of commands in order. -/
def buildAll (b : Builder) : List CommandSpec → Except String (Builder × List CommandId)
  | [] => .ok (b, [])
  | s :: rest => do
    let (b, id) ← b.build s
    let (b, ids) ← b.buildAll rest
    pure (b, id :: ids)

/-- Fills in the chains of the second round, in declaration order. -/
def fillChains (b : Builder) : List ChainDecl → Except String Builder
  | [] => .ok b
  | d :: rest => do
    let (b, ids) ← b.buildAll d.commands
    let b ← match d.ctor with
      | .withCommands => pure (b.makeChain d.id { name := "chain", commands := ids.toArray })
      | _ =>
        match b.chain? d.id with
        | some (ch, _) =>
          ids.foldlM (fun (b : Builder) id => do
            match b.world.appendToChain ch id with
            | .ok w => pure { b with world := w }
            | .error e => throw e.message) b
        | none => throw ("unknown chain '" ++ d.id ++ "'")
    b.fillChains rest

/-- Makes the declared chains in their two rounds. -/
def declare (b : Builder) (decls : List ChainDecl) : Except String Builder :=
  let firstRound := decls.filter (·.ctor ≠ .withCommands)
  let b := firstRound.foldl (fun b d =>
    b.makeChain d.id { name := if d.ctor = .named then d.name.getD "chain" else "chain" }) b
  b.fillChains decls

end Builder

/-- A journal query: how often a command started, finished and was postprocessed, and whether it ever did. -/
structure JournalQuery where
  name : String
  started : Nat
  finished : Nat
  postprocessed : Nat
  hasFirstStarted : Bool
  hasFirstPostprocessed : Bool
  deriving Repr

/-- What instrumented commands have recorded so far. -/
structure Recorded where
  started : List String
  finished : List String
  postprocessed : List String
  entryCount : Nat
  shown : List (String × List (Option String))
  queries : List JournalQuery
  peak : Nat
  deriving Repr

/-- The record of the world's instrumented commands, with a query for each of `names`. -/
def Recorded.of (w : World) (names : List String) : Recorded where
  started := w.journal.names .started
  finished := w.journal.names .finished
  postprocessed := w.journal.names .postprocessed
  entryCount := w.journal.size
  shown := w.shown.toList.map fun (n, es) => (n, es.toList)
  queries := names.map fun n => {
    name := n
    started := w.journal.count n .started
    finished := w.journal.count n .finished
    postprocessed := w.journal.count n .postprocessed
    hasFirstStarted := (w.journal.first? n .started).isSome
    hasFirstPostprocessed := (w.journal.first? n .postprocessed).isSome }
  peak := w.probe.peak

/-- The end of a session: its answer, a bad request, or a panic that escaped the engine. -/
inductive Reply (α : Type) where
  | done (value : α)
  | badInput (message : String)
  | panic (message : String)
  deriving Repr

end CommandEngine.Session
