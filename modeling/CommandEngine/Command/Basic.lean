import CommandEngine.Store
import CommandEngine.Outcome
import CommandEngine.Error.Engine
import CommandEngine.Command.Journal

/-!
# Commands, chains and the world they act on

A command is a unit of work executed against a shared context. Commands are objects: the world holds them in a table
and everything else refers to them by their index, so two commands with equal names are still two commands, and one
command referred to twice is one command. The same holds of chains, which are commands too.

Besides the context, the world holds what commands can observe or change: the event log of scripted commands, the
journal and probe of instrumented ones, the errors each instrumented filter has been shown, the chains, whether the
scheduler has been shut down, and whether the cancellation signal of the current run has fired. It also holds how many
processing units the host offers, which no command changes.
-/

namespace CommandEngine

/-- The index of a command in the world's command table. -/
abbrev CommandId := Nat

/-- The index of a chain in the world's chain table. -/
abbrev ChainId := Nat

/-- What a scripted filter does when the chain it belongs to unwinds. -/
structure Cleanup where
  /-- Whether it reports a failure as handled. -/
  handles : Bool := false
  /-- Whether its cleanup itself fails. -/
  fails : Bool := false
  /-- Pairs it writes to the context. -/
  writes : List (String × String) := []
  deriving Repr, Inhabited

/-- A scripted command: it logs `run:<name>`, writes its pairs, checks a required key, and then panics, fails or
returns its outcome. With a cleanup it is a filter. -/
structure Script where
  name : String
  writes : List (String × String) := []
  requires : Option String := none
  panics : Bool := false
  fails : Option String := none
  finishes : Bool := false
  cleanup : Option Cleanup := none
  deriving Repr, Inhabited

/-- An instrumented command: it journals its start and its end and then panics, fails or returns its outcome. -/
structure Recorder where
  name : String
  finishes : Bool := false
  fails : Option String := none
  panics : Bool := false
  /-- Whether it reports to the probe while it executes. -/
  probed : Bool := false
  deriving Repr, Inhabited

/-- What an instrumented filter does when its chain unwinds; `slot` is the index of its record of errors shown. -/
structure RecorderCleanup where
  handles : Bool := false
  fails : Bool := false
  slot : Nat
  deriving Repr, Inhabited

/-- Where a copy takes its value from. -/
inductive CopySource where
  /-- A value fixed when the command was made. -/
  | literal (value : String)
  /-- The value under a key at the time the command runs. -/
  | key (name : String)
  deriving Repr, Inhabited

/-- The commands the engine runs. -/
inductive Command where
  | script (s : Script)
  /-- Writes a value under `target`, or removes `target` when there is none. -/
  | copy (target : String) (source : CopySource)
  /-- Removes a key. -/
  | remove (key : String)
  /-- Runs a chain. -/
  | chain (id : ChainId)
  /-- Appends the command `added` to the chain `target`, logging `add:<name>:ok` or `add:<name>:err`. -/
  | append (name : String) (target : ChainId) (added : CommandId)
  /-- Logs `run:<name>` and fires the cancellation signal of the current run. -/
  | cancelRun (name : String)
  /-- Logs `run:<name>` and shuts the scheduler down. -/
  | shutdown (name : String)
  | recorder (r : Recorder) (cleanup : Option RecorderCleanup)
  /-- Logs `run:<name>` and fails with `fault`. -/
  | raise (name : String) (fault : Fault)
  deriving Repr, Inhabited

/-- An ordered list of commands that is frozen when it is first executed. -/
structure Chain where
  name : String
  commands : Array CommandId := #[]
  frozen : Bool := false
  deriving Repr, Inhabited

/-- Everything commands act on. -/
structure World where
  commands : Array Command := #[]
  chains : Array Chain := #[]
  context : Store := {}
  /-- The event log of scripted commands. -/
  events : Array String := #[]
  journal : Journal := {}
  probe : Probe := {}
  /-- For each instrumented filter, its name and the errors it was shown (none for no error). -/
  shown : Array (String × Array (Option String)) := #[]
  /-- Whether the scheduler has been shut down. -/
  shutDown : Bool := false
  /-- Whether the cancellation signal of the current run has fired. -/
  signal : Bool := false
  /-- How many processing units the host offers. -/
  units : Nat := 1
  deriving Repr, Inhabited

namespace World

/-- Adds a command to the table and gives its index. -/
def addCommand (w : World) (c : Command) : World × CommandId :=
  ({ w with commands := w.commands.push c }, w.commands.size)

/-- Adds a chain to the table and gives its index. -/
def addChain (w : World) (c : Chain) : World × ChainId :=
  ({ w with chains := w.chains.push c }, w.chains.size)

/-- Opens a record of errors shown for an instrumented filter called `name` and gives its slot. -/
def addShown (w : World) (name : String) : World × Nat :=
  ({ w with shown := w.shown.push (name, #[]) }, w.shown.size)

/-- The world with one more event logged. -/
def log (w : World) (event : String) : World :=
  { w with events := w.events.push event }

/-- The world with one more journal entry. -/
def note (w : World) (name : String) (m : Mark) : World :=
  { w with journal := w.journal.record name m }

/-- The world with `pairs` written to the context, in order. -/
def write (w : World) (pairs : List (String × String)) : World :=
  { w with context := pairs.foldl (fun s (k, v) => s.insert k v) w.context }

/-- The name of a chain. -/
def chainName (w : World) (c : ChainId) : String :=
  (w.chains.getD c default).name

/-- The name of a command, as used in logs, errors and reports. -/
def nameOf (w : World) : Command → String
  | .script s => s.name
  | .copy _ _ => "copy"
  | .remove _ => "remove"
  | .chain c => w.chainName c
  | .append n _ _ | .cancelRun n | .shutdown n | .raise n _ => n
  | .recorder r _ => r.name

/-- The command at index `id`. -/
def command (w : World) (id : CommandId) : Command :=
  w.commands.getD id default

/-- The name of the command at index `id`. -/
def commandName (w : World) (id : CommandId) : String :=
  w.nameOf (w.command id)

/-- Whether the command at index `id` reports to the probe while it executes. -/
def probes (w : World) (id : CommandId) : Bool :=
  match w.command id with
  | .recorder r _ => r.probed
  | _ => false

end World

end CommandEngine
