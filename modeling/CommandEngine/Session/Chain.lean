import CommandEngine.Session.Build

/-!
# Chain sessions

A chain session declares chains, starts from a context, and then takes steps on its chains, all sharing one world:
executing a chain, appending a command to it, or asking for its length, emptiness, frozenness or debug rendering.
Each step answers together with the events it logged, the context after it and, once an instrumented command has been
made (by a declared chain, or by a step that appends one), what instrumented commands recorded so far. A panic during
a step ends the whole session.
-/

namespace CommandEngine.Session

/-- What a chain step does. -/
inductive ChainAction where
  | execute
  | add (spec : CommandSpec)
  | length
  | isEmpty
  | isFrozen
  | debug
  deriving Repr, Inhabited

/-- One step of a chain session, on the chain declared under `chain`. -/
structure ChainStep where
  chain : String
  action : ChainAction
  deriving Repr, Inhabited

/-- A chain session. -/
structure ChainRequest where
  chains : List ChainDecl := []
  context : List (String × String) := []
  steps : List ChainStep := []
  journalQueries : List String := []
  deriving Repr, Inhabited

/-- What a chain step answers. -/
inductive ChainReply where
  | outcome (o : Outcome)
  | failed (e : EngineError)
  | added
  | length (n : Nat)
  | empty (b : Bool)
  | frozen (b : Bool)
  | debug (text : String)
  deriving Repr

/-- A step's answer with what the step left behind. -/
structure ChainStepResult where
  reply : ChainReply
  events : List String
  context : Store
  recorded : Option Recorded
  deriving Repr

/-- Takes one step; fails on a bad request and aborts on a panic. -/
def ChainStep.apply (b : Builder) (step : ChainStep) : Reply (Builder × ChainReply) :=
  match b.chain? step.chain with
  | none => .badInput ("unknown chain '" ++ step.chain ++ "'")
  | some (ch, _) =>
    let chain := b.world.chains.getD ch default
    match step.action with
    | .execute =>
      match b.world.runChain ch with
      | (w, .ok o) => .done ({ b with world := w }, .outcome o)
      | (w, .error (.failed e)) => .done ({ b with world := w }, .failed (.execution e))
      | (_, .error (.panicked m)) => .panic m
    | .add spec =>
      match b.build spec with
      | .error m => .badInput m
      | .ok (b, id) =>
        match b.world.appendToChain ch id with
        | .ok w => .done ({ b with world := w }, .added)
        | .error e => .done (b, .failed e)
    | .length => .done (b, .length chain.commands.size)
    | .isEmpty => .done (b, .empty chain.commands.isEmpty)
    | .isFrozen => .done (b, .frozen chain.frozen)
    | .debug => .done (b, .debug (b.world.chainDebug ch))

/-- Takes the steps in order. -/
def runChainSteps (r : ChainRequest) (b : Builder) : List ChainStep → Reply (List ChainStepResult)
  | [] => .done []
  | step :: rest =>
    let before := b.world.events.size
    match step.apply b with
    | .badInput m => .badInput m
    | .panic m => .panic m
    | .done (b, reply) =>
      let result : ChainStepResult := {
        reply
        events := b.world.events.toList.drop before
        context := b.world.context
        recorded := if b.journaled then some (Recorded.of b.world r.journalQueries) else none }
      match runChainSteps r b rest with
      | .done results => .done (result :: results)
      | .badInput m => .badInput m
      | .panic m => .panic m

/-- Runs a chain session. -/
def ChainRequest.run (r : ChainRequest) : Reply (List ChainStepResult) :=
  match ({ world := { context := Store.ofList r.context } } : Builder).declare r.chains with
  | .error m => .badInput m
  | .ok b => runChainSteps r b r.steps

end CommandEngine.Session
