import CommandEngine.Command.Basic

/-!
# What a single command does

Every command but a chain acts on the world directly: `World.runPlain` gives its effect and its result. A filter
also has a cleanup that its chain calls while unwinding (`World.postprocess`): it is shown the failure of the forward
pass, if any, and answers whether it handled it.
-/

namespace CommandEngine

/-- How a command's execution ends when it returns no outcome. -/
inductive Interrupt where
  /-- The command failed; its chain or run goes on with the failure. -/
  | failed (f : Fault)
  /-- The command panicked; nothing between it and the worker that runs it catches the panic. -/
  | panicked (message : String)
  deriving Repr, Inhabited

/-- The panic message of a command that panics on purpose. -/
def panicText (name : String) : String :=
  "command '" ++ name ++ "' panicked on purpose"

/-- The failure of a cleanup that fails. -/
def cleanupFailure (name : String) : Fault :=
  .text ("cleanup of '" ++ name ++ "' failed")

/-- A scripted command: log, write, check the required key, then panic, fail or return the outcome. -/
def Script.run (s : Script) (w : World) : World × Except Interrupt Outcome :=
  let w := (w.log ("run:" ++ s.name)).write s.writes
  (w, match s.requires.filter (!w.context.contains ·) with
    | some k => .error (.failed (.text ("missing key '" ++ k ++ "'")))
    | none =>
      if s.panics then .error (.panicked (panicText s.name))
      else match s.fails with
        | some m => .error (.failed (.text m))
        | none => .ok (Outcome.fromStop s.finishes))

/-- An instrumented command: journal the start, pass through the probe, journal the end, then panic, fail or
return the outcome. -/
def Recorder.run (r : Recorder) (w : World) : World × Except Interrupt Outcome :=
  let w := w.note r.name .started
  let w := if r.probed then { w with probe := w.probe.enter } else w
  let w := if r.probed then { w with probe := w.probe.exit } else w
  let w := w.note r.name .finished
  (w, if r.panics then .error (.panicked (panicText r.name))
    else match r.fails with
      | some m => .error (.failed (.text m))
      | none => .ok (Outcome.fromStop r.finishes))

namespace World

/-- Appends a command to a chain, refused once the chain is frozen. -/
def appendToChain (w : World) (c : ChainId) (added : CommandId) : Except EngineError World :=
  let chain := w.chains.getD c default
  if chain.frozen then
    .error (.invalidState ("chain '" ++ chain.name ++ "' is frozen; cannot add command '" ++ w.commandName added ++ "'"))
  else .ok { w with chains := w.chains.modify c fun ch => { ch with commands := ch.commands.push added } }

/-- The effect and result of a command other than a chain; a chain runs nothing here. -/
def runPlain (w : World) : Command → World × Except Interrupt Outcome
  | .script s => s.run w
  | .copy target source =>
    let value := match source with
      | .literal v => some v
      | .key k => w.context.get? k
    let context := match value with
      | some v => w.context.insert target v
      | none => w.context.erase target
    ({ w with context }, .ok .proceed)
  | .remove k => ({ w with context := w.context.erase k }, .ok .proceed)
  | .chain _ => (w, .ok .proceed)
  | .append name target added =>
    match w.appendToChain target added with
    | .ok w => (w.log ("add:" ++ name ++ ":ok"), .ok .proceed)
    | .error e => (w.log ("add:" ++ name ++ ":err"), .error (.failed (.engine e)))
  | .cancelRun name => ({ w.log ("run:" ++ name) with signal := true }, .ok .proceed)
  | .shutdown name => ({ w.log ("run:" ++ name) with shutDown := true }, .ok .proceed)
  | .recorder r _ => r.run w
  | .raise name fault => (w.log ("run:" ++ name), .error (.failed fault))

/-- The cleanup of a filter, shown the forward pass's failure text; `none` for a command that is no filter. -/
def postprocess (w : World) (shown : Option String) : Command → Option (World × Except Fault Bool)
  | .script s =>
    s.cleanup.map fun c =>
      let w := (w.log ("post:" ++ s.name ++ ":" ++ shown.getD "-")).write c.writes
      (w, if c.fails then .error (cleanupFailure s.name) else .ok c.handles)
  | .recorder r (some c) =>
    let w := w.note r.name .postprocessed
    let w := { w with shown := w.shown.modify c.slot fun (n, es) => (n, es.push shown) }
    some (w, if c.fails then .error (cleanupFailure r.name) else .ok c.handles)
  | _ => none

end World

end CommandEngine
