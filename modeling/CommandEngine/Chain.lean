import CommandEngine.Command.Effect

/-!
# Linear chains

A chain runs its commands in order until one finishes the chain or fails. It then walks back from the last command it
reached to the first and lets every filter among them clean up, each shown the failure of the forward pass if there
was one. A failure that no filter reports as handled is wrapped once and given to the caller; a handled failure lets
the chain return `proceed`. A panic is not caught: it leaves the chain at once, with no cleanup.

The first execution freezes the chain: from then on its commands can no longer change, and every execution runs the
commands it had then.

`World.executeChain` takes the function that runs one command as a parameter, so that it states the chain's own rule;
`World.exec` ties it to the commands of the world, a chain inside a chain included.
-/

namespace CommandEngine

/-- How a chain's execution ends when it returns no outcome. -/
inductive ChainStop where
  /-- A failure that no filter handled, wrapped once. -/
  | failed (e : ExecutionError)
  | panicked (message : String)
  deriving Repr, Inhabited

/-- How the forward pass of a chain ends; `reached` lists the commands it ran, the last one first. -/
inductive Forward where
  | ended (outcome : Outcome) (reached : List CommandId)
  | failed (fault : Fault) (reached : List CommandId)
  | panicked (message : String)
  deriving Repr, Inhabited

/-- The function that runs one command of a chain. -/
abbrev Runner := CommandId → World → World × Except Interrupt Outcome

namespace World

/-- Runs `cmds` in order after the commands `reached` (last one first), until one finishes the chain or fails. -/
def forward (run : Runner) (reached : List CommandId) : List CommandId → World → World × Forward
  | [], w => (w, .ended .proceed reached)
  | id :: rest, w =>
    match run id w with
    | (w, .ok .finished) => (w, .ended .finished (id :: reached))
    | (w, .ok .proceed) => forward run (id :: reached) rest w
    | (w, .error (.failed f)) => (w, .failed f (id :: reached))
    | (w, .error (.panicked m)) => (w, .panicked m)

/-- Lets every filter among `reached` (last one first) clean up; answers whether one of them handled the failure.
A cleanup that fails is passed over. -/
def unwind (shown : Option String) : List CommandId → World → World × Bool
  | [], w => (w, false)
  | id :: rest, w =>
    match w.postprocess shown (w.command id) with
    | some (w, .ok handled) => let (w, later) := unwind shown rest w; (w, handled || later)
    | some (w, .error _) => unwind shown rest w
    | none => unwind shown rest w

/-- Freezes a chain and gives the commands it holds. -/
def freeze (w : World) (c : ChainId) : World × List CommandId :=
  ({ w with chains := w.chains.modify c fun ch => { ch with frozen := true } }, (w.chains.getD c default).commands.toList)

/-- Executes a chain, running each of its commands with `run`. -/
def executeChain (run : Runner) (c : ChainId) (w : World) : World × Except ChainStop Outcome :=
  let (w, cmds) := w.freeze c
  if cmds.isEmpty then (w, .ok .proceed)
  else
    match w.forward run [] cmds with
    | (w, .panicked m) => (w, .error (.panicked m))
    | (w, .ended o reached) => ((w.unwind none reached).1, .ok o)
    | (w, .failed f reached) =>
      let (w, handled) := w.unwind (some f.message) reached
      -- every command before the failed one returned `proceed`, so a handled failure leaves the chain going on
      if handled then (w, .ok .proceed)
      else (w, .error (.failed (ExecutionError.ofFault (w.commandName (reached.headD 0)) w.context.keys f)))

/-- Runs a command, giving nested chains `fuel` levels of nesting; a chain fails as an engine error of its caller. -/
def exec : Nat → Runner
  | 0, _, w => (w, .error (.panicked "chains nest deeper than there are chains"))
  | n + 1, id, w =>
    match w.command id with
    | .chain c =>
      match w.executeChain (exec n) c with
      | (w, .ok o) => (w, .ok o)
      | (w, .error (.failed e)) => (w, .error (.failed (.engine (.execution e))))
      | (w, .error (.panicked m)) => (w, .error (.panicked m))
    | cmd => w.runPlain cmd

/-- Runs a command of the world; chains nest at most as deep as there are chains, unless they contain themselves. -/
def runCommand (w : World) (id : CommandId) : World × Except Interrupt Outcome :=
  exec (w.chains.size + 1) id w

/-- Executes a chain of the world. -/
def runChain (w : World) (c : ChainId) : World × Except ChainStop Outcome :=
  w.executeChain (exec w.chains.size) c

/-- The debug rendering `LinearChain { name: "..", commands: [..], frozen: .. }` of a chain. -/
def chainDebug (w : World) (c : ChainId) : String :=
  let ch := w.chains.getD c default
  "LinearChain \x7b name: " ++ Text.quote ch.name ++ ", commands: " ++
    Text.quoteList (ch.commands.toList.map w.commandName) ++ ", frozen: " ++ toString ch.frozen ++ " \x7d"

end World

end CommandEngine
