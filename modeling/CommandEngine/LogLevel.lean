import CommandEngine.Text.Blank
import CommandEngine.Text.Lowercase

/-!
# Log levels

The engine logs at one of five levels. A level is chosen explicitly, or else read from the environment, or else is
`info`; an environment value that does not name a level is passed over.
-/

namespace CommandEngine

/-- The verbosity of the engine's log. -/
inductive LogLevel where
  | error
  | warn
  | info
  | debug
  | trace
  deriving DecidableEq, Repr, Inhabited

namespace LogLevel

/-- The lowercase configuration name of the level. -/
def name : LogLevel → String
  | .error => "error"
  | .warn => "warn"
  | .info => "info"
  | .debug => "debug"
  | .trace => "trace"

/-- The uppercase name under which the level is reported once resolved. -/
def label : LogLevel → String
  | .error => "ERROR"
  | .warn => "WARN"
  | .info => "INFO"
  | .debug => "DEBUG"
  | .trace => "TRACE"

/-- Reads a level name, ignoring surrounding blanks and case; `warning` is accepted for `warn`. -/
def parse (s : String) : Except String LogLevel :=
  let word := Text.lowercase (Text.trim s)
  if word = "error" then .ok .error
  else if word = "warn" ∨ word = "warning" then .ok .warn
  else if word = "info" then .ok .info
  else if word = "debug" then .ok .debug
  else if word = "trace" then .ok .trace
  else .error ("invalid log level: " ++ word)

/-- The effective level: the explicit one, else the environment's value if it names a level, else `info`. -/
def resolve (explicit : Option LogLevel) (environment : Option String) : LogLevel :=
  match explicit with
  | some level => level
  | none =>
    match environment.map parse with
    | some (.ok level) => level
    | _ => .info

end LogLevel

/-- The process-wide log sink: at most one can be installed. -/
structure LogSink where
  installed : Bool := false
  deriving Inhabited

namespace LogSink

/-- Installs a sink at `level`; it fails when one is installed already. -/
def install (sink : LogSink) (_level : LogLevel) : Except String LogSink :=
  if sink.installed then
    .error "failed to install tracing subscriber: a global default trace dispatcher has already been set"
  else .ok { installed := true }

end LogSink

end CommandEngine
