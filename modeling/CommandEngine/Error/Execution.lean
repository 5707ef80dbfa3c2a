/-!
# Execution errors

A command that fails inside a chain or a graph run is reported as an execution error: the name of the command, the keys
the context held when the failure was wrapped, and the failure itself. The failure is kept as its text, since nothing
reads it back but its text.
-/

namespace CommandEngine

/-- The failure of one command, with the command's name and the context keys at the moment it was wrapped. -/
structure ExecutionError where
  command : String
  contextKeys : List String
  source : String
  deriving DecidableEq, Repr, Inhabited

namespace ExecutionError

/-- The text `command '<name>' failed: <failure>`. -/
def message (e : ExecutionError) : String :=
  "command '" ++ e.command ++ "' failed: " ++ e.source

end ExecutionError

end CommandEngine
