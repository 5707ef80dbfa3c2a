import CommandEngine.Graph.Scheduler
import CommandEngine.LogLevel

/-!
# Engine configuration

A configuration has two optional sections: `[scheduler]` with the number of workers and the failure policy, and
`[logging]` with a log level. Validation refuses a configured worker count of zero; a scheduler made from a
configuration without a worker count gets one worker per processing unit.
-/

namespace CommandEngine.Config

/-- The `[scheduler]` section. -/
structure SchedulerConfig where
  concurrency : Option Nat := none
  failurePolicy : FailurePolicy := .runDependents
  deriving Repr, Inhabited

/-- Whether the worker count a scheduler would get is at least one: the configured one, or else the number of
processing units, of which a host has at least one. -/
def SchedulerConfig.effectiveAtLeastOne (c : SchedulerConfig) : Bool :=
  match c.concurrency with
  | some n => 1 ≤ n
  | none => true

/-- The `[logging]` section. -/
structure LoggingConfig where
  level : Option LogLevel := none
  deriving Repr, Inhabited

/-- A whole configuration. -/
structure EngineConfig where
  scheduler : SchedulerConfig := {}
  logging : LoggingConfig := {}
  deriving Repr, Inhabited

/-- The path of the configuration file in the working directory. -/
def defaultPath : String :=
  "Cmdflow.toml"

/-- Refuses a configured worker count of zero. -/
def EngineConfig.validate (c : EngineConfig) : Except EngineError Unit :=
  if c.scheduler.concurrency = some 0 then .error (.config "[scheduler].concurrency must be >= 1 (got 0)")
  else .ok ()

end CommandEngine.Config

namespace CommandEngine.Graph.Scheduler

/-- A scheduler with the configured worker count, or one per processing unit, and the configured policy. -/
def fromConfig (c : Config.SchedulerConfig) : Attempt Scheduler :=
  match c.concurrency with
  | none => .ok (onMachine.withPolicy c.failurePolicy)
  | some n =>
    match Scheduler.new n with
    | .ok s => .ok (s.withPolicy c.failurePolicy)
    | .error e => .error e
    | .panic m => .panic m

end CommandEngine.Graph.Scheduler
