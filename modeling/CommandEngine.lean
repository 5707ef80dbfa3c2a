import CommandEngine.Text.RangeSet
import CommandEngine.Text.Blank
import CommandEngine.Text.Lowercase
import CommandEngine.Text.Printable
import CommandEngine.Text.Quoted
import CommandEngine.Store
import CommandEngine.Outcome
import CommandEngine.LogLevel
import CommandEngine.Files
import CommandEngine.Error.Execution
import CommandEngine.Error.Engine
import CommandEngine.Toml.Error
import CommandEngine.Command.Journal
import CommandEngine.Command.Basic
import CommandEngine.Command.Effect
import CommandEngine.Chain
import CommandEngine.Graph.Basic
import CommandEngine.Graph.Acyclic
import CommandEngine.Graph.Validated
import CommandEngine.Graph.RunState
import CommandEngine.Graph.Report
import CommandEngine.Graph.Scheduler
import CommandEngine.Graph.Pool
import CommandEngine.Session.Context
import CommandEngine.Toml.Token
import CommandEngine.Toml.Syntax
import CommandEngine.Toml.Text
import CommandEngine.Toml.Datetime
import CommandEngine.Toml.Scalar
import CommandEngine.Toml.Document
import CommandEngine.Toml.Reader
import CommandEngine.Number.Binary64
import CommandEngine.Number.Shortest
import CommandEngine.Config.Model
import CommandEngine.Config.Decode
import CommandEngine.Session.Build
import CommandEngine.Session.Chain
import CommandEngine.Session.Graph
import CommandEngine.Proofs.Graph.Settle
import CommandEngine.Proofs.Graph.Moves
import CommandEngine.Proofs.Graph.Invariant
import CommandEngine.Proofs.Graph.History
import CommandEngine.Proofs.Graph.Safety
import CommandEngine.Proofs.Graph.Search
import CommandEngine.Proofs.Graph.Liveness
import CommandEngine.Proofs.Graph.Skipping
import CommandEngine.Proofs.Graph.Cancellation
import CommandEngine.Proofs.Graph.Cycle
import CommandEngine.Proofs.Chain.Reference
import CommandEngine.Proofs.Chain.Wrapping
import CommandEngine.Proofs.Graph.Record
import CommandEngine.Proofs.Graph.Confluence
import CommandEngine.Proofs.Graph.Coherence
import CommandEngine.Proofs.Graph.Building
import CommandEngine.Proofs.Chain.Freezing
import CommandEngine.Proofs.Graph.Workers
import CommandEngine.Proofs.Config.Concurrency
import CommandEngine.Proofs.Graph.Completion
import CommandEngine.Proofs.Graph.SearchCost
