import BatchRun.Checkpoint.Store
import BatchRun.Config.Document
import BatchRun.Http.Exchange
import BatchRun.Input.Source
import BatchRun.Invocation.Parser
import BatchRun.Job.Outcome
import BatchRun.Json.Canonical
import BatchRun.Main
import BatchRun.Output.Report
import BatchRun.Output.Sink
import BatchRun.Program.Files
import BatchRun.Proofs.Run.Conservation
import BatchRun.Run.Schedule
import BatchRun.Proofs.Checkpoint.Record
import BatchRun.Proofs.Run.WriteAhead
import BatchRun.Proofs.Run.Ledger
import BatchRun.Proofs.Json.Strings
import BatchRun.Proofs.Json.Numbers
import BatchRun.Proofs.Json.Spelling
import BatchRun.Proofs.Json.Acceptance
import BatchRun.Proofs.Time.Calendar
import BatchRun.Proofs.Time.Reading
import BatchRun.Proofs.Json.Exact
import BatchRun.Proofs.Item.Document
import BatchRun.Proofs.Checkpoint.Document
import BatchRun.Proofs.Checkpoint.Store
import BatchRun.Proofs.Checkpoint.Sharing
import BatchRun.Proofs.Checkpoint.History
import BatchRun.Proofs.Json.OneLine
import BatchRun.Proofs.Output.Files
import BatchRun.Proofs.Storage.Path
import BatchRun.Proofs.Output.Sinks
import BatchRun.Proofs.Output.History
import BatchRun.Proofs.Output.Failures
import BatchRun.Proofs.Run.Verdict
import BatchRun.Proofs.Run.Resumption
import BatchRun.Proofs.Job.Health
import BatchRun.Proofs.Run.Progress
import BatchRun.Proofs.Run.Relay
import BatchRun.Proofs.Run.Rerun
import BatchRun.Proofs.Job.Duplicates
import BatchRun.Proofs.Run.Originals
import BatchRun.Proofs.Run.Agreement
import BatchRun.Proofs.Job.Throttle
import BatchRun.Proofs.Run.Stopping
import BatchRun.Proofs.Run.Draining
import BatchRun.Proofs.Run.Pacing
import BatchRun.Proofs.Run.Termination
import BatchRun.Proofs.Run.Observers
import BatchRun.Proofs.Run.Capacity
import BatchRun.Proofs.Checkpoint.Interruption
import BatchRun.Proofs.Run.Permits
import BatchRun.Proofs.Input.Ids
import BatchRun.Proofs.Run.Buffering
import BatchRun.Proofs.Job.Abandonment
import BatchRun.Proofs.Job.Judgement
import BatchRun.Proofs.Job.Recording
import BatchRun.Proofs.Run.Narration
import BatchRun.Proofs.Run.Deadlines
import BatchRun.Proofs.Run.Attempts
import BatchRun.Proofs.Number.Rounding
import BatchRun.Proofs.Number.Nearest
import BatchRun.Proofs.Number.Shortest
import BatchRun.Proofs.Number.Reread
import BatchRun.Proofs.Json.Reals
import BatchRun.Proofs.Job.HealthDocument
import BatchRun.Proofs.Output.Report
import BatchRun.Proofs.Json.Canonical
import BatchRun.Proofs.Item.Lifecycle
import BatchRun.Proofs.Input.Formats
import BatchRun.Proofs.Input.Growth
import BatchRun.Proofs.Job.Latency
import BatchRun.Proofs.Job.Backoff
import BatchRun.Proofs.Job.Doubling
import BatchRun.Proofs.Input.Tables
