import BatchRun.Checkpoint.Store
import BatchRun.Input.Record
import BatchRun.Job.Health
import BatchRun.Job.Settings

/-!
# Configuration

**Type.**
`Config` holds all that can be chosen without naming an input.  Each field has a default.

**Results.**
The settings of a job, and the path of its checkpoint.
-/

namespace BatchRun

open Number
open Storage
open Time

/-- All that can be chosen without naming an input. -/
structure Config where
  /-- Address to which items are sent; empty for none. -/
  endpoint : String := ""
  /-- Field of a form that carries a payload that is a text. -/
  queryParam : String := "query"
  outputDir : Path := ⟨"fanout-out"⟩
  concurrency : Nat := 4
  sequential : Bool := false
  maxAttempts : Nat := 3
  /-- First pause before an attempt is repeated, in milliseconds. -/
  baseDelay : Nat := 1000
  backoffMultiplier : Binary64 := 2
  /-- Greatest pause before an attempt is repeated, in milliseconds. -/
  maxDelay : Nat := 30000
  continueOnError : Bool := true
  deduplicate : Bool := true
  checkpointInterval : Nat := 10
  /-- Time for one attempt, in seconds. -/
  itemTimeout : Nat := 60
  /-- Time that attempts may still take after a cancellation, in seconds. -/
  cancelGrace : Nat := 5
  rateLimit : Option (RateLimit Binary64) := none
  health : HealthSettings := {}
  input : Input.Options := {}

/-- Name of the file of a checkpoint. -/
def checkpointName : String := "checkpoint.json"

namespace Config

/-- Path of the checkpoint beside the results. -/
def checkpointPath (config : Config) : Path := config.outputDir.join ⟨checkpointName⟩

/-- Name of the destination of a job. -/
def destination (config : Config) : String :=
  if config.endpoint.isEmpty then ({} : Settings).destination else config.endpoint

/-- Settings of a job. -/
def settings (config : Config) : Settings :=
  { destination := config.destination
    concurrency := config.concurrency
    mode := if config.sequential then .sequential else .parallel
    retry :=
      { maxAttempts := config.maxAttempts
        baseDelay := config.baseDelay
        multiplier := config.backoffMultiplier
        maxDelay := config.maxDelay }
    continueOnError := config.continueOnError
    rateLimit := config.rateLimit
    deduplicate := config.deduplicate
    checkpointInterval := config.checkpointInterval
    itemTimeout := config.itemTimeout * nanosPerSecond
    cancelGrace := config.cancelGrace * nanosPerSecond }

/-- Name of the variable of the environment that gives an endpoint. -/
def endpointVariable : String := "FANOUT_ENDPOINT"

/-- Configuration with what the environment says; an empty variable says nothing. -/
def withEnvironment (config : Config) (lookup : String → Option String) : Config :=
  match lookup endpointVariable with
  | none => config
  | some endpoint => if endpoint.isEmpty then config else { config with endpoint }

end Config

end BatchRun
