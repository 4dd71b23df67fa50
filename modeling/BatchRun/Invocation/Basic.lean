import BatchRun.Config.Basic
import BatchRun.Input.Source

/-!
# Invocations

**Type.**
An `Invocation` is what the arguments of the program ask for: to process the items of a file, or
to tell what is in a checkpoint.

**Results.**
The configuration of a run is the one of the file with what the arguments say in its place, and
the path of its checkpoint is the one that was given, or else the one beside the results.
-/

namespace BatchRun

open Storage

/-- What is asked for when items are to be processed. -/
structure RunOptions where
  input : Path
  format : Option Input.Format := none
  endpoint : Option String := none
  outputDir : Option Path := none
  checkpoint : Option Path := none
  /-- Neither reads nor writes a checkpoint. -/
  noCheckpoint : Bool := false
  concurrency : Option Nat := none
  maxAttempts : Option Nat := none
  sequential : Bool := false
  /-- Gives payloads back instead of sending them. -/
  dryRun : Bool := false
  /-- Keeps results that are identical to an earlier one. -/
  noDedup : Bool := false
  /-- Dispatches no item after the first one that failed. -/
  stopOnError : Bool := false

namespace RunOptions

/-- Configuration with what is asked for in its place. -/
def apply (options : RunOptions) (config : Config) : Config :=
  { config with
    endpoint := options.endpoint.getD config.endpoint
    outputDir := options.outputDir.getD config.outputDir
    concurrency := options.concurrency.getD config.concurrency
    maxAttempts := options.maxAttempts.getD config.maxAttempts
    sequential := options.sequential || config.sequential
    deduplicate := !options.noDedup && config.deduplicate
    continueOnError := !options.stopOnError && config.continueOnError }

/-- Path of the checkpoint, if there is to be one. -/
def checkpointPath? (options : RunOptions) (config : Config) : Option Path :=
  if options.noCheckpoint then none else some (options.checkpoint.getD config.checkpointPath)

end RunOptions

/-- What the program is to do. -/
inductive Errand where
  /-- Processes the items of a file. -/
  | process (options : RunOptions)
  /-- Tells what is in a checkpoint. -/
  | inspect (checkpoint : Path)

/-- What the arguments ask for. -/
structure Invocation where
  errand : Errand
  /-- File with the configuration. -/
  config : Option Path := none
  /-- Logs more than usual. -/
  verbose : Bool := false

end BatchRun
