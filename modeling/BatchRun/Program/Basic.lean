import BatchRun.Invocation.Parser
import BatchRun.Output.Report
import BatchRun.Program.Executor
import BatchRun.Program.Fault
import BatchRun.Program.Summary
import BatchRun.Run.Schedule

/-!
# The program

**Input.**
The arguments, and the `Surroundings` in which the program is called: files, variables, a way to
destinations, and the time.

**Result.**
`Program.call` gives the files afterwards, what is printed, and the exit code: zero if every item
succeeded, one after a failure or a fault, two if the arguments are refused, and 130 after a
cancellation.
-/

namespace BatchRun
namespace Program

open Http
open Run
open Storage
open Time

/-- What the program finds when it is called. -/
structure Surroundings where
  tree : Tree
  /-- Variables of the environment. -/
  lookup : String → Option String
  /-- Way to the destinations. -/
  deliver : Request → Delivery
  /-- Time in milliseconds. -/
  now : Nat
  /-- Identifier of a new job. -/
  jobId : JobId := {}

/-- What the program leaves. -/
structure Ending where
  tree : Tree
  code : Nat
  /-- Text on the standard output. -/
  output : String := ""
  /-- Text on the standard error. -/
  errors : String := ""

/-- Ending with a fault. -/
def Ending.ofFault (tree : Tree) (fault : ProgramFault) : Ending :=
  { tree, code := 1, errors := fault.text }

/-- Code of a program that broke off. -/
def brokenCode : Nat := 101

/-- Name and version of the program. -/
def versionText : String := "fanout 0.1.0\n"

/-- Exit code for the outcome of a job. -/
def exitCode (outcome : JobOutcome) : Nat :=
  if outcome.cancelled then 130
  else if 0 < outcome.failed ∨ outcome.aborted then 1
  else 0

/-- Writes the report of a job that has returned, and tells about it. -/
def concluded (directory : Path) (tree : Tree) (outcome : JobOutcome) : Ending :=
  match outcome.writeReport directory tree with
  | (tree, some fault) => .ofFault tree (.output fault)
  | (tree, none) => { tree, code := exitCode outcome, output := outcome.summaryText }

/-- Runs a job over items. -/
def runJob (s : Surroundings) (options : RunOptions) (config : Config) (executor : Executor)
    (items : List Item) : Ending :=
  match Sink.openIn config.outputDir s.tree with
  | (tree, .error fault) => .ofFault tree (.output fault)
  | (tree, .ok sink) =>
    let settings := config.settings
    let path? := options.checkpointPath? config
    let setup : Setup := { settings, hasSink := true, hasStore := path?.isSome }
    let store : CheckpointStore := { path := path?.getD config.checkpointPath }
    let (store, saved) := if path?.isSome then store.load tree else (store, .ok {})
    match State.initial? setup items saved {} {} { settings := config.health } s.now with
    | .error fault => .ofFault tree (.run fault)
    | .ok state =>
      let schedule :=
        Schedule.run (executor.environment state.callLimit) { tree, sink, store } state none
      let tree := schedule.world.tree
      match schedule.state.stage with
      | .returned (.error fault) => .ofFault tree (.run fault)
      | .returned (.ok returned) =>
        concluded config.outputDir tree
          { JobOutcome.ofItems s.jobId settings.destination returned.items (.ofMillis s.now)
              schedule.state.stamp with
            aborted := returned.aborted
            cancelled := returned.cancelled
            health := some returned.health }
      | _ => { tree, code := brokenCode }

/-- Processes the items of a file. -/
def process (s : Surroundings) (options : RunOptions) (config : Config) : Ending :=
  let config := options.apply config
  let contents := s.tree.read options.input
  match Input.fileItems config.input options.format options.input contents with
  | .error error => .ofFault s.tree (.input options.input error)
  | .ok items =>
    if options.dryRun then runJob s options config .echo items
    else if config.endpoint.isEmpty then .ofFault s.tree .noEndpoint
    else
      let endpoint : Endpoint := { address := config.endpoint, queryParam := config.queryParam }
      runJob s options config (.send endpoint s.deliver) items

/-- Tells what is in a checkpoint. -/
def inspect (tree : Tree) (path : Path) : Ending :=
  match tree.find path with
  | .ok (some _) =>
    match Checkpoint.read path tree with
    | .error fault => .ofFault tree (.checkpoint fault)
    | .ok checkpoint => { tree, code := 0, output := checkpoint.summaryText path }
  | _ => .ofFault tree (.noCheckpoint path)

/-- Calls the program with arguments. -/
def call (s : Surroundings) (arguments : List String) : Ending :=
  match Invocation.parse arguments with
  | .error .help => { tree := s.tree, code := 0 }
  | .error .version => { tree := s.tree, code := 0, output := versionText }
  | .error _ => { tree := s.tree, code := 2 }
  | .ok invocation =>
    match Config.load invocation.config s.tree.read with
    | .error fault => .ofFault s.tree (.config fault)
    | .ok config =>
      let config := config.withEnvironment s.lookup
      match invocation.errand with
      | .process options => process s options config
      | .inspect path => inspect s.tree path

end Program
end BatchRun
