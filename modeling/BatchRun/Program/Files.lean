import BatchRun.Program.Basic

/-!
# Files of the program

**Result.**
`Program.configPaths` and `Program.workPaths` list the paths whose contents a call of the program
depends on or changes.  The first list follows from the arguments alone, and the second one from
what is found at the paths of the first one.
-/

namespace BatchRun
namespace Program

open Storage

/-- Paths of the configuration that the arguments ask for. -/
def configPaths (arguments : List String) : List Path :=
  match Invocation.parse arguments with
  | .error _ => []
  | .ok invocation => [invocation.config.getD ⟨Config.defaultName⟩]

/-- Paths in the directory of an output. -/
def outputPaths (directory : Path) : List Path :=
  directory :: [Sink.resultsName, Sink.errorsName, healthName, summaryName].map
    fun name => directory.join ⟨name⟩

/-- Paths of a checkpoint. -/
def checkpointPaths (path : Path) : List Path := [path, Checkpoint.draftPath path]

/-- Paths of an errand. -/
def errandPaths (config : Config) : Errand → List Path
  | .inspect path => [path]
  | .process options =>
    let config := options.apply config
    options.input :: outputPaths config.outputDir
      ++ ((options.checkpointPath? config).toList.flatMap checkpointPaths)

/-- Paths of what the arguments ask for, when the configuration is among some files. -/
def workPaths (tree : Tree) (arguments : List String) : List Path :=
  match Invocation.parse arguments with
  | .error _ => []
  | .ok invocation =>
    match Config.load invocation.config tree.read with
    | .error _ => []
    | .ok config => errandPaths config invocation.errand

end Program
end BatchRun
