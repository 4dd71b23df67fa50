import BatchRun.Job.Outcome
import BatchRun.Output.Fault
import BatchRun.Storage.Tree

/-!
# Reports of jobs

**Results.**
`JobOutcome.writeReport` writes the counts of a job and the health of its destinations into the
directory of an output.  `readHealth` reads the health back.
-/

namespace BatchRun

open Json
open Number
open Storage
open Text
open Time

/-- Name of the file with the counts of a job. -/
def summaryName : String := "summary.json"

/-- Name of the file with the health of destinations. -/
def healthName : String := "health.json"

/-- Text of a file with one document. -/
def Json.fileText (document : Json) : Bytes := bytesOf (document.pretty ++ "\n")

namespace JobOutcome

/-- Document of the counts of a job. -/
def summaryDocument (outcome : JobOutcome) : Json :=
  .object
    [("job_id", .string outcome.jobId.text), ("destination", .string outcome.destination),
      ("total", .nat outcome.total), ("succeeded", .nat outcome.succeeded),
      ("failed", .nat outcome.failed), ("skipped", .nat outcome.skipped),
      ("resumed", .nat outcome.resumed), ("aborted", .bool outcome.aborted),
      ("cancelled", .bool outcome.cancelled), ("started_at", outcome.startedAt.document),
      ("finished_at", outcome.finishedAt.document),
      ("duration_ms", .number (.whole outcome.durationMillis))]

/-- Changes that write a file. -/
def rewriting (path : Path) (bytes : Bytes) : List Command := [.create path, .write path bytes]

/-- Makes changes on behalf of a path. -/
def onBehalf (path : Path) (commands : List Command) (tree : Tree) :
    Tree × Option OutputFault :=
  match tree.performAll commands with
  | (tree, none) => (tree, none)
  | (tree, some fault) => (tree, some ⟨path, fault⟩)

/-- Writes the files of a report in turn, up to the first fault. -/
def writeFiles (tree : Tree) : List (Path × List Command) → Tree × Option OutputFault
  | [] => (tree, none)
  | (path, commands) :: files =>
    match onBehalf path commands tree with
    | (tree, some fault) => (tree, some fault)
    | (tree, none) => writeFiles tree files

/-- Writes the report of a job into a directory. -/
def writeReport (outcome : JobOutcome) (directory : Path) (tree : Tree) :
    Tree × Option OutputFault :=
  let healthPath := directory.join ⟨healthName⟩
  let summaryPath := directory.join ⟨summaryName⟩
  writeFiles tree
    [(directory, [.makeDirectories directory]),
      (healthPath, rewriting healthPath (snapshotDocument (outcome.health.getD [])).fileText),
      (summaryPath, rewriting summaryPath outcome.summaryDocument.fileText)]

end JobOutcome

/-- Why the health of destinations was not read. -/
inductive HealthFileFault where
  | unreadable (fault : Storage.Fault)
  | malformed (description : String)
deriving DecidableEq

/-- Wording of a fault. -/
def HealthFileFault.message : HealthFileFault → String
  | unreadable fault => fault.message
  | malformed description => description

/-- Health of destinations in the report of a job. -/
def readHealth (directory : Path) (tree : Tree) : Except HealthFileFault Snapshot :=
  match tree.read (directory.join ⟨healthName⟩) with
  | .error fault => .error (.unreadable fault)
  | .ok bytes =>
    match whole (snapshotReader maxDepth) bytes with
    | .ok snapshot => .ok snapshot
    | .error fault => .error (.malformed (fault.describe bytes))

end BatchRun
