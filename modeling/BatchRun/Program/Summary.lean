import BatchRun.Checkpoint.Basic
import BatchRun.Job.Outcome
import BatchRun.Number.Layout
import BatchRun.Storage.Path

/-!
# Summaries for readers

**Results.**
`JobOutcome.summaryText` tells how a job ended, its counts, and the health of its destinations.
`Checkpoint.summaryText` tells how many items a checkpoint lists, by their status.
-/

namespace BatchRun

open Number
open Storage
open Time

/-- Headline of a job that has ended. -/
def JobOutcome.headline (outcome : JobOutcome) : String :=
  if outcome.cancelled then "⏸ Job cancelled"
  else if outcome.failed = 0 ∧ !outcome.aborted then "✓ Job completed"
  else "✗ Job finished with failures"

/-- Line about the health of a destination. -/
def Summary.line (destination : String) (summary : Summary) : String :=
  "  • " ++ destination ++ ": " ++ summary.verdict.name ++ " ("
    ++ (summary.successRate * 100).wholeText ++ "% ok, p95 " ++ natText summary.highLatency
    ++ "ms)\n"

/-- Lines about a job that has ended. -/
def JobOutcome.summaryText (outcome : JobOutcome) : String :=
  "  " ++ outcome.headline ++ " in " ++ intText outcome.durationMillis ++ "ms\n  "
    ++ natText outcome.succeeded ++ " succeeded, " ++ natText outcome.failed ++ " failed, "
    ++ natText outcome.skipped ++ " skipped (" ++ natText outcome.resumed ++ " resumed) of "
    ++ natText outcome.total ++ "\n"
    ++ String.join ((outcome.health.getD []).map fun (destination, summary) =>
      summary.line destination)

/-- Number of items of a checkpoint with a status. -/
def Checkpoint.countStatus (checkpoint : Checkpoint) (status : Status) : Nat :=
  checkpoint.pointers.countP fun (_, pointer) => pointer.status == status

/-- Names of the statuses in messages, ascending. -/
def statusesShown : List Status := [.failed, .pending, .processing, .skipped, .success]

/-- A text filled up with blanks. -/
def padded (width : Nat) (text : String) : String := text.pushn ' ' (width - text.length)

/-- Lines about a checkpoint. -/
def Checkpoint.summaryText (checkpoint : Checkpoint) (path : Path) : String :=
  let saved : String :=
    match checkpoint.savedAt with
    | none => ""
    | some time => "saved at:   " ++ time.readable ++ "\n"
  "checkpoint: " ++ path.text ++ "\n" ++ saved ++ "completed:  "
    ++ natText checkpoint.completed.length ++ "\n"
    ++ String.join (statusesShown.map fun status =>
      match checkpoint.countStatus status with
      | 0 => ""
      | count => "  " ++ padded 8 status.shown ++ " " ++ natText count ++ "\n")

end BatchRun
