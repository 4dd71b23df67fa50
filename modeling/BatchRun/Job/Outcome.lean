import BatchRun.Item.Reader
import BatchRun.Job.HealthDocument
import BatchRun.Job.Id

/-!
# Outcome of a job

**Type.**
A `JobOutcome` holds the items of a job that has ended and their counts by status.

**Results.**
`JobOutcome.ofItems` counts items, so that the counts add up to the number of items when all of
them are finished.  `JobOutcome.reader` reads an outcome from a document, whose counts it takes
as they are.
-/

namespace BatchRun

open Json
open Json.Reader
open Time

/-- What a job has come to. -/
structure JobOutcome where
  jobId : JobId
  destination : String
  total : Nat
  succeeded : Nat
  failed : Nat
  skipped : Nat
  /-- Number of items whose status was taken over from an earlier run. -/
  resumed : Nat
  items : List Item
  startedAt : Timestamp
  finishedAt : Timestamp
  /-- Whether dispatch stopped because an item failed. -/
  aborted : Bool := false
  cancelled : Bool := false
  health : Option Snapshot := none

namespace JobOutcome

/-- Number of items with a status. -/
def countStatus (status : Status) (items : List Item) : Nat :=
  items.countP (fun item => item.status == status)

/-- Counts items that have been processed. -/
def ofItems (jobId : JobId) (destination : String) (items : List Item)
    (startedAt finishedAt : Timestamp) : JobOutcome where
  jobId
  destination
  total := items.length
  succeeded := countStatus .success items
  failed := countStatus .failed items
  skipped := countStatus .skipped items
  resumed := items.countP Item.resumed
  items
  startedAt
  finishedAt

/-- Items that succeeded. -/
def successes (outcome : JobOutcome) : List Item :=
  outcome.items.filter fun item => item.status = .success

/-- Items that failed. -/
def failures (outcome : JobOutcome) : List Item :=
  outcome.items.filter fun item => item.status = .failed

/-- Whether every item succeeded. -/
def isClean (outcome : JobOutcome) : Bool := outcome.succeeded = outcome.total

/-- Length of the job in milliseconds. -/
def durationMillis (outcome : JobOutcome) : Int := outcome.finishedAt.millisSince outcome.startedAt

/-- Fields of an outcome that were read so far. -/
structure Fields where
  jobId : Option JobId := none
  destination : Option String := none
  total : Option Nat := none
  succeeded : Option Nat := none
  failed : Option Nat := none
  skipped : Option Nat := none
  resumed : Option Nat := none
  items : Option (List Item) := none
  startedAt : Option Timestamp := none
  finishedAt : Option Timestamp := none
  aborted : Option Bool := none
  cancelled : Option Bool := none
  health : Option (Option Snapshot) := none

/-- Reads the value behind a key. -/
def member (depth : Nat) (key : String) (fields : Fields) : Reader Fields := do
  if key = "job_id" then
    pure { fields with jobId := some (← fill key fields.jobId JobId.reader) }
  else if key = "destination" then
    pure { fields with destination := some (← fill key fields.destination text) }
  else if key = "total" then
    pure { fields with total := some (← fill key fields.total count) }
  else if key = "succeeded" then
    pure { fields with succeeded := some (← fill key fields.succeeded count) }
  else if key = "failed" then
    pure { fields with failed := some (← fill key fields.failed count) }
  else if key = "skipped" then
    pure { fields with skipped := some (← fill key fields.skipped count) }
  else if key = "resumed" then
    pure { fields with resumed := some (← fill key fields.resumed count) }
  else if key = "items" then
    pure { fields with items := some (← fill key fields.items (list depth Item.reader)) }
  else if key = "started_at" then
    pure { fields with startedAt := some (← fill key fields.startedAt Timestamp.reader) }
  else if key = "finished_at" then
    pure { fields with finishedAt := some (← fill key fields.finishedAt Timestamp.reader) }
  else if key = "aborted" then
    pure { fields with aborted := some (← fill key fields.aborted flag) }
  else if key = "cancelled" then
    pure { fields with cancelled := some (← fill key fields.cancelled flag) }
  else if key = "destination_health" then
    pure { fields with
      health := some (← fill key fields.health (optional (snapshotReader depth))) }
  else ignore fields

/-- The outcome with the fields of an object. -/
def ofFields (fields : Fields) : Reader JobOutcome := do
  pure {
    jobId := ← required "job_id" fields.jobId
    destination := ← required "destination" fields.destination
    total := ← required "total" fields.total
    succeeded := ← required "succeeded" fields.succeeded
    failed := ← required "failed" fields.failed
    skipped := ← required "skipped" fields.skipped
    resumed := ← required "resumed" fields.resumed
    items := ← required "items" fields.items
    startedAt := ← required "started_at" fields.startedAt
    finishedAt := ← required "finished_at" fields.finishedAt
    aborted := ← required "aborted" fields.aborted
    cancelled := ← required "cancelled" fields.cancelled
    health := fields.health.join }

/-- The outcome with the elements of a list. -/
def ofList (depth : Nat) : Reader JobOutcome := do
  let expected := "struct JobResult with 13 elements"
  pure {
    jobId := ← element 0 expected JobId.reader
    destination := ← element 1 expected text
    total := ← element 2 expected count
    succeeded := ← element 3 expected count
    failed := ← element 4 expected count
    skipped := ← element 5 expected count
    resumed := ← element 6 expected count
    items := ← element 7 expected (list depth Item.reader)
    startedAt := ← element 8 expected Timestamp.reader
    finishedAt := ← element 9 expected Timestamp.reader
    aborted := ← element 10 expected flag
    cancelled := ← element 11 expected flag
    health := (← element? false (optional (snapshotReader depth))).join }

/-- Reader of outcomes. -/
def reader (depth : Nat) : Reader JobOutcome :=
  record "JobResult" depth (fun depth => members (member depth) {} >>= ofFields) ofList

end JobOutcome

end BatchRun
