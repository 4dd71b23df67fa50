import BatchRun.Item.Failure
import BatchRun.Item.Status
import BatchRun.Json.Value
import BatchRun.Time.Timestamp

/-!
# Work items

**Type.**
`Item` is one independent unit of work together with all that is known of its processing.

**Operations.**
`start`, `succeed`, `fail` and `skip` move an item to another status, or leave it as it is and
tell which move was rejected.  `beginAttempt` counts an attempt.  `restore` takes over a status
that was recorded by an earlier run.
-/

namespace BatchRun

open Number
open Time

/-- Why an item was skipped. -/
inductive SkipReason where
  /-- Its result was the same as that of another item. -/
  | duplicate (firstId : String)
  /-- An item failed and the job stops on failures. -/
  | aborted
  /-- The job was cancelled. -/
  | cancelled
  /-- An earlier run finished it. -/
  | resumed
deriving DecidableEq

namespace SkipReason

/-- Whether the item was processed before it was skipped. -/
def isProcessed : SkipReason → Bool
  | duplicate _ => true
  | _ => false

/-- Text of a reason. -/
def shown : SkipReason → String
  | duplicate firstId => "duplicate of item " ++ firstId
  | aborted => "job aborted"
  | cancelled => "job cancelled"
  | resumed => "completed in a previous run"

end SkipReason

/-- Annotations of an item, ascending by key. -/
abbrev Metadata := List (String × Json)

/-- One unit of work. -/
structure Item where
  /-- The explicit id of the record, or its place counted from one. -/
  id : String
  /-- Index in the sequence of items, counted from zero. -/
  position : Nat
  payload : Json
  metadata : Metadata := []
  status : Status := .pending
  /-- Number of attempts that were begun.  Texts of items have 32 bits for it.  It has no bound
  here, so that an item which comes with the greatest number of them can be attempted once more. -/
  attempts : Nat := 0
  result : Option Json := none
  failure : Option ItemFailure := none
  skipReason : Option SkipReason := none
  /-- Where the record of the item was written. -/
  location : Option String := none
  /-- Whether the status was taken over from an earlier run. -/
  resumed : Bool := false
  startedAt : Option Timestamp := none
  finishedAt : Option Timestamp := none
  durationMillis : Nat := 0

/-- A move between two statuses that is not allowed. -/
structure RejectedMove where
  id : String
  source : Status
  target : Status
deriving DecidableEq

/-- Text of a rejected move. -/
def RejectedMove.message (move : RejectedMove) : String :=
  "item " ++ move.id ++ ": cannot transition from " ++ move.source.shown ++ " to "
    ++ move.target.shown

namespace Item

/-- Whether the item is finished. -/
def isTerminal (item : Item) : Bool := item.status.isTerminal

/-- The item with a status it moves to, stamped with the time of the move. -/
def moved (item : Item) (target : Status) (now : Timestamp) : Item :=
  if target = .processing then { item with status := target, startedAt := some now }
  else if target.isTerminal then
    { item with
      status := target
      finishedAt := some now
      durationMillis :=
        match item.startedAt with
        | some start => (now.millisSince start).toNat
        | none => 0 }
  else { item with status := target }

/-- Moves the item to another status. -/
def moveTo (item : Item) (target : Status) (now : Timestamp) : Except RejectedMove Item :=
  if item.status.canMoveTo target then .ok (item.moved target now)
  else .error ⟨item.id, item.status, target⟩

/-- Begins the processing of the item. -/
def start (item : Item) (now : Timestamp) : Except RejectedMove Item :=
  item.moveTo .processing now

/-- Counts another attempt. -/
def beginAttempt (item : Item) : Item := { item with attempts := item.attempts + 1 }

/-- Ends the item with a result. -/
def succeed (item : Item) (result : Json) (now : Timestamp) : Except RejectedMove Item :=
  (item.moveTo .success now).map (fun item => { item with result := some result })

/-- Ends the item with a failure. -/
def fail (item : Item) (failure : ItemFailure) (now : Timestamp) : Except RejectedMove Item :=
  (item.moveTo .failed now).map (fun item => { item with failure := some failure })

/-- Ends the item without result and failure. -/
def skip (item : Item) (reason : SkipReason) (now : Timestamp) : Except RejectedMove Item :=
  (item.moveTo .skipped now).map (fun item => { item with skipReason := some reason })

/-- Takes over the status that an earlier run recorded, with the place of its record.  A status
that is not terminal counts as skipped. -/
def restore (item : Item) (status : Status) (location : Option String) (now : Timestamp) : Item :=
  let status := if status.isTerminal then status else .skipped
  { item with
    status
    skipReason := if status = .skipped then some .resumed else item.skipReason
    location
    resumed := true
    finishedAt := some now }

/-- Whether the item is finished so that it need not be processed again. -/
def isSettled (item : Item) : Bool :=
  match item.status with
  | .success => true
  | .failed => true
  | .skipped =>
    match item.skipReason with
    | some reason => reason.isProcessed
    | none => false
  | _ => false

end Item

end BatchRun
