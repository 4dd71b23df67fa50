/-!
# Status of a work item

**Type.**
Every item goes from pending through processing to one of three terminal statuses.  An item that
is never dispatched goes straight from pending to skipped.
-/

namespace BatchRun

/-- Status of a work item. -/
inductive Status where
  | pending
  | processing
  | success
  | failed
  | skipped
deriving DecidableEq, Inhabited

namespace Status

/-- Whether an item may move from one status to another.  A retry is no move. -/
def canMoveTo : Status → Status → Bool
  | pending, processing => true
  | pending, skipped => true
  | processing, success => true
  | processing, failed => true
  | processing, skipped => true
  | _, _ => false

/-- Whether an item with this status is finished. -/
def isTerminal : Status → Bool
  | success => true
  | failed => true
  | skipped => true
  | _ => false

/-- Name of a status in documents. -/
def name : Status → String
  | pending => "pending"
  | processing => "processing"
  | success => "success"
  | failed => "failed"
  | skipped => "skipped"

/-- Name of a status in messages. -/
def shown : Status → String
  | pending => "PENDING"
  | processing => "PROCESSING"
  | success => "SUCCESS"
  | failed => "FAILED"
  | skipped => "SKIPPED"

/-- All statuses in their order. -/
def all : List Status := [pending, processing, success, failed, skipped]

/-- Statuses with their names in documents. -/
def cases : List (String × Status) := all.map (fun status => (status.name, status))

theorem not_canMoveTo_of_isTerminal {status target : Status} (h : status.isTerminal = true) :
    status.canMoveTo target = false := by
  cases status with
  | pending | processing => cases h
  | success | failed | skipped => rfl

end Status

end BatchRun
