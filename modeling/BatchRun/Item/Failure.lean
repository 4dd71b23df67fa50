import BatchRun.Number.Layout
import BatchRun.Time.Timestamp

/-!
# Failures of attempts

**Types.**
`FailureKind` decides whether another attempt may follow.  `AttemptFailure` is the failure of
one attempt, with the pause that the destination asked for; `ItemFailure` is what remains of the
last one on an item that failed.
-/

namespace BatchRun

open Number
open Time

/-- Kind of a failure. -/
inductive FailureKind where
  | transient
  | permanent
  | deadlineExceeded
deriving DecidableEq, Inhabited

namespace FailureKind

/-- Whether another attempt may follow. -/
def isRetryable : FailureKind → Bool
  | transient => true
  | permanent => false
  | deadlineExceeded => true

/-- Name of a kind, in documents and in messages. -/
def name : FailureKind → String
  | transient => "transient"
  | permanent => "permanent"
  | deadlineExceeded => "deadline_exceeded"

/-- Kinds with their names. -/
def cases : List (String × FailureKind) :=
  [transient, permanent, deadlineExceeded].map (fun kind => (kind.name, kind))

end FailureKind

/-- Failure kept on an item. -/
structure ItemFailure where
  kind : FailureKind
  message : String
deriving DecidableEq

/-- Text of a failure kept on an item. -/
def ItemFailure.shown (failure : ItemFailure) : String :=
  failure.kind.name ++ ": " ++ failure.message

/-- Failure of one attempt. -/
structure AttemptFailure where
  kind : FailureKind
  message : String
  /-- Least pause before the next attempt, in nanoseconds. -/
  retryAfter : Option Nat := none
deriving DecidableEq

namespace AttemptFailure

/-- A failure that may pass. -/
def transient (message : String) : AttemptFailure := ⟨.transient, message, none⟩

/-- A failure that stays. -/
def permanent (message : String) : AttemptFailure := ⟨.permanent, message, none⟩

/-- No answer within a time in nanoseconds; the message counts whole milliseconds. -/
def deadlineExceeded (nanos : Nat) : AttemptFailure :=
  ⟨.deadlineExceeded, "no result within " ++ natText (nanos / nanosPerMilli) ++ "ms", none⟩

/-- The destination asks for a pause in nanoseconds; the message counts whole milliseconds. -/
def rateLimited (nanos : Nat) : AttemptFailure :=
  ⟨.transient, "rate limited, retry after " ++ natText (nanos / nanosPerMilli) ++ "ms",
    some nanos⟩

/-- Whether another attempt may follow. -/
def isRetryable (failure : AttemptFailure) : Bool := failure.kind.isRetryable

/-- What is kept on the item. -/
def toItemFailure (failure : AttemptFailure) : ItemFailure := ⟨failure.kind, failure.message⟩

/-- Text of a failure. -/
def shown (failure : AttemptFailure) : String :=
  failure.kind.name ++ " failure: " ++ failure.message

end AttemptFailure

end BatchRun
