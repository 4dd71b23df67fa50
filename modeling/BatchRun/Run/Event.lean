import BatchRun.Checkpoint.Basic
import BatchRun.Item.Failure

/-!
# Events of a run

**Types.**
A `Reply` is what a call of the executor ends with.  An `Event` is a step of a run that somebody
outside can see: what observers are told, calls, tokens, samples of health, and what was made
durable.
-/

namespace BatchRun
namespace Run

/-- End of a call of the executor. -/
inductive Reply where
  | value (result : Json)
  | failure (cause : AttemptFailure)
  | panic (message : String)

/-- Outcome of an attempt: a call that breaks off counts as a failure that stays. -/
def Reply.outcome : Reply → Except AttemptFailure Json
  | value result => .ok result
  | failure cause => .error cause
  | panic message => .error (.permanent ("work function panicked: " ++ message))

/-- What observers are told about an item. -/
inductive Callback where
  | started
  | retrying
  | finished
deriving DecidableEq

/-- A visible step of a run. -/
inductive Event where
  /-- The run begins with so many items, some of them taken over from an earlier run. -/
  | opened (total resumed : Nat)
  /-- The item asked for a token, which is its own at a tick. -/
  | reserved (item : Item) (due : Nat)
  | started (item : Item)
  /-- An attempt begins; the executor has so many nanoseconds. -/
  | called (item : Item) (limit : Nat)
  /-- An attempt ended, and its outcome was added to the health of the destination. -/
  | sampled (item : Item) (outcome : Except AttemptFailure Json) (latency : Nat)
  /-- Another attempt follows after a pause in nanoseconds. -/
  | retrying (item : Item) (failure : AttemptFailure) (delay : Nat)
  /-- The call was given up, or the item did not wait for another one. -/
  | interrupted (item : Item)
  /-- The record of the item is durable at its location. -/
  | persisted (item : Item)
  /-- The checkpoint lists some more items. -/
  | saved (entries : List CheckpointEntry)
  | finished (item : Item)

end Run
end BatchRun
