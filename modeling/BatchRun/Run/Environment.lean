import BatchRun.Run.Event
import BatchRun.Checkpoint.Store
import BatchRun.Output.Fault

/-!
# Surroundings of a run

**Types.**
An `Environment` answers for all that a run depends on: the executor, the files and the observers.
Its answers may depend on a state, which every answer may change.  A `Plan` is the answer to a call
of the executor.
-/

namespace BatchRun
namespace Run

open Time

/-- How a call of the executor goes on. -/
structure Plan where
  /-- Whether the caller cancels the run at once. -/
  cancels : Bool := false
  /-- Time up to the reply, in nanoseconds. -/
  delay : Nat := 0
  /-- The reply; `none` if there never is one. -/
  reply : Option Reply

/-- Files in which something is written; each is written by one task at a time. -/
inductive Lane where
  | results
  | errors
  | checkpoint
deriving DecidableEq

/-- All that a run depends on, with states in `σ`. -/
structure Environment (σ : Type) where
  /-- Begins a call for an item. -/
  call : σ → Item → σ × Plan
  /-- Writes the record of an item. -/
  persist : σ → Item → σ × Except OutputFault String
  /-- Adds entries to the checkpoint. -/
  save : σ → List CheckpointEntry → Timestamp → σ × Option CheckpointFault
  /-- Message with which an observer breaks off, if it does. -/
  panics : Callback → Item → Option String
  /-- Number of times that a task lets others go first while it writes a record. -/
  persistTurns : Nat
  /-- Number of times that a task lets others go first while it writes a checkpoint. -/
  saveTurns : Nat

/-- Lane of the record of an item. -/
def Lane.ofItem (item : Item) : Lane := if item.status = .failed then .errors else .results

end Run
end BatchRun
