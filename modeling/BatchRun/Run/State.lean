import BatchRun.Job.Clock
import BatchRun.Job.Duplicates
import BatchRun.Job.HealthDocument
import BatchRun.Run.Event
import BatchRun.Run.Fault

/-!
# State of a run

**Types.**
A run has a dispatcher and tasks.  The dispatcher takes the waiting items in their order, one
permit each, and makes a `Task` of every item; a task goes through the phases of `Phase` and gives
its permit back at the end.

**Signals.**
Once dispatch has stopped no further item is started, and once the run has halted no further call
is made.  A halt stops dispatch too.  A cancellation and a fault halt the run; an item that failed
only stops dispatch, and only where the settings say so.

**Results.**
`State.opened` is the first state of a run.  `State.due?` is the tick up to which nothing happens
to a task by itself.  Time passes when everybody waits for such a tick or for the files.
-/

namespace BatchRun
namespace Run

open Time

/-- Where a task stands. -/
inductive Phase where
  /-- It has not run yet. -/
  | spawned
  /-- It waits up to a tick for its first token. -/
  | throttled (due : Nat)
  /-- It has been waiting for the executor since a tick. -/
  | calling (since : Nat)
  /-- The call has ended after some milliseconds. -/
  | answered (outcome : Except AttemptFailure Json) (latency : Nat)
  /-- It pauses up to a tick before another attempt. -/
  | pausing (due : Nat)
  /-- It waits up to a tick for a token for another attempt. -/
  | rethrottled (due : Nat)
  /-- There is a result, which may be a duplicate. -/
  | comparing (result : Json)
  /-- The item is finished and its record is to be written. -/
  | persisting
  /-- The item is to be added to the next checkpoint. -/
  | buffering
  /-- Some entries are being written to the checkpoint. -/
  | saving (batch : List CheckpointEntry)
  /-- Observers are to be told that the item is finished. -/
  | finishing

/-- Whether an answer of the files is awaited. -/
def Phase.isWriting : Phase → Bool
  | persisting => true
  | saving _ => true
  | _ => false

/-- An item on its way. -/
structure Task where
  /-- Place in the order of dispatch. -/
  number : Nat
  item : Item
  phase : Phase := .spawned

/-- What a run works with. -/
structure Setup where
  settings : Settings
  /-- Whether records of finished items are written. -/
  hasSink : Bool := false
  /-- Whether finished items are listed in a checkpoint. -/
  hasStore : Bool := false

/-- What a run returns. -/
structure Returned where
  items : List Item
  aborted : Bool
  cancelled : Bool
  health : Snapshot

/-- Stage of a run. -/
inductive Stage where
  /-- Items are dispatched and processed. -/
  | dispatching
  /-- All items are finished, and the last entries are being written to the checkpoint. -/
  | flushing (batch : List CheckpointEntry)
  | returned (result : Except RunFault Returned)
  /-- The run broke off without returning. -/
  | unwound

/-- State of a run. -/
structure State where
  setup : Setup
  /-- Current time in ticks. -/
  clock : Nat
  throttle : Throttle
  registry : Registry
  monitor : Monitor
  /-- Items taken over from an earlier run. -/
  restored : List Item := []
  /-- Items that were not dispatched yet. -/
  waiting : List Item
  tasks : List Task := []
  /-- Items in the order in which they were finished. -/
  finished : List Item := []
  /-- Permits that nobody holds. -/
  free : Nat
  /-- Whether the dispatcher holds a permit. -/
  holding : Bool := false
  /-- Number of tasks so far. -/
  dispatched : Nat := 0
  cancelled : Bool := false
  aborted : Bool := false
  stopped : Bool := false
  haltedAt : Option Nat := none
  fatal : Option RunFault := none
  /-- What the checkpoint holds. -/
  saved : Checkpoint := {}
  /-- Entries for the next checkpoint. -/
  unflushed : List CheckpointEntry := []
  stage : Stage := .dispatching
  /-- Events with their ticks, the last one first. -/
  events : List (Nat × Event) := []

/-- First number of permits that no semaphore can hold. -/
def unboundedPermits : Nat := Nat.pow 2 61

namespace State

/-- Current time as a point in time. -/
def stamp (s : State) : Timestamp := .ofMillis s.clock

/-- Choices for the run. -/
def settings (s : State) : Settings := s.setup.settings

/-- Whether the run has halted. -/
def isHalted (s : State) : Bool := s.haltedAt.isSome

/-- State with another event. -/
def log (s : State) (event : Event) : State :=
  { s with events := (s.clock, event) :: s.events }

/-- First state of a run over items; `saved` is the checkpoint that was loaded.  A limit is set
before the run begins. -/
def opened (setup : Setup) (items : List Item) (saved : Checkpoint) (throttle : Throttle)
    (registry : Registry) (monitor : Monitor) (clock : Nat) : State :=
  let plan :=
    if setup.hasStore then saved.plan items (.ofMillis clock) else ⟨[], items⟩
  let throttle :=
    match setup.settings.rateLimit with
    | some limit => throttle.configure setup.settings.destination limit (clock * nanosPerTick)
    | none => throttle
  let slots := setup.settings.slots
  State.log
    { setup, clock, throttle, registry, monitor, saved
      restored := plan.restored
      waiting := plan.pending
      free := slots
      stage := if unboundedPermits ≤ slots then .unwound else .dispatching }
    (.opened items.length plan.restored.length)

/-- First state of a run, unless its settings or its checkpoint do not allow one. -/
def initial? (setup : Setup) (items : List Item) (saved : Except CheckpointFault Checkpoint)
    (throttle : Throttle) (registry : Registry) (monitor : Monitor) (clock : Nat) :
    Except RunFault State :=
  match setup.settings.fault?, saved with
  | some fault, _ => .error (.settings fault)
  | none, .error fault => .error (.checkpoint fault)
  | none, .ok saved => .ok (opened setup items saved throttle registry monitor clock)

/-- Task with a number. -/
def task? (s : State) (number : Nat) : Option Task :=
  s.tasks.find? (fun task => task.number == number)

/-- Nanoseconds up to the deadline of a call. -/
def callLimit (s : State) : Nat := nanosToDeadline s.settings.itemTimeout

/-- Tick at which a call since a tick is out of time. -/
def timeoutTick (s : State) (since : Nat) : Nat :=
  tickAfter since s.settings.itemTimeout

/-- Tick at which a call since a tick is given up, once the run has halted. -/
def graceTick? (s : State) (since : Nat) : Option Nat :=
  s.haltedAt.map fun halted => tickAfter (max halted since) s.settings.cancelGrace

/-- Tick up to which nothing happens to a task by itself; `none` if it can go on at once. -/
def due? (s : State) (task : Task) : Option Nat :=
  match task.phase with
  | .throttled due => if s.stopped then none else some due
  | .calling since =>
    match s.graceTick? since with
    | some grace => some (min (s.timeoutTick since) grace)
    | none => some (s.timeoutTick since)
  | .pausing due => if s.isHalted then none else some due
  | .rethrottled due => if s.isHalted then none else some due
  | _ => none

/-- Whether the dispatcher can do nothing now. -/
def isDispatchBlocked (s : State) : Bool :=
  match s.stage with
  | .dispatching =>
    match s.waiting with
    | [] => !s.tasks.isEmpty
    | _ :: _ =>
      match s.settings.mode with
      | .sequential => !s.tasks.isEmpty
      | .parallel => !s.stopped && s.free == 0 && !s.holding
  | .flushing batch => !batch.isEmpty
  | _ => false

/-- Whether time can move on to a tick: nobody can do anything before.  Files take as long as they
like to answer. -/
def canAdvance (s : State) (target : Nat) : Bool :=
  s.clock < target && s.isDispatchBlocked
    && s.tasks.all fun task =>
      task.phase.isWriting ||
        match s.due? task with
        | some due => target ≤ due
        | none => false

end State

end Run
end BatchRun
