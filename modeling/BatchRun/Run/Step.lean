import BatchRun.Run.State

/-!
# Steps of a run

**Type.**
An `Action` is one step of a run: of its dispatcher, of a task, of the clock, or of the caller who
cancels it.  Answers of the executor, of files and of observers are part of an action, so that
every order of steps and every answer is a list of actions.

**Results.**
`State.step?` is the state after an action, if the action is possible.  `Reaches` relates a state
to all that can follow it.
-/

namespace BatchRun
namespace Run

/-- A step of a task. -/
inductive Move where
  /-- Goes on with what needs no answer from outside; an observer that is told about it may break
  off with a message. -/
  | resume (panic : Option String)
  /-- The executor ends its call. -/
  | reply (reply : Reply)
  /-- The call is out of time. -/
  | expire
  /-- The call is given up because the run has halted. -/
  | giveUp
  /-- The record was written, or not. -/
  | persist (answer : Except OutputFault String)
  /-- The checkpoint was written, or not. -/
  | save (fault : Option CheckpointFault)

/-- A step of a run. -/
inductive Action where
  | advance (target : Nat)
  /-- The caller cancels the run. -/
  | cancel
  /-- The dispatcher skips the next item; an observer may break off. -/
  | skipNext (panic : Option String)
  | takePermit
  /-- The dispatcher makes a task of the next item. -/
  | spawn
  | task (number : Nat) (move : Move)
  /-- All items are finished, and the last entries go to the checkpoint. -/
  | flush
  /-- The last entries were written, or not. -/
  | close (fault : Option CheckpointFault)

namespace State

/-- State with another version of a task. -/
def put (s : State) (task : Task) : State :=
  { s with tasks := s.tasks.map fun old => if old.number = task.number then task else old }

/-- State without a task, whose permit is free again. -/
def release (s : State) (task : Task) : State :=
  { s with
    tasks := s.tasks.filter fun other => other.number != task.number
    free := s.free + 1 }

/-- State with another finished item. -/
def file (s : State) (item : Item) : State := { s with finished := s.finished ++ [item] }

/-- Halts the run. -/
def halt (s : State) : State :=
  { s with haltedAt := s.haltedAt.or (some s.clock), stopped := true }

/-- Halts the run because of a fault; the first fault is kept. -/
def fail (s : State) (fault : RunFault) : State :=
  { s.halt with fatal := s.fatal.or (some fault) }

/-- Stops dispatch because an item failed. -/
def abort (s : State) : State := { s with aborted := true, stopped := true }

/-- Cancels the run. -/
def cancel (s : State) : State := { s.halt with cancelled := true }

/-- Ends a task whose processing broke off; its item is lost. -/
def lose (s : State) (task : Task) (message : String) : State :=
  (s.fail (.panicked task.item.id message)).release task

/-- Reason for skipping an item that was not started. -/
def skipReason (s : State) : SkipReason := if s.aborted then .aborted else .cancelled

/-- Marks an item that is not started as skipped. -/
def skipped (s : State) (item : Item) : State × Item :=
  match item.skip s.skipReason s.stamp with
  | .ok item => (s.log (.finished item), item)
  | .error move => ((s.fail (.move move)).log (.finished item), item)

/-- Ends a task without starting its item. -/
def turnAway (s : State) (task : Task) (panic : Option String) : State :=
  let (s, item) := s.skipped task.item
  match panic with
  | some message => s.lose task message
  | none => (s.file item).release task

/-- Begins an attempt. -/
def call (s : State) (task : Task) : State :=
  let item := task.item.beginAttempt
  (s.log (.called item s.callLimit)).put { task with item, phase := .calling s.clock }

/-- Starts an item and begins its first attempt. -/
def launch (s : State) (task : Task) (panic : Option String) : State :=
  match task.item.start s.stamp with
  | .error move => ((s.fail (.move move)).file task.item).release task
  | .ok item =>
    let s := s.log (.started item)
    match panic with
    | some message => s.lose task message
    | none => s.call { task with item }

/-- Asks for a token, and goes on with it or waits for it. -/
def withToken (s : State) (task : Task) (wait : (due : Nat) → Phase) (go : State → State) :
    State :=
  let (throttle, answer) := s.throttle.acquire s.settings.destination (s.clock * nanosPerTick)
  let due := answer.tick s.clock
  let s := State.log { s with throttle } (.reserved task.item due)
  match answer with
  | .none => go s
  | _ => s.put { task with phase := wait due }

/-- Phase of a task whose item has ended. -/
def endingPhase (s : State) (item : Item) : Phase :=
  if !item.isSettled then .finishing
  else if s.setup.hasSink then .persisting
  else .buffering

/-- Goes on with an item that has moved to its last status. -/
def settle (s : State) (task : Task) (moved : Except RejectedMove Item) : State :=
  match moved with
  | .ok item => s.put { task with item, phase := s.endingPhase item }
  | .error move => (s.fail (.move move)).put { task with phase := s.endingPhase task.item }

/-- Ends an item that does not wait any longer. -/
def interrupt (s : State) (task : Task) : State :=
  (s.log (.interrupted task.item)).settle task (task.item.skip .cancelled s.stamp)

/-- Asks for a token for another attempt. -/
def rearm (s : State) (task : Task) : State := s.withToken task .rethrottled (·.call task)

/-- Ends a call. -/
def answer (s : State) (task : Task) (outcome : Except AttemptFailure Json) (since : Nat) :
    State :=
  s.put { task with phase := .answered outcome (s.clock - since) }

/-- Pauses before another attempt. -/
def retry (s : State) (task : Task) (failure : AttemptFailure) (panic : Option String) : State :=
  let delay := s.settings.retry.pauseAfter task.item.attempts failure.retryAfter
  let s := s.log (.retrying task.item failure delay)
  match panic with
  | some message => s.lose task message
  | none =>
    if s.isHalted then s.interrupt task
    else if delay = 0 then s.rearm task
    else s.put { task with phase := .pausing (tickAfter s.clock delay) }

/-- Whether a failure of an attempt is the last one of an item. -/
def isLastFailure (s : State) (task : Task) (failure : AttemptFailure) : Bool :=
  !failure.isRetryable || s.settings.retry.maxAttempts ≤ task.item.attempts

/-- Ends an item with its last failure. -/
def failItem (s : State) (task : Task) (failure : AttemptFailure) : State :=
  let moved := task.item.fail failure.toItemFailure s.stamp
  let stops := !s.settings.continueOnError && (match moved with | .ok _ => true | .error _ => false)
  (if stops then s.abort else s).settle task moved

/-- Adds the outcome of an attempt to the health of the destination and decides how the item goes
on. -/
def judge (s : State) (task : Task) (outcome : Except AttemptFailure Json) (latency : Nat)
    (panic : Option String) : State :=
  let sample : Sample := ⟨match outcome with | .ok _ => true | .error _ => false, latency⟩
  let (monitor, answer) := s.monitor.record s.settings.destination sample
  let s := { s with monitor }
  match answer with
  | .error fault => s.lose task fault.message
  | .ok () =>
    let s := s.log (.sampled task.item outcome latency)
    match outcome with
    | .ok result => s.put { task with phase := .comparing result }
    | .error failure =>
      if s.isLastFailure task failure then s.failItem task failure
      else s.retry task failure panic

/-- Ends an item with a result, unless an equivalent result came first. -/
def compare (s : State) (task : Task) (result : Json) : State :=
  if s.settings.deduplicate then
    let (registry, owner) := s.registry.record result task.item.id
    let s := { s with registry }
    match owner with
    | some firstId => s.settle task (task.item.skip (.duplicate firstId) s.stamp)
    | none => s.settle task (task.item.succeed result s.stamp)
  else s.settle task (task.item.succeed result s.stamp)

/-- Goes on after the record of an item was written, or not. -/
def persisted (s : State) (task : Task) (answer : Except OutputFault String) : State :=
  match answer with
  | .ok location =>
    let item := { task.item with location := some location }
    (s.log (.persisted item)).put { task with item, phase := .buffering }
  | .error fault => (s.fail (.output fault)).put { task with phase := .finishing }

/-- Whether finished items are listed in a checkpoint. -/
def keepsCheckpoint (s : State) : Bool :=
  s.setup.hasStore && s.settings.checkpointInterval != 0

/-- Adds an item to the next checkpoint, and begins to write that one if it is large enough. -/
def buffer (s : State) (task : Task) : State :=
  if s.keepsCheckpoint then
    let unflushed := s.unflushed ++ [task.item.checkpointEntry]
    if s.settings.checkpointInterval ≤ unflushed.length then
      State.put { s with unflushed := [] } { task with phase := .saving unflushed }
    else State.put { s with unflushed } { task with phase := .finishing }
  else s.put { task with phase := .finishing }

/-- State after entries were written to the checkpoint, or not. -/
def recorded (s : State) (batch : List CheckpointEntry) (fault : Option CheckpointFault) :
    State :=
  match fault with
  | some fault => s.fail (.checkpoint fault)
  | none => State.log { s with saved := s.saved.recordAll batch } (.saved batch)

/-- Tells observers that an item is finished, and ends its task. -/
def finish (s : State) (task : Task) (panic : Option String) : State :=
  let s := s.log (.finished task.item)
  match panic with
  | some message => s.lose task message
  | none => (s.file task.item).release task

/-- Whether a tick has come. -/
def hasCome (s : State) (due : Nat) : Bool := due ≤ s.clock

/-- State after a step of a task. -/
def move? (s : State) (task : Task) (move : Move) : Option State :=
  match task.phase, move with
  | .spawned, .resume panic =>
    if s.stopped then some (s.turnAway task panic)
    else some (s.withToken task .throttled (·.launch task panic))
  | .throttled due, .resume panic =>
    if s.stopped then some (s.turnAway task panic)
    else if s.hasCome due then some (s.launch task panic)
    else none
  | .calling since, .reply reply => some (s.answer task reply.outcome since)
  | .calling since, .expire =>
    if s.hasCome (s.timeoutTick since) then
      some (s.answer task (.error (.deadlineExceeded s.settings.itemTimeout)) since)
    else none
  | .calling since, .giveUp =>
    match s.graceTick? since with
    | some grace => if s.hasCome grace then some (s.interrupt task) else none
    | none => none
  | .answered outcome latency, .resume panic => some (s.judge task outcome latency panic)
  | .pausing due, .resume _ =>
    if s.isHalted then some (s.interrupt task)
    else if s.hasCome due then some (s.rearm task)
    else none
  | .rethrottled due, .resume _ =>
    if s.isHalted then some (s.interrupt task)
    else if s.hasCome due then some (s.call task)
    else none
  | .comparing result, .resume _ => some (s.compare task result)
  | .persisting, .persist answer => some (s.persisted task answer)
  | .buffering, .resume _ => some (s.buffer task)
  | .saving batch, .save fault =>
    some ((s.recorded batch fault).put { task with phase := .finishing })
  | .finishing, .resume panic => some (s.finish task panic)
  | _, _ => none

/-- Skips the next item.  An observer that breaks off takes the run with it. -/
def skipNext (s : State) (item : Item) (rest : List Item) (panic : Option String) : State :=
  let (s, item) := State.skipped { s with waiting := rest } item
  match panic with
  | some _ => { s with stage := .unwound, tasks := [] }
  | none => s.file item

/-- Whether the dispatcher may take the next item: with one item at a time, only when there is no
task. -/
def canDispatch (s : State) : Bool :=
  match s.settings.mode with
  | .parallel => true
  | .sequential => s.tasks.isEmpty

/-- Items of the whole run: those taken over first, then the others as they were finished; one at a
time means the order of the source. -/
def allItems (s : State) : List Item :=
  let items := s.restored ++ s.finished
  match s.settings.mode with
  | .parallel => items
  | .sequential => items.mergeSort (fun a b => a.position ≤ b.position)

/-- Returns from the run. -/
def leave (s : State) : State :=
  match s.fatal with
  | some fault => { s with stage := .returned (.error fault) }
  | none =>
    match s.monitor.snapshot with
    | .error _ => { s with stage := .unwound }
    | .ok health =>
      { s with stage := .returned (.ok ⟨s.allItems, s.aborted, s.cancelled, health⟩) }

/-- State after a step of the dispatcher. -/
def dispatch? (s : State) (action : Action) : Option State :=
  match s.stage, action, s.waiting with
  | .dispatching, .skipNext panic, item :: rest =>
    if s.stopped && s.canDispatch && !s.holding then some (s.skipNext item rest panic) else none
  | .dispatching, .takePermit, _ :: _ =>
    if !s.stopped && s.canDispatch && !s.holding && s.free != 0 then
      some { s with free := s.free - 1, holding := true }
    else none
  | .dispatching, .spawn, item :: rest =>
    if s.holding then
      some { s with
        waiting := rest
        holding := false
        tasks := s.tasks ++ [{ number := s.dispatched, item }]
        dispatched := s.dispatched + 1 }
    else none
  | .dispatching, .flush, [] =>
    if s.tasks.isEmpty then
      let batch := if s.keepsCheckpoint then s.unflushed else []
      some { s with unflushed := [], stage := .flushing batch }
    else none
  | .flushing batch, .close fault, _ =>
    if batch.isEmpty then some s.leave else some (s.recorded batch fault).leave
  | _, _, _ => none

/-- State after an action, if it is possible. -/
def step? (s : State) (action : Action) : Option State :=
  match s.stage with
  | .returned _ => none
  | .unwound => none
  | _ =>
    match action with
    | .advance target => if s.canAdvance target then some { s with clock := target } else none
    | .cancel => some s.cancel
    | .task number move =>
      match s.task? number with
      | some task => s.move? task move
      | none => none
    | action => s.dispatch? action

end State

/-- What can follow a state. -/
inductive Reaches : State → State → Prop
  | here (s : State) : Reaches s s
  | step {s t u : State} {action : Action} (before : Reaches s t)
      (h : t.step? action = some u) : Reaches s u

end Run
end BatchRun
