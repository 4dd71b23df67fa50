import BatchRun.Run.Step

/-!
# Turns of tasks

A step of a task is split into its *effect* on a run and the rule that allows it.

**Type.**
An `Effect` tells what becomes of the task, what is seen, which faults arise, and which shared
parts of the run change.  `Effect.apply` makes the change.

**Rules.**
`Turn` lists all that a task can do, one constructor a rule; those of a task whose item is at its
end are the rules of `Closing`.  Three parts that several rules have in common stand apart:

* `Admits`: an item that has its first token;
* `Retries`: an item that asks for a token for another attempt;
* `Interrupts`: an item that does not wait any longer.

**Results.**
* `does_of_move?`: every step of a task is the effect of one of the rules.
-/

namespace BatchRun
namespace Run

/-- Whether the item of a task has moved to its last status. -/
def Phase.isEnding : Phase → Bool
  | persisting => true
  | buffering => true
  | saving _ => true
  | finishing => true
  | _ => false

/-- What becomes of a task. -/
inductive Fate where
  /-- It goes on in another phase. -/
  | goesOn (task : Task)
  /-- It ends, and its item is finished. -/
  | files (item : Item)
  /-- It breaks off, and its item is lost. -/
  | loses

namespace Fate

/-- End of a task, unless an observer breaks it off. -/
@[simp] def ofPanic (item : Item) : Option String → Fate
  | none => .files item
  | some _ => .loses

/-- The tasks of a run afterwards. -/
@[simp] def tasks (number : Nat) (old : List Task) : Fate → List Task
  | goesOn task => old.map fun other => if other.number = number then task else other
  | files _ => old.filter fun other => other.number != number
  | loses => old.filter fun other => other.number != number

/-- The item that is finished, if there is one. -/
@[simp] def filed : Fate → List Item
  | goesOn _ => []
  | files item => [item]
  | loses => []

/-- Number of permits that become free. -/
@[simp] def freed : Fate → Nat
  | goesOn _ => 0
  | files _ => 1
  | loses => 1

end Fate

/-- Change of a run by a step of a task. -/
structure Effect where
  fate : Fate
  /-- What is seen, the first event first. -/
  events : List Event := []
  /-- Faults in the order in which they arise. -/
  faults : List RunFault := []
  /-- Whether dispatch stops because the item failed. -/
  aborts : Bool := false
  throttle : Option Throttle := none
  registry : Option Registry := none
  monitor : Option Monitor := none
  unflushed : Option (List CheckpointEntry) := none
  /-- Entries that were written to the checkpoint. -/
  saved : List CheckpointEntry := []

/-- Run after faults, the first of which halts it. -/
def State.faulted (s : State) (faults : List RunFault) : State :=
  { s with
    stopped := s.stopped || !faults.isEmpty
    haltedAt := if faults.isEmpty then s.haltedAt else s.haltedAt.or (some s.clock)
    fatal := s.fatal.or faults.head? }

/-- Run in which something was seen, the first event first. -/
def State.seen (s : State) (events : List Event) : State :=
  { s with events := events.reverse.map (fun event => (s.clock, event)) ++ s.events }

/-- Run after a change by a task. -/
def Effect.apply (effect : Effect) (s : State) (number : Nat) : State :=
  { s.faulted effect.faults with
    throttle := effect.throttle.getD s.throttle
    registry := effect.registry.getD s.registry
    monitor := effect.monitor.getD s.monitor
    tasks := effect.fate.tasks number s.tasks
    finished := s.finished ++ effect.fate.filed
    free := s.free + effect.fate.freed
    aborted := s.aborted || effect.aborts
    stopped := s.stopped || effect.aborts || !effect.faults.isEmpty
    saved := s.saved.recordAll effect.saved
    unflushed := effect.unflushed.getD s.unflushed
    events := (s.seen effect.events).events }

/-- Item after a move, or as it was when the move was rejected. -/
@[simp] def settled (item : Item) : Except RejectedMove Item → Item
  | .ok moved => moved
  | .error _ => item

/-- Fault of a move. -/
@[simp] def moveFaults : Except RejectedMove Item → List RunFault
  | .ok _ => []
  | .error move => [.move move]

/-- Fault of an observer that breaks off. -/
@[simp] def panicFaults (id : String) : Option String → List RunFault
  | none => []
  | some message => [.panicked id message]

/-- Sample of an attempt. -/
def sampleOf (outcome : Except AttemptFailure Json) (latency : Nat) : Sample :=
  ⟨match outcome with | .ok _ => true | .error _ => false, latency⟩

/-- Whether a move happened. -/
def hasMoved : Except RejectedMove Item → Bool
  | .ok _ => true
  | .error _ => false

section Rules

variable (s : State) (task : Task)

/-- Answer to a request for a token. -/
def State.token : Throttle × Wait :=
  s.throttle.acquire s.settings.destination (s.clock * nanosPerTick)

/-- Pause before another attempt, in nanoseconds. -/
def State.backoff (failure : AttemptFailure) : Nat :=
  s.settings.retry.pauseAfter task.item.attempts failure.retryAfter

/-- An attempt has ended, and the health of the destination was brought up to date. -/
structure Samples (outcome : Except AttemptFailure Json) (latency : Nat) (monitor : Monitor) :
    Prop where
  phase : task.phase = .answered outcome latency
  record : s.monitor.record s.settings.destination (sampleOf outcome latency) = (monitor, .ok ())

/-- An item has its first token, at once or after a wait. -/
inductive Admits : Option Throttle → List Event → Prop
  | atOnce {throttle : Throttle} (phase : task.phase = .spawned) (running : s.stopped = false)
      (token : s.token = (throttle, .none)) :
      Admits (some throttle) [.reserved task.item s.clock]
  | afterWait {due : Nat} (phase : task.phase = .throttled due) (running : s.stopped = false)
      (come : due ≤ s.clock) : Admits none []

/-- An item asks for a token for another attempt, after a pause if there has to be one. -/
inductive Retries : Option Monitor → List Event → Prop
  | atOnce {failure : AttemptFailure} {latency : Nat} {monitor : Monitor}
      (samples : Samples s task (.error failure) latency monitor)
      (again : s.isLastFailure task failure = false) (going : s.isHalted = false)
      (delay : s.backoff task failure = 0) :
      Retries (some monitor)
        [.sampled task.item (.error failure) latency,
          .retrying task.item failure (s.backoff task failure)]
  | afterPause {due : Nat} (phase : task.phase = .pausing due) (going : s.isHalted = false)
      (come : due ≤ s.clock) : Retries none []

/-- An item does not wait any longer, because the run has halted. -/
inductive Interrupts : Move → Option Monitor → List Event → Prop
  | inCall {since grace : Nat} (phase : task.phase = .calling since)
      (halt : s.graceTick? since = some grace) (come : grace ≤ s.clock) :
      Interrupts .giveUp none []
  | inPause {due : Nat} (panic : Option String)
      (phase : task.phase = .pausing due ∨ task.phase = .rethrottled due)
      (halt : s.isHalted = true) : Interrupts (.resume panic) none []
  | afterCall {failure : AttemptFailure} {latency : Nat} {monitor : Monitor}
      (samples : Samples s task (.error failure) latency monitor)
      (again : s.isLastFailure task failure = false) (halt : s.isHalted = true) :
      Interrupts (.resume none) (some monitor)
        [.sampled task.item (.error failure) latency,
          .retrying task.item failure (s.backoff task failure)]

/-- A call has ended: with a reply, or because its time is over. -/
inductive Answers (since : Nat) : Move → Except AttemptFailure Json → Prop
  | replied (reply : Reply) : Answers since (.reply reply) reply.outcome
  | expired (come : s.timeoutTick since ≤ s.clock) :
      Answers since .expire (.error (.deadlineExceeded s.settings.itemTimeout))

/-- Move of an item that has a result, and the registry of results afterwards. -/
inductive Compares (result : Json) : Option Registry → Except RejectedMove Item → Prop
  | unchecked (off : s.settings.deduplicate = false) :
      Compares result none (task.item.succeed result s.stamp)
  | first {registry : Registry} (on : s.settings.deduplicate = true)
      (record : s.registry.record result task.item.id = (registry, none)) :
      Compares result (some registry) (task.item.succeed result s.stamp)
  | duplicate {registry : Registry} {firstId : String} (on : s.settings.deduplicate = true)
      (record : s.registry.record result task.item.id = (registry, some firstId)) :
      Compares result (some registry) (task.item.skip (.duplicate firstId) s.stamp)

/-- Task after a move of its item to its last status. -/
def State.ended (moved : Except RejectedMove Item) : Task :=
  { task with item := settled task.item moved, phase := s.endingPhase (settled task.item moved) }

/-- Task in another attempt for an item. -/
def State.attempted (item : Item) : Task :=
  { task with item := item.beginAttempt, phase := .calling s.clock }

/-- What a task can do about the record of its item, about the checkpoint, and in the end. -/
inductive Closing : Move → Effect → Prop
  | persists (location : String) (phase : task.phase = .persisting) :
      Closing (.persist (.ok location))
        { fate := .goesOn
            { task with item := { task.item with location := some location }, phase := .buffering }
          events := [.persisted { task.item with location := some location }] }
  | persistsNot (fault : OutputFault) (phase : task.phase = .persisting) :
      Closing (.persist (.error fault))
        { fate := .goesOn { task with phase := .finishing }, faults := [.output fault] }
  /-- There is no checkpoint. -/
  | passes (panic : Option String) (phase : task.phase = .buffering)
      (off : s.keepsCheckpoint = false) :
      Closing (.resume panic) { fate := .goesOn { task with phase := .finishing } }
  | buffers (panic : Option String) (phase : task.phase = .buffering)
      (on : s.keepsCheckpoint = true)
      (short : s.unflushed.length + 1 < s.settings.checkpointInterval) :
      Closing (.resume panic)
        { fate := .goesOn { task with phase := .finishing }
          unflushed := some (s.unflushed ++ [task.item.checkpointEntry]) }
  /-- The next checkpoint is large enough. -/
  | flushes (panic : Option String) (phase : task.phase = .buffering)
      (on : s.keepsCheckpoint = true)
      (long : s.settings.checkpointInterval ≤ s.unflushed.length + 1) :
      Closing (.resume panic)
        { fate := .goesOn
            { task with phase := .saving (s.unflushed ++ [task.item.checkpointEntry]) }
          unflushed := some [] }
  | saves {batch : List CheckpointEntry} (phase : task.phase = .saving batch) :
      Closing (.save none)
        { fate := .goesOn { task with phase := .finishing }
          events := [.saved batch]
          saved := batch }
  | savesNot {batch : List CheckpointEntry} (fault : CheckpointFault)
      (phase : task.phase = .saving batch) :
      Closing (.save (some fault))
        { fate := .goesOn { task with phase := .finishing }, faults := [.checkpoint fault] }
  | finishes (panic : Option String) (phase : task.phase = .finishing) :
      Closing (.resume panic)
        { fate := .ofPanic task.item panic
          events := [.finished task.item]
          faults := panicFaults task.item.id panic }

/-- What a task can do. -/
inductive Turn : Move → Effect → Prop
  /-- Dispatch has stopped: the item is skipped. -/
  | turnsAway {moved : Except RejectedMove Item} (panic : Option String)
      (phase : task.phase = .spawned ∨ ∃ due, task.phase = .throttled due)
      (stop : s.stopped = true) (skip : task.item.skip s.skipReason s.stamp = moved) :
      Turn (.resume panic)
        { fate := .ofPanic (settled task.item moved) panic
          events := [.finished (settled task.item moved)]
          faults := moveFaults moved ++ panicFaults task.item.id panic }
  /-- The item has to wait for its first token. -/
  | waits {throttle : Throttle} {wait : Wait} (panic : Option String)
      (phase : task.phase = .spawned) (running : s.stopped = false)
      (token : s.token = (throttle, wait)) (late : wait ≠ .none) :
      Turn (.resume panic)
        { fate := .goesOn { task with phase := .throttled (wait.tick s.clock) }
          events := [.reserved task.item (wait.tick s.clock)]
          throttle := some throttle }
  /-- The item cannot be started. -/
  | rejects {throttle : Option Throttle} {events : List Event} {move : RejectedMove}
      (panic : Option String) (admits : Admits s task throttle events)
      (start : task.item.start s.stamp = .error move) :
      Turn (.resume panic)
        { fate := .files task.item, events, faults := [.move move], throttle }
  /-- An observer breaks off when the item is started. -/
  | breaksAtStart {throttle : Option Throttle} {events : List Event} {item : Item}
      (message : String) (admits : Admits s task throttle events)
      (start : task.item.start s.stamp = .ok item) :
      Turn (.resume (some message))
        { fate := .loses
          events := events ++ [.started item]
          faults := [.panicked task.item.id message]
          throttle }
  /-- The first attempt begins. -/
  | starts {throttle : Option Throttle} {events : List Event} {item : Item}
      (admits : Admits s task throttle events) (start : task.item.start s.stamp = .ok item) :
      Turn (.resume none)
        { fate := .goesOn (s.attempted task item)
          events := events ++ [.started item, .called item.beginAttempt s.callLimit]
          throttle }
  | answers {since : Nat} {move : Move} {outcome : Except AttemptFailure Json}
      (phase : task.phase = .calling since) (ends : Answers s since move outcome) :
      Turn move
        { fate := .goesOn { task with phase := .answered outcome (s.clock - since) } }
  /-- The health of the destination cannot be kept. -/
  | breaksInSample {outcome : Except AttemptFailure Json} {latency : Nat} {monitor : Monitor}
      {fault : HealthFault} (panic : Option String) (phase : task.phase = .answered outcome latency)
      (record : s.monitor.record s.settings.destination (sampleOf outcome latency)
        = (monitor, .error fault)) :
      Turn (.resume panic)
        { fate := .loses
          faults := [.panicked task.item.id fault.message]
          monitor := some monitor }
  /-- There is a result. -/
  | succeeds {result : Json} {latency : Nat} {monitor : Monitor} (panic : Option String)
      (samples : Samples s task (.ok result) latency monitor) :
      Turn (.resume panic)
        { fate := .goesOn { task with phase := .comparing result }
          events := [.sampled task.item (.ok result) latency]
          monitor := some monitor }
  /-- The last attempt has failed. -/
  | fails {failure : AttemptFailure} {latency : Nat} {monitor : Monitor}
      {moved : Except RejectedMove Item} (panic : Option String)
      (samples : Samples s task (.error failure) latency monitor)
      (last : s.isLastFailure task failure = true)
      (fail : task.item.fail failure.toItemFailure s.stamp = moved) :
      Turn (.resume panic)
        { fate := .goesOn (s.ended task moved)
          events := [.sampled task.item (.error failure) latency]
          faults := moveFaults moved
          aborts := !s.settings.continueOnError && hasMoved moved
          monitor := some monitor }
  /-- An observer breaks off when another attempt is to follow. -/
  | breaksInRetry {failure : AttemptFailure} {latency : Nat} {monitor : Monitor}
      (message : String) (samples : Samples s task (.error failure) latency monitor)
      (again : s.isLastFailure task failure = false) :
      Turn (.resume (some message))
        { fate := .loses
          events :=
            [.sampled task.item (.error failure) latency,
              .retrying task.item failure (s.backoff task failure)]
          faults := [.panicked task.item.id message]
          monitor := some monitor }
  | pauses {failure : AttemptFailure} {latency : Nat} {monitor : Monitor}
      (samples : Samples s task (.error failure) latency monitor)
      (again : s.isLastFailure task failure = false) (going : s.isHalted = false)
      (delay : s.backoff task failure ≠ 0) :
      Turn (.resume none)
        { fate := .goesOn
            { task with phase := .pausing (tickAfter s.clock (s.backoff task failure)) }
          events :=
            [.sampled task.item (.error failure) latency,
              .retrying task.item failure (s.backoff task failure)]
          monitor := some monitor }
  /-- The item has to wait for a token for another attempt. -/
  | rewaits {monitor : Option Monitor} {events : List Event} {throttle : Throttle} {wait : Wait}
      (panic : Option String) (retries : Retries s task monitor events)
      (token : s.token = (throttle, wait)) (late : wait ≠ .none) :
      Turn (.resume panic)
        { fate := .goesOn { task with phase := .rethrottled (wait.tick s.clock) }
          events := events ++ [.reserved task.item (wait.tick s.clock)]
          throttle := some throttle
          monitor }
  /-- Another attempt begins. -/
  | recalls {monitor : Option Monitor} {events : List Event} {throttle : Throttle}
      (panic : Option String) (retries : Retries s task monitor events)
      (token : s.token = (throttle, .none)) :
      Turn (.resume panic)
        { fate := .goesOn (s.attempted task task.item)
          events := events
            ++ [.reserved task.item s.clock, .called task.item.beginAttempt s.callLimit]
          throttle := some throttle
          monitor }
  /-- Another attempt begins after a wait for its token. -/
  | recallsAfterWait {due : Nat} (panic : Option String) (phase : task.phase = .rethrottled due)
      (going : s.isHalted = false) (come : due ≤ s.clock) :
      Turn (.resume panic)
        { fate := .goesOn (s.attempted task task.item)
          events := [.called task.item.beginAttempt s.callLimit] }
  | interrupts {move : Move} {monitor : Option Monitor} {events : List Event}
      {moved : Except RejectedMove Item} (stops : Interrupts s task move monitor events)
      (skip : task.item.skip .cancelled s.stamp = moved) :
      Turn move
        { fate := .goesOn (s.ended task moved)
          events := events ++ [.interrupted task.item]
          faults := moveFaults moved
          monitor }
  /-- The item ends with its result, or as a duplicate. -/
  | completes {result : Json} {registry : Option Registry} {moved : Except RejectedMove Item}
      (panic : Option String) (phase : task.phase = .comparing result)
      (compares : Compares s task result registry moved) :
      Turn (.resume panic)
        { fate := .goesOn (s.ended task moved), faults := moveFaults moved, registry }
  /-- The item is at its end. -/
  | closes {move : Move} {effect : Effect} (closing : Closing s task move effect) :
      Turn move effect

end Rules

section Endings

variable {s : State} {task : Task} {move : Move} {effect : Effect}

theorem isEnding_of_admits
    {throttle : Option Throttle} {events : List Event}
    (admits : Admits s task throttle events) :
    task.phase.isEnding = false := by
  cases admits with
  | atOnce phase | afterWait phase => rw [phase]; rfl

theorem isEnding_of_retries
    {monitor : Option Monitor} {events : List Event}
    (retries : Retries s task monitor events) :
    task.phase.isEnding = false := by
  cases retries with
  | atOnce samples => rw [samples.phase]; rfl
  | afterPause phase => rw [phase]; rfl

theorem isEnding_of_interrupts
    {monitor : Option Monitor} {events : List Event}
    (stops : Interrupts s task move monitor events) :
    task.phase.isEnding = false := by
  cases stops with
  | inCall phase => rw [phase]; rfl
  | inPause _ phase => rcases phase with phase | phase <;> rw [phase] <;> rfl
  | afterCall samples => rw [samples.phase]; rfl

theorem isEnding_of_closing
    (closing : Closing s task move effect) :
    task.phase.isEnding = true := by
  cases closing with
  | persists _ phase | persistsNot _ phase | passes _ phase | buffers _ phase | flushes _ phase
  | saves phase | savesNot _ phase | finishes _ phase => rw [phase]; rfl

/-- Only the rules of `Closing` are for a task whose item is at its end. -/
theorem closing_of_turn
    (turn : Turn s task move effect)
    (ending : task.phase.isEnding = true) :
    Closing s task move effect := by
  cases turn with
  | closes closing => exact closing
  | turnsAway panic phase =>
      rcases phase with hphase | ⟨due, hphase⟩ <;> rw [hphase] at ending <;> cases ending
  | rejects _ admits | breaksAtStart _ admits | starts admits =>
      rw [isEnding_of_admits admits] at ending
      cases ending
  | rewaits _ retries | recalls _ retries =>
      rw [isEnding_of_retries retries] at ending
      cases ending
  | interrupts stops =>
      rw [isEnding_of_interrupts stops] at ending
      cases ending
  | succeeds _ samples | fails _ samples | breaksInRetry _ samples | pauses samples =>
      rw [samples.phase] at ending
      cases ending
  | waits _ phase | answers phase | breaksInSample _ phase | recallsAfterWait _ phase
  | completes _ phase =>
      rw [phase] at ending
      cases ending

end Endings

section Steps

variable {s t : State} {task : Task}

/-- A step of a task is the effect of a rule. -/
def Does (s : State) (task : Task) (move : Move) (t : State) : Prop :=
  ∃ effect : Effect, Turn s task move effect ∧ t = effect.apply s task.number

theorem does_turnAway
    (panic : Option String)
    (phase : task.phase = .spawned ∨ ∃ due, task.phase = .throttled due)
    (stop : s.stopped = true) :
    Does s task (.resume panic) (s.turnAway task panic) := by
  refine ⟨_, .turnsAway panic phase stop rfl, ?_⟩
  cases hskip : task.item.skip s.skipReason s.stamp <;> cases panic <;>
    simp [State.turnAway, State.skipped, hskip, State.lose, State.fail, State.halt, State.release,
      State.file, State.log, Effect.apply, State.faulted, State.seen]

theorem does_launch
    {throttle : Option Throttle} {events : List Event}
    (panic : Option String)
    (admits : Admits s task throttle events) :
    Does s task (.resume panic)
      ((State.seen { s with throttle := throttle.getD s.throttle } events).launch task panic) := by
  cases hstart : task.item.start s.stamp with
  | error move =>
      refine ⟨_, .rejects panic admits hstart, ?_⟩
      have hstart' : task.item.start (Time.Timestamp.ofMillis s.clock) = .error move := hstart
      simp [State.launch, State.stamp, hstart', State.fail, State.halt, State.release, State.file,
        Effect.apply, State.faulted, State.seen]
  | ok item =>
      have hstart' : task.item.start (Time.Timestamp.ofMillis s.clock) = .ok item := hstart
      cases panic with
      | some message =>
          refine ⟨_, .breaksAtStart message admits hstart, ?_⟩
          simp [State.launch, State.stamp, hstart', State.lose, State.fail, State.halt,
            State.release, State.log, Effect.apply, State.faulted, State.seen]
      | none =>
          refine ⟨_, .starts admits hstart, ?_⟩
          simp [State.launch, State.stamp, hstart', State.call, State.put, State.log,
            State.callLimit, State.settings, State.attempted, Effect.apply, State.faulted,
            State.seen]

theorem does_interrupt
    {move : Move} {monitor : Option Monitor} {events : List Event}
    (stops : Interrupts s task move monitor events) :
    Does s task move
      ((State.seen { s with monitor := monitor.getD s.monitor } events).interrupt task) := by
  refine ⟨_, .interrupts stops rfl, ?_⟩
  cases hskip : task.item.skip .cancelled (Time.Timestamp.ofMillis s.clock) <;>
    simp [State.interrupt, State.settle, State.stamp, hskip, State.fail, State.halt, State.put,
      State.log, State.ended, State.endingPhase, Effect.apply, State.faulted, State.seen]

theorem does_rearm
    {monitor : Option Monitor} {events : List Event}
    (panic : Option String)
    (retries : Retries s task monitor events) :
    Does s task (.resume panic)
      ((State.seen { s with monitor := monitor.getD s.monitor } events).rearm task) := by
  rcases htoken : s.token with ⟨throttle, wait⟩
  have hacquire :
      s.throttle.acquire s.setup.settings.destination (s.clock * nanosPerTick)
        = (throttle, wait) := htoken
  by_cases hwait : wait = .none
  · subst hwait
    refine ⟨_, .recalls panic retries htoken, ?_⟩
    simp [State.rearm, State.withToken, State.settings, hacquire, Wait.tick, State.call, State.put,
      State.log, State.callLimit, State.attempted, Effect.apply, State.faulted, State.seen]
  · refine ⟨_, .rewaits panic retries htoken hwait, ?_⟩
    cases wait with
    | none => exact absurd rfl hwait
    | nanos _ | endless =>
        simp [State.rearm, State.withToken, State.settings, hacquire, Wait.tick, State.put,
          State.log, Effect.apply, State.faulted, State.seen]

theorem does_retry
    {failure : AttemptFailure} {latency : Nat} {monitor : Monitor}
    (panic : Option String)
    (samples : Samples s task (.error failure) latency monitor)
    (again : s.isLastFailure task failure = false) :
    Does s task (.resume panic)
      ((State.log { s with monitor } (.sampled task.item (.error failure) latency)).retry task
        failure panic) := by
  cases panic with
  | some message =>
      refine ⟨_, .breaksInRetry message samples again, ?_⟩
      simp [State.retry, State.log, State.lose, State.fail, State.halt, State.release,
        State.backoff, State.settings, Effect.apply, State.faulted, State.seen]
  | none =>
      cases hhalt : s.isHalted with
      | true =>
          have h := does_interrupt (.afterCall samples again hhalt)
          have hhalt' : s.haltedAt.isSome = true := hhalt
          simpa [State.seen, State.retry, State.log, State.isHalted, hhalt', State.backoff,
            State.settings] using h
      | false =>
          have hhalt' : s.haltedAt = none := by
            simpa [State.isHalted] using hhalt
          by_cases hdelay : s.backoff task failure = 0
          · have h := does_rearm none (.atOnce samples again hhalt hdelay)
            rw [hdelay] at h
            have hdelay' : s.setup.settings.retry.pauseAfter task.item.attempts
                failure.retryAfter = 0 := hdelay
            simpa [State.seen, State.retry, State.log, State.isHalted, hhalt', State.settings,
              hdelay'] using h
          · refine ⟨_, .pauses samples again hhalt hdelay, ?_⟩
            have hdelay' : ¬ s.setup.settings.retry.pauseAfter task.item.attempts
                failure.retryAfter = 0 := hdelay
            simp [State.retry, State.log, State.isHalted, hhalt', State.settings, hdelay',
              State.put, State.backoff, Effect.apply, State.faulted, State.seen]

theorem does_failItem
    {failure : AttemptFailure} {latency : Nat} {monitor : Monitor}
    (panic : Option String)
    (samples : Samples s task (.error failure) latency monitor)
    (last : s.isLastFailure task failure = true) :
    Does s task (.resume panic)
      ((State.log { s with monitor } (.sampled task.item (.error failure) latency)).failItem task
        failure) := by
  refine ⟨_, .fails panic samples last rfl, ?_⟩
  cases hfail : task.item.fail failure.toItemFailure (Time.Timestamp.ofMillis s.clock) <;>
    cases hgo : s.setup.settings.continueOnError <;>
    simp [State.failItem, State.stamp, hfail, hgo, State.settings, State.settle, State.abort,
      State.fail, State.halt, State.put, State.log, State.ended, State.endingPhase, hasMoved,
      Effect.apply, State.faulted, State.seen]

theorem judge_of_error
    {outcome : Except AttemptFailure Json} {latency : Nat} {monitor : Monitor}
    {fault : HealthFault}
    (panic : Option String)
    (record : s.monitor.record s.settings.destination (sampleOf outcome latency)
      = (monitor, .error fault)) :
    s.judge task outcome latency panic = State.lose { s with monitor } task fault.message := by
  cases outcome <;> simp only [sampleOf] at record <;> simp [State.judge, record]

theorem judge_of_ok
    {outcome : Except AttemptFailure Json} {latency : Nat} {monitor : Monitor}
    (panic : Option String)
    (record : s.monitor.record s.settings.destination (sampleOf outcome latency)
      = (monitor, .ok ())) :
    s.judge task outcome latency panic =
      let u := State.log { s with monitor } (.sampled task.item outcome latency)
      match outcome with
      | .ok result => u.put { task with phase := .comparing result }
      | .error failure =>
        if s.isLastFailure task failure then u.failItem task failure
        else u.retry task failure panic := by
  cases outcome with
  | ok result =>
      simp only [sampleOf] at record
      simp only [State.judge, record]
  | error failure =>
      simp only [sampleOf] at record
      simp only [State.judge, record]
      rfl

theorem does_judge
    {outcome : Except AttemptFailure Json} {latency : Nat}
    (panic : Option String)
    (phase : task.phase = .answered outcome latency) :
    Does s task (.resume panic) (s.judge task outcome latency panic) := by
  rcases hrecord : s.monitor.record s.settings.destination (sampleOf outcome latency)
    with ⟨monitor, answer⟩
  cases answer with
  | error fault =>
      refine ⟨_, .breaksInSample panic phase hrecord, ?_⟩
      rw [judge_of_error panic hrecord]
      simp [State.lose, State.fail, State.halt, State.release, Effect.apply, State.faulted,
        State.seen]
  | ok _ =>
      have samples : Samples s task outcome latency monitor := ⟨phase, hrecord⟩
      rw [judge_of_ok panic hrecord]
      cases outcome with
      | ok result =>
          refine ⟨_, .succeeds panic samples, ?_⟩
          simp [State.log, State.put, Effect.apply, State.faulted, State.seen]
      | error failure =>
          cases hlast : s.isLastFailure task failure with
          | true => simpa [hlast] using does_failItem panic samples hlast
          | false => simpa [hlast] using does_retry panic samples hlast

theorem does_compare
    {result : Json}
    (panic : Option String)
    (phase : task.phase = .comparing result) :
    Does s task (.resume panic) (s.compare task result) := by
  have hstamp : s.stamp = Time.Timestamp.ofMillis s.clock := rfl
  cases hcheck : s.settings.deduplicate with
  | false =>
      refine ⟨_, .completes panic phase (.unchecked hcheck), ?_⟩
      cases hmove : task.item.succeed result s.stamp <;>
        simp [State.compare, hcheck, hmove, State.settle, State.fail, State.halt, State.put,
          State.ended, State.endingPhase, Effect.apply, State.faulted, State.seen]
  | true =>
      rcases hrecord : s.registry.record result task.item.id with ⟨registry, owner⟩
      cases owner with
      | none =>
          refine ⟨_, .completes panic phase (.first hcheck hrecord), ?_⟩
          rw [hstamp]
          cases hmove : task.item.succeed result (Time.Timestamp.ofMillis s.clock) <;>
            simp [State.compare, hcheck, hrecord, State.stamp, hmove, State.settle, State.fail,
              State.halt, State.put, State.ended, State.endingPhase, Effect.apply, State.faulted,
              State.seen]
      | some firstId =>
          refine ⟨_, .completes panic phase (.duplicate hcheck hrecord), ?_⟩
          rw [hstamp]
          cases hmove : task.item.skip (.duplicate firstId) (Time.Timestamp.ofMillis s.clock) <;>
            simp [State.compare, hcheck, hrecord, State.stamp, hmove, State.settle, State.fail,
              State.halt, State.put, State.ended, State.endingPhase, Effect.apply, State.faulted,
              State.seen]

theorem does_buffer
    (panic : Option String)
    (phase : task.phase = .buffering) :
    Does s task (.resume panic) (s.buffer task) := by
  cases hkeeps : s.keepsCheckpoint with
  | false =>
      refine ⟨_, .closes (.passes panic phase hkeeps), ?_⟩
      simp [State.buffer, hkeeps, State.put, Effect.apply, State.faulted, State.seen]
  | true =>
      by_cases hlong : s.settings.checkpointInterval ≤ s.unflushed.length + 1
      · refine ⟨_, .closes (.flushes panic phase hkeeps hlong), ?_⟩
        simp [State.buffer, hkeeps, hlong, State.put, Effect.apply, State.faulted, State.seen]
      · refine ⟨_, .closes (.buffers panic phase hkeeps (by omega)), ?_⟩
        simp [State.buffer, hkeeps, hlong, State.put, Effect.apply, State.faulted, State.seen]

theorem does_withToken
    (panic : Option String)
    (phase : task.phase = .spawned)
    (running : s.stopped = false) :
    Does s task (.resume panic) (s.withToken task .throttled (·.launch task panic)) := by
  rcases htoken : s.token with ⟨throttle, wait⟩
  have hacquire :
      s.throttle.acquire s.setup.settings.destination (s.clock * nanosPerTick)
        = (throttle, wait) := htoken
  by_cases hwait : wait = .none
  · subst hwait
    have h := does_launch panic (.atOnce phase running htoken)
    simpa [State.seen, State.withToken, State.settings, hacquire, Wait.tick, State.log] using h
  · refine ⟨_, .waits panic phase running htoken hwait, ?_⟩
    cases wait with
    | none => exact absurd rfl hwait
    | nanos _ | endless =>
        simp [State.withToken, State.settings, hacquire, Wait.tick, State.put, State.log,
          Effect.apply, State.faulted, State.seen]

theorem does_answer
    {since : Nat} {move : Move} {outcome : Except AttemptFailure Json}
    (phase : task.phase = .calling since)
    (ends : Answers s since move outcome) :
    Does s task move (s.answer task outcome since) := by
  refine ⟨_, .answers phase ends, ?_⟩
  simp [State.answer, State.put, Effect.apply, State.faulted, State.seen]

theorem does_persisted
    (answer : Except OutputFault String)
    (phase : task.phase = .persisting) :
    Does s task (.persist answer) (s.persisted task answer) := by
  cases answer with
  | ok location =>
      refine ⟨_, .closes (.persists location phase), ?_⟩
      simp [State.persisted, State.put, State.log, Effect.apply, State.faulted, State.seen]
  | error fault =>
      refine ⟨_, .closes (.persistsNot fault phase), ?_⟩
      simp [State.persisted, State.put, State.fail, State.halt, Effect.apply, State.faulted,
        State.seen]

theorem does_recorded
    {batch : List CheckpointEntry}
    (fault : Option CheckpointFault)
    (phase : task.phase = .saving batch) :
    Does s task (.save fault) ((s.recorded batch fault).put { task with phase := .finishing }) := by
  cases fault with
  | none =>
      refine ⟨_, .closes (.saves phase), ?_⟩
      simp [State.recorded, State.put, State.log, Effect.apply, State.faulted, State.seen]
  | some fault =>
      refine ⟨_, .closes (.savesNot fault phase), ?_⟩
      simp [State.recorded, State.put, State.fail, State.halt, Effect.apply, State.faulted,
        State.seen]

theorem does_finish
    (panic : Option String)
    (phase : task.phase = .finishing) :
    Does s task (.resume panic) (s.finish task panic) := by
  refine ⟨_, .closes (.finishes panic phase), ?_⟩
  cases panic <;>
    simp [State.finish, State.lose, State.fail, State.halt, State.release, State.file, State.log,
      Effect.apply, State.faulted, State.seen]

/-- Every step of a task is the effect of a rule. -/
theorem does_of_move?
    {move : Move}
    (h : s.move? task move = some t) :
    Does s task move t := by
  unfold State.move? at h
  split at h
  case h_1 panic phase =>
      split at h
      case isTrue stop =>
          cases h
          exact does_turnAway panic (.inl phase) stop
      case isFalse go =>
          cases h
          exact does_withToken panic phase (by simpa using go)
  case h_2 due panic phase =>
      split at h
      case isTrue stop =>
          cases h
          exact does_turnAway panic (.inr ⟨due, phase⟩) stop
      case isFalse go =>
          split at h
          case isTrue come =>
              cases h
              have come : due ≤ s.clock := by
                simpa [State.hasCome] using come
              simpa [State.seen] using does_launch panic (.afterWait phase (by simpa using go) come)
          case isFalse =>
              cases h
  case h_3 since reply phase =>
      cases h
      exact does_answer phase (.replied reply)
  case h_4 since phase =>
      split at h
      case isTrue come =>
          cases h
          have come : s.timeoutTick since ≤ s.clock := by
            simpa [State.hasCome] using come
          exact does_answer phase (.expired come)
      case isFalse =>
          cases h
  case h_5 since phase =>
      split at h
      case h_1 grace halt =>
          split at h
          case isTrue come =>
              cases h
              have come : grace ≤ s.clock := by
                simpa [State.hasCome] using come
              simpa [State.seen] using does_interrupt (.inCall phase halt come)
          case isFalse =>
              cases h
      case h_2 =>
          cases h
  case h_6 outcome latency panic phase =>
      cases h
      exact does_judge panic phase
  case h_7 due panic phase =>
      split at h
      case isTrue halt =>
          cases h
          simpa [State.seen] using does_interrupt (.inPause panic (.inl phase) halt)
      case isFalse going =>
          split at h
          case isTrue come =>
              cases h
              have come : due ≤ s.clock := by
                simpa [State.hasCome] using come
              simpa [State.seen] using
                does_rearm panic (.afterPause phase (by simpa using going) come)
          case isFalse =>
              cases h
  case h_8 due panic phase =>
      split at h
      case isTrue halt =>
          cases h
          simpa [State.seen] using does_interrupt (.inPause panic (.inr phase) halt)
      case isFalse going =>
          split at h
          case isTrue come =>
              cases h
              have come : due ≤ s.clock := by
                simpa [State.hasCome] using come
              refine ⟨_, .recallsAfterWait panic phase (by simpa using going) come, ?_⟩
              simp [State.call, State.put, State.log, State.attempted, Effect.apply,
                State.faulted, State.seen]
          case isFalse =>
              cases h
  case h_9 result panic phase =>
      cases h
      exact does_compare panic phase
  case h_10 answer phase =>
      cases h
      exact does_persisted answer phase
  case h_11 panic phase =>
      cases h
      exact does_buffer panic phase
  case h_12 batch fault phase =>
      cases h
      exact does_recorded fault phase
  case h_13 panic phase =>
      cases h
      exact does_finish panic phase
  case h_14 =>
      cases h

end Steps

end Run
end BatchRun
