import BatchRun.Run.Environment
import BatchRun.Run.Step

/-!
# Schedule of a run

**Input.**
A first state, an environment, and the time at which the caller cancels the run, if it does.

**Order.**
One actor runs at a time, up to the point where it has to wait.  Those that can go on do so in the
order in which they were woken; the dispatcher goes on before all others, but only after all of
these have come to rest.  When nobody can go on, time jumps to the earliest timer, and the timers
of one tick go off in the order in which they were set.  A file is written by one task at a time,
in the order of asking, and whoever writes lets the others go first a number of times.

**Result.**
`Schedule.run` is the state at the end.  Every change of the state is a step of the run.
-/

namespace BatchRun
namespace Run

/-- Who can wait for something. -/
inductive Actor where
  /-- The dispatcher, which processes the items itself if there is one at a time. -/
  | dispatcher
  /-- The caller who cancels the run. -/
  | caller
  | task (number : Nat)
deriving DecidableEq

/-- A wake-up at a tick. -/
structure Timer where
  tick : Nat
  actor : Actor
deriving DecidableEq

/-- A call under way: the tick of its reply, and the reply. -/
structure PendingReply where
  number : Nat
  tick : Nat
  reply : Option Reply

/-- An actor that writes a file or waits for its turn, with the number of times that it still lets
others go first. -/
structure Writer where
  lane : Lane
  actor : Actor
  turns : Nat

/-- State of a schedule. -/
structure Schedule (σ : Type) where
  state : State
  world : σ
  cancelAt : Option Nat := none
  /-- Whether the dispatcher can go on. -/
  isWoken : Bool := false
  /-- All others that can go on. -/
  ready : List Actor := []
  /-- Timers in the order in which they were set. -/
  timers : List Timer := []
  /-- Actors that wait for the end of dispatch. -/
  onStop : List Actor := []
  /-- Actors that wait for a halt. -/
  onHalt : List Actor := []
  replies : List PendingReply := []
  /-- Writers in the order of asking; the first one of a lane writes. -/
  writers : List Writer := []
  /-- Actors that let others go first. -/
  yielding : List Actor := []

namespace Schedule

variable {σ : Type}

/-- Lets an actor go on. -/
def wake (s : Schedule σ) (actor : Actor) : Schedule σ :=
  if actor = .dispatcher then { s with isWoken := true }
  else if s.ready.contains actor then s
  else { s with ready := s.ready ++ [actor] }

/-- Lets several actors go on. -/
def wakeAll (s : Schedule σ) (actors : List Actor) : Schedule σ := actors.foldl wake s

/-- Wakes those who wait for a signal that has been given. -/
def signal (s : Schedule σ) : Schedule σ :=
  let s := if s.state.isHalted then { (s.wakeAll s.onHalt) with onHalt := [] } else s
  if s.state.stopped then { (s.wakeAll s.onStop) with onStop := [] } else s

/-- Takes a step of the run, if it is possible. -/
def act (s : Schedule σ) (action : Action) : Schedule σ :=
  match s.state.step? action with
  | some state => signal { s with state }
  | none => s

/-- Sets a timer, unless the actor has one at the tick. -/
def setTimer (s : Schedule σ) (tick : Nat) (actor : Actor) : Schedule σ :=
  if s.timers.contains ⟨tick, actor⟩ then s
  else { s with timers := s.timers ++ [⟨tick, actor⟩] }

/-- Forgets all that an actor waits for. -/
def forget (s : Schedule σ) (actor : Actor) : Schedule σ :=
  { s with
    timers := s.timers.filter (·.actor ≠ actor)
    onStop := s.onStop.filter (· ≠ actor)
    onHalt := s.onHalt.filter (· ≠ actor) }

/-- Waits for the end of dispatch. -/
def awaitStop (s : Schedule σ) (actor : Actor) : Schedule σ :=
  if s.state.stopped || s.onStop.contains actor then s
  else { s with onStop := s.onStop ++ [actor] }

/-- Waits for a halt. -/
def awaitHalt (s : Schedule σ) (actor : Actor) : Schedule σ :=
  if s.state.isHalted || s.onHalt.contains actor then s
  else { s with onHalt := s.onHalt ++ [actor] }

/-- Waits for the end of the time that a halt leaves to a call. -/
def awaitGrace (s : Schedule σ) (actor : Actor) (since : Nat) : Schedule σ :=
  match s.state.graceTick? since with
  | some grace => s.setTimer grace actor
  | none => s.awaitHalt actor

/-- Begins the call of a task. -/
def beginCall (env : Environment σ) (s : Schedule σ) (actor : Actor) (task : Task)
    (since : Nat) : Schedule σ :=
  let (world, plan) := env.call s.world task.item
  let s := { s with world }
  let s := if plan.cancels then s.act .cancel else s
  let tick := tickAfter since plan.delay
  let s := if plan.delay = 0 then s else s.setTimer tick actor
  let s := s.setTimer (s.state.timeoutTick since) actor
  let pending : PendingReply := ⟨task.number, tick, plan.reply⟩
  awaitGrace { s with replies := s.replies ++ [pending] } actor since

/-- Begins to wait for what a phase waits for. -/
def enter (env : Environment σ) (s : Schedule σ) (actor : Actor) (task : Task) : Schedule σ :=
  match task.phase with
  | .throttled due => (s.awaitStop actor).setTimer due actor
  | .calling since => s.beginCall env actor task since
  | .pausing due => (s.awaitHalt actor).setTimer due actor
  | .rethrottled due => (s.awaitHalt actor).setTimer due actor
  | _ => s

/-- Takes a step of a task; its actor forgets what it waited for and begins to wait anew.  At the
end of a task the dispatcher can go on. -/
def advanceTask (env : Environment σ) (s : Schedule σ) (actor : Actor) (number : Nat)
    (move : Move) : Schedule σ :=
  let s := (s.forget actor).act (.task number move)
  match s.state.task? number with
  | some task => s.enter env actor task
  | none => { s with isWoken := true }

/-- Whether an actor is the first one of its lane. -/
def isFirst (s : Schedule σ) (lane : Lane) (actor : Actor) : Bool :=
  match s.writers.find? (fun writer => writer.lane = lane) with
  | some writer => writer.actor = actor
  | none => false

/-- Takes an actor out of a lane; the next one of the lane can go on. -/
def leaveLane (s : Schedule σ) (lane : Lane) (actor : Actor) : Schedule σ :=
  let s := { s with
    writers := s.writers.filter fun writer => writer.lane ≠ lane || writer.actor ≠ actor }
  match s.writers.find? (fun writer => writer.lane = lane) with
  | some writer => s.wake writer.actor
  | none => s

/-- Waits for the turn to write and lets others go first.  `true` once the actor may write. -/
def takeTurn (s : Schedule σ) (lane : Lane) (actor : Actor) (turns : Nat) : Schedule σ × Bool :=
  if turns = 0 then (s, true)
  else
    let isHere (writer : Writer) : Bool := writer.lane = lane && writer.actor = actor
    let s :=
      if s.writers.any isHere then s
      else { s with writers := s.writers ++ [⟨lane, actor, turns⟩] }
    if !s.isFirst lane actor then (s, false)
    else
      match s.writers.find? isHere with
      | none => (s, true)
      | some writer =>
        if writer.turns = 0 then (s, true)
        else
          ({ s with
            writers := s.writers.map fun other =>
              if isHere other then { other with turns := other.turns - 1 } else other
            yielding := s.yielding ++ [actor] }, false)

/-- What an observer says to the step that a task takes next. -/
def panics (env : Environment σ) (task : Task) : Option String :=
  match task.phase with
  | .spawned => none
  | .answered _ _ => env.panics .retrying task.item
  | .finishing => env.panics .finished task.item
  | _ => none

/-- What an observer says when a task whose turn has come starts its item or skips it. -/
def panicsAtStart (env : Environment σ) (s : Schedule σ) (task : Task) : Option String :=
  env.panics (if s.state.stopped then .finished else .started) task.item

/-- The step that a task takes now; `none` if it has to wait. -/
def nextMove? (env : Environment σ) (s : Schedule σ) (task : Task) : Option Move :=
  match task.phase with
  | .spawned => some (.resume (panicsAtStart env s task))
  | .throttled due =>
    if s.state.stopped || s.state.hasCome due then some (.resume (panicsAtStart env s task))
    else none
  | .calling since =>
    let reply? :=
      match s.replies.find? (fun pending => pending.number = task.number) with
      | some pending => if s.state.hasCome pending.tick then pending.reply else none
      | none => none
    match reply? with
    | some reply => some (.reply reply)
    | none =>
      if s.state.hasCome (s.state.timeoutTick since) then some .expire
      else
        match s.state.graceTick? since with
        | some grace => if s.state.hasCome grace then some .giveUp else none
        | none => none
  | .pausing due =>
    if s.state.isHalted || s.state.hasCome due then some (.resume none) else none
  | .rethrottled due =>
    if s.state.isHalted || s.state.hasCome due then some (.resume none) else none
  | .persisting => none
  | .saving _ => none
  | _ => some (.resume (panics env task))

/-- Lets a task run up to the point where it has to wait. -/
def runTask (env : Environment σ) (actor : Actor) (number : Nat) :
    (fuel : Nat) → Schedule σ → Schedule σ
  | 0, s => s
  | fuel + 1, s =>
    match s.state.task? number with
    | none => s
    | some task =>
      match task.phase with
      | .persisting =>
        let lane := Lane.ofItem task.item
        match s.takeTurn lane actor env.persistTurns with
        | (s, false) => s
        | (s, true) =>
          let (world, answer) := env.persist s.world task.item
          let s := { s with world }
          runTask env actor number fuel
            ((s.advanceTask env actor number (.persist answer)).leaveLane lane actor)
      | .saving batch =>
        match s.takeTurn .checkpoint actor env.saveTurns with
        | (s, false) => s
        | (s, true) =>
          let (world, fault) := env.save s.world batch s.state.stamp
          let s := { s with world }
          runTask env actor number fuel
            ((s.advanceTask env actor number (.save fault)).leaveLane .checkpoint actor)
      | .calling since =>
        match s.nextMove? env task with
        | none => s.awaitGrace actor since
        | some move =>
          let s := { s with replies := s.replies.filter (·.number ≠ number) }
          runTask env actor number fuel (s.advanceTask env actor number move)
      | _ =>
        match s.nextMove? env task with
        | none => s
        | some move => runTask env actor number fuel (s.advanceTask env actor number move)

/-- What the dispatcher does next. -/
inductive DispatcherMove where
  /-- Begins to write the last entries. -/
  | flush
  /-- Returns, with some entries that are to be written first. -/
  | close (batch : List CheckpointEntry)
  /-- Processes an item itself. -/
  | process (number : Nat)
  | skip (item : Item)
  /-- Makes a task of the next item. -/
  | spawn
  /-- Waits for a permit or for the end of dispatch. -/
  | awaitPermit
  /-- Waits for tasks. -/
  | join

/-- What the dispatcher does next. -/
def dispatcherMove (s : Schedule σ) : DispatcherMove :=
  match s.state.stage, s.state.tasks, s.state.waiting with
  | .flushing batch, _, _ => .close batch
  | .dispatching, [], [] => .flush
  | .dispatching, task :: _, waiting =>
    if s.state.settings.mode = .sequential then .process task.number
    else
      match waiting with
      | [] => .join
      | item :: _ =>
        if s.state.stopped then .skip item
        else if s.state.free = 0 then .awaitPermit
        else .spawn
  | .dispatching, [], item :: _ => if s.state.stopped then .skip item else .spawn
  | _, _, _ => .join

/-- Makes a task of the next item; one at a time means that the dispatcher processes it itself. -/
def spawn (s : Schedule σ) : Schedule σ :=
  let number := s.state.dispatched
  let s := ((s.forget .dispatcher).act .takePermit).act .spawn
  if s.state.settings.mode = .sequential then s else s.wake (.task number)

/-- Lets the dispatcher run up to the point where it has to wait. -/
def runDispatcher (env : Environment σ) : (fuel : Nat) → Schedule σ → Schedule σ
  | 0, s => s
  | fuel + 1, s =>
    match s.dispatcherMove with
    | .flush => runDispatcher env fuel (s.act .flush)
    | .close batch =>
      if batch.isEmpty then s.act (.close none)
      else
        let (world, fault) := env.save s.world batch s.state.stamp
        act { s with world } (.close fault)
    | .process number =>
      let s := runTask env .dispatcher number fuel s
      if s.state.tasks.isEmpty then runDispatcher env fuel s else s
    | .skip item =>
      runDispatcher env fuel
        ((s.forget .dispatcher).act (.skipNext (env.panics .finished item)))
    | .spawn => runDispatcher env fuel s.spawn
    | .awaitPermit => s.awaitStop .dispatcher
    | .join => s

/-- Lets an actor other than the dispatcher run. -/
def runActor (env : Environment σ) (fuel : Nat) (s : Schedule σ) (actor : Actor) : Schedule σ :=
  match actor with
  | .dispatcher => s
  | .task number => runTask env actor number fuel s
  | .caller =>
    match s.cancelAt with
    | none => s
    | some tick => if s.state.hasCome tick then s.act .cancel else s.setTimer tick .caller

/-- Lets the dispatcher run if it can go on. -/
def runWoken (env : Environment σ) (fuel : Nat) (s : Schedule σ) : Schedule σ :=
  if s.isWoken then runDispatcher env fuel { s with isWoken := false } else s

/-- Jumps to the earliest timer and wakes those who set a timer for its tick; `none` if there is no
timer. -/
def jump? (s : Schedule σ) : Option (Schedule σ) :=
  match s.timers.map Timer.tick with
  | [] => none
  | tick :: ticks =>
    let target := ticks.foldl min tick
    let fired := s.timers.filter fun timer => timer.tick ≤ target
    let s := if s.state.clock < target then s.act (.advance target) else s
    let s := { s with timers := s.timers.filter fun timer => target < timer.tick }
    some (s.wakeAll (fired.map Timer.actor))

/-- Whether the run has come to its end. -/
def isOver (s : Schedule σ) : Bool :=
  match s.state.stage with
  | .returned _ => true
  | .unwound => true
  | _ => false

/-- Lets everybody run up to the end of the run. -/
def loop (env : Environment σ) (inner : Nat) : (fuel : Nat) → Schedule σ → Schedule σ
  | 0, s => s
  | fuel + 1, s =>
    if s.isOver then s
    else
      match s.ready, s.yielding with
      | actor :: ready, _ => loop env inner fuel (runActor env inner { s with ready } actor)
      | [], yielding =>
        if s.isWoken then loop env inner fuel (s.runWoken env inner)
        else
          match yielding with
          | actor :: yielding => loop env inner fuel (wake { s with yielding } actor)
          | [] =>
            match s.jump? with
            | some s => loop env inner fuel (s.runWoken env inner)
            | none => s

/-- Bound on the number of steps of a run: every attempt of every item takes a bounded number. -/
def enough (env : Environment σ) (state : State) : Nat :=
  (state.waiting.length + 2) * (state.settings.retry.maxAttempts + 2)
    * (env.persistTurns + env.saveTurns + 64)

/-- Runs from a first state to the end.  The caller begins to wait for the time of a cancellation
when the dispatcher waits for the first time; that is before the first item when a checkpoint is
loaded, because loading it lets others go first. -/
def run (env : Environment σ) (world : σ) (state : State) (cancelAt : Option Nat) :
    Schedule σ :=
  let fuel := enough env state
  let ready := if cancelAt.isSome then [Actor.caller] else []
  let s : Schedule σ := { state, world, cancelAt, ready, isWoken := true }
  loop env fuel fuel (if state.setup.hasStore then s else s.runWoken env fuel)

end Schedule

end Run
end BatchRun
