import BatchRun.Proofs.Run.Ledger
import BatchRun.Proofs.Run.Standing
import BatchRun.Proofs.Run.Termination

/-!
# Observers that break off

Observers are told when an item is started, when another attempt is to follow, and when it is
finished.  Each time they may break off with a message.

**Types.**
`BreaksOff` is a step in which an observer is told about an item and breaks off.  The faults that
follow from it are those of `Broken`.

**Invariants.**
* `Booking`: without failures of the store, each entry is on its way to the checkpoint or listed.
* `Sinkless`: without a sink nothing is seen to be recorded.

**Results.**
* `broken_of_breaksOff`: an observer that breaks off a task makes its item a fault of the run.
* `unwound_of_skipNext`: one that breaks off the dispatcher ends the run.
* `observed_of_follow?`: a run whose observers break off returns the first fault with its entries in
  the checkpoint, unless one of them breaks off the dispatcher.
-/

namespace BatchRun
namespace Run

/-- Message with which an observer breaks off, should it be told about something. -/
def Action.message? : Action → Option String
  | skipNext panic => panic
  | task _ (.resume panic) => panic
  | _ => none

/-- Whether a write of the checkpoint fails. -/
def Action.failsStore : Action → Bool
  | task _ (.save (some _)) => true
  | close (some _) => true
  | _ => false

/-- The item that observers are told about. -/
def Event.told? : Event → Option Item
  | started item => some item
  | retrying item _ _ => some item
  | finished item => some item
  | _ => none

/-- In a step an observer is told about an item, and breaks off. -/
structure BreaksOff (s : State) (action : Action) (t : State) (item : Item) (message : String) :
    Prop where
  step : s.step? action = some t
  answer : action.message? = some message
  told : ∃ new, t.events = new ++ s.events ∧ ∃ event ∈ new, event.2.told? = some item

/-- Faults of a task that an observer breaks off. -/
inductive Broken (s : State) (task : Task) (message : String) : List RunFault → Prop
  | alone : Broken s task message [.panicked task.item.id message]
  /-- The item cannot be skipped, and the observer is told about it all the same. -/
  | rejected {move : RejectedMove} (early : task.phase = .spawned ∨ ∃ due, task.phase = .throttled due)
      (skip : task.item.skip s.skipReason s.stamp = .error move) :
      Broken s task message [.move move, .panicked task.item.id message]

section Turns

variable {s t : State} {task : Task} {move : Move} {effect : Effect} {item : Item}
  {message : String} {event : Event}

theorem untold_of_admits
    {throttle : Option Throttle} {events : List Event}
    (admits : Admits s task throttle events)
    (hevent : event ∈ events) :
    event.told? = none := by
  cases admits with
  | atOnce => cases List.mem_singleton.mp hevent; rfl
  | afterWait => cases hevent

/-- Before another attempt an observer that breaks off ends the task. -/
theorem lost_of_retry
    {failure : AttemptFailure} {latency : Nat} {monitor : Monitor}
    (samples : Samples s task (.error failure) latency monitor)
    (again : s.isLastFailure task failure = false)
    (h : s.move? task (.resume (some message)) = some t) :
    ∀ other ∈ t.tasks, other.number ≠ task.number := by
  simp only [State.move?, samples.phase] at h
  cases h
  rw [judge_of_ok _ samples.record]
  simp only [again, Bool.false_eq_true, if_false]
  intro other hother
  simpa using (List.mem_filter.mp hother).2

/-- A task that asks for a token has told nobody, if an observer would break off. -/
theorem untold_of_retries
    {monitor : Option Monitor} {events : List Event} {next : Task}
    (htask : task ∈ s.tasks)
    (h : s.move? task (.resume (some message)) = some (effect.apply s task.number))
    (retries : Retries s task monitor events)
    (fate : effect.fate = .goesOn next)
    (number : next.number = task.number) :
    events = [] := by
  cases retries with
  | afterPause => rfl
  | atOnce samples again =>
      have hnext : next ∈ (effect.apply s task.number).tasks := by
        show next ∈ effect.fate.tasks task.number s.tasks
        rw [fate]
        exact mem_tasks_goesOn htask
      exact absurd number (lost_of_retry samples again h next hnext)

/-- A task ends when an observer breaks off. -/
theorem broken_of_turn
    (htask : task ∈ s.tasks)
    (h : s.move? task (.resume (some message)) = some (effect.apply s task.number))
    (turn : Turn s task (.resume (some message)) effect)
    (hevent : event ∈ effect.events)
    (told : event.told? = some item) :
    item.id = task.item.id ∧ Broken s task message effect.faults := by
  have silent : ∀ {other : Event}, other.told? = none → event ≠ other := by
    rintro other hnone rfl
    rw [hnone] at told
    cases told
  cases turn with
  | @turnsAway moved _ phase stop skip =>
      cases List.mem_singleton.mp hevent
      cases told
      cases moved with
      | ok after => exact ⟨Item.id_of_origin (kept_of_skip skip).1.origin, .alone⟩
      | error rejected => exact ⟨rfl, .rejected phase skip⟩
  | waits => exact absurd (List.mem_singleton.mp hevent) (silent rfl)
  | rejects _ admits =>
      rw [untold_of_admits admits hevent] at told
      cases told
  | breaksAtStart _ admits start =>
      rcases List.mem_append.mp hevent with hold | hnew
      · rw [untold_of_admits admits hold] at told
        cases told
      · cases List.mem_singleton.mp hnew
        cases told
        obtain ⟨_, _, _, rfl⟩ := Item.start_eq_ok start
        exact ⟨rfl, .alone⟩
  | answers | breaksInSample | completes => cases hevent
  | succeeds | fails => exact absurd (List.mem_singleton.mp hevent) (silent rfl)
  | breaksInRetry =>
      rcases List.mem_cons.mp hevent with hsampled | hretrying
      · exact absurd hsampled (silent rfl)
      · cases List.mem_singleton.mp hretrying
        cases told
        exact ⟨rfl, .alone⟩
  | rewaits _ retries =>
      rw [untold_of_retries htask h retries rfl rfl] at hevent
      exact absurd (List.mem_singleton.mp hevent) (silent rfl)
  | recalls _ retries =>
      rw [untold_of_retries htask h retries rfl rfl] at hevent
      rcases List.mem_cons.mp hevent with hreserved | hcalled
      · exact absurd hreserved (silent rfl)
      · exact absurd (List.mem_singleton.mp hcalled) (silent rfl)
  | recallsAfterWait => exact absurd (List.mem_singleton.mp hevent) (silent rfl)
  | interrupts stops =>
      cases stops with
      | inPause => exact absurd (List.mem_singleton.mp hevent) (silent rfl)
  | closes closing =>
      cases closing with
      | passes | buffers | flushes => cases hevent
      | finishes =>
          cases List.mem_singleton.mp hevent
          cases told
          exact ⟨rfl, .alone⟩

end Turns

section Steps

variable {s t : State} {action : Action} {item : Item} {message : String}

theorem breaksOff_cases
    (h : BreaksOff s action t item message) :
    action = .skipNext (some message) ∨
      ∃ number, action = .task number (.resume (some message)) := by
  have hanswer := h.answer
  cases action with
  | skipNext panic =>
      cases hanswer
      exact .inl rfl
  | task number move =>
      cases move with
      | resume panic =>
          cases hanswer
          exact .inr ⟨number, rfl⟩
      | _ => cases hanswer
  | _ => cases hanswer

/-- An observer that breaks off a task makes a fault of the run, unless there is one. -/
theorem broken_of_breaksOff
    {number : Nat}
    (h : BreaksOff s (.task number (.resume (some message))) t item message) :
    ∃ task ∈ s.tasks, item.id = task.item.id ∧
      ∃ faults, Broken s task message faults ∧ t.fatal = s.fatal.or faults.head? := by
  have hstep := h.step
  unfold State.step? at hstep
  split at hstep
  case h_1 | h_2 => cases hstep
  case h_3 =>
      cases hfound : s.task? number with
      | none => simp [hfound] at hstep
      | some task =>
          have hmove : s.move? task (.resume (some message)) = some t := by
            simpa [hfound] using hstep
          have htask := (mem_of_task? hfound).1
          obtain ⟨effect, turn, rfl⟩ := does_of_move? hmove
          obtain ⟨new, hnew, event, hevent, htold⟩ := h.told
          have hevents : new = effect.events.reverse.map (fun event => (s.clock, event)) :=
            (List.append_cancel_right hnew).symm
          rw [hevents] at hevent
          obtain ⟨seen, hseen, rfl⟩ := List.mem_map.mp hevent
          obtain ⟨hid, hbroken⟩ :=
            broken_of_turn htask hmove turn (List.mem_reverse.mp hseen) htold
          exact ⟨task, htask, hid, effect.faults, hbroken, rfl⟩

/-- An observer that breaks off the dispatcher ends the run. -/
theorem unwound_of_skipNext
    (h : s.step? (.skipNext (some message)) = some t) :
    t.stage = .unwound := by
  cases transition_of_step? h
  rfl

/-- The first fault of a run is kept. -/
theorem fatal_kept
    {fault : RunFault}
    (h : Transition s action t)
    (fatal : s.fatal = some fault) :
    t.fatal = some fault := by
  cases h with
  | turns | skips | breaksInSkip | closesNot => simp [Effect.apply, State.faulted, State.seen, fatal]
  | _ => exact fatal

/-- A run returns the fault that it has kept. -/
theorem fatal_of_ends
    {result : Except RunFault Returned}
    (ends : Ends s (.returned result)) :
    (∃ fault, s.fatal = some fault ∧ result = .error fault) ∨
      (s.fatal = none ∧ ∃ value, result = .ok value) := by
  cases ends with
  | fails fatal => exact .inl ⟨_, fatal, rfl⟩
  | returns fatal => exact .inr ⟨fatal, _, rfl⟩

theorem fatal_of_returned
    {result : Except RunFault Returned}
    (h : Transition s action t)
    (returned : t.stage = .returned result) :
    (∃ fault, t.fatal = some fault ∧ result = .error fault) ∨
      (t.fatal = none ∧ ∃ value, result = .ok value) := by
  have live := live_of_transition h
  cases h with
  | leaves _ _ ends | closes _ _ ends | closesNot _ _ _ ends =>
      cases returned
      have hends := fatal_of_ends ends
      exact hends
  | advances | cancels | turns | skips | takesPermit | spawns =>
      have hstage : s.stage = .returned result := returned
      rw [hstage] at live
      cases live
  | breaksInSkip | flushes => cases returned

end Steps

/-- A run has come to its end, and cannot tell the health of its destinations. -/
structure Unhealthy (actions : List Action) (last : State) : Prop where
  closed : ∃ fault, .close fault ∈ actions
  fatal : last.fatal = none
  snapshot : ∃ fault, last.monitor.snapshot = .error fault

section Unwinding

variable {s t last : State} {actions : List Action} {action : Action}

theorem ended_of_ends
    {stage : Stage}
    (ends : Ends s stage) :
    stage.isLive = false := by
  cases ends <;> rfl

theorem ended_of_close
    {fault : Option CheckpointFault}
    (h : s.step? (.close fault) = some t) :
    t.stage.isLive = false := by
  cases transition_of_step? h with
  | leaves _ _ ends | closes _ _ ends | closesNot _ _ _ ends => exact ended_of_ends ends

theorem snapshot_of_ends
    (ends : Ends s .unwound) :
    s.fatal = none ∧ ∃ fault, s.monitor.snapshot = .error fault := by
  cases ends with
  | breaks fatal snapshot => exact ⟨fatal, _, snapshot⟩

theorem unwound_of_ends
    {stage : Stage} {fault : HealthFault}
    (ends : Ends s stage)
    (fatal : s.fatal = none)
    (snapshot : s.monitor.snapshot = .error fault) :
    stage = .unwound := by
  cases ends with
  | fails h =>
      rw [fatal] at h
      cases h
  | breaks => rfl
  | returns _ h =>
      rw [snapshot] at h
      cases h

/-- What makes a run unwind in a step. -/
theorem unwinds_of_transition
    (h : Transition s action t)
    (stage : t.stage = .unwound) :
    (∃ message, action = .skipNext (some message)) ∨ Unhealthy [action] t := by
  have live := live_of_transition h
  cases h with
  | breaksInSkip => exact .inl ⟨_, rfl⟩
  | leaves _ _ ends | closes _ _ ends | closesNot _ _ _ ends =>
      cases stage
      obtain ⟨hfatal, hsnapshot⟩ := snapshot_of_ends ends
      exact .inr ⟨⟨_, List.mem_cons_self⟩, hfatal, hsnapshot⟩
  | advances | cancels | turns | skips | takesPermit | spawns =>
      exact absurd stage (stage_ne_unwound live)
  | flushes => cases stage

theorem unwinds_of_follow?
    (run : s.follow? actions = some last)
    (stage : last.stage = .unwound) :
    s.stage = .unwound ∨ (∃ message, .skipNext (some message) ∈ actions) ∨
      Unhealthy actions last := by
  induction actions generalizing s with
  | nil =>
      cases run
      exact .inl stage
  | cons action actions ih =>
      simp only [State.follow?] at run
      split at run
      case h_1 next hstep =>
          rcases ih run with hnext | ⟨message, hmem⟩ | ⟨⟨fault, hmem⟩, hfatal, hsnapshot⟩
          · obtain ⟨-, rfl⟩ := follow?_of_ended (by rw [hnext]; rfl) run
            rcases unwinds_of_transition (transition_of_step? hstep) hnext with
              ⟨message, rfl⟩ | ⟨⟨fault, hmem⟩, hfatal, hsnapshot⟩
            · exact .inr (.inl ⟨message, List.mem_cons_self⟩)
            · cases List.mem_singleton.mp hmem
              exact .inr (.inr ⟨⟨fault, List.mem_cons_self⟩, hfatal, hsnapshot⟩)
          · exact .inr (.inl ⟨message, List.mem_cons_of_mem action hmem⟩)
          · exact .inr (.inr ⟨⟨fault, List.mem_cons_of_mem action hmem⟩, hfatal, hsnapshot⟩)
      case h_2 =>
          cases run

theorem unwound_of_mem
    {message : String}
    (run : s.follow? actions = some last)
    (hmem : .skipNext (some message) ∈ actions) :
    last.stage = .unwound := by
  have ends : ∀ {s t : State}, s.step? (.skipNext (some message)) = some t →
      t.stage.isLive = false := by
    intro s t h
    rw [unwound_of_skipNext h]
    rfl
  obtain ⟨t, -, hstep⟩ := step_of_ending ends run hmem
  exact unwound_of_skipNext hstep

theorem unwound_of_unhealthy
    (run : s.follow? actions = some last)
    (unhealthy : Unhealthy actions last) :
    last.stage = .unwound := by
  obtain ⟨⟨fault, hmem⟩, hfatal, reason, hsnapshot⟩ := unhealthy
  obtain ⟨t, -, hstep⟩ := step_of_ending ended_of_close run hmem
  cases transition_of_step? hstep with
  | leaves _ _ ends | closes _ _ ends | closesNot _ _ _ ends =>
      exact unwound_of_ends ends hfatal hsnapshot

end Unwinding

/-- What is known of entries in a run that began with a checkpoint and has lost none of them. -/
structure Booking (checkpoint : Checkpoint) (s : State) : Prop where
  sink : s.setup.hasSink = true
  keeps : s.keepsCheckpoint = true
  numbered : Numbered s
  staged : Staged s
  balanced : Balanced s []
  booked : Booked checkpoint s
  emptied : s.stage ≠ .dispatching → s.stage ≠ .unwound → s.unflushed = []

/-- Without a sink nothing is recorded. -/
structure Sinkless (s : State) : Prop where
  sink : s.setup.hasSink = false
  tasks : ∀ task ∈ s.tasks, task.phase ≠ .persisting
  unseen : ∀ tick item, (tick, .persisted item) ∉ s.events

section Flushing

variable {checkpoint : Checkpoint} {s t : State} {action : Action} {task next : Task} {move : Move}
  {effect : Effect}

theorem dropped_of_kept
    (s : State)
    (stores : action.failsStore = false)
    (goes : ∀ message, action ≠ .skipNext (some message)) :
    s.dropped action = [] := by
  cases action with
  | skipNext panic =>
      cases panic with
      | none => rfl
      | some message => exact absurd rfl (goes message)
  | close fault =>
      cases fault with
      | none => rfl
      | some fault => cases stores
  | task number move =>
      have hmove : ∀ task : Task, task.dropped move = [] := by
        intro task
        cases move with
        | save fault =>
            cases fault with
            | none => rfl
            | some fault => cases stores
        | _ => rfl
      simp only [State.dropped]
      cases s.task? number with
      | none => rfl
      | some task => exact hmove task
  | _ => rfl

theorem booking_of_transition
    (h : Transition s action t)
    (kept : s.dropped action = [])
    (booking : Booking checkpoint s) :
    Booking checkpoint t where
  sink := setup_of_transition h ▸ booking.sink
  keeps := (keepsCheckpoint_of_transition h).trans booking.keeps
  numbered := numbered_of_transition h booking.numbered
  staged := staged_of_transition h booking.staged
  balanced := by
    have hbalanced :=
      balanced_of_transition h booking.sink booking.keeps booking.numbered booking.balanced
    rwa [kept] at hbalanced
  booked := booked_of_transition h booking.booked
  emptied := emptied_of_transition h booking.staged booking.emptied

/-- Once a run has returned, each record has its entry in the checkpoint. -/
theorem contains_of_booking
    {result : Except RunFault Returned} {tick : Nat} {item : Item}
    (booking : Booking checkpoint s)
    (stage : s.stage = .returned result)
    (hevent : (tick, .persisted item) ∈ s.events) :
    s.saved.contains item.id = true := by
  have hentry := booking.balanced.mem_iff.mp (mem_recordedIn.mpr ⟨tick, item, hevent, rfl⟩)
  rw [underway_of_returned booking.staged booking.emptied stage, List.nil_append,
    List.append_nil] at hentry
  rw [Checkpoint.contains, List.contains_iff_mem, booking.booked.completed]
  exact .inr (List.mem_map_of_mem (f := Prod.fst) hentry)

theorem sink_of_goesOn
    (turn : Turn s task move effect)
    (h : effect.fate = .goesOn next)
    (phase : next.phase = .persisting) :
    s.setup.hasSink = true := by
  have hending : ∀ item, s.endingPhase item = .persisting → s.setup.hasSink = true := by
    intro item hphase
    unfold State.endingPhase at hphase
    split at hphase
    case isTrue => cases hphase
    case isFalse =>
        split at hphase
        case isTrue sink => exact sink
        case isFalse => cases hphase
  cases turn with
  | turnsAway panic => cases panic <;> cases h
  | rejects | breaksAtStart | breaksInSample | breaksInRetry => cases h
  | fails | interrupts | completes =>
      cases h
      exact hending _ phase
  | closes closing =>
      cases closing with
      | finishes panic => cases panic <;> cases h
      | _ => cases h; cases phase
  | _ => cases h; cases phase

theorem sinkless_of_transition
    (h : Transition s action t)
    (sinkless : Sinkless s) :
    Sinkless t where
  sink := setup_of_transition h ▸ sinkless.sink
  tasks task htask phase := by
    rcases mem_tasks_of_transition h htask with
      hold | hspawned | ⟨before, -, move, effect, turn, hfate, -⟩
    · exact sinkless.tasks task hold phase
    · rw [hspawned] at phase
      cases phase
    · have hsink := sink_of_goesOn turn hfate phase
      rw [sinkless.sink] at hsink
      cases hsink
  unseen tick item hevent := by
    rcases persisted_of_transition h hevent with hold | ⟨task, htask, -, phase, -⟩
    · exact sinkless.unseen tick item hold
    · exact sinkless.tasks task htask phase

end Flushing

/-- What becomes of a run over items whose observers may break off, after some actions. -/
structure Observed (setup : Setup) (items : List Item) (first last : State)
    (actions : List Action) : Prop where
  terminates : Terminates first
  /-- The run unwinds if an observer breaks off the dispatcher.  Observers have no part in the other
  two cases: there are too many permits, or the health of the destinations cannot be told. -/
  unwinds : last.stage = .unwound ↔
    (∃ message, .skipNext (some message) ∈ actions) ∨
      unboundedPermits ≤ setup.settings.slots ∨ Unhealthy actions last
  /-- The first fault is returned. -/
  keeps : ∀ before after s fault, actions = before ++ after → first.follow? before = some s →
    s.fatal = some fault → ∀ result, last.stage = .returned result → result = .error fault
  /-- It is that of the first observer that breaks off, unless another one came before; of the
  faults of the same step, only that of an item that was not pending can. -/
  breaks : ∀ before action after s t item message, actions = before ++ action :: after →
    first.follow? before = some s → BreaksOff s action t item message → s.fatal = none →
    ∀ result, last.stage = .returned result →
      result = .error (.panicked item.id message) ∨
        (∃ move, result = .error (.move move)) ∧ ∃ item ∈ items, item.status ≠ .pending
  /-- All records have their entries in the checkpoint by then. -/
  flushed : setup.hasStore = true → setup.settings.checkpointInterval ≠ 0 →
    (∀ action ∈ actions, action.failsStore = false) →
    ∀ result, last.stage = .returned result →
    ∀ tick item, (tick, .persisted item) ∈ last.events → last.saved.contains item.id = true

section Runs

variable {setup : Setup} {items : List Item} {checkpoint : Checkpoint} {throttle : Throttle}
  {registry : Registry} {monitor : Monitor} {clock : Nat} {first s t last : State}
  {actions : List Action} {result : Except RunFault Returned}

theorem booking_opened
    (sink : setup.hasSink = true)
    (store : setup.hasStore = true)
    (interval : setup.settings.checkpointInterval ≠ 0) :
    Booking checkpoint (.opened setup items checkpoint throttle registry monitor clock) where
  sink := sink
  keeps := keepsCheckpoint_opened store interval
  numbered := numbered_opened
  staged := staged_opened
  balanced := by
    rw [Balanced, State.underway, batch_opened]
    exact .refl _
  booked := booked_opened
  emptied _ _ := rfl

theorem sinkless_opened
    (sink : setup.hasSink = false) :
    Sinkless (.opened setup items checkpoint throttle registry monitor clock) where
  sink := sink
  tasks _ htask := absurd htask List.not_mem_nil
  unseen _ _ hevent := by cases List.mem_singleton.mp hevent

/-- A run returns the fault that it has. -/
theorem result_of_fatal
    {fault : RunFault}
    (start : ∀ result, first.stage ≠ .returned result)
    (run : Reaches first s)
    (rest : Reaches s last)
    (fatal : s.fatal = some fault)
    (returned : last.stage = .returned result) :
    result = .error fault := by
  have hkept : last.fatal = some fault := rest.invariant fatal_kept fatal
  have hresult := (run.trans rest).invariant
    (P := fun s => ∀ result, s.stage = .returned result →
      (∃ fault, s.fatal = some fault ∧ result = .error fault) ∨
        (s.fatal = none ∧ ∃ value, result = .ok value))
    (fun h _ _ => fatal_of_returned h) (fun result h => absurd h (start result))
  rcases hresult result returned with ⟨other, hother, rfl⟩ | ⟨hnone, -⟩
  · rw [hkept] at hother
    cases hother
    rfl
  · rw [hkept] at hnone
    cases hnone

theorem follows_of_append
    {before after : List Action}
    (run : first.follow? (before ++ after) = some last)
    (hbefore : first.follow? before = some s) :
    s.follow? after = some last := by
  rw [follow?_append, hbefore] at run
  exact run

/-- An item that was pending can be skipped as long as it was not started. -/
theorem skip_of_pending
    {task : Task} {move : RejectedMove}
    (standing : Standing s)
    (htask : task ∈ s.tasks)
    (early : task.phase = .spawned ∨ ∃ due, task.phase = .throttled due) :
    task.item.skip s.skipReason s.stamp ≠ .error move := by
  have hpending := pending_of_early early (standing.tasks task htask)
  rw [Item.skip_of_canMoveTo _ (by rw [hpending]; rfl)]
  intro h
  cases h

theorem breaks_of_follow?
    {before after : List Action} {action : Action} {item : Item} {message : String}
    (start : ∀ result, first.stage ≠ .returned result)
    (standing : (∀ item ∈ items, item.status = .pending) → Standing first)
    (run : first.follow? (before ++ action :: after) = some last)
    (hbefore : first.follow? before = some s)
    (h : BreaksOff s action t item message)
    (fatal : s.fatal = none)
    (returned : last.stage = .returned result) :
    result = .error (.panicked item.id message) ∨
      (∃ move, result = .error (.move move)) ∧ ∃ item ∈ items, item.status ≠ .pending := by
  have hreached := reaches_of_follow? hbefore
  have hnext := hreached.step h.step
  have hrest : t.follow? after = some last := by
    have hfollows := follows_of_append run hbefore
    rw [State.follow?, h.step] at hfollows
    exact hfollows
  rcases breaksOff_cases h with rfl | ⟨number, rfl⟩
  · have hunwound := unwound_of_mem run (List.mem_append_right _ List.mem_cons_self)
    rw [returned] at hunwound
    cases hunwound
  · obtain ⟨task, htask, hid, faults, hbroken, hfatal⟩ := broken_of_breaksOff h
    rw [fatal, Option.none_or] at hfatal
    have hresult : ∀ {fault}, faults.head? = some fault → result = .error fault := fun hhead =>
      result_of_fatal start hnext (reaches_of_follow? hrest) (hfatal.trans hhead) returned
    cases hbroken with
    | alone => exact .inl (hid ▸ hresult rfl)
    | rejected early skip =>
        refine .inr ⟨⟨_, hresult rfl⟩, ?_⟩
        by_contra hnone
        have hpending : ∀ item ∈ items, item.status = .pending := by
          simpa using hnone
        exact skip_of_pending (hreached.invariant standing_of_transition (standing hpending))
          htask early skip

theorem flushed_of_follow?
    (store : setup.hasStore = true)
    (interval : setup.settings.checkpointInterval ≠ 0)
    (run : State.follow? (.opened setup items checkpoint throttle registry monitor clock) actions
      = some last)
    (stores : ∀ action ∈ actions, action.failsStore = false)
    (returned : last.stage = .returned result)
    {tick : Nat} {item : Item}
    (hevent : (tick, .persisted item) ∈ last.events) :
    last.saved.contains item.id = true := by
  cases sink : setup.hasSink with
  | false =>
      have hsinkless := (reaches_of_follow? run).invariant sinkless_of_transition
        (sinkless_opened sink)
      exact absurd hevent (hsinkless.unseen tick item)
  | true =>
      have hkept : ∀ action ∈ actions, ∀ s : State, s.dropped action = [] := by
        intro action haction s
        refine dropped_of_kept s (stores action haction) ?_
        rintro message rfl
        rw [unwound_of_mem run haction] at returned
        cases returned
      have hbooking := invariant_of_follow? (P := Booking checkpoint)
        (fun h kept => booking_of_transition h (kept _)) run hkept
        (booking_opened sink store interval)
      exact contains_of_booking hbooking returned hevent

/-- A run whose observers break off returns the first fault, with all entries in the checkpoint,
unless an observer breaks off the dispatcher. -/
theorem observed_of_follow?
    {saved : Except CheckpointFault Checkpoint}
    (opened : State.initial? setup items saved throttle registry monitor clock = .ok first)
    (run : first.follow? actions = some last) :
    Observed setup items first last actions := by
  obtain ⟨checkpoint, -, hvalid, rfl⟩ := opened_of_initial? opened
  have hstart : ∀ result, (State.opened setup items checkpoint throttle registry monitor
      clock).stage ≠ .returned result := by
    intro result
    rw [stage_opened]
    split <;> simp
  refine ⟨terminates_of_paced (paced_opened hvalid), ⟨fun hunwound => ?_, ?_⟩, ?_, ?_, ?_⟩
  · rcases unwinds_of_follow? run hunwound with hfirst | hbroken | hunhealthy
    · rw [stage_opened] at hfirst
      split at hfirst
      case isTrue hmany => exact .inr (.inl hmany)
      case isFalse => cases hfirst
    · exact .inl hbroken
    · exact .inr (.inr hunhealthy)
  · rintro (⟨message, hmem⟩ | hmany | hunhealthy)
    · exact unwound_of_mem run hmem
    · have hfirst : (State.opened setup items checkpoint throttle registry monitor clock).stage
          = .unwound := if_pos hmany
      obtain ⟨-, rfl⟩ := follow?_of_ended (by rw [hfirst]; rfl) run
      exact hfirst
    · exact unwound_of_unhealthy run hunhealthy
  · rintro before after s fault rfl hbefore fatal result returned
    exact result_of_fatal hstart (reaches_of_follow? hbefore)
      (reaches_of_follow? (follows_of_append run hbefore)) fatal returned
  · rintro before action after s t item message rfl hbefore h fatal result returned
    exact breaks_of_follow? hstart standing_opened run hbefore h fatal returned
  · intro store interval stores result returned tick item hevent
    exact flushed_of_follow? store interval run stores returned hevent

/-- One item at a time, up to the first one that fails. -/
def upToFailure : Setup where
  settings := { mode := .sequential, continueOnError := false }
  hasSink := true
  hasStore := true

/-- The second of three items fails, and an observer breaks off as the third one is skipped. -/
def breaksOffThird : List Action :=
  [.takePermit, .spawn, .task 0 (.resume none)] ++ upToSave 0 "results.jsonl:1"
    ++ [.task 0 (.resume none), .takePermit, .spawn, .task 1 (.resume none),
      .task 1 (.reply (.failure (.permanent "no"))), .task 1 (.resume none),
      .task 1 (.persist (.ok "errors.jsonl:1")), .task 1 (.resume none), .task 1 (.resume none),
      .skipNext (some "observer blew up on 3")]

/-- First state of a run over three items, up to the first one that fails. -/
def upToFailureOfThree : State :=
  .opened upToFailure threeItems {} {} {} { settings := { windowSize := 1 } } 0

/-- The records of two items were written, and the run unwinds without their entries. -/
theorem observed_of_breaksOffThird :
    ∃ last, upToFailureOfThree.follow? breaksOffThird = some last ∧ last.stage = .unwound ∧
      (recordedIn last.events).map Prod.fst = ["2", "1"] ∧ last.saved.completed = [] ∧
      Observed upToFailure threeItems upToFailureOfThree last breaksOffThird := by
  have hends : (upToFailureOfThree.follow? breaksOffThird).map (fun last =>
      ((recordedIn last.events).map Prod.fst, last.saved.completed)) = some (["2", "1"], []) := by
    decide +kernel
  obtain ⟨last, hlast, hentries⟩ := Option.map_eq_some_iff.mp hends
  obtain ⟨hrecorded, hcompleted⟩ := Prod.mk.inj hentries
  have hbreaks : .skipNext (some "observer blew up on 3") ∈ breaksOffThird := by
    simp [breaksOffThird]
  exact ⟨last, hlast, unwound_of_mem hlast hbreaks, hrecorded, hcompleted,
    observed_of_follow? (initial?_eq_ok (by decide +kernel)) hlast⟩

end Runs

end Run
end BatchRun
