import BatchRun.Proofs.Run.Calling
import BatchRun.Proofs.Run.Stopping

/-!
# Draining of an aborted run

Where no item may fail, a run skips the items that it has not started when one fails, and finishes
those that it has.

**Types.**
An item is aborted if it was skipped because another one failed.  `State.entered` are the items of
a run that have entered their processing, in their present state.

**Invariants.**
* `Told`: an item that failed has had all its attempts, and one that was given up had to be.
* `Untouched`: an item that was not started is as the run was given it.
* `Entering`: the items that were seen to enter their processing are those that were not aborted.

**Results.**
* `move?_abort`: what a task does with a started item does not depend on an abort.
* `signalled_of_reaches`: signals keep further items and calls away, and an aborted run returns its
  started items finished and the other ones untouched.
-/

namespace BatchRun

/-- Whether an item was skipped because another one failed. -/
def Item.isAborted (item : Item) : Bool :=
  item.status == .skipped && item.skipReason == some .aborted

namespace Run

/-- The item of a task that has entered its processing. -/
def Task.entered (task : Task) : List Item :=
  if task.phase.isStarted then [task.item] else []

/-- Items that have entered their processing, in their present state. -/
def State.entered (s : State) : List Item :=
  (s.finished.filter fun item => !item.isAborted) ++ s.tasks.flatMap Task.entered

/-- What an item that is done tells of its end. -/
structure Told (s : State) (item : Item) : Prop where
  /-- Its last failure stays, or there were no attempts left. -/
  failed : item.status = .failed → ∃ failure : AttemptFailure,
    item.failure = some failure.toItemFailure ∧
      (failure.isRetryable = false ∨ s.settings.retry.maxAttempts ≤ item.attempts)
  cancelled : item.status = .skipped → item.skipReason = some .cancelled → s.isHalted = true

/-- Items that were not started are those that the run began with, and so are the aborted ones, apart
from their end. -/
structure Untouched (first s : State) : Prop where
  waiting : ∀ item ∈ s.waiting, item ∈ first.waiting
  tasks : ∀ task ∈ s.tasks, task.phase.isStarted = false → task.item ∈ first.waiting
  ending : ∀ task ∈ s.tasks, task.phase.isEnding = true → task.item.isAborted = false
  finished : ∀ item ∈ s.finished, item.isAborted = true → ∃ before ∈ first.waiting, ∃ now,
    item = { before.moved .skipped now with skipReason := some .aborted }

/-- The items that were seen to enter their processing are those that were not aborted. -/
def Entering (s : State) : Prop :=
  s.cancelled = false → s.fatal = none → s.stage ≠ .unwound →
    ((startsIn s.events).map Item.origin).Perm (s.entered.map Item.origin)

section Abort

variable (s : State) (task : Task)

@[simp] theorem isHalted_abort : s.abort.isHalted = s.isHalted :=
  rfl

@[simp] theorem settings_abort : s.abort.settings = s.settings :=
  rfl

@[simp] theorem timeoutTick_abort
    (since : Nat) :
    s.abort.timeoutTick since = s.timeoutTick since :=
  rfl

@[simp] theorem graceTick?_abort
    (since : Nat) :
    s.abort.graceTick? since = s.graceTick? since :=
  rfl

@[simp] theorem hasCome_abort
    (due : Nat) :
    s.abort.hasCome due = s.hasCome due :=
  rfl

@[simp] theorem log_abort
    (event : Event) :
    s.abort.log event = (s.log event).abort :=
  rfl

@[simp] theorem put_abort : s.abort.put task = (s.put task).abort :=
  rfl

@[simp] theorem lose_abort
    (message : String) :
    s.abort.lose task message = (s.lose task message).abort :=
  rfl

@[simp] theorem settle_abort
    (moved : Except RejectedMove Item) :
    s.abort.settle task moved = (s.settle task moved).abort := by
  cases moved with
  | ok | error => rfl

@[simp] theorem call_abort : s.abort.call task = (s.call task).abort :=
  rfl

@[simp] theorem interrupt_abort : s.abort.interrupt task = (s.interrupt task).abort :=
  settle_abort (s.log (.interrupted task.item)) task _

@[simp] theorem answer_abort
    (outcome : Except AttemptFailure Json)
    (since : Nat) :
    s.abort.answer task outcome since = (s.answer task outcome since).abort :=
  rfl

/-- An abort does not change what a task does with a token. -/
theorem withToken_abort
    {wait : Nat → Phase} {go : State → State}
    (same : ∀ s, go s.abort = (go s).abort) :
    s.abort.withToken task wait go = (s.withToken task wait go).abort := by
  have hacquire : s.abort.throttle.acquire s.abort.settings.destination
      (s.abort.clock * nanosPerTick) =
        s.throttle.acquire s.settings.destination (s.clock * nanosPerTick) := rfl
  unfold State.withToken
  rw [hacquire]
  rcases s.throttle.acquire s.settings.destination (s.clock * nanosPerTick) with
    ⟨throttle, answer⟩
  cases answer with
  | none =>
      exact same (State.log { s with throttle } (.reserved task.item (Wait.none.tick s.clock)))
  | nanos | endless => rfl

@[simp] theorem rearm_abort : s.abort.rearm task = (s.rearm task).abort :=
  withToken_abort s task fun s => call_abort s task

@[simp] theorem retry_abort
    (failure : AttemptFailure)
    (panic : Option String) :
    s.abort.retry task failure panic = (s.retry task failure panic).abort := by
  cases panic with
  | some message => rfl
  | none =>
      simp only [State.retry, log_abort, isHalted_abort, settings_abort, interrupt_abort,
        rearm_abort, put_abort, apply_ite State.abort]
      rfl

@[simp] theorem failItem_abort
    (failure : AttemptFailure) :
    s.abort.failItem task failure = (s.failItem task failure).abort := by
  have hstops : ∀ stops : Bool, (if stops then s.abort.abort else s.abort) =
      (if stops then s.abort else s).abort := fun stops => by cases stops <;> rfl
  exact (congrArg (State.settle · task _) (hstops _)).trans (settle_abort _ task _)

@[simp] theorem judge_abort
    (outcome : Except AttemptFailure Json)
    (latency : Nat)
    (panic : Option String) :
    s.abort.judge task outcome latency panic = (s.judge task outcome latency panic).abort := by
  rcases hrecord : s.monitor.record s.settings.destination (sampleOf outcome latency)
    with ⟨monitor, answer⟩
  cases answer with
  | error fault =>
      rw [judge_of_error panic hrecord, judge_of_error (s := s.abort) panic hrecord]
      rfl
  | ok =>
      rw [judge_of_ok panic hrecord, judge_of_ok (s := s.abort) panic hrecord]
      cases outcome with
      | ok result => rfl
      | error failure =>
          have hlast : s.abort.isLastFailure task failure = s.isLastFailure task failure := rfl
          have hsampled : State.log { s.abort with monitor }
              (.sampled task.item (.error failure) latency) =
                (State.log { s with monitor } (.sampled task.item (.error failure) latency)).abort :=
            rfl
          simp only [hlast, hsampled, failItem_abort, retry_abort, apply_ite State.abort]

@[simp] theorem compare_abort
    (result : Json) :
    s.abort.compare task result = (s.compare task result).abort := by
  have hsame : s.abort.registry.record result task.item.id =
      s.registry.record result task.item.id := rfl
  rcases hrecord : s.registry.record result task.item.id with ⟨registry, owner⟩
  cases hcheck : s.settings.deduplicate with
  | false =>
      simp only [State.compare, settings_abort, hcheck]
      exact settle_abort s task _
  | true =>
      simp only [State.compare, settings_abort, hcheck, hsame, hrecord]
      cases owner with
      | none | some firstId => exact settle_abort { s with registry } task _

@[simp] theorem persisted_abort
    (answer : Except OutputFault String) :
    s.abort.persisted task answer = (s.persisted task answer).abort := by
  cases answer with
  | ok | error => rfl

@[simp] theorem buffer_abort : s.abort.buffer task = (s.buffer task).abort := by
  have hkeeps : s.abort.keepsCheckpoint = s.keepsCheckpoint := rfl
  simp only [State.buffer, hkeeps, settings_abort, apply_ite State.abort]
  rfl

@[simp] theorem recorded_abort
    (batch : List CheckpointEntry)
    (fault : Option CheckpointFault) :
    s.abort.recorded batch fault = (s.recorded batch fault).abort := by
  cases fault with
  | none | some => rfl

@[simp] theorem finish_abort
    (panic : Option String) :
    s.abort.finish task panic = (s.finish task panic).abort := by
  cases panic with
  | none | some => rfl

/-- What a task does with a started item does not depend on an abort. -/
theorem move?_abort
    (started : task.phase.isStarted = true)
    (move : Move) :
    s.abort.move? task move = (s.move? task move).map State.abort := by
  cases hphase : task.phase with
  | spawned | throttled =>
      rw [hphase] at started
      cases started
  | calling since =>
      cases move with
      | giveUp =>
          cases hgrace : s.graceTick? since with
          | none => simp [State.move?, hphase, hgrace]
          | some grace =>
              cases hcome : s.hasCome grace <;> simp [State.move?, hphase, hgrace, hcome]
      | expire =>
          cases hcome : s.hasCome (s.timeoutTick since) <;> simp [State.move?, hphase, hcome]
      | _ => simp [State.move?, hphase]
  | pausing due | rethrottled due =>
      cases hhalt : s.isHalted <;> cases hcome : s.hasCome due <;> cases move <;>
        simp [State.move?, hphase, hhalt, hcome]
  | _ => cases move <;> simp [State.move?, hphase]

end Abort

section Turns

variable {s : State} {task next : Task} {item : Item} {move : Move} {effect : Effect}

theorem entered_of_started
    (started : task.phase.isStarted = true) :
    task.entered = [task.item] :=
  if_pos started

theorem entered_of_early
    (early : task.phase.isStarted = false) :
    task.entered = [] :=
  if_neg (by simp [early])

/-- What is seen of a task that goes on is whether it starts its item. -/
theorem entered_of_goesOn
    (turn : Turn s task move effect)
    (h : effect.fate = .goesOn next) :
    (effect.events.filterMap Event.started?).map Item.origin ++ task.entered.map Item.origin =
      next.entered.map Item.origin := by
  have horigin := (kept_of_goesOn turn h).origin
  -- Unless it starts now, the item was started before, or is not started yet.
  have hsame : task.phase.isStarted = next.phase.isStarted →
      effect.events.filterMap Event.started? = [] →
      (effect.events.filterMap Event.started?).map Item.origin ++ task.entered.map Item.origin =
        next.entered.map Item.origin := by
    intro hphase hsilent
    rw [hsilent]
    unfold Task.entered
    rw [hphase]
    cases next.phase.isStarted with
    | true => simp [horigin]
    | false => rfl
  cases turn with
  | turnsAway panic => cases panic <;> cases h
  | rejects | breaksAtStart | breaksInSample | breaksInRetry => cases h
  | waits _ phase =>
      cases h
      exact hsame (by rw [phase]; rfl) rfl
  | starts admits start =>
      cases h
      obtain ⟨_, _, _, rfl⟩ := Item.start_eq_ok start
      rw [entered_of_early (isStarted_of_admits admits), List.filterMap_append,
        (silent_of_admits admits).1]
      rfl
  | answers phase | recallsAfterWait _ phase =>
      cases h
      exact hsame (by rw [phase]; rfl) rfl
  | succeeds _ samples | pauses samples =>
      cases h
      exact hsame (isStarted_of_samples samples) rfl
  | fails _ samples =>
      cases h
      exact hsame ((isStarted_of_samples samples).trans (isStarted_endingPhase s _).symm) rfl
  | rewaits _ retries | recalls _ retries =>
      cases h
      refine hsame (isStarted_of_retries retries) ?_
      rw [List.filterMap_append, (silent_of_retries retries).1]
      rfl
  | interrupts stops =>
      cases h
      refine hsame ((isStarted_of_interrupts stops).trans (isStarted_endingPhase s _).symm) ?_
      rw [List.filterMap_append, (silent_of_interrupts stops).1]
      rfl
  | completes _ phase =>
      cases h
      refine hsame ?_ rfl
      rw [phase]
      exact (isStarted_endingPhase s _).symm
  | closes closing =>
      have hstarted := isStarted_of_isEnding (isEnding_of_closing closing)
      cases closing with
      | finishes panic => cases panic <;> cases h
      | _ => cases h; exact hsame hstarted rfl

/-- A task ends with an item that was started, or aborts it. -/
theorem entered_of_files
    (turn : Turn s task move effect)
    (h : effect.fate = .files item)
    (calm : effect.faults = [])
    (aborts : s.stopped = true → s.aborted = true)
    (ending : task.phase.isEnding = true → task.item.isAborted = false) :
    (effect.events.filterMap Event.started?).map Item.origin ++ task.entered.map Item.origin =
      ([item].filter fun item => !item.isAborted).map Item.origin := by
  cases turn with
  | @turnsAway moved panic phase stop skip =>
      cases panic with
      | some message => cases h
      | none =>
          cases h
          have hearly : task.phase.isStarted = false := by
            rcases phase with phase | ⟨due, phase⟩ <;> rw [phase] <;> rfl
          rw [entered_of_early hearly]
          cases moved with
          | error rejected => cases calm
          | ok after =>
              obtain ⟨-, rfl⟩ := Item.map_moveTo_eq_ok skip
              simp [Event.started?, Item.isAborted, State.skipReason, aborts stop]
  | rejects => cases calm
  | closes closing =>
      have hending := isEnding_of_closing closing
      cases closing with
      | finishes panic =>
          cases panic with
          | some message => cases h
          | none =>
              cases h
              rw [entered_of_started (isStarted_of_isEnding hending)]
              simp [Event.started?, ending hending]
      | _ => cases h
  | _ => cases h

theorem isAborted_of_conclusion
    {registry : Option Registry}
    (conclusion : Conclusion s task item registry) :
    item.isAborted = false := by
  cases conclusion with
  | fails | interrupted | succeeds | wins | repeats => simp [Item.isAborted]

/-- An item that comes to its end tells why. -/
theorem told_of_comes
    {registry : Option Registry}
    (comes : Comes s item registry)
    (raised : Raised s) :
    Told s item := by
  cases comes with
  | concludes htask conclusion =>
      cases conclusion with
      | @fails failure _ _ _ last =>
          refine ⟨fun _ => ⟨failure, rfl, ?_⟩, fun hstatus => by simp at hstatus⟩
          simpa [State.isLastFailure] using last
      | interrupted stops =>
          exact ⟨fun hstatus => by simp at hstatus,
            fun _ _ => Service.halted_of_interrupts stops⟩
      | succeeds | wins =>
          exact ⟨fun hstatus => by simp at hstatus, fun hstatus => by simp at hstatus⟩
      | repeats =>
          exact ⟨fun hstatus => by simp at hstatus, fun _ hreason => by cases hreason⟩
  | turnedAway away =>
      obtain ⟨before, -, -, hstop, rfl⟩ := away
      refine ⟨fun hstatus => by simp at hstatus, fun _ hreason => ?_⟩
      rcases raised.stops.mp hstop with hhalt | haborted
      · exact hhalt
      · simp [State.skipReason, haborted] at hreason

end Turns

section Steps

variable {first s t : State} {action : Action}

theorem told_of_transition
    (h : Transition s action t)
    (standing : Standing s)
    (raised : Raised s)
    (told : ∀ item, Done s item → Told s item) :
    ∀ item, Done t item → Told t item := by
  intro item hdone
  have hsettings : t.settings = s.settings := by
    rw [State.settings, setup_of_transition h]
    rfl
  have hlater : ∀ {item}, Told s item → Told t item := fun htold =>
    ⟨hsettings ▸ htold.failed, fun hstatus hreason =>
      halted_of_transition h (htold.cancelled hstatus hreason)⟩
  rcases done_of_transition h standing hdone with
    ⟨before, location, hbefore, rfl⟩ | ⟨registry, hcomes, -⟩
  · have htold := told before hbefore
    exact hlater ⟨htold.failed, htold.cancelled⟩
  · exact hlater (told_of_comes hcomes raised)

/-- A pending item waits, or its task has not started it. -/
theorem early_of_pending
    {item : Item}
    (standing : Standing s)
    (hitem : item ∈ s.own)
    (pending : item.status = .pending) :
    item ∈ s.waiting ∨ ∃ task ∈ s.tasks, task.phase.isStarted = false ∧ task.item = item := by
  rcases mem_own.mp hitem with hfinished | ⟨task, htask, rfl⟩ | hwaiting
  · have hterminal := standing.finished item hfinished
    rw [Item.isTerminal, pending] at hterminal
    cases hterminal
  · refine .inr ⟨task, htask, ?_, rfl⟩
    have hstands := standing.tasks task htask
    unfold Task.Stands at hstands
    cases hphase : task.phase with
    | spawned | throttled => rfl
    | calling | answered | pausing | rethrottled | comparing =>
        simp only [hphase] at hstands
        cases pending.symm.trans hstands
    | persisting | buffering | saving | finishing =>
        simp only [hphase, Item.isTerminal, pending] at hstands
        cases hstands
  · exact .inl hwaiting

theorem untouched_of_transition
    (h : Transition s action t)
    (standing : Standing s)
    (untouched : Untouched first s) :
    Untouched first t where
  waiting item hitem := untouched.waiting item (waiting_of_transition h hitem)
  tasks task htask early := by
    cases h with
    | advances | cancels | skips | takesPermit | flushes | leaves | closes | closesNot =>
        exact untouched.tasks task htask early
    | breaksInSkip => cases htask
    | @spawns item rest _ waiting =>
        rcases List.mem_append.mp htask with hold | hnew
        · exact untouched.tasks task hold early
        · cases List.mem_singleton.mp hnew
          exact untouched.waiting item (by simp [waiting])
    | turns live found turn =>
        rcases mem_tasks htask with hfate | ⟨hold, -⟩
        · obtain ⟨hearly, hitem⟩ := early_of_goesOn turn hfate early
          exact hitem ▸ untouched.tasks _ (mem_of_task? found).1 hearly
        · exact untouched.tasks task hold early
  ending task htask ending := by
    rcases mem_tasks_of_transition h htask with
      hold | hspawned | ⟨before, hbefore, move, effect, hturn, hfate, -⟩
    · exact untouched.ending task hold ending
    · rw [hspawned] at ending
      cases ending
    · cases hphase : before.phase.isEnding with
      | false =>
          exact isAborted_of_conclusion
            (conclusion_of_goesOn hturn (standing.tasks before hbefore) hphase hfate ending).1
      | true =>
          have haborted := untouched.ending before hbefore hphase
          rcases fate_of_closing (closing_of_turn hturn hphase) with
            ⟨_, location, hgoes, -, hitem, -⟩ | ⟨-, panic, hgoes, -⟩
          · cases hgoes.symm.trans hfate
            rw [hitem]
            exact haborted
          · cases panic <;> cases hgoes.symm.trans hfate
  finished item hitem haborted := by
    rcases filed_of_transition h standing hitem with
      hold | ⟨task, htask, hphase, rfl⟩ | ⟨⟨before, hbefore, hpending, -, rfl⟩, -⟩
    · exact untouched.finished item hold haborted
    · rw [untouched.ending task htask (by rw [hphase]; rfl)] at haborted
      cases haborted
    · have hreason : s.skipReason = .aborted := by simpa [Item.isAborted] using haborted
      rw [hreason]
      rcases early_of_pending standing hbefore hpending with hwaiting | ⟨task, htask, hearly, rfl⟩
      · exact ⟨before, untouched.waiting before hwaiting, s.stamp, rfl⟩
      · exact ⟨task.item, untouched.tasks task htask hearly, s.stamp, rfl⟩

/-- A task that starts its item adds it to those that have entered their processing. -/
theorem entering_of_turn
    {task : Task} {move : Move} {effect : Effect}
    (numbered : Numbered s)
    (htask : task ∈ s.tasks)
    (turn : Turn s task move effect)
    (calm : effect.faults = [])
    (aborts : s.stopped = true → s.aborted = true)
    (ending : task.phase.isEnding = true → task.item.isAborted = false)
    (entering : ((startsIn s.events).map Item.origin).Perm (s.entered.map Item.origin)) :
    ((startsIn (effect.apply s task.number).events).map Item.origin).Perm
      ((effect.apply s task.number).entered.map Item.origin) := by
  let origins (task : Task) := task.entered.map Item.origin
  let new := (effect.events.filterMap Event.started?).map Item.origin
  let kept := (s.finished.filter fun item => !item.isAborted).map Item.origin
  let filed := (effect.fate.filed.filter fun item => !item.isAborted).map Item.origin
  have hstep : new ++ origins task = filed ++ effect.fate.gather origins := by
    cases hfate : effect.fate with
    | goesOn next => simpa [filed, hfate, Fate.gather] using entered_of_goesOn turn hfate
    | files item => simpa [filed, hfate, Fate.gather] using
        entered_of_files turn hfate calm aborts ending
    | loses => exact absurd calm (faults_of_loses turn hfate)
  obtain ⟨rest, hbefore, hafter⟩ := flatMap_tasks origins effect.fate numbered.distinct htask
  have hold : ((startsIn s.events).map Item.origin).Perm (kept ++ (origins task ++ rest)) := by
    refine entering.trans ?_
    rw [State.entered, List.map_append, List.map_flatMap]
    exact hbefore.append_left kept
  have hnew : ((startsIn (effect.apply s task.number).events).map Item.origin).Perm
      (new ++ (startsIn s.events).map Item.origin) := by
    show ((startsIn (s.seen effect.events).events).map Item.origin).Perm _
    rw [startsIn_seen, List.map_append, List.map_reverse]
    exact (List.reverse_perm new).append_right _
  have hentered : (kept ++ (filed ++ (effect.fate.gather origins ++ rest))).Perm
      ((effect.apply s task.number).entered.map Item.origin) := by
    show List.Perm _ ((((s.finished ++ effect.fate.filed).filter fun item => !item.isAborted) ++
      (effect.fate.tasks task.number s.tasks).flatMap Task.entered).map Item.origin)
    rw [List.filter_append, List.map_append, List.map_append, List.map_flatMap, List.append_assoc]
    exact (hafter.symm.append_left filed).append_left kept
  refine (hnew.trans (hold.append_left new)).trans (.trans ?_ hentered)
  have hsame : kept ++ (filed ++ (effect.fate.gather origins ++ rest)) =
      kept ++ (new ++ (origins task ++ rest)) := by
    rw [← List.append_assoc filed, ← hstep, List.append_assoc]
  rw [hsame]
  exact List.perm_append_comm_assoc new kept (origins task ++ rest)

theorem entering_of_transition
    (h : Transition s action t)
    (numbered : Numbered s)
    (raised : Raised s)
    (untouched : Untouched first s)
    (entering : Entering s) :
    Entering t := by
  intro uncancelled fatal stage
  have hfatal := fatal_of_transition h fatal
  have hstage := stage_ne_unwound (live_of_transition h)
  -- Without a cancellation and a fault, only a failed item stops dispatch.
  have haborts : s.cancelled = false → s.stopped = true → s.aborted = true := by
    intro hcancelled hstop
    refine (raised.stops.mp hstop).resolve_left fun hhalt => ?_
    rcases raised.halts.mp hhalt with hcancel | hfault
    · cases hcancelled.symm.trans hcancel
    · exact hfault hfatal
  cases h with
  | advances | takesPermit | flushes | leaves | closes => exact entering uncancelled hfatal hstage
  | cancels => cases uncancelled
  | closesNot => exact absurd (fatal_of_faulted fatal).2 (List.cons_ne_nil _ _)
  | breaksInSkip => exact absurd rfl stage
  | @skips item rest moved _ _ stop _ _ skip =>
      cases moved with
      | error rejected => exact absurd (fatal_of_faulted fatal).2 (List.cons_ne_nil _ _)
      | ok after =>
          obtain ⟨-, rfl⟩ := Item.map_moveTo_eq_ok skip
          have hbefore := entering uncancelled hfatal hstage
          simpa [State.entered, State.seen, State.faulted, startsIn, Event.started?,
            Item.isAborted, State.skipReason, haborts uncancelled stop] using hbefore
  | spawns =>
      have hbefore := entering uncancelled hfatal hstage
      simpa [State.entered, Task.entered, Phase.isStarted] using hbefore
  | turns _ found turn =>
      have htask := (mem_of_task? found).1
      exact entering_of_turn numbered htask turn (fatal_of_faulted fatal).2 (haborts uncancelled)
        (untouched.ending _ htask) (entering uncancelled hfatal hstage)

end Steps

/-- What is known of a run whose signals keep items and calls away. -/
structure Draining (first s : State) : Prop extends Orderly first s where
  raised : Raised s
  told : ∀ item, Done s item → Told s item
  untouched : Untouched first s
  entering : Entering s

/-- What a run returns that stops at the first item that fails, and that was not cancelled. -/
structure Drained (setup : Setup) (items : List Item) (checkpoint : Checkpoint) (s : State)
    (result : Returned) : Prop where
  aborted : result.aborted = true ↔
    ∃ item ∈ result.items, setup.resumes checkpoint item = false ∧ item.status = .failed
  statuses : ∀ item ∈ result.items, setup.resumes checkpoint item = false →
    item.status = .success ∨ item.status = .failed ∨
      (item.status = .skipped ∧ ∃ firstId, item.skipReason = some (.duplicate firstId)) ∨
      item.isAborted = true
  /-- Items that have failed have had all their attempts. -/
  attempted : ∀ item ∈ result.items, setup.resumes checkpoint item = false →
    item.status = .failed → ∃ failure : AttemptFailure,
      item.failure = some failure.toItemFailure ∧
        (failure.isRetryable = false ∨ setup.settings.retry.maxAttempts ≤ item.attempts)
  /-- Aborted items went straight to their end. -/
  untouched : ∀ item ∈ result.items, item.isAborted = true → ∃ before ∈ items, ∃ now,
    item = { before.moved .skipped now with skipReason := some .aborted } ∧
      item.attempts = before.attempts
  unattempted : (∀ item ∈ items, item.attempts = 0) →
    ∀ item ∈ result.items, item.isAborted = true → item.attempts = 0
  /-- All others have entered their processing, and only they. -/
  starts : ((startsIn s.events).map Item.origin).Perm
    ((result.items.filter fun item =>
      !setup.resumes checkpoint item && !item.isAborted).map Item.origin)

/-- What signals do to a run, in one of its states. -/
structure Signalled (setup : Setup) (items : List Item) (checkpoint : Checkpoint) (s : State) :
    Prop where
  raised : Raised s
  dispatch : s.stopped = true → ∀ t, Reaches s t → Unstarted s t
  calls : s.isHalted = true → ∀ t, Reaches s t → Uncalled s t
  /-- Started items go on after an abort as they would without it. -/
  drains : ∀ task ∈ s.tasks, task.phase.isStarted = true → ∀ move,
    s.abort.move? task move = (s.move? task move).map State.abort
  returned : ∀ result, s.stage = .returned (.ok result) → result.cancelled = false →
    setup.settings.continueOnError = false → Drained setup items checkpoint s result

section Runs

variable {setup : Setup} {items : List Item} {checkpoint : Checkpoint} {throttle : Throttle}
  {registry : Registry} {monitor : Monitor} {clock : Nat} {first s t : State} {action : Action}
  {result : Returned} {item : Item}

theorem draining_of_transition
    (h : Transition s action t)
    (draining : Draining first s) :
    Draining first t where
  toOrderly := orderly_of_transition h draining.toOrderly
  raised := raised_of_transition h draining.numbered draining.standing draining.raised
  told := told_of_transition h draining.standing draining.raised draining.told
  untouched := untouched_of_transition h draining.standing draining.untouched
  entering := entering_of_transition h draining.numbered draining.raised draining.untouched
    draining.entering

theorem draining_opened
    (pending : ∀ item ∈ items, item.status = .pending) :
    Draining (.opened setup items checkpoint throttle registry monitor clock)
      (.opened setup items checkpoint throttle registry monitor clock) where
  toOrderly := orderly_opened pending
  raised := raised_opened
  told item hdone := by
    rcases hdone with hfinished | ⟨task, htask, -⟩
    · cases hfinished
    · cases htask
  untouched := ⟨fun _ hitem => hitem, fun _ htask => absurd htask List.not_mem_nil,
    fun _ htask => absurd htask List.not_mem_nil, fun _ hitem => absurd hitem List.not_mem_nil⟩
  entering _ _ _ := .refl _

/-- A run takes over the items that its checkpoint lists. -/
theorem resumes_of_restored
    (orderly : Orderly (.opened setup items checkpoint throttle registry monitor clock) s)
    (hitem : item ∈ s.restored) :
    setup.resumes checkpoint item = true ∧ item.isAborted = false := by
  rw [orderly.conserved.restored, opened_restored] at hitem
  obtain ⟨before, hbefore, rfl⟩ := List.mem_map.mp hitem
  have hid := Item.id_of_origin (restored_spec checkpoint before (.ofMillis clock)).1
  constructor
  case left => simpa [Setup.resumes, hid] using (List.mem_filter.mp hbefore).2
  case right =>
    unfold Item.isAborted
    rw [skipReason_restored]
    split
    case isTrue => simp
    case isFalse hstatus => simp [hstatus]

/-- It finishes the other ones. -/
theorem resumes_of_finished
    (orderly : Orderly (.opened setup items checkpoint throttle registry monitor clock) s)
    (returned : s.stage = .returned (.ok result))
    (hitem : item ∈ s.finished) :
    setup.resumes checkpoint item = false := by
  obtain ⟨-, -, hfatal, -, hunwound⟩ := drained_of_returned orderly returned
  have hown : item.origin ∈ s.own.map Item.origin :=
    List.mem_map_of_mem (mem_own.mpr (.inl hitem))
  obtain ⟨before, hbefore, horigin⟩ :=
    List.mem_map.mp ((orderly.conserved.origins hfatal hunwound).mem_iff.mp hown)
  rw [opened_waiting] at hbefore
  have hsame : setup.resumes checkpoint before = setup.resumes checkpoint item := by
    rw [Setup.resumes, Setup.resumes, Item.id_of_origin horigin]
  rw [← hsame]
  simpa using (List.mem_filter.mp hbefore).2

theorem finished_of_resumes
    (orderly : Orderly (.opened setup items checkpoint throttle registry monitor clock) s)
    (returned : s.stage = .returned (.ok result))
    (hitem : item ∈ result.items)
    (new : setup.resumes checkpoint item = false) :
    item ∈ s.finished := by
  refine ((mem_returned orderly returned).mp hitem).resolve_left fun hrestored => ?_
  rw [(resumes_of_restored orderly hrestored).1] at new
  cases new

/-- An item that is not left by its run has succeeded, failed, or is a duplicate. -/
theorem status_of_isSettled
    (settled : item.isSettled = true) :
    item.status = .success ∨ item.status = .failed ∨
      (item.status = .skipped ∧ ∃ firstId, item.skipReason = some (.duplicate firstId)) := by
  unfold Item.isSettled at settled
  split at settled
  case h_1 hstatus => exact .inl hstatus
  case h_2 hstatus => exact .inr (.inl hstatus)
  case h_3 hstatus =>
      split at settled
      case h_1 reason hreason =>
          cases reason with
          | duplicate firstId => exact .inr (.inr ⟨hstatus, firstId, hreason⟩)
          | aborted | cancelled | resumed => cases settled
      case h_2 => cases settled
  case h_4 => cases settled

/-- A run that was not cancelled leaves only aborted items. -/
theorem statuses_of_draining
    (draining : Draining (.opened setup items checkpoint throttle registry monitor clock) s)
    (returned : s.stage = .returned (.ok result))
    (uncancelled : result.cancelled = false)
    (hitem : item ∈ s.finished) :
    item.status = .success ∨ item.status = .failed ∨
      (item.status = .skipped ∧ ∃ firstId, item.skipReason = some (.duplicate firstId)) ∨
      item.isAborted = true := by
  obtain ⟨hfatal, -, -, hcancelled⟩ := draining.staged.returned result returned
  rcases draining.disposed.done item (.inl hitem) with hsettled | ⟨-, hleft⟩
  · rcases status_of_isSettled hsettled with h | h | h
    · exact .inl h
    · exact .inr (.inl h)
    · exact .inr (.inr (.inl h))
  · simp only [Item.isLeft, Bool.and_eq_true, Bool.or_eq_true, beq_iff_eq] at hleft
    obtain ⟨hstatus, hreason | hreason⟩ := hleft
    · -- Nobody gives an item up without a halt.
      have hhalt := (draining.told item (.inl hitem)).cancelled hstatus hreason
      rcases draining.raised.halts.mp hhalt with h | h
      · rw [← hcancelled, uncancelled] at h
        cases h
      · exact absurd hfatal h
    · exact .inr (.inr (.inr (by simp [Item.isAborted, hstatus, hreason])))

theorem drained_of_draining
    (draining : Draining (.opened setup items checkpoint throttle registry monitor clock) s)
    (returned : s.stage = .returned (.ok result))
    (uncancelled : result.cancelled = false)
    (abrupt : setup.settings.continueOnError = false) :
    Drained setup items checkpoint s result := by
  have orderly := draining.toOrderly
  obtain ⟨-, htasks, hfatal, -, hunwound⟩ := drained_of_returned orderly returned
  obtain ⟨-, hitems, haborted, hcancelled⟩ := orderly.staged.returned result returned
  have hsettings : s.settings = setup.settings := by
    rw [State.settings, orderly.conserved.setup]
    rfl
  have hfinished : ∀ {item}, item ∈ result.items → setup.resumes checkpoint item = false →
      item ∈ s.finished := fun hitem hnew => finished_of_resumes orderly returned hitem hnew
  have huntouched : ∀ item ∈ result.items, item.isAborted = true → ∃ before ∈ items, ∃ now,
      item = { before.moved .skipped now with skipReason := some .aborted } := by
    intro item hitem hskipped
    rcases (mem_returned orderly returned).mp hitem with hold | hnew
    · rw [(resumes_of_restored orderly hold).2] at hskipped
      cases hskipped
    · obtain ⟨before, hbefore, now, heq⟩ := draining.untouched.finished item hnew hskipped
      rw [opened_waiting] at hbefore
      exact ⟨before, (List.mem_filter.mp hbefore).1, now, heq⟩
  constructor
  case aborted =>
    rw [haborted]
    constructor
    · intro h
      obtain ⟨item, hdone, hfailed⟩ := draining.raised.cause h hfatal hunwound
      have hitem : item ∈ s.finished := by
        rcases hdone with hfinal | ⟨task, htask, -⟩
        · exact hfinal
        · rw [htasks] at htask
          cases htask
      exact ⟨item, (mem_returned orderly returned).mpr (.inr hitem),
        resumes_of_finished orderly returned hitem, hfailed⟩
    · rintro ⟨item, hitem, hnew, hfailed⟩
      exact draining.raised.failed (hsettings ▸ abrupt) item (.inl (hfinished hitem hnew)) hfailed
  case statuses =>
    intro item hitem hnew
    exact statuses_of_draining draining returned uncancelled (hfinished hitem hnew)
  case attempted =>
    intro item hitem hnew hfailed
    exact hsettings ▸ (draining.told item (.inl (hfinished hitem hnew))).failed hfailed
  case untouched =>
    intro item hitem hskipped
    obtain ⟨before, hbefore, now, rfl⟩ := huntouched item hitem hskipped
    exact ⟨before, hbefore, now, rfl, Item.attempts_moved _⟩
  case unattempted =>
    intro hfresh item hitem hskipped
    obtain ⟨before, hbefore, now, rfl⟩ := huntouched item hitem hskipped
    exact (Item.attempts_moved _).trans (hfresh before hbefore)
  case starts =>
    have hentered : s.entered = s.finished.filter fun item => !item.isAborted := by
      simp [State.entered, htasks]
    have hperm : result.items.Perm (s.restored ++ s.finished) := hitems ▸ allItems_perm s
    have hold : (s.restored.filter fun item =>
        !setup.resumes checkpoint item && !item.isAborted) = [] :=
      List.filter_eq_nil_iff.mpr fun item hitem => by
        simp [(resumes_of_restored orderly hitem).1]
    have hnew : (s.finished.filter fun item =>
        !setup.resumes checkpoint item && !item.isAborted) =
          s.finished.filter fun item => !item.isAborted :=
      List.filter_congr fun item hitem => by
        simp [resumes_of_finished orderly returned hitem]
    refine (draining.entering (hcancelled ▸ uncancelled) hfatal hunwound).trans ?_
    rw [hentered, ← hnew]
    refine (List.Perm.map Item.origin (.trans ?_ (hperm.filter _).symm))
    rw [List.filter_append, hold, List.nil_append]

/-- Signals keep further items and calls away from a run, and a run that stops at an item that fails
returns those that it has started finished, and the other ones as they were. -/
theorem signalled_of_reaches
    (pending : ∀ item ∈ items, item.status = .pending)
    (opened : State.initial? setup items (.ok checkpoint) throttle registry monitor clock
      = .ok first)
    (run : Reaches first s) :
    Signalled setup items checkpoint s := by
  obtain ⟨_, hsaved, -, rfl⟩ := opened_of_initial? opened
  cases hsaved
  have draining := run.invariant draining_of_transition (draining_opened pending)
  exact ⟨draining.raised,
    fun stop t later => unstarted_of_reaches later draining.standing stop,
    fun halt t later => uncalled_of_reaches later draining.standing.halts halt,
    fun task _ started => move?_abort s task started,
    fun result returned uncancelled abrupt =>
      drained_of_draining draining returned uncancelled abrupt⟩

/-- Two items at a time, up to the first one that fails. -/
def twoAbreast : Setup where
  settings := { concurrency := 2, continueOnError := false, retry := { baseDelay := 0 } }

/-- The first of three items fails while the second one is called for, which is tried again. -/
def failsAbreast : List Action :=
  [.takePermit, .spawn, .takePermit, .spawn, .task 0 (.resume none), .task 1 (.resume none),
    .task 0 (.reply (.failure (.permanent "no"))), .task 0 (.resume none), .skipNext none,
    .task 1 (.reply (.failure (.transient "busy"))), .task 1 (.resume none),
    .task 1 (.reply (.value .null)), .task 1 (.resume none), .task 1 (.resume none),
    .task 0 (.resume none), .task 0 (.resume none), .task 1 (.resume none), .task 1 (.resume none),
    .flush, .close none]

/-- The second item ends with a result, and the third one is not started. -/
theorem signalled_of_failsAbreast :
    ∃ last result, Reaches (.opened twoAbreast threeItems {} {} {}
        { settings := { windowSize := 1 } } 0) last ∧
      last.stage = .returned (.ok result) ∧
      (result.aborted, result.items.map fun item => (item.id, item.status, item.attempts)) =
        (true, [("3", .skipped, 0), ("1", .failed, 1), ("2", .success, 2)]) ∧
      Signalled twoAbreast threeItems {} last := by
  have hends : ((State.follow? (.opened twoAbreast threeItems {} {} {}
      { settings := { windowSize := 1 } } 0) failsAbreast).bind State.returned?).map (fun result =>
        (result.aborted, result.items.map fun item => (item.id, item.status, item.attempts))) =
      some (true, [("3", .skipped, 0), ("1", .failed, 1), ("2", .success, 2)]) := by
    decide +kernel
  obtain ⟨result, hresult, hshown⟩ := Option.map_eq_some_iff.mp hends
  obtain ⟨last, hlast, hreturned⟩ := Option.bind_eq_some_iff.mp hresult
  have run := reaches_of_follow? hlast
  exact ⟨last, result, run, stage_of_returned? hreturned, hshown,
    signalled_of_reaches (by decide) (initial?_eq_ok (by decide +kernel)) run⟩

end Runs

end Run
end BatchRun
