import BatchRun.Proofs.Run.WriteAhead

/-!
# Verdicts on items

The replies of an executor decide how items end, whatever the order in which their tasks go on.

**Types.**
A `Service` is an executor whose reply depends on the id of an item and the number of the attempt
alone.  From an attempt on, its replies come to a `Service.upshot` and lead to a
`Service.status`.

**Invariant.**
Every item is on its way to the status that its next attempt leads to, or has reached it, or was
given up after dispatch had stopped (`Judged`).

**Results.**
* `upshot_of_ok`, `upshot_of_last`, `upshot_of_again`: what one reply says of the upshot;
  `status_eq_upshot` carries this over to the status.
* `judged_of_transition`: a step in which calls end with the replies of the executor keeps the
  invariant.
* `status_of_judged`: without a cancellation and without a fault, every finished item has the
  status that the replies lead to.
-/

namespace BatchRun

namespace Run

/-- Status to which attempts lead from one on, if `more` others may follow it. -/
def verdict (reply : Nat → Reply) : (more attempt : Nat) → Status
  | 0, attempt =>
    match (reply attempt).outcome with
    | .ok _ => .success
    | .error _ => .failed
  | more + 1, attempt =>
    match (reply attempt).outcome with
    | .ok _ => .success
    | .error failure => if failure.isRetryable then verdict reply more (attempt + 1) else .failed

/-- What the attempts for an item come to: the number of the last one, and its outcome. -/
structure Upshot where
  attempts : Nat
  outcome : Except AttemptFailure Json

/-- What attempts come to from one on, if `more` others may follow it. -/
def lastAttempt (reply : Nat → Reply) : (more attempt : Nat) → Upshot
  | 0, attempt => ⟨attempt, (reply attempt).outcome⟩
  | more + 1, attempt =>
    match (reply attempt).outcome with
    | .ok result => ⟨attempt, .ok result⟩
    | .error failure =>
      if failure.isRetryable then lastAttempt reply more (attempt + 1)
      else ⟨attempt, .error failure⟩

/-- Status of an item that ends with an upshot. -/
def Upshot.status (upshot : Upshot) : Status :=
  match upshot.outcome with
  | .ok _ => .success
  | .error _ => .failed

/-- An executor whose replies depend on the id of an item and the number of the attempt alone. -/
structure Service where
  reply : String → Nat → Reply
  /-- Number of attempts for an item. -/
  limit : Nat

namespace Service

/-- Status to which attempts for an item lead from one on. -/
def status (service : Service) (id : String) (attempt : Nat) : Status :=
  verdict (service.reply id) (service.limit - attempt) attempt

/-- What attempts for an item come to from one on. -/
def upshot (service : Service) (id : String) (attempt : Nat) : Upshot :=
  lastAttempt (service.reply id) (service.limit - attempt) attempt

/-- Settings under which the replies alone decide. -/
structure Suits (service : Service) (setup : Setup) : Prop where
  goesOn : setup.settings.continueOnError = true
  unchecked : setup.settings.deduplicate = false
  attempts : setup.settings.retry.maxAttempts = service.limit

/-- A call that ends does so in time and with the reply of the executor. -/
def Serves (service : Service) (s : State) : Action → Prop
  | .task number (.reply reply) =>
    ∀ task, s.task? number = some task → reply = service.reply task.item.id task.item.attempts
  | .task _ .expire => False
  | _ => True

/-- An item has a status, and its attempts lead to the final one from an attempt on. -/
structure Expects (service : Service) (final : String → Status) (item : Item) (status : Status)
    (attempt : Nat) : Prop where
  current : item.status = status
  coming : service.status item.id attempt = final item.id

/-- An item has its final status, or was given up after dispatch had stopped. -/
def Ended (final : String → Status) (stopped : Bool) (item : Item) : Prop :=
  item.status = final item.id ∨
    (stopped = true ∧ item.status = .skipped ∧ item.isSettled = false)

/-- The item of a task is on its way to the final status. -/
def Fits (service : Service) (final : String → Status) (stopped : Bool) (task : Task) : Prop :=
  match task.phase with
  | .spawned => service.Expects final task.item .pending (task.item.attempts + 1)
  | .throttled _ => service.Expects final task.item .pending (task.item.attempts + 1)
  | .calling _ => service.Expects final task.item .processing task.item.attempts
  | .answered outcome _ =>
    service.Expects final task.item .processing task.item.attempts ∧
      outcome = (service.reply task.item.id task.item.attempts).outcome
  | .pausing _ => service.Expects final task.item .processing (task.item.attempts + 1)
  | .rethrottled _ => service.Expects final task.item .processing (task.item.attempts + 1)
  | .comparing _ => task.item.status = .processing ∧ final task.item.id = .success
  | .persisting => task.item.status = final task.item.id
  | .buffering => task.item.status = final task.item.id
  | .saving _ => task.item.status = final task.item.id
  | .finishing => Ended final stopped task.item

section Replies

variable {service : Service} {id : String} {attempt : Nat} {failure : AttemptFailure}

theorem verdict_eq_status
    (reply : Nat → Reply)
    (more attempt : Nat) :
    verdict reply more attempt = (lastAttempt reply more attempt).status := by
  induction more generalizing attempt with
  | zero =>
      unfold verdict lastAttempt Upshot.status
      rfl
  | succ more ih =>
      unfold verdict lastAttempt
      cases (reply attempt).outcome with
      | ok result => rfl
      | error failure =>
          cases hretryable : failure.isRetryable with
          | true => simpa [hretryable] using ih (attempt + 1)
          | false => simp [hretryable, Upshot.status]

theorem status_eq_upshot
    (service : Service)
    (id : String)
    (attempt : Nat) :
    service.status id attempt = (service.upshot id attempt).status :=
  verdict_eq_status (service.reply id) (service.limit - attempt) attempt

/-- A result is the last outcome. -/
theorem upshot_of_ok
    {result : Json}
    (h : (service.reply id attempt).outcome = .ok result) :
    service.upshot id attempt = ⟨attempt, .ok result⟩ := by
  unfold upshot
  cases service.limit - attempt with
  | zero => rw [lastAttempt, h]
  | succ more => simp only [lastAttempt, h]

/-- No attempt follows a failure that stays, or that of the last attempt. -/
theorem upshot_of_last
    (h : (service.reply id attempt).outcome = .error failure)
    (last : (!failure.isRetryable || decide (service.limit ≤ attempt)) = true) :
    service.upshot id attempt = ⟨attempt, .error failure⟩ := by
  unfold upshot
  cases hmore : service.limit - attempt with
  | zero => rw [lastAttempt, h]
  | succ more =>
      have hstays : failure.isRetryable = false := by
        have hlate : ¬ service.limit ≤ attempt := by omega
        simpa [hlate] using last
      simp [lastAttempt, h, hstays]

/-- After another failure the next attempt decides. -/
theorem upshot_of_again
    (h : (service.reply id attempt).outcome = .error failure)
    (again : (!failure.isRetryable || decide (service.limit ≤ attempt)) = false) :
    service.upshot id attempt = service.upshot id (attempt + 1) := by
  obtain ⟨hretryable, hearly⟩ : failure.isRetryable = true ∧ attempt < service.limit := by
    simpa using again
  have hmore : service.limit - attempt = service.limit - (attempt + 1) + 1 := by omega
  unfold upshot
  rw [hmore]
  simp [lastAttempt, h, hretryable]

theorem status_of_ok
    {result : Json}
    (h : (service.reply id attempt).outcome = .ok result) :
    service.status id attempt = .success := by
  rw [status_eq_upshot, upshot_of_ok h]
  rfl

theorem status_of_last
    (h : (service.reply id attempt).outcome = .error failure)
    (last : (!failure.isRetryable || decide (service.limit ≤ attempt)) = true) :
    service.status id attempt = .failed := by
  rw [status_eq_upshot, upshot_of_last h last]
  rfl

theorem status_of_again
    (h : (service.reply id attempt).outcome = .error failure)
    (again : (!failure.isRetryable || decide (service.limit ≤ attempt)) = false) :
    service.status id attempt = service.status id (attempt + 1) := by
  rw [status_eq_upshot, status_eq_upshot, upshot_of_again h again]

theorem verdict_isSettled
    (reply : Nat → Reply)
    (more attempt : Nat) :
    verdict reply more attempt = .success ∨ verdict reply more attempt = .failed := by
  rw [verdict_eq_status, Upshot.status]
  cases (lastAttempt reply more attempt).outcome with
  | ok result => exact .inl rfl
  | error failure => exact .inr rfl

end Replies

section Turns

variable {service : Service} {final : String → Status} {s : State} {task next : Task}
  {item : Item} {move : Move} {effect : Effect}

theorem Expects.canMoveTo
    {status target : Status} {attempt : Nat}
    (expects : service.Expects final item status attempt)
    (allowed : status.canMoveTo target = true) :
    item.status.canMoveTo target = true :=
  expects.current.symm ▸ allowed

theorem Ended.mono
    {stopped later : Bool}
    (ended : Ended final stopped item)
    (h : stopped = true → later = true) :
    Ended final later item :=
  ended.imp_right fun given => ⟨h given.1, given.2⟩

theorem Fits.mono
    {stopped later : Bool}
    (fits : service.Fits final stopped task)
    (h : stopped = true → later = true) :
    service.Fits final later task := by
  unfold Fits at *
  cases hphase : task.phase with
  | finishing =>
      rw [hphase] at fits
      exact Ended.mono fits h
  | _ => simpa only [hphase] using fits

theorem endingPhase_cases
    (s : State)
    (item : Item) :
    s.endingPhase item = .persisting ∨ s.endingPhase item = .buffering ∨
      s.endingPhase item = .finishing := by
  unfold State.endingPhase
  split
  case isTrue => exact .inr (.inr rfl)
  case isFalse =>
      split
      case isTrue => exact .inl rfl
      case isFalse => exact .inr (.inl rfl)

/-- An item with its final status goes on to its record, or to its end. -/
theorem fits_ended
    (stopped : Bool)
    (h : item.status = final item.id) :
    service.Fits final stopped { task with item, phase := s.endingPhase item } := by
  unfold Fits
  rcases endingPhase_cases s item with hphase | hphase | hphase
  · simpa only [hphase] using h
  · simpa only [hphase] using h
  · simpa only [hphase] using .inl h

/-- An item that was given up goes on to its end. -/
theorem fits_given_up
    {stopped : Bool}
    (stop : stopped = true)
    (skipped : item.status = .skipped)
    (unsettled : item.isSettled = false) :
    service.Fits final stopped { task with item, phase := s.endingPhase item } := by
  have hphase : s.endingPhase item = .finishing := by
    simp [State.endingPhase, unsettled]
  unfold Fits
  simpa only [hphase] using .inr ⟨stop, skipped, unsettled⟩

theorem expects_of_admits
    {throttle : Option Throttle} {events : List Event}
    (admits : Admits s task throttle events)
    (fits : service.Fits final s.stopped task) :
    service.Expects final task.item .pending (task.item.attempts + 1) := by
  cases admits with
  | atOnce phase | afterWait phase => simpa only [Fits, phase] using fits

theorem answered_of_samples
    {outcome : Except AttemptFailure Json} {latency : Nat} {monitor : Monitor}
    (samples : Samples s task outcome latency monitor)
    (fits : service.Fits final s.stopped task) :
    service.Expects final task.item .processing task.item.attempts ∧
      (service.reply task.item.id task.item.attempts).outcome = outcome := by
  obtain ⟨expects, houtcome⟩ : service.Expects final task.item .processing task.item.attempts ∧
      outcome = (service.reply task.item.id task.item.attempts).outcome := by
    simpa only [Fits, samples.phase] using fits
  exact ⟨expects, houtcome.symm⟩

theorem isLastFailure_eq
    (limit : s.settings.retry.maxAttempts = service.limit)
    (task : Task)
    (failure : AttemptFailure) :
    s.isLastFailure task failure =
      (!failure.isRetryable || decide (service.limit ≤ task.item.attempts)) := by
  rw [← limit]
  rfl

/-- After a failure that is not the last one, the next attempt decides. -/
theorem expects_of_again
    {failure : AttemptFailure} {latency : Nat} {monitor : Monitor}
    (suits : service.Suits s.setup)
    (samples : Samples s task (.error failure) latency monitor)
    (again : s.isLastFailure task failure = false)
    (fits : service.Fits final s.stopped task) :
    service.Expects final task.item .processing (task.item.attempts + 1) := by
  obtain ⟨expects, houtcome⟩ := answered_of_samples samples fits
  rw [isLastFailure_eq suits.attempts] at again
  exact ⟨expects.current, (status_of_again houtcome again).symm.trans expects.coming⟩

theorem expects_of_retries
    {monitor : Option Monitor} {events : List Event}
    (suits : service.Suits s.setup)
    (retries : Retries s task monitor events)
    (fits : service.Fits final s.stopped task) :
    service.Expects final task.item .processing (task.item.attempts + 1) := by
  cases retries with
  | atOnce samples again => exact expects_of_again suits samples again fits
  | afterPause phase => simpa only [Fits, phase] using fits

theorem halted_of_interrupts
    {monitor : Option Monitor} {events : List Event}
    (stops : Interrupts s task move monitor events) :
    s.isHalted = true := by
  cases stops with
  | inCall _ halt =>
      obtain ⟨tick, hhalted, -⟩ := Option.map_eq_some_iff.mp halt
      rw [State.isHalted, hhalted]
      rfl
  | inPause _ _ halt | afterCall _ _ halt => exact halt

theorem processing_of_interrupts
    {monitor : Option Monitor} {events : List Event}
    (stops : Interrupts s task move monitor events)
    (fits : service.Fits final s.stopped task) :
    task.item.status = .processing := by
  cases stops with
  | inCall phase =>
      simp only [Fits, phase] at fits
      exact fits.current
  | inPause _ phase =>
      rcases phase with phase | phase
      · simp only [Fits, phase] at fits
        exact fits.current
      · simp only [Fits, phase] at fits
        exact fits.current
  | afterCall samples => exact (answered_of_samples samples fits).1.current

theorem fits_attempted
    {status : Status}
    (current : item.status = .processing)
    (expects : service.Expects final item status (item.attempts + 1)) :
    service.Fits final s.stopped (s.attempted task item) :=
  ⟨current, expects.coming⟩

theorem fits_closing
    (closing : Closing s task move effect)
    (fits : service.Fits final s.stopped task)
    (h : effect.fate = .goesOn next) :
    service.Fits final s.stopped next := by
  cases closing with
  | persists _ phase | flushes _ phase =>
      cases h
      simpa only [Fits, phase] using fits
  | persistsNot _ phase | passes _ phase | buffers _ phase | saves phase | savesNot _ phase =>
      cases h
      simp only [Fits, phase] at fits
      exact .inl fits
  | finishes panic => cases panic <;> cases h

/-- A task that goes on stays on its way. -/
theorem fits_of_goesOn
    (suits : service.Suits s.setup)
    (halts : s.isHalted = true → s.stopped = true)
    (turn : Turn s task move effect)
    (found : s.task? task.number = some task)
    (serves : service.Serves s (.task task.number move))
    (fits : service.Fits final s.stopped task)
    (h : effect.fate = .goesOn next) :
    service.Fits final s.stopped next := by
  cases turn with
  | turnsAway panic => cases panic <;> cases h
  | rejects | breaksAtStart | breaksInSample | breaksInRetry => cases h
  | waits panic phase =>
      cases h
      simpa only [Fits, phase] using fits
  | starts admits start =>
      cases h
      have expects := expects_of_admits admits fits
      obtain ⟨_, _, _, rfl⟩ := Item.start_eq_ok start
      exact fits_attempted rfl ⟨rfl, expects.coming⟩
  | answers phase ends =>
      cases h
      simp only [Fits, phase] at fits ⊢
      -- A call that is out of time would end without a reply of the executor.
      cases ends with
      | replied reply => exact ⟨fits, by rw [serves task found]⟩
      | expired => cases serves
  | succeeds panic samples =>
      cases h
      obtain ⟨expects, houtcome⟩ := answered_of_samples samples fits
      exact ⟨expects.current, expects.coming.symm.trans (status_of_ok houtcome)⟩
  | @fails failure _ _ _ panic samples last fail =>
      cases h
      obtain ⟨expects, houtcome⟩ := answered_of_samples samples fits
      rw [isLastFailure_eq suits.attempts] at last
      have hfinal := expects.coming.symm.trans (status_of_last houtcome last)
      rw [← fail, Item.fail_of_canMoveTo _ (expects.canMoveTo rfl)]
      refine fits_ended _ ?_
      simp [hfinal]
  | pauses samples again =>
      have expects := expects_of_again suits samples again fits
      cases h
      exact expects
  | rewaits panic retries =>
      have expects := expects_of_retries suits retries fits
      cases h
      exact expects
  | recalls panic retries =>
      cases h
      have expects := expects_of_retries suits retries fits
      exact fits_attempted expects.current expects
  | recallsAfterWait panic phase =>
      cases h
      have expects : service.Expects final task.item .processing (task.item.attempts + 1) := by
        simpa only [Fits, phase] using fits
      exact fits_attempted expects.current expects
  | interrupts stops skip =>
      cases h
      have hstatus := processing_of_interrupts stops fits
      rw [← skip, Item.skip_of_canMoveTo _ (by rw [hstatus]; rfl)]
      refine fits_given_up (halts (halted_of_interrupts stops)) ?_ ?_
      · simp
      · simp [Item.isSettled, SkipReason.isProcessed]
  | completes panic phase compares =>
      cases h
      simp only [Fits, phase] at fits
      cases compares with
      | unchecked =>
          rw [Item.succeed_of_canMoveTo _ (by rw [fits.1]; rfl)]
          refine fits_ended _ ?_
          simp [fits.2]
      | first on | duplicate on =>
          rw [State.settings, suits.unchecked] at on
          cases on
  | closes closing => exact fits_closing closing fits h

/-- An item that is skipped before its start was not processed. -/
theorem isSettled_skipped
    (item : Item) :
    Item.isSettled { item.moved .skipped s.stamp with skipReason := some s.skipReason }
      = false := by
  unfold State.skipReason
  cases s.aborted <;> simp [Item.isSettled, SkipReason.isProcessed]

/-- A task that ends finishes an item with its final status, or one that was given up. -/
theorem ended_of_files
    (turn : Turn s task move effect)
    (fits : service.Fits final s.stopped task)
    (h : effect.fate = .files item) :
    Ended final s.stopped item := by
  cases turn with
  | turnsAway panic phase stop skip =>
      cases panic with
      | some message => cases h
      | none =>
          cases h
          have hstatus : task.item.status = .pending := by
            rcases phase with phase | ⟨due, phase⟩
            · simp only [Fits, phase] at fits
              exact fits.current
            · simp only [Fits, phase] at fits
              exact fits.current
          rw [← skip, Item.skip_of_canMoveTo _ (by rw [hstatus]; rfl)]
          exact .inr ⟨stop, Item.status_moved .., isSettled_skipped task.item⟩
  | rejects panic admits start =>
      have expects := expects_of_admits admits fits
      rw [Item.start_of_canMoveTo (expects.canMoveTo rfl)] at start
      cases start
  | closes closing =>
      cases closing with
      | finishes panic phase =>
          cases panic with
          | some message => cases h
          | none =>
              cases h
              simpa only [Fits, phase] using fits
      | _ => cases h
  | _ => cases h

end Turns

end Service

/-- What is known of the items of a run that a service takes to their final statuses. -/
structure Judged (service : Service) (final : String → Status) (s : State) : Prop where
  suits : service.Suits s.setup
  waiting : ∀ item ∈ s.waiting, service.Expects final item .pending (item.attempts + 1)
  tasks : ∀ task ∈ s.tasks, service.Fits final s.stopped task
  finished : ∀ item ∈ s.finished, Service.Ended final s.stopped item
  recorded : ∀ tick item, (tick, .persisted item) ∈ s.events → item.status = final item.id
  halts : s.isHalted = true → s.stopped = true
  stops : s.stopped = true → s.cancelled = true ∨ s.fatal ≠ none

section Steps

variable {service : Service} {final : String → Status} {s t : State} {action : Action}

theorem aborts_of_turn
    {task : Task} {move : Move} {effect : Effect}
    (turn : Turn s task move effect)
    (aborts : effect.aborts = true) :
    s.settings.continueOnError = false := by
  cases turn with
  | fails => simpa using (Bool.and_eq_true_iff.mp aborts).1
  | closes closing => cases closing <;> cases aborts
  | _ => cases aborts

/-- What a step that is no cancellation tells all tasks: that there were faults, or that an item
failed where no item may. -/
structure Signals (s t : State) (faults : List RunFault) (aborts : Bool) : Prop where
  cancelled : t.cancelled = s.cancelled
  stopped : t.stopped = (s.stopped || aborts || !faults.isEmpty)
  haltedAt : t.haltedAt = (s.faulted faults).haltedAt
  fatal : t.fatal = (s.faulted faults).fatal
  abrupt : aborts = true → s.settings.continueOnError = false

theorem signals_of_transition
    (h : Transition s action t) :
    t = s.cancel ∨ ∃ faults aborts, Signals s t faults aborts := by
  have calm : ∀ t : State, t.cancelled = s.cancelled → t.stopped = s.stopped →
      t.haltedAt = s.haltedAt → t.fatal = s.fatal → ∃ faults aborts, Signals s t faults aborts := by
    intro t hcancelled hstopped hhalted hfatal
    exact ⟨[], false, hcancelled, by simp [hstopped], by simp [State.faulted, hhalted],
      by simp [State.faulted, hfatal], nofun⟩
  cases h with
  | cancels => exact .inl rfl
  | advances | takesPermit | spawns | flushes | leaves | closes =>
      exact .inr (calm _ rfl rfl rfl rfl)
  | @turns task move effect live found turn =>
      exact .inr ⟨effect.faults, effect.aborts, rfl, rfl, rfl, rfl, aborts_of_turn turn⟩
  | @skips item rest moved | @breaksInSkip item rest moved =>
      exact .inr ⟨moveFaults moved, false, rfl, by simp [State.seen, State.faulted], rfl, rfl,
        nofun⟩
  | closesNot fault =>
      exact .inr ⟨[.checkpoint fault], false, rfl, by simp [State.faulted], rfl, rfl, nofun⟩

/-- Dispatch that has stopped stays so. -/
theorem stopped_of_transition
    (h : Transition s action t)
    (stop : s.stopped = true) :
    t.stopped = true := by
  rcases signals_of_transition h with rfl | ⟨faults, aborts, signals⟩
  · rfl
  · simp [signals.stopped, stop]

/-- A halt stops dispatch. -/
theorem halts_of_transition
    (h : Transition s action t)
    (halts : s.isHalted = true → s.stopped = true)
    (halted : t.isHalted = true) :
    t.stopped = true := by
  rcases signals_of_transition h with rfl | ⟨faults, aborts, signals⟩
  · rfl
  · rw [State.isHalted, signals.haltedAt] at halted
    cases faults with
    | nil => simp [signals.stopped, halts halted]
    | cons fault faults => simp [signals.stopped]

/-- Where items may fail, only a cancellation or a fault stops dispatch. -/
theorem stops_of_transition
    (h : Transition s action t)
    (goesOn : s.settings.continueOnError = true)
    (stops : s.stopped = true → s.cancelled = true ∨ s.fatal ≠ none)
    (stop : t.stopped = true) :
    t.cancelled = true ∨ t.fatal ≠ none := by
  rcases signals_of_transition h with rfl | ⟨faults, aborts, signals⟩
  · exact .inl rfl
  · -- A failed item stops dispatch only where items may not fail.
    have hcalm : aborts = false := by
      cases haborts : aborts with
      | false => rfl
      | true => rw [signals.abrupt haborts] at goesOn; cases goesOn
    rw [signals.cancelled, signals.fatal]
    cases faults with
    | nil =>
        have hbefore : s.stopped = true := by
          simpa [signals.stopped, hcalm] using stop
        simpa [State.faulted] using stops hbefore
    | cons fault faults => simp [State.faulted]

theorem waiting_of_transition
    {item : Item}
    (h : Transition s action t)
    (hmem : item ∈ t.waiting) :
    item ∈ s.waiting := by
  cases h with
  | skips _ waiting | breaksInSkip _ waiting | spawns _ waiting =>
      rw [waiting]
      exact List.mem_cons_of_mem _ hmem
  | _ => exact hmem

theorem fits_of_transition
    (h : Transition s action t)
    (serves : service.Serves s action)
    (judged : Judged service final s) :
    ∀ task ∈ t.tasks, service.Fits final t.stopped task := by
  intro task htask
  have hold : task ∈ s.tasks → service.Fits final t.stopped task := fun hmem =>
    (judged.tasks task hmem).mono (stopped_of_transition h)
  cases h with
  | advances | cancels | skips | takesPermit | flushes | leaves | closes | closesNot =>
      exact hold htask
  | breaksInSkip => cases htask
  | @spawns item rest stage waiting =>
      rcases List.mem_append.mp htask with hmem | hnew
      · exact hold hmem
      · cases List.mem_singleton.mp hnew
        exact judged.waiting item (by simp [waiting])
  | @turns before move effect live found turn =>
      rcases mem_tasks htask with hnext | ⟨hmem, -⟩
      · refine Service.Fits.mono ?_ (stopped_of_transition (.turns live found turn))
        exact Service.fits_of_goesOn judged.suits judged.halts turn found serves
          (judged.tasks before (mem_of_task? found).1) hnext
      · exact hold hmem

theorem ended_of_transition
    (h : Transition s action t)
    (judged : Judged service final s) :
    ∀ item ∈ t.finished, Service.Ended final t.stopped item := by
  intro item hitem
  have hold : item ∈ s.finished → Service.Ended final t.stopped item := fun hmem =>
    (judged.finished item hmem).mono (stopped_of_transition h)
  cases h with
  | advances | cancels | breaksInSkip | spawns | takesPermit | flushes | leaves | closes
  | closesNot =>
      exact hold hitem
  | @skips first rest moved stage waiting stop idle empty skip =>
      rcases List.mem_append.mp hitem with hmem | hnew
      · exact hold hmem
      · cases List.mem_singleton.mp hnew
        have expects := judged.waiting first (by simp [waiting])
        rw [← skip, Item.skip_of_canMoveTo _ (expects.canMoveTo rfl)]
        refine .inr ⟨?_, Item.status_moved .., Service.isSettled_skipped first⟩
        simp [State.seen, State.faulted, stop]
  | @turns task move effect live found turn =>
      rcases List.mem_append.mp hitem with hmem | hnew
      · exact hold hmem
      · cases hfate : effect.fate with
        | goesOn next => rw [hfate] at hnew; cases hnew
        | loses => rw [hfate] at hnew; cases hnew
        | files filed =>
            rw [hfate] at hnew
            cases List.mem_singleton.mp hnew
            have ended := Service.ended_of_files turn
              (judged.tasks task (mem_of_task? found).1) hfate
            exact ended.mono (stopped_of_transition (.turns live found turn))

theorem judged_of_transition
    (h : Transition s action t)
    (serves : service.Serves s action)
    (judged : Judged service final s) :
    Judged service final t where
  suits := setup_of_transition h ▸ judged.suits
  waiting item hmem := judged.waiting item (waiting_of_transition h hmem)
  tasks := fits_of_transition h serves judged
  finished := ended_of_transition h judged
  recorded tick item hmem := by
    rcases persisted_of_transition h hmem with hold | ⟨task, htask, location, phase, -, rfl, -⟩
    · exact judged.recorded tick item hold
    · simpa only [Service.Fits, phase] using judged.tasks task htask
  halts := halts_of_transition h judged.halts
  stops := stops_of_transition h judged.suits.goesOn judged.stops

/-- Nothing but a cancellation or a fault keeps an item from the status that its replies lead to. -/
theorem status_of_judged
    (judged : Judged service final s)
    (fatal : s.fatal = none)
    (uncancelled : s.cancelled = false) :
    ∀ item ∈ s.finished, item.status = final item.id := by
  intro item hitem
  rcases judged.finished item hitem with hstatus | ⟨hstop, -, -⟩
  · exact hstatus
  · rcases judged.stops hstop with hcancelled | hfault
    · rw [uncancelled] at hcancelled
      cases hcancelled
    · exact absurd fatal hfault

variable {setup : Setup} {items : List Item} {checkpoint : Checkpoint} {throttle : Throttle}
  {registry : Registry} {monitor : Monitor} {clock : Nat}

theorem judged_opened
    (suits : service.Suits setup)
    (expects : ∀ item ∈ items, service.Expects final item .pending (item.attempts + 1)) :
    Judged service final (.opened setup items checkpoint throttle registry monitor clock) where
  suits := suits
  waiting item hitem := by
    rw [opened_waiting] at hitem
    exact expects item (List.mem_filter.mp hitem).1
  tasks task htask := absurd htask List.not_mem_nil
  finished item hitem := absurd hitem List.not_mem_nil
  recorded tick item hmem := by
    cases List.mem_singleton.mp hmem
  halts halted := by cases halted
  stops stop := by cases stop

end Steps

end Run
end BatchRun
