import BatchRun.Proofs.Run.Capacity
import BatchRun.Proofs.Run.Permits
import BatchRun.Proofs.Run.Stopping

/-!
# Deadlines of calls and waits

Times are ticks, and a wait ends at the first tick at or after its end.

**Invariant.**
A call in flight has not outlasted its time, nor the grace period once the run has halted
(`InFlight`), and no task waits at a later time than that of the halt (`Timely`).  It holds because a
task that can go on by itself keeps the clock from passing its tick; `Clocked` puts together what
that takes.

**Types.**
`Expires`, `Fails` and `GivesUp` say what becomes of an attempt that is out of time, of one that has
failed, and of one that is given up.

**Results.**
* `clocked_of_transition`: each step keeps the invariant.
* `fails_of_turn`: a failed attempt is the last one of its item, or another one is announced.
* `mem_items_of_closed`: an item whose task is at its very end is returned as it is.
* `deadlines_of_reaches`: the deadlines of every run.
-/

namespace BatchRun

theorem le_tickAfter
    (now nanos : Nat) :
    now ≤ tickAfter now nanos :=
  Nat.le_add_right _ _

namespace Run

/-- Whether a task waits for a token or for the end of a pause. -/
def Phase.isWaiting : Phase → Bool
  | throttled _ => true
  | pausing _ => true
  | rethrottled _ => true
  | _ => false

/-- Whether a task is between the start and the end of its item. -/
def Phase.isActive (phase : Phase) : Bool := phase.isStarted && !phase.isEnding

/-- A call in flight has not outlasted its time, nor the grace period once the run has halted. -/
structure InFlight (s : State) (task : Task) (since : Nat) : Prop where
  called : (since, .called task.item s.callLimit) ∈ s.events
  begun : since ≤ s.clock
  timeout : s.clock ≤ s.timeoutTick since
  grace : ∀ halted, s.haltedAt = some halted →
    s.clock ≤ tickAfter (max halted since) s.settings.cancelGrace

/-- An item has the result and the failure that it came with. -/
def Unwritten (items : List Item) (item : Item) : Prop :=
  ∃ input ∈ items, item.origin = input.origin ∧ item.result = input.result ∧
    item.failure = input.failure

/-- A task keeps its times. -/
structure Timely (items : List Item) (s : State) (task : Task) : Prop where
  calls : ∀ since, task.phase = .calling since → InFlight s task since
  waits : task.phase.isWaiting = true → ∀ halted, s.haltedAt = some halted → s.clock ≤ halted
  active : task.phase.isActive = true → task.item.status = .processing
  unwritten : task.phase.isEnding = false → Unwritten items task.item

/-- A run over items keeps its times. -/
structure Clocked (items : List Item) (s : State) : Prop where
  numbered : Numbered s
  staged : Staged s
  unwound : s.stage = .unwound → s.tasks = []
  halted : ∀ halted, s.haltedAt = some halted → halted ≤ s.clock
  stops : s.isHalted = true → s.stopped = true
  waiting : ∀ item ∈ s.waiting, Unwritten items item
  tasks : ∀ task ∈ s.tasks, Timely items s task

section Turns

variable {items : List Item} {s : State} {task next : Task} {move : Move} {effect : Effect}

theorem isActive_of_samples
    {outcome : Except AttemptFailure Json} {latency : Nat} {monitor : Monitor}
    (samples : Samples s task outcome latency monitor) :
    task.phase.isActive = true := by
  rw [samples.phase]
  rfl

theorem isActive_of_retries
    {monitor : Option Monitor} {events : List Event}
    (retries : Retries s task monitor events) :
    task.phase.isActive = true := by
  cases retries with
  | atOnce samples => exact isActive_of_samples samples
  | afterPause phase => rw [phase]; rfl

theorem isActive_endingPhase
    (s : State)
    (item : Item) :
    (s.endingPhase item).isActive = false := by
  simp [Phase.isActive, isEnding_endingPhase]

/-- A task that goes on in a call has begun it now. -/
theorem begun_of_goesOn
    {since : Nat}
    (turn : Turn s task move effect)
    (h : effect.fate = .goesOn next)
    (phase : next.phase = .calling since) :
    since = s.clock ∧ .called next.item s.callLimit ∈ effect.events := by
  cases turn with
  | turnsAway panic => cases panic <;> cases h
  | rejects | breaksAtStart | breaksInSample | breaksInRetry => cases h
  | starts =>
      cases h
      cases phase
      exact ⟨rfl, List.mem_append_right _ (by simp [State.attempted])⟩
  | recalls =>
      cases h
      cases phase
      exact ⟨rfl, List.mem_append_right _ (by simp [State.attempted])⟩
  | recallsAfterWait =>
      cases h
      cases phase
      exact ⟨rfl, List.mem_singleton.mpr rfl⟩
  | fails | interrupts | completes =>
      cases h
      rcases Service.endingPhase_cases s _ with hphase | hphase | hphase <;>
        cases hphase.symm.trans phase
  | closes closing =>
      cases closing with
      | finishes panic => cases panic <;> cases h
      | _ => cases h; cases phase
  | _ => cases h; cases phase

/-- A task begins to wait only while the run goes on. -/
theorem going_of_waits
    (turn : Turn s task move effect)
    (h : effect.fate = .goesOn next)
    (stops : s.isHalted = true → s.stopped = true)
    (waits : next.phase.isWaiting = true) :
    s.isHalted = false := by
  cases turn with
  | turnsAway panic => cases panic <;> cases h
  | rejects | breaksAtStart | breaksInSample | breaksInRetry => cases h
  | waits _ _ running =>
      cases hhalted : s.isHalted with
      | false => rfl
      | true => cases running.symm.trans (stops hhalted)
  | pauses _ _ going => exact going
  | rewaits _ retries => exact going_of_retries retries
  | fails | interrupts | completes =>
      cases h
      rcases Service.endingPhase_cases s _ with hphase | hphase | hphase <;>
        rw [State.ended, hphase] at waits <;> cases waits
  | closes closing =>
      cases closing with
      | finishes panic => cases panic <;> cases h
      | _ => cases h; cases waits
  | _ => cases h; cases waits

/-- Up to its end, an item is in its processing from its start on. -/
theorem processing_of_active
    (turn : Turn s task move effect)
    (h : effect.fate = .goesOn next)
    (before : task.phase.isActive = true → task.item.status = .processing)
    (active : next.phase.isActive = true) :
    next.item.status = .processing := by
  cases turn with
  | turnsAway panic => cases panic <;> cases h
  | rejects | breaksAtStart | breaksInSample | breaksInRetry => cases h
  | waits => cases h; cases active
  | starts _ start =>
      cases h
      obtain ⟨_, _, _, rfl⟩ := Item.start_eq_ok start
      rfl
  | answers phase | recallsAfterWait _ phase =>
      cases h
      exact before (by rw [phase]; rfl)
  | succeeds _ samples | pauses samples =>
      have hstatus := before (isActive_of_samples samples)
      cases h
      exact hstatus
  | rewaits _ retries | recalls _ retries =>
      have hstatus := before (isActive_of_retries retries)
      cases h
      exact hstatus
  | fails | interrupts | completes =>
      cases h
      cases (isActive_endingPhase s _).symm.trans active
  | closes closing =>
      cases closing with
      | finishes panic => cases panic <;> cases h
      | _ => cases h; cases active

/-- Up to its end, an item has the result and the failure that it came with. -/
theorem unwritten_of_goesOn
    (turn : Turn s task move effect)
    (h : effect.fate = .goesOn next)
    (before : task.phase.isEnding = false → Unwritten items task.item)
    (early : next.phase.isEnding = false) :
    Unwritten items next.item := by
  cases turn with
  | turnsAway panic => cases panic <;> cases h
  | rejects | breaksAtStart | breaksInSample | breaksInRetry => cases h
  | starts admits start =>
      have hitem := before (isEnding_of_admits admits)
      cases h
      obtain ⟨_, _, _, rfl⟩ := Item.start_eq_ok start
      exact hitem
  | waits _ phase | answers phase | recallsAfterWait _ phase =>
      cases h
      exact before (by rw [phase]; rfl)
  | succeeds _ samples | pauses samples =>
      have hitem := before (by rw [samples.phase]; rfl)
      cases h
      exact hitem
  | rewaits _ retries | recalls _ retries =>
      have hitem := before (isEnding_of_retries retries)
      cases h
      exact hitem
  | fails | interrupts | completes =>
      cases h
      cases (isEnding_endingPhase s _).symm.trans early
  | closes closing =>
      cases closing with
      | finishes panic => cases panic <;> cases h
      | _ => cases h; cases early

end Turns

section Steps

variable {items : List Item} {s t : State} {action : Action} {task : Task} {halted since : Nat}

theorem haltedAt_faulted
    {faults : List RunFault}
    (h : (s.faulted faults).haltedAt = some halted) :
    s.haltedAt = some halted ∨ halted = s.clock := by
  cases faults with
  | nil => exact .inl h
  | cons fault faults =>
      cases hbefore : s.haltedAt with
      | none =>
          simp [State.faulted, hbefore] at h
          exact .inr h.symm
      | some before =>
          simp [State.faulted, hbefore] at h
          exact .inl (congrArg some h)

/-- A run halts at the time of the step that halts it. -/
theorem haltedAt_of_transition
    (h : Transition s action t)
    (hhalted : t.haltedAt = some halted) :
    s.haltedAt = some halted ∨ halted = t.clock := by
  cases h with
  | cancels =>
      cases hbefore : s.haltedAt with
      | none =>
          simp [State.cancel, State.halt, hbefore] at hhalted
          exact .inr hhalted.symm
      | some before =>
          simp [State.cancel, State.halt, hbefore] at hhalted
          exact .inl (congrArg some hhalted)
  | turns | skips | breaksInSkip => exact haltedAt_faulted hhalted
  | closesNot fault =>
      have hfaulted : (s.faulted [.checkpoint fault]).haltedAt = some halted := hhalted
      exact haltedAt_faulted hfaulted
  | _ => exact .inl hhalted

/-- Time passes only in steps of its own. -/
theorem clock_of_transition
    (h : Transition s action t) :
    t.clock = s.clock ∨ ∃ target, s.canAdvance target = true ∧ t = { s with clock := target } := by
  cases h with
  | advances free => exact .inr ⟨_, free, rfl⟩
  | _ => exact .inl rfl

theorem clock_le_of_transition
    (h : Transition s action t) :
    s.clock ≤ t.clock := by
  rcases clock_of_transition h with hsame | ⟨target, free, rfl⟩
  · exact Nat.le_of_eq hsame.symm
  · simp only [State.canAdvance, Bool.and_eq_true, decide_eq_true_eq] at free
    exact Nat.le_of_lt free.1.1

/-- A call stays within its time while other things happen. -/
theorem InFlight.frame
    (flight : InFlight s task since)
    (h : Transition s action t)
    (clock : t.clock = s.clock) :
    InFlight t task since := by
  have hsetup := setup_of_transition h
  obtain ⟨new, hevents⟩ := events_of_transition h
  refine ⟨?_, clock ▸ flight.begun, ?_, fun halted hhalted => ?_⟩
  · rw [hevents, State.callLimit, State.settings, hsetup]
    exact List.mem_append_right new flight.called
  · rw [clock, State.timeoutTick, State.settings, hsetup]
    exact flight.timeout
  · rw [State.settings, hsetup]
    rcases haltedAt_of_transition h hhalted with hbefore | rfl
    · exact clock ▸ flight.grace halted hbefore
    · exact Nat.le_trans (Nat.le_max_left _ _) (le_tickAfter _ _)

/-- A call stays within its time as time passes. -/
theorem InFlight.advance
    {target : Nat}
    (flight : InFlight s task since)
    (phase : task.phase = .calling since)
    (htask : task ∈ s.tasks)
    (free : s.canAdvance target = true) :
    InFlight { s with clock := target } task since := by
  obtain ⟨due, hdue, hle⟩ := due_of_canAdvance free htask (by rw [phase]; rfl)
  refine ⟨flight.called, ?_, Nat.le_trans hle (due_of_calling phase hdue), fun halted hhalted => ?_⟩
  · have hlt := clock_le_of_transition (Transition.advances free)
    exact Nat.le_trans flight.begun hlt
  · have hhalted' : s.haltedAt = some halted := hhalted
    simp only [State.due?, phase, State.graceTick?, hhalted', Option.map_some] at hdue
    cases hdue
    exact Nat.le_trans hle (Nat.min_le_right _ _)

/-- While a task waits, time does not pass once the run has halted. -/
theorem going_of_advance
    {target : Nat}
    (stops : s.isHalted = true → s.stopped = true)
    (waits : task.phase.isWaiting = true)
    (htask : task ∈ s.tasks)
    (free : s.canAdvance target = true) :
    s.isHalted = false := by
  have hidle : task.phase.isWriting = false := by
    cases hphase : task.phase with
    | persisting | saving _ => rw [hphase] at waits; cases waits
    | _ => rfl
  obtain ⟨due, hdue, -⟩ := due_of_canAdvance free htask hidle
  cases hhalted : s.isHalted with
  | false => rfl
  | true =>
      have hstop := stops hhalted
      cases hphase : task.phase with
      | throttled | pausing | rethrottled => simp [State.due?, hphase, hhalted, hstop] at hdue
      | _ => rw [hphase] at waits; cases waits

/-- A task that does nothing keeps its times. -/
theorem Timely.frame
    (timely : Timely items s task)
    (h : Transition s action t)
    (stops : s.isHalted = true → s.stopped = true)
    (htask : task ∈ s.tasks) :
    Timely items t task := by
  refine ⟨fun since phase => ?_, fun waits halted hhalted => ?_, timely.active, timely.unwritten⟩
  · rcases clock_of_transition h with hsame | ⟨target, free, rfl⟩
    · exact (timely.calls since phase).frame h hsame
    · exact (timely.calls since phase).advance phase htask free
  · rcases haltedAt_of_transition h hhalted with hbefore | rfl
    · rcases clock_of_transition h with hsame | ⟨target, free, rfl⟩
      · rw [hsame]
        exact timely.waits waits halted hbefore
      · have hgoing := going_of_advance stops waits htask free
        simp [State.isHalted, hbefore] at hgoing
    · exact Nat.le_refl _

/-- A task that goes on keeps its times. -/
theorem timely_of_goesOn
    {next : Task} {move : Move} {effect : Effect}
    (timely : Timely items s task)
    (h : Transition s action t)
    (clock : t.clock = s.clock)
    (stops : s.isHalted = true → s.stopped = true)
    (turn : Turn s task move effect)
    (fate : effect.fate = .goesOn next)
    (events : t.events = (s.seen effect.events).events) :
    Timely items t next where
  calls since phase := by
    obtain ⟨rfl, hcalled⟩ := begun_of_goesOn turn fate phase
    have hsetup := setup_of_transition h
    refine ⟨?_, Nat.le_of_eq clock.symm, ?_, fun halted hhalted => ?_⟩
    · rw [events, State.callLimit, State.settings, hsetup]
      exact List.mem_append_left _ (List.mem_map_of_mem (List.mem_reverse.mpr hcalled))
    · rw [clock]
      exact le_tickAfter _ _
    · rw [clock]
      exact Nat.le_trans (Nat.le_max_right _ _) (le_tickAfter _ _)
  waits waits halted hhalted := by
    have hgoing := going_of_waits turn fate stops waits
    rcases haltedAt_of_transition h hhalted with hbefore | rfl
    · simp [State.isHalted, hbefore] at hgoing
    · exact Nat.le_refl _
  active := processing_of_active turn fate timely.active
  unwritten := unwritten_of_goesOn turn fate timely.unwritten

theorem clocked_of_transition
    (h : Transition s action t)
    (clocked : Clocked items s) :
    Clocked items t where
  numbered := numbered_of_transition h clocked.numbered
  staged := staged_of_transition h clocked.staged
  unwound := tasks_of_unwound h clocked.staged
  halted halted hhalted := by
    rcases haltedAt_of_transition h hhalted with hbefore | rfl
    · exact Nat.le_trans (clocked.halted halted hbefore) (clock_le_of_transition h)
    · exact Nat.le_refl _
  stops := halts_of_transition h clocked.stops
  waiting item hitem := clocked.waiting item (waiting_of_transition h hitem)
  tasks task htask := by
    have hframe : task ∈ s.tasks → Timely items t task := fun hold =>
      (clocked.tasks task hold).frame h clocked.stops hold
    have hgoesOn : ∀ before ∈ s.tasks, ∀ move effect, Turn s before move effect →
        effect.fate = .goesOn task → t.clock = s.clock →
        t.events = (s.seen effect.events).events → Timely items t task :=
      fun before hbefore move effect turn fate clock events =>
        timely_of_goesOn (clocked.tasks before hbefore) h clock clocked.stops turn fate events
    cases h with
    | advances | cancels | skips | takesPermit | flushes | leaves | closes | closesNot =>
        exact hframe htask
    | breaksInSkip => cases htask
    | @spawns item _ _ waiting =>
        rcases List.mem_append.mp htask with hold | hnew
        · exact hframe hold
        · cases List.mem_singleton.mp hnew
          exact ⟨nofun, nofun, nofun, fun _ => clocked.waiting item (by simp [waiting])⟩
    | @turns before move effect live found turn =>
        rcases mem_tasks htask with hnext | ⟨hold, -⟩
        · exact hgoesOn before (mem_of_task? found).1 move effect turn hnext rfl rfl
        · exact hframe hold

end Steps

/-- After an attempt has failed, its item has failed or another attempt is announced, unless a fault
halts the run. -/
inductive Fails (s t : State) (task : Task) (failure : AttemptFailure) (latency : Nat) : Prop
  | breaks (fatal : t.fatal ≠ none)
  | ends {item : Item} {phase : Phase} (last : s.isLastFailure task failure = true)
      (sampled : (s.clock, .sampled task.item (.error failure) latency) ∈ t.events)
      (found : t.task? task.number = some { task with item, phase }) (status : item.status = .failed)
      (cause : item.failure = some failure.toItemFailure)
      (attempts : item.attempts = task.item.attempts)
  | again (more : s.isLastFailure task failure = false)
      (sampled : (s.clock, .sampled task.item (.error failure) latency) ∈ t.events)
      (retrying : (s.clock, .retrying task.item failure (s.backoff task failure)) ∈ t.events)

/-- A call is out of time: its attempt ends with a failure of that kind. -/
structure Expires (s t : State) (task : Task) (since : Nat) : Prop where
  phase : task.phase = .calling since
  due : s.clock = s.timeoutTick since
  found : t.task? task.number = some
    { task with
      phase := .answered (.error (.deadlineExceeded s.settings.itemTimeout)) (s.clock - since) }

/-- A call is given up at the end of the grace period: its item is skipped, and it stays so. -/
structure GivesUp (items : List Item) (s t : State) (task : Task) (item : Item) (since halted : Nat) :
    Prop where
  phase : task.phase = .calling since
  halt : s.haltedAt = some halted
  due : s.clock = tickAfter (max halted since) s.settings.cancelGrace
  found : t.task? task.number = some { task with item, phase := .finishing }
  status : item.status = .skipped
  reason : item.skipReason = some .cancelled
  attempts : item.attempts = task.item.attempts
  unwritten : Unwritten items item
  blank : (∀ input ∈ items, input.result = none ∧ input.failure = none) →
    item.result = none ∧ item.failure = none
  lasts : ∀ u result, Reaches t u → u.stage = .returned (.ok result) → item ∈ result.items

/-- A run over items keeps the deadlines of its calls and ends its waits. -/
structure Deadlines (items : List Item) (s : State) : Prop where
  call : ∀ task ∈ s.tasks, ∀ since, task.phase = .calling since → InFlight s task since
  wait : ∀ task ∈ s.tasks, task.phase.isWaiting = true → ∀ halted, s.haltedAt = some halted →
    s.clock = halted
  /-- A call that is out of time can end, whatever the executor does. -/
  expirable : ∀ task ∈ s.tasks, ∀ since, task.phase = .calling since →
    s.clock = s.timeoutTick since → (s.step? (.task task.number .expire)).isSome = true
  revocable : ∀ task ∈ s.tasks, ∀ since, task.phase = .calling since → ∀ halted,
    s.haltedAt = some halted →
    s.clock = tickAfter (max halted since) s.settings.cancelGrace →
    (s.step? (.task task.number .giveUp)).isSome = true
  awakable : ∀ task ∈ s.tasks, task.phase.isWaiting = true → s.isHalted = true →
    (s.step? (.task task.number (.resume none))).isSome = true
  expires : ∀ number t, s.step? (.task number .expire) = some t →
    ∃ task since, s.task? number = some task ∧ Expires s t task since
  fails : ∀ number panic t task failure latency, s.step? (.task number (.resume panic)) = some t →
    s.task? number = some task → task.phase = .answered (.error failure) latency →
    Fails s t task failure latency
  givesUp : ∀ number t, s.step? (.task number .giveUp) = some t →
    ∃ task item since halted, s.task? number = some task ∧ GivesUp items s t task item since halted

section Ends

variable {items : List Item} {s t : State} {task : Task} {item : Item} {move : Move} {effect : Effect}
  {number : Nat}

theorem turn_of_step?
    (h : s.step? (.task number move) = some t) :
    ∃ task effect, s.task? number = some task ∧ task.number = number ∧ task ∈ s.tasks ∧
      Turn s task move effect ∧ t = effect.apply s number := by
  cases transition_of_step? h with
  | @turns task _ effect _ found turn =>
      exact ⟨task, effect, found, rfl, (mem_of_task? found).1, turn, rfl⟩

theorem task?_apply
    {next : Task}
    (numbered : Numbered (effect.apply s task.number))
    (turn : Turn s task move effect)
    (htask : task ∈ s.tasks)
    (fate : effect.fate = .goesOn next) :
    (effect.apply s task.number).task? task.number = some next := by
  have hmem : next ∈ (effect.apply s task.number).tasks := by
    show next ∈ effect.fate.tasks task.number s.tasks
    rw [fate]
    exact mem_tasks_goesOn htask
  have hfound := task?_of_mem numbered hmem
  rwa [turn_number turn fate] at hfound

theorem mem_apply
    {event : Event}
    (hevent : event ∈ effect.events) :
    (s.clock, event) ∈ (effect.apply s number).events :=
  List.mem_append_left _ (List.mem_map_of_mem (List.mem_reverse.mpr hevent))

theorem fatal_apply
    (faults : effect.faults ≠ []) :
    (effect.apply s number).fatal ≠ none :=
  (fatal_faulted (s := s) effect.faults).mpr (.inr faults)

theorem expires_of_turn
    (turn : Turn s task .expire effect) :
    ∃ since, task.phase = .calling since ∧ s.timeoutTick since ≤ s.clock ∧
      effect.fate = .goesOn
        { task with
          phase := .answered (.error (.deadlineExceeded s.settings.itemTimeout)) (s.clock - since) } := by
  cases turn with
  | answers phase ends =>
      cases ends with
      | expired come => exact ⟨_, phase, come, rfl⟩
  | interrupts stops => cases stops
  | closes closing => cases closing

theorem givesUp_of_turn
    (turn : Turn s task .giveUp effect) :
    ∃ since grace moved, task.phase = .calling since ∧ s.graceTick? since = some grace ∧
      grace ≤ s.clock ∧ task.item.skip .cancelled s.stamp = moved ∧
      effect.fate = .goesOn (s.ended task moved) := by
  cases turn with
  | answers phase ends => cases ends
  | interrupts stops skip =>
      cases stops with
      | inCall phase halt come => exact ⟨_, _, _, phase, halt, come, skip, rfl⟩
  | closes closing => cases closing

/-- What becomes of a task whose attempt has failed. -/
theorem fails_of_turn
    {panic : Option String} {failure : AttemptFailure} {latency : Nat}
    (numbered : Numbered (effect.apply s task.number))
    (turn : Turn s task (.resume panic) effect)
    (htask : task ∈ s.tasks)
    (phase : task.phase = .answered (.error failure) latency) :
    Fails s (effect.apply s task.number) task failure latency := by
  have hfound : ∀ {next}, effect.fate = .goesOn next →
      (effect.apply s task.number).task? task.number = some next := task?_apply numbered turn htask
  cases turn with
  | turnsAway _ early =>
      rcases early with hphase | ⟨due, hphase⟩ <;> cases phase.symm.trans hphase
  | waits _ hphase | answers hphase | recallsAfterWait _ hphase | completes _ hphase =>
      cases phase.symm.trans hphase
  | rejects _ admits | breaksAtStart _ admits | starts admits =>
      have hearly := isStarted_of_admits admits
      rw [phase] at hearly
      cases hearly
  | breaksInSample => exact .breaks (fatal_apply (List.cons_ne_nil _ _))
  | breaksInRetry => exact .breaks (fatal_apply (List.cons_ne_nil _ _))
  | succeeds _ samples => cases phase.symm.trans samples.phase
  | @fails _ _ _ moved _ samples last fail =>
      cases phase.symm.trans samples.phase
      have hattempts := Item.attempts_of_move .failed
        (fun item => { item with failure := some failure.toItemFailure }) (fun _ => rfl) fail
      cases moved with
      | error rejected => exact .breaks (fatal_apply (List.cons_ne_nil _ _))
      | ok after =>
          obtain ⟨-, rfl⟩ := Item.map_moveTo_eq_ok fail
          exact .ends last (mem_apply (List.mem_singleton.mpr rfl))
            (hfound rfl) (Item.status_moved _) rfl hattempts
  | pauses samples again =>
      cases phase.symm.trans samples.phase
      exact .again again (mem_apply (by simp)) (mem_apply (by simp))
  | rewaits _ retries | recalls _ retries =>
      cases retries with
      | afterPause hphase => cases phase.symm.trans hphase
      | atOnce samples again =>
          cases phase.symm.trans samples.phase
          exact .again again (mem_apply (by simp)) (mem_apply (by simp))
  | interrupts stops =>
      cases stops with
      | inPause _ hphase => rcases hphase with hphase | hphase <;> cases phase.symm.trans hphase
      | afterCall samples again =>
          cases phase.symm.trans samples.phase
          exact .again again (mem_apply (by simp)) (mem_apply (by simp))
  | closes closing =>
      have hending := isEnding_of_closing closing
      rw [phase] at hending
      cases hending

/-- An item is finished, or its task is at the very end. -/
def Closed (s : State) (item : Item) : Prop :=
  item ∈ s.finished ∨ ∃ task ∈ s.tasks, task.phase = .finishing ∧ task.item = item

/-- Without a fault, an item that is at its very end stays what it is. -/
theorem closed_of_transition
    {action : Action}
    (h : Transition s action t)
    (numbered : Numbered s)
    (fatal : t.fatal = none)
    (stage : t.stage ≠ .unwound)
    (closed : Closed s item) :
    Closed t item := by
  rcases closed with hfinished | ⟨task, htask, hphase, rfl⟩
  · exact .inl (finished_of_transition h hfinished)
  · cases h with
    | advances | cancels | skips | takesPermit | flushes | leaves | closes | closesNot =>
        exact .inr ⟨task, htask, hphase, rfl⟩
    | breaksInSkip => exact absurd rfl stage
    | spawns => exact .inr ⟨task, List.mem_append_left _ htask, hphase, rfl⟩
    | @turns turning move effect live found turn =>
        have hturning := (mem_of_task? found).1
        by_cases hnumber : task.number = turning.number
        · cases eq_of_number numbered.distinct hturning htask hnumber
          have hfaults := (fatal_of_faulted (s := s) fatal).2
          have hclosing := closing_of_turn turn (by rw [hphase]; rfl)
          cases hclosing with
          | finishes panic =>
              cases panic with
              | some message => cases hfaults
              | none => exact .inl (List.mem_append_right _ (List.mem_singleton.mpr rfl))
          | persists _ before | persistsNot _ before | passes _ before | buffers _ before
          | flushes _ before | saves before | savesNot _ before => cases hphase.symm.trans before
        · exact .inr ⟨task, mem_tasks_of_ne effect.fate htask hnumber, hphase, rfl⟩

theorem closed_of_reaches
    (run : Reaches s t)
    (numbered : Numbered s)
    (closed : Closed s item)
    (fatal : t.fatal = none)
    (stage : t.stage ≠ .unwound) :
    Closed t item := by
  induction run with
  | here => exact closed
  | @step u v _ before h ih =>
      have transition := transition_of_step? h
      have hbefore := ih (fatal_of_transition transition fatal)
        (stage_ne_unwound (live_of_transition transition))
      exact closed_of_transition transition (numbered_of_reaches before numbered) fatal stage hbefore

/-- An item that is at its very end is among those that the run returns. -/
theorem mem_items_of_closed
    (run : Reaches s t)
    (numbered : Numbered s)
    (staged : Staged s)
    (closed : Closed s item)
    {result : Returned}
    (returned : t.stage = .returned (.ok result)) :
    item ∈ result.items := by
  have hstaged := staged_of_reaches run staged
  have hunwound : t.stage ≠ .unwound := by simp [returned]
  obtain ⟨hfatal, hitems, -, -⟩ := hstaged.returned result returned
  have htasks := (hstaged.drained (by simp [returned]) hunwound).2
  rcases closed_of_reaches run numbered closed hfatal hunwound with hfinished | ⟨task, htask, -⟩
  · rw [hitems, (allItems_perm t).mem_iff]
    exact List.mem_append_right _ hfinished
  · rw [htasks] at htask
    cases htask

end Ends

section Runs

variable {setup : Setup} {items : List Item} {checkpoint : Checkpoint} {throttle : Throttle}
  {registry : Registry} {monitor : Monitor} {clock : Nat} {first s : State}

theorem clocked_opened :
    Clocked items (.opened setup items checkpoint throttle registry monitor clock) where
  numbered := numbered_opened
  staged := staged_opened
  unwound _ := rfl
  halted _ h := by cases h
  stops h := by cases h
  waiting item hitem := by
    rw [opened_waiting] at hitem
    exact ⟨item, (List.mem_filter.mp hitem).1, rfl, rfl, rfl⟩
  tasks _ htask := absurd htask List.not_mem_nil

/-- A run that has tasks goes on. -/
theorem live_of_task
    {task : Task}
    (clocked : Clocked items s)
    (htask : task ∈ s.tasks) :
    s.stage.isLive = true := by
  cases hstage : s.stage with
  | dispatching | flushing _ => rfl
  | unwound =>
      rw [clocked.unwound hstage] at htask
      cases htask
  | returned result =>
      rw [(clocked.staged.drained (by simp [hstage]) (by simp [hstage])).2] at htask
      cases htask

/-- A call that is given up leaves its item skipped. -/
theorem givesUp_of_step?
    {t : State} {number : Nat}
    (clocked : Clocked items s)
    (h : s.step? (.task number .giveUp) = some t) :
    ∃ task item since halted, s.task? number = some task ∧ GivesUp items s t task item since halted := by
  have hnumbered := numbered_of_transition (transition_of_step? h) clocked.numbered
  have hstaged := staged_of_transition (transition_of_step? h) clocked.staged
  obtain ⟨task, effect, found, rfl, htask, turn, rfl⟩ := turn_of_step? h
  obtain ⟨since, grace, moved, phase, hgrace, come, skip, fate⟩ := givesUp_of_turn turn
  obtain ⟨halted, hhalted, hdue⟩ := Option.map_eq_some_iff.mp hgrace
  have timely := clocked.tasks task htask
  have hstatus := timely.active (by rw [phase]; rfl)
  have hfound := task?_apply hnumbered turn htask fate
  have hattempts := attempts_of_skip skip
  have hkept := (kept_of_skip skip).1
  rw [Item.skip_of_canMoveTo _ (by rw [hstatus]; rfl)] at skip
  subst skip
  have hphase : s.endingPhase { task.item.moved .skipped s.stamp with
      skipReason := some .cancelled } = .finishing := by
    simp [State.endingPhase, Item.isSettled, SkipReason.isProcessed]
  have hended : s.ended task (.ok { task.item.moved .skipped s.stamp with
      skipReason := some .cancelled }) = { task with
        item := { task.item.moved .skipped s.stamp with skipReason := some .cancelled }
        phase := .finishing } := by
    unfold State.ended
    rw [settled, hphase]
  rw [hended] at hfound
  obtain ⟨input, hinput, horigin, hresult, hfailure⟩ := timely.unwritten (by rw [phase]; rfl)
  refine ⟨task, _, since, halted, found, phase, hhalted, ?_, hfound, Item.status_moved _, rfl,
    hattempts, ⟨input, hinput, hkept.origin.trans horigin, ?_, ?_⟩, fun blank => ⟨?_, ?_⟩,
    fun u result run returned => ?_⟩
  · subst hdue
    exact Nat.le_antisymm ((timely.calls since phase).grace halted hhalted) come
  · exact (Item.result_moved _).trans hresult
  · exact (Item.failure_moved _).trans hfailure
  · exact (Item.result_moved _).trans (hresult.trans (blank input hinput).1)
  · exact (Item.failure_moved _).trans (hfailure.trans (blank input hinput).2)
  · exact mem_items_of_closed run hnumbered hstaged
      (.inr ⟨_, (mem_of_task? hfound).1, rfl, rfl⟩) returned

theorem deadlines_of_reaches
    {saved : Except CheckpointFault Checkpoint}
    (opened : State.initial? setup items saved throttle registry monitor clock = .ok first)
    (run : Reaches first s) :
    Deadlines items s := by
  obtain ⟨checkpoint, -, -, rfl⟩ := opened_of_initial? opened
  have clocked := run.invariant (P := Clocked items) clocked_of_transition clocked_opened
  refine ⟨fun task htask => (clocked.tasks task htask).calls, fun task htask waits halted hhalted => ?_,
    fun task htask since phase due => ?_, fun task htask since phase halted hhalted due => ?_,
    fun task htask waits halt => ?_, fun number t h => ?_,
    fun number panic t task failure latency h found phase => ?_,
    fun number t h => givesUp_of_step? clocked h⟩
  · exact Nat.le_antisymm ((clocked.tasks task htask).waits waits halted hhalted)
      (clocked.halted halted hhalted)
  · refine step_of_move (live_of_task clocked htask) (task?_of_mem clocked.numbered htask) ?_
    simp [State.move?, phase, State.hasCome, due]
  · refine step_of_move (live_of_task clocked htask) (task?_of_mem clocked.numbered htask) ?_
    simp [State.move?, phase, State.hasCome, State.graceTick?, hhalted, due]
  · refine step_of_move (live_of_task clocked htask) (task?_of_mem clocked.numbered htask) ?_
    have hstop := clocked.stops halt
    cases hphase : task.phase with
    | throttled | pausing | rethrottled => simp [State.move?, hphase, halt, hstop]
    | _ => rw [hphase] at waits; cases waits
  · have hnumbered := numbered_of_transition (transition_of_step? h) clocked.numbered
    obtain ⟨task, effect, found, rfl, htask, turn, rfl⟩ := turn_of_step? h
    obtain ⟨since, phase, come, fate⟩ := expires_of_turn turn
    exact ⟨task, since, found, phase,
      Nat.le_antisymm ((clocked.tasks task htask).calls since phase).timeout come,
      task?_apply hnumbered turn htask fate⟩
  · have hnumbered := numbered_of_transition (transition_of_step? h) clocked.numbered
    obtain ⟨turning, effect, hturning, rfl, htask, turn, rfl⟩ := turn_of_step? h
    cases hturning.symm.trans found
    exact fails_of_turn hnumbered turn htask phase

/-- Two items at a time, with short times that are no whole ticks. -/
def hurried : Setup where
  settings :=
    { concurrency := 2, itemTimeout := 99000001, cancelGrace := 29999999,
      retry := { baseDelay := 20 } }

/-- First state of a run over two items. -/
def hurriedPair : State :=
  .opened hurried twoItems {} {} {} { settings := { windowSize := 1 } } 0

/-- The second of two items is called for again, the run is cancelled, the call for the first one is out
of time, and the grace period ends. -/
def outlastsGrace : List Action :=
  [.takePermit, .spawn, .takePermit, .spawn, .task 0 (.resume none), .task 1 (.resume none),
    .advance 60, .task 1 (.reply (.failure (.transient "busy"))), .task 1 (.resume none), .advance 80,
    .task 1 (.resume none), .advance 90, .cancel, .advance 100, .task 0 .expire,
    .task 0 (.resume none), .task 0 (.resume none), .advance 120]

/-- The call for the second item is in flight for 40 ticks, 30 of them after the halt. -/
theorem deadlines_of_outlastsGrace :
    ∃ s, Reaches hurriedPair s ∧
      (s.clock, s.haltedAt, s.tasks.map fun task => task.phase.isCalling) = (120, some 90, [true]) ∧
      (s.step? (.task 1 .giveUp)).isSome = true ∧
      Deadlines twoItems s := by
  have hfollow : (hurriedPair.follow? outlastsGrace).map (fun s =>
      ((s.clock, s.haltedAt, s.tasks.map fun task => task.phase.isCalling),
        (s.step? (.task 1 .giveUp)).isSome)) = some ((120, some 90, [true]), true) := by
    decide +kernel
  obtain ⟨s, hs, hshown⟩ := Option.map_eq_some_iff.mp hfollow
  obtain ⟨hview, hgivesUp⟩ := Prod.mk.inj hshown
  have run := reaches_of_follow? hs
  exact ⟨s, run, hview, hgivesUp, deadlines_of_reaches (initial?_eq_ok (by decide +kernel)) run⟩

end Runs

end Run
end BatchRun
