import BatchRun.Proofs.Run.Calling
import BatchRun.Proofs.Run.Observers

/-!
# Capacity of runs

All numbers of a run fit where they are kept, whatever its settings say, except for the permits.

**Invariant.**
No item has more attempts than the settings allow, and one that was not started has one left
(`State.Counted`).  Without observers, and with windows in which latencies fit, nothing breaks a run
off (`Sturdy`).

**Results.**
* `isPanic_of_turn`: a step of a task breaks off only if an observer does, or a window overflows.
* `counted_of_transition`: attempts stay within bounds.
* `sturdy_of_transition`: a step without observers breaks nothing off.
* `withstands_of_fresh`: with a new monitor a run over new items is never broken off if and only if
  a semaphore can hold its permits.
-/

namespace BatchRun

theorem Item.attempts_of_move
    {item : Item} {now : Time.Timestamp} {moved : Except RejectedMove Item}
    (target : Status)
    (note : Item → Item)
    (same : ∀ item, (note item).attempts = item.attempts)
    (h : (item.moveTo target now).map note = moved) :
    (Run.settled item moved).attempts = item.attempts := by
  cases moved with
  | error rejected => rfl
  | ok after =>
      obtain ⟨-, rfl⟩ := Item.map_moveTo_eq_ok h
      rw [Run.settled, same, Item.attempts_moved]

namespace Run

/-- Whether a fault is that the processing of an item broke off. -/
def RunFault.isPanic : RunFault → Bool
  | panicked _ _ => true
  | _ => false

/-- No item of a task has too many attempts, and one that was not started has one left. -/
def Task.Counted (limit : Nat) (task : Task) : Prop :=
  task.item.attempts ≤ limit ∧ (task.phase.isStarted = false → task.item.attempts < limit)

/-- No item has too many attempts, and one that was not started has one left. -/
structure State.Counted (s : State) : Prop where
  waiting : ∀ item ∈ s.waiting, item.attempts < s.settings.retry.maxAttempts
  tasks : ∀ task ∈ s.tasks, task.Counted s.settings.retry.maxAttempts
  finished : ∀ item ∈ s.finished, item.attempts ≤ s.settings.retry.maxAttempts

/-- What is known of a run without observers. -/
structure Sturdy (s : State) : Prop where
  paced : s.Paced
  roomy : s.monitor.Roomy farFuture
  counted : s.Counted
  stage : s.stage ≠ .unwound
  fatal : ∀ fault, s.fatal = some fault → fault.isPanic = false
  result : ∀ fault, s.stage = .returned (.error fault) → fault.isPanic = false

/-- Nothing has broken a run off, and its numbers fit where they are kept. -/
structure Unbroken (s : State) : Prop where
  stage : s.stage ≠ .unwound
  result : ∀ fault, s.stage = .returned (.error fault) → fault.isPanic = false
  attempts : ∀ item ∈ s.own, item.attempts ≤ s.settings.retry.maxAttempts
  /-- The health of the destinations can be told. -/
  health : ∃ health, s.monitor.snapshot = .ok health
  /-- The clock can count up to the deadline of a call. -/
  deadline : s.callLimit / Time.nanosPerSecond < uncountableSeconds

section Turns

variable {s : State} {task next : Task} {item : Item} {move : Move} {effect : Effect}

theorem isPanic_of_moveFaults
    {moved : Except RejectedMove Item} {fault : RunFault}
    (h : fault ∈ moveFaults moved) :
    fault.isPanic = false := by
  cases moved with
  | ok => cases h
  | error => cases List.mem_singleton.mp h; rfl

/-- Without observers a step of a task breaks off only if a window overflows. -/
theorem isPanic_of_turn
    (roomy : s.monitor.Roomy farFuture)
    (paced : task.Paced s.settings.retry.maxAttempts s.clock)
    (silent : ∀ message, move ≠ .resume (some message))
    (turn : Turn s task move effect)
    {fault : RunFault}
    (h : fault ∈ effect.faults) :
    fault.isPanic = false := by
  cases turn with
  | turnsAway panic =>
      cases panic with
      | some message => exact absurd rfl (silent message)
      | none =>
          rw [show panicFaults task.item.id none = [] from rfl, List.append_nil] at h
          exact isPanic_of_moveFaults h
  | rejects => cases List.mem_singleton.mp h; rfl
  | breaksAtStart message | breaksInRetry message => exact absurd rfl (silent message)
  | breaksInSample _ phase record =>
      obtain ⟨next, hrecord, -⟩ := record_of_answered roomy paced phase
      rw [record] at hrecord
      cases hrecord
  | fails | interrupts | completes => exact isPanic_of_moveFaults h
  | closes closing =>
      cases closing with
      | persistsNot | savesNot => cases List.mem_singleton.mp h; rfl
      | finishes panic =>
          cases panic with
          | some message => exact absurd rfl (silent message)
          | none => cases h
      | _ => cases h
  | _ => cases h

theorem attempts_of_skip
    {reason : SkipReason} {now : Time.Timestamp} {moved : Except RejectedMove Item}
    (h : item.skip reason now = moved) :
    (settled item moved).attempts = item.attempts :=
  Item.attempts_of_move .skipped (fun item => { item with skipReason := some reason })
    (fun _ => rfl) h

theorem attempts_of_compares
    {result : Json} {registry : Option Registry} {moved : Except RejectedMove Item}
    (h : Compares s task result registry moved) :
    (settled task.item moved).attempts = task.item.attempts := by
  cases h with
  | duplicate => exact attempts_of_skip rfl
  | unchecked | first =>
      exact Item.attempts_of_move .success (fun item => { item with result := some result })
        (fun _ => rfl) rfl

/-- A task that has started its item keeps within its attempts. -/
theorem counted_of_started
    {limit : Nat}
    (started : task.phase.isStarted = true)
    (h : task.item.attempts ≤ limit) :
    task.Counted limit := by
  refine ⟨h, fun early => ?_⟩
  rw [started] at early
  cases early

/-- A task that goes on keeps within its attempts. -/
theorem counted_of_goesOn
    (paced : task.Paced s.settings.retry.maxAttempts s.clock)
    (counted : task.Counted s.settings.retry.maxAttempts)
    (turn : Turn s task move effect)
    (h : effect.fate = .goesOn next) :
    next.Counted s.settings.retry.maxAttempts := by
  obtain ⟨hcount, hleft⟩ := counted
  cases turn with
  | turnsAway panic => cases panic <;> cases h
  | rejects | breaksAtStart | breaksInSample | breaksInRetry => cases h
  | waits _ phase =>
      cases h
      exact ⟨hcount, fun _ => hleft (by rw [phase]; rfl)⟩
  | starts admits start =>
      cases h
      obtain ⟨_, _, _, rfl⟩ := Item.start_eq_ok start
      exact counted_of_started rfl (hleft (isStarted_of_admits admits))
  | answers | succeeds | pauses | rewaits =>
      cases h
      exact counted_of_started rfl hcount
  | recalls _ retries =>
      have hattempts := attempts_lt_of_retries paced retries
      cases h
      exact counted_of_started rfl hattempts
  | recallsAfterWait _ phase =>
      cases h
      have hattempts : task.item.attempts < s.settings.retry.maxAttempts := by
        simpa only [Task.Paced, phase] using paced
      exact counted_of_started rfl hattempts
  | @fails failure _ _ _ _ _ _ fail =>
      cases h
      refine counted_of_started (isStarted_endingPhase s _) (Nat.le_trans (Nat.le_of_eq ?_) hcount)
      exact Item.attempts_of_move .failed
        (fun item => { item with failure := some failure.toItemFailure }) (fun _ => rfl) fail
  | interrupts _ skip =>
      cases h
      exact counted_of_started (isStarted_endingPhase s _)
        (Nat.le_trans (Nat.le_of_eq (attempts_of_skip skip)) hcount)
  | completes _ _ compares =>
      cases h
      exact counted_of_started (isStarted_endingPhase s _)
        (Nat.le_trans (Nat.le_of_eq (attempts_of_compares compares)) hcount)
  | closes closing =>
      cases closing with
      | finishes panic => cases panic <;> cases h
      | _ => cases h; exact counted_of_started rfl hcount

/-- A task that files its item has kept within its attempts. -/
theorem attempts_of_files
    (turn : Turn s task move effect)
    (h : effect.fate = .files item) :
    item.attempts = task.item.attempts := by
  cases turn with
  | turnsAway panic _ _ skip =>
      cases panic <;> cases h
      exact attempts_of_skip skip
  | rejects => cases h; rfl
  | closes closing =>
      cases closing with
      | finishes panic =>
          cases panic <;> cases h
          rfl
      | _ => cases h
  | _ => cases h

end Turns

section Steps

variable {s t : State} {action : Action}

theorem counted_of_transition
    (h : Transition s action t)
    (paced : s.Paced)
    (counted : s.Counted) :
    t.Counted := by
  obtain ⟨waiting, tasks, finished⟩ := counted
  have hsettings : t.settings = s.settings := congrArg Setup.settings (setup_of_transition h)
  constructor
  · intro item hitem
    rw [hsettings]
    exact waiting item (waiting_of_transition h hitem)
  · intro task htask
    rw [hsettings]
    cases h with
    | advances | cancels | skips | takesPermit | flushes | leaves | closes | closesNot =>
        exact tasks task htask
    | breaksInSkip => cases htask
    | @spawns item _ _ hwaiting =>
        rcases List.mem_append.mp htask with hold | hnew
        · exact tasks task hold
        · cases List.mem_singleton.mp hnew
          have hitem := waiting item (by simp [hwaiting])
          exact ⟨Nat.le_of_lt hitem, fun _ => hitem⟩
    | turns _ found turn =>
        have hturning := (mem_of_task? found).1
        rcases mem_tasks htask with hnext | ⟨hold, -⟩
        · exact counted_of_goesOn (paced.tasks _ hturning) (tasks _ hturning) turn hnext
        · exact tasks task hold
  · intro item hitem
    rw [hsettings]
    cases h with
    | @skips first _ _ _ hwaiting _ _ _ skip =>
        rcases List.mem_append.mp hitem with hold | hnew
        · exact finished item hold
        · rw [List.mem_singleton.mp hnew, attempts_of_skip skip]
          exact Nat.le_of_lt (waiting first (by simp [hwaiting]))
    | @turns task _ effect _ found turn =>
        rcases List.mem_append.mp hitem with hold | hnew
        · exact finished item hold
        · cases hfate : effect.fate with
          | goesOn | loses => rw [hfate] at hnew; cases hnew
          | files filed =>
              rw [hfate] at hnew
              rw [List.mem_singleton.mp hnew, attempts_of_files turn hfate]
              exact (tasks task (mem_of_task? found).1).1
    | _ => exact finished item hitem

theorem isPanic_of_faulted
    {faults : List RunFault}
    (fatal : ∀ fault, s.fatal = some fault → fault.isPanic = false)
    (new : ∀ fault ∈ faults, fault.isPanic = false)
    {fault : RunFault}
    (h : (s.faulted faults).fatal = some fault) :
    fault.isPanic = false := by
  rcases Option.or_eq_some_iff.mp h with hold | ⟨-, hnew⟩
  · exact fatal fault hold
  · exact new fault (List.mem_of_head? hnew)

/-- Without observers no fault is that an item broke off. -/
theorem isPanic_of_transition
    (h : Transition s action t)
    (silent : action.message? = none)
    (sturdy : Sturdy s)
    {fault : RunFault}
    (hfault : t.fatal = some fault) :
    fault.isPanic = false := by
  cases h with
  | turns _ found turn =>
      have htask := (mem_of_task? found).1
      refine isPanic_of_faulted (s := s) sturdy.fatal (fun other hother => ?_) hfault
      refine isPanic_of_turn sturdy.roomy (sturdy.paced.tasks _ htask) ?_ turn hother
      rintro message rfl
      cases silent
  | skips => exact isPanic_of_faulted (s := s) sturdy.fatal (fun _ => isPanic_of_moveFaults) hfault
  | breaksInSkip => cases silent
  | closesNot =>
      refine isPanic_of_faulted (s := s) sturdy.fatal (fun other hother => ?_) hfault
      cases List.mem_singleton.mp hother
      rfl
  | _ => exact sturdy.fatal fault hfault

/-- A step without observers breaks nothing off. -/
theorem sturdy_of_transition
    (h : Transition s action t)
    (silent : action.message? = none)
    (sturdy : Sturdy s) :
    Sturdy t := by
  have hroomy := roomy_of_transition h sturdy.paced sturdy.roomy
  have hfatal : ∀ fault, t.fatal = some fault → fault.isPanic = false := fun _ =>
    isPanic_of_transition h silent sturdy
  refine ⟨paced_of_transition h sturdy.paced, hroomy,
    counted_of_transition h sturdy.paced sturdy.counted, fun hunwound => ?_, hfatal,
    fun fault hreturned => ?_⟩
  · rcases unwinds_of_transition h hunwound with ⟨message, rfl⟩ | unhealthy
    · cases silent
    · obtain ⟨fault, hbroken⟩ := unhealthy.snapshot
      obtain ⟨health, hhealth⟩ := Monitor.snapshot_of_roomy hroomy
      rw [hhealth] at hbroken
      cases hbroken
  · rcases fatal_of_returned h hreturned with ⟨other, hother, heq⟩ | ⟨-, value, heq⟩
    · cases heq
      exact hfatal fault hother
    · cases heq

theorem deadline_countable
    (limit : Nat) :
    nanosToDeadline limit / Time.nanosPerSecond < uncountableSeconds := by
  unfold nanosToDeadline
  split
  case isTrue countable => exact countable
  case isFalse => decide +kernel

theorem unbroken_of_sturdy
    (sturdy : Sturdy s) :
    Unbroken s where
  stage := sturdy.stage
  result := sturdy.result
  attempts item hitem := by
    rcases mem_own.mp hitem with hfinished | ⟨task, htask, rfl⟩ | hwaiting
    · exact sturdy.counted.finished item hfinished
    · exact (sturdy.counted.tasks task htask).1
    · exact Nat.le_of_lt (sturdy.counted.waiting item hwaiting)
  health := Monitor.snapshot_of_roomy sturdy.roomy
  deadline := deadline_countable s.settings.itemTimeout

end Steps

/-- What becomes of runs over some items without observers and with a new monitor. -/
structure Withstands (setup : Setup) (items : List Item) (throttle : Throttle)
    (registry : Registry) (clock : Nat) : Prop where
  refused : ∀ saved fault,
    State.initial? setup items saved throttle registry {} clock = .error fault →
    fault.isPanic = false
  /-- A run that begins is not broken off if and only if a semaphore can hold its permits. -/
  begun : ∀ saved first,
    State.initial? setup items saved throttle registry {} clock = .ok first →
    ((∀ actions last, (∀ action ∈ actions, action.message? = none) →
        first.follow? actions = some last → Unbroken last) ↔
      setup.settings.slots < unboundedPermits)

section Runs

variable {setup : Setup} {items : List Item} {checkpoint : Checkpoint} {throttle : Throttle}
  {registry : Registry} {monitor : Monitor} {clock : Nat}

theorem maxAttempts_pos
    {settings : Settings}
    (valid : settings.fault? = none) :
    0 < settings.retry.maxAttempts := by
  refine Nat.pos_of_ne_zero fun hnone => ?_
  unfold Settings.fault? at valid
  rw [if_pos hnone] at valid
  split at valid <;> cases valid

/-- The latencies of a new monitor fit. -/
theorem roomy_of_new : Monitor.Roomy {} farFuture where
  allocatable := by decide +kernel
  fits := by decide +kernel
  short _ hentry := absurd hentry List.not_mem_nil
  bounded _ hentry := absurd hentry List.not_mem_nil

theorem sturdy_opened
    (valid : setup.settings.fault? = none)
    (fresh : ∀ item ∈ items, item.attempts = 0)
    (slots : setup.settings.slots < unboundedPermits)
    (roomy : monitor.Roomy farFuture) :
    Sturdy (.opened setup items checkpoint throttle registry monitor clock) where
  paced := paced_opened valid
  roomy := roomy
  counted := by
    refine ⟨fun item hitem => ?_, fun _ htask => absurd htask List.not_mem_nil,
      fun _ hitem => absurd hitem List.not_mem_nil⟩
    rw [opened_waiting] at hitem
    rw [fresh item (List.mem_filter.mp hitem).1]
    exact maxAttempts_pos valid
  stage := by
    rw [stage_opened, if_neg (Nat.not_le.mpr slots)]
    simp
  fatal _ hfault := by cases hfault
  result _ hreturned := by
    rw [stage_opened, if_neg (Nat.not_le.mpr slots)] at hreturned
    cases hreturned

theorem isPanic_of_initial?
    {saved : Except CheckpointFault Checkpoint} {fault : RunFault}
    (h : State.initial? setup items saved throttle registry monitor clock = .error fault) :
    fault.isPanic = false := by
  unfold State.initial? at h
  split at h <;> cases h <;> rfl

/-- Runs over new items are broken off only if they are to have more permits than a semaphore can
hold. -/
theorem withstands_of_fresh
    (fresh : ∀ item ∈ items, item.attempts = 0) :
    Withstands setup items throttle registry clock where
  refused _ _ h := isPanic_of_initial? h
  begun saved first opened := by
    obtain ⟨checkpoint, -, valid, rfl⟩ := opened_of_initial? opened
    constructor
    · intro hunbroken
      refine Nat.not_le.mp fun hmany => ?_
      refine (hunbroken [] _ (fun _ haction => absurd haction List.not_mem_nil) rfl).stage ?_
      rw [stage_opened, if_pos hmany]
    · intro hslots actions last silent run
      exact unbroken_of_sturdy
        (invariant_of_follow? sturdy_of_transition run silent
          (sturdy_opened valid fresh hslots roomy_of_new))

/-- More items at a time than a semaphore has permits. -/
def crowded : Setup where
  settings := { concurrency := unboundedPermits }

/-- The settings are accepted, and the run unwinds before its first step. -/
theorem withstands_of_crowded :
    crowded.settings.fault? = none ∧
      (State.opened crowded twoItems {} {} {} {} 0).stage = .unwound ∧
      Withstands crowded twoItems {} {} 0 := by
  refine ⟨by decide +kernel, ?_, withstands_of_fresh (by decide)⟩
  rw [stage_opened]
  exact if_pos (by decide +kernel)

end Runs

end Run
end BatchRun
