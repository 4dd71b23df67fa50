import BatchRun.Proofs.Run.Settlement

/-!
# Signals that stop a run

A run has two signals: one stops dispatch, the other halts the run.  Neither is taken back.

**Types.**
`startsIn` are the items that have entered their processing, and `attemptsIn` those for which the
executor was called, one for each call.

**Invariant.**
A cancellation and a fault halt the run; a halt stops dispatch, and so does an item that failed
where no item may (`Raised`).

**Results.**
* `raised_of_transition`: each step keeps the invariant.
* `halted_of_transition`: a run that has halted stays so.
* `unstarted_of_reaches`: once dispatch has stopped, no item enters its processing.
* `uncalled_of_reaches`: once the run has halted, no call begins.
-/

namespace BatchRun
namespace Run

/-- The item that enters its processing. -/
def Event.started? : Event → Option Item
  | started item => some item
  | _ => none

/-- The item for which the executor is called. -/
def Event.called? : Event → Option Item
  | called item _ => some item
  | _ => none

/-- Items that have entered their processing, the last one first. -/
def startsIn (events : List (Nat × Event)) : List Item :=
  events.filterMap fun event => event.2.started?

/-- Items of the calls, the last one first. -/
def attemptsIn (events : List (Nat × Event)) : List Item :=
  events.filterMap fun event => event.2.called?

/-- What the signals of a run are raised by. -/
structure Raised (s : State) : Prop where
  halts : s.isHalted = true ↔ s.cancelled = true ∨ s.fatal ≠ none
  stops : s.stopped = true ↔ s.isHalted = true ∨ s.aborted = true
  abrupt : s.aborted = true → s.settings.continueOnError = false
  failed : s.settings.continueOnError = false → ∀ item, Done s item → item.status = .failed →
    s.aborted = true
  /-- Dispatch was aborted because an item failed, unless that item is lost by now. -/
  cause : s.aborted = true → s.fatal = none → s.stage ≠ .unwound →
    ∃ item, Done s item ∧ item.status = .failed

/-- No item has entered its processing between two states. -/
structure Unstarted (s t : State) : Prop where
  seen : startsIn t.events = startsIn s.events
  tasks : ∀ task ∈ t.tasks, task.item.status = .processing →
    ∃ before ∈ s.tasks, before.number = task.number ∧ before.item.status = .processing

/-- No call has begun between two states. -/
structure Uncalled (s t : State) : Prop where
  seen : attemptsIn t.events = attemptsIn s.events
  tasks : ∀ task ∈ t.tasks, ∀ since, task.phase = .calling since →
    ∃ before ∈ s.tasks, before.number = task.number ∧ before.phase = .calling since

section Events

variable {s : State} {task next : Task} {move : Move} {effect : Effect}

theorem startsIn_append
    (new events : List (Nat × Event)) :
    startsIn (new ++ events) = startsIn new ++ startsIn events :=
  List.filterMap_append

theorem startsIn_seen
    (events : List Event) :
    startsIn (s.seen events).events =
      (events.filterMap Event.started?).reverse ++ startsIn s.events := by
  rw [State.seen, startsIn_append, startsIn, List.filterMap_map, ← List.filterMap_reverse]
  rfl

theorem attemptsIn_seen
    (events : List Event) :
    attemptsIn (s.seen events).events =
      (events.filterMap Event.called?).reverse ++ attemptsIn s.events := by
  rw [State.seen, attemptsIn, List.filterMap_append, List.filterMap_map, ← List.filterMap_reverse]
  rfl

theorem silent_of_admits
    {throttle : Option Throttle} {events : List Event}
    (admits : Admits s task throttle events) :
    events.filterMap Event.started? = [] ∧ events.filterMap Event.called? = [] := by
  cases admits with
  | atOnce | afterWait => exact ⟨rfl, rfl⟩

theorem silent_of_retries
    {monitor : Option Monitor} {events : List Event}
    (retries : Retries s task monitor events) :
    events.filterMap Event.started? = [] ∧ events.filterMap Event.called? = [] := by
  cases retries with
  | atOnce | afterPause => exact ⟨rfl, rfl⟩

theorem silent_of_interrupts
    {monitor : Option Monitor} {events : List Event}
    (stops : Interrupts s task move monitor events) :
    events.filterMap Event.started? = [] ∧ events.filterMap Event.called? = [] := by
  cases stops with
  | inCall | inPause | afterCall => exact ⟨rfl, rfl⟩

theorem running_of_admits
    {throttle : Option Throttle} {events : List Event}
    (admits : Admits s task throttle events) :
    s.stopped = false := by
  cases admits with
  | atOnce _ running | afterWait _ running => exact running

theorem going_of_retries
    {monitor : Option Monitor} {events : List Event}
    (retries : Retries s task monitor events) :
    s.isHalted = false := by
  cases retries with
  | atOnce _ _ going | afterPause _ going => exact going

/-- An item enters its processing only while dispatch goes on. -/
theorem starts_of_turn
    (turn : Turn s task move effect)
    (stop : s.stopped = true) :
    effect.events.filterMap Event.started? = [] := by
  cases turn with
  | breaksAtStart _ admits | starts admits =>
      rw [running_of_admits admits] at stop
      cases stop
  | rejects _ admits => exact (silent_of_admits admits).1
  | rewaits _ retries | recalls _ retries =>
      rw [List.filterMap_append, (silent_of_retries retries).1]
      rfl
  | interrupts stops =>
      rw [List.filterMap_append, (silent_of_interrupts stops).1]
      rfl
  | closes closing => cases closing <;> rfl
  | _ => rfl

/-- A call begins only while the run has not halted. -/
theorem attempts_of_turn
    (turn : Turn s task move effect)
    (halts : s.isHalted = true → s.stopped = true)
    (halt : s.isHalted = true) :
    effect.events.filterMap Event.called? = [] := by
  cases turn with
  | starts admits =>
      rw [running_of_admits admits] at halts
      cases halts halt
  | recalls _ retries =>
      rw [going_of_retries retries] at halt
      cases halt
  | recallsAfterWait _ _ going =>
      rw [going] at halt
      cases halt
  | rejects _ admits => exact (silent_of_admits admits).2
  | breaksAtStart _ admits =>
      rw [List.filterMap_append, (silent_of_admits admits).2]
      rfl
  | rewaits _ retries =>
      rw [List.filterMap_append, (silent_of_retries retries).2]
      rfl
  | interrupts stops =>
      rw [List.filterMap_append, (silent_of_interrupts stops).2]
      rfl
  | closes closing => cases closing <;> rfl
  | _ => rfl

/-- A move to a last status leaves an item in its processing only if it is rejected. -/
theorem processing_of_settled
    {item : Item} {moved : Except RejectedMove Item}
    (ends : moveFaults moved = [] → (settled item moved).isTerminal = true)
    (processing : (settled item moved).status = .processing) :
    item.status = .processing := by
  cases moved with
  | error rejected => exact processing
  | ok after =>
      have hterminal := ends rfl
      rw [Item.isTerminal, processing] at hterminal
      cases hterminal

/-- A task goes on with an item in its processing if it had one before, or starts it. -/
theorem processing_of_goesOn
    (turn : Turn s task move effect)
    (h : effect.fate = .goesOn next)
    (stop : s.stopped = true)
    (processing : next.item.status = .processing) :
    task.item.status = .processing := by
  cases turn with
  | turnsAway panic => cases panic <;> cases h
  | rejects | breaksAtStart | breaksInSample | breaksInRetry => cases h
  | starts admits =>
      rw [running_of_admits admits] at stop
      cases stop
  | fails _ _ _ fail =>
      cases h
      exact processing_of_settled (kept_of_fail fail).2 processing
  | interrupts _ skip =>
      cases h
      exact processing_of_settled (kept_of_skip skip).2 processing
  | completes _ _ compares =>
      cases h
      exact processing_of_settled (kept_of_compares compares).2 processing
  | closes closing =>
      cases closing with
      | finishes panic => cases panic <;> cases h
      | _ => cases h; exact processing
  | _ => cases h; exact processing

/-- No task goes on in a call once the run has halted. -/
theorem calling_of_goesOn
    {since : Nat}
    (turn : Turn s task move effect)
    (h : effect.fate = .goesOn next)
    (halts : s.isHalted = true → s.stopped = true)
    (halt : s.isHalted = true) :
    next.phase ≠ .calling since := by
  intro phase
  cases turn with
  | turnsAway panic => cases panic <;> cases h
  | rejects | breaksAtStart | breaksInSample | breaksInRetry => cases h
  | starts admits =>
      rw [running_of_admits admits] at halts
      cases halts halt
  | recalls _ retries =>
      rw [going_of_retries retries] at halt
      cases halt
  | recallsAfterWait _ _ going =>
      rw [going] at halt
      cases halt
  | fails | interrupts | completes =>
      cases h
      rcases Service.endingPhase_cases s _ with hphase | hphase | hphase <;>
        cases hphase.symm.trans phase
  | closes closing =>
      cases closing with
      | finishes panic => cases panic <;> cases h
      | _ => cases h; cases phase
  | _ => cases h; cases phase

end Events

section Signals

variable {s t : State} {task : Task} {move : Move} {effect : Effect} {action : Action}

theorem isHalted_faulted
    (faults : List RunFault) :
    (s.faulted faults).isHalted = (s.isHalted || !faults.isEmpty) := by
  cases faults with
  | nil => simp [State.faulted, State.isHalted]
  | cons fault faults => cases h : s.haltedAt <;> simp [State.faulted, State.isHalted, h]

theorem fatal_faulted
    (faults : List RunFault) :
    (s.faulted faults).fatal ≠ none ↔ s.fatal ≠ none ∨ faults ≠ [] := by
  refine ⟨fun h => ?_, fun h hnone => ?_⟩
  · cases faults with
    | nil => exact .inl (by simpa [State.faulted] using h)
    | cons fault faults => exact .inr (List.cons_ne_nil _ _)
  · obtain ⟨hfatal, hfaults⟩ := fatal_of_faulted hnone
    exact h.elim (· hfatal) (· hfaults)

/-- A run that has halted stays so. -/
theorem halted_of_transition
    (h : Transition s action t)
    (halt : s.isHalted = true) :
    t.isHalted = true := by
  rcases signals_of_transition h with rfl | ⟨faults, aborts, signals⟩
  · cases hhalted : s.haltedAt <;> simp [State.cancel, State.halt, State.isHalted, hhalted]
  · have hsame : t.isHalted = (s.faulted faults).isHalted := by
      simp only [State.isHalted, signals.haltedAt]
    rw [hsame, isHalted_faulted, halt]
    rfl

/-- Faults halt a run. -/
theorem halts_of_faulted
    (faults : List RunFault)
    (halts : s.isHalted = true ↔ s.cancelled = true ∨ s.fatal ≠ none) :
    (s.faulted faults).isHalted = true ↔
      s.cancelled = true ∨ (s.faulted faults).fatal ≠ none := by
  rw [isHalted_faulted, fatal_faulted, Bool.or_eq_true, halts, or_assoc]
  simp

/-- Faults stop dispatch. -/
theorem stops_of_faulted
    (faults : List RunFault)
    (stops : s.stopped = true ↔ s.isHalted = true ∨ s.aborted = true) :
    (s.faulted faults).stopped = true ↔
      (s.faulted faults).isHalted = true ∨ s.aborted = true := by
  have hstopped : (s.faulted faults).stopped = (s.stopped || !faults.isEmpty) := rfl
  rw [hstopped, isHalted_faulted, Bool.or_eq_true, Bool.or_eq_true, stops]
  exact or_right_comm

/-- Dispatch is aborted by a task whose item has failed. -/
theorem failed_of_aborts
    (turn : Turn s task move effect)
    (aborts : effect.aborts = true) :
    ∃ next, effect.fate = .goesOn next ∧ next.phase.isEnding = true ∧
      next.item.status = .failed := by
  cases turn with
  | @fails failure _ _ moved panic samples last fail =>
      have hmoved := (Bool.and_eq_true_iff.mp aborts).2
      refine ⟨_, rfl, isEnding_endingPhase s _, ?_⟩
      cases moved with
      | error rejected => cases hmoved
      | ok after =>
          obtain ⟨-, rfl⟩ := Item.map_moveTo_eq_ok fail
          simp [State.ended]
  | closes closing => cases closing <;> cases aborts
  | _ => cases aborts

/-- A task whose item comes to fail aborts dispatch, where no item may fail. -/
theorem aborts_of_failed
    {next : Task}
    (turn : Turn s task move effect)
    (stands : task.Stands)
    (early : task.phase.isEnding = false)
    (h : effect.fate = .goesOn next)
    (ending : next.phase.isEnding = true)
    (failed : next.item.status = .failed)
    (abrupt : s.settings.continueOnError = false) :
    effect.aborts = true := by
  cases turn with
  | turnsAway panic => cases panic <;> cases h
  | rejects | breaksAtStart | breaksInSample | breaksInRetry => cases h
  | waits | starts | answers | succeeds | pauses | rewaits | recalls | recallsAfterWait =>
      cases h
      cases ending
  | fails _ samples _ fail =>
      have hstatus := processing_of_samples samples stands
      rw [Item.fail_of_canMoveTo _ (by rw [hstatus]; rfl)] at fail
      subst fail
      simp [abrupt, hasMoved]
  | interrupts stops skip =>
      have hstatus := processing_of_interrupts stops stands
      rw [Item.skip_of_canMoveTo _ (by rw [hstatus]; rfl)] at skip
      subst skip
      cases h
      simp [State.ended] at failed
  | completes _ phase compares =>
      have hstatus : task.item.status = .processing := by
        simpa only [Task.Stands, phase] using stands
      cases h
      cases compares with
      | unchecked | first =>
          rw [Item.succeed_of_canMoveTo _ (by rw [hstatus]; rfl)] at failed
          simp [State.ended] at failed
      | duplicate =>
          rw [Item.skip_of_canMoveTo _ (by rw [hstatus]; rfl)] at failed
          simp [State.ended] at failed
  | closes closing =>
      rw [isEnding_of_closing closing] at early
      cases early

/-- An item that is done and has failed was so before, or dispatch is aborted. -/
theorem failed_of_transition
    {item : Item}
    (h : Transition s action t)
    (standing : Standing s)
    (abrupt : s.settings.continueOnError = false)
    (done : Done t item)
    (failed : item.status = .failed) :
    (∃ before, Done s before ∧ before.status = .failed) ∨ t.aborted = true := by
  rcases done with hfinished | ⟨next, hnext, hending, rfl⟩
  · rcases filed_of_transition h standing hfinished with
      hold | ⟨task, htask, hphase, hitem⟩ | ⟨⟨before, -, -, -, heq⟩, -⟩
    · exact .inl ⟨item, .inl hold, failed⟩
    · exact .inl ⟨item, .inr ⟨task, htask, by rw [hphase]; rfl, hitem⟩, failed⟩
    · rw [heq] at failed
      simp at failed
  · cases h with
    | advances | cancels | skips | takesPermit | flushes | leaves | closes | closesNot =>
        exact .inl ⟨next.item, .inr ⟨next, hnext, hending, rfl⟩, failed⟩
    | breaksInSkip => cases hnext
    | spawns =>
        rcases List.mem_append.mp hnext with hold | hnew
        · exact .inl ⟨next.item, .inr ⟨next, hold, hending, rfl⟩, failed⟩
        · cases List.mem_singleton.mp hnew
          cases hending
    | @turns task move effect live found turn =>
        have htask := (mem_of_task? found).1
        rcases mem_tasks hnext with hfate | ⟨hold, -⟩
        · cases hphase : task.phase.isEnding with
          | false =>
              have haborts := aborts_of_failed turn (standing.tasks task htask) hphase hfate hending
                failed abrupt
              exact .inr (by simp [Effect.apply, haborts])
          | true =>
              rcases fate_of_closing (closing_of_turn turn hphase) with
                ⟨_, location, hgoes, -, hitem, -⟩ | ⟨-, panic, hgoes, -⟩
              · cases hgoes.symm.trans hfate
                refine .inl ⟨task.item, .inr ⟨task, htask, hphase, rfl⟩, ?_⟩
                rw [hitem] at failed
                exact failed
              · cases panic <;> cases hgoes.symm.trans hfate
        · exact .inl ⟨next.item, .inr ⟨next, hold, hending, rfl⟩, failed⟩

/-- Dispatch is aborted by this step only if an item has failed in it. -/
theorem cause_of_transition
    (h : Transition s action t)
    (aborted : t.aborted = true) :
    s.aborted = true ∨ (s.settings.continueOnError = false ∧
      ∃ item, Done t item ∧ item.status = .failed) := by
  cases h with
  | @turns task move effect live found turn =>
      rcases Bool.or_eq_true_iff.mp aborted with hold | hnew
      · exact .inl hold
      · obtain ⟨next, hfate, hending, hfailed⟩ := failed_of_aborts turn hnew
        refine .inr ⟨aborts_of_turn turn hnew, next.item, .inr ⟨next, ?_, hending, rfl⟩, hfailed⟩
        show next ∈ effect.fate.tasks task.number s.tasks
        rw [hfate]
        exact mem_tasks_goesOn (mem_of_task? found).1
  | _ => exact .inl aborted

theorem aborted_of_transition
    (h : Transition s action t)
    (aborted : s.aborted = true) :
    t.aborted = true := by
  cases h with
  | turns => exact Bool.or_eq_true_iff.mpr (.inl aborted)
  | _ => exact aborted

theorem halts_of_raised
    (h : Transition s action t)
    (raised : Raised s) :
    t.isHalted = true ↔ t.cancelled = true ∨ t.fatal ≠ none := by
  cases h with
  | advances | takesPermit | spawns | flushes | leaves | closes => exact raised.halts
  | cancels =>
      cases hhalted : s.haltedAt <;> simp [State.cancel, State.halt, State.isHalted, hhalted]
  | turns | skips | breaksInSkip => exact halts_of_faulted _ raised.halts
  | closesNot fault => exact halts_of_faulted [.checkpoint fault] raised.halts

theorem stops_of_raised
    (h : Transition s action t)
    (raised : Raised s) :
    t.stopped = true ↔ t.isHalted = true ∨ t.aborted = true := by
  cases h with
  | advances | takesPermit | spawns | flushes | leaves | closes => exact raised.stops
  | cancels =>
      cases hhalted : s.haltedAt <;> simp [State.cancel, State.halt, State.isHalted, hhalted]
  | skips | breaksInSkip | closesNot => exact stops_of_faulted _ raised.stops
  | @turns task move effect =>
      have hstops := stops_of_faulted effect.faults raised.stops
      have hstopped : (effect.apply s task.number).stopped =
          ((s.faulted effect.faults).stopped || effect.aborts) := Bool.or_right_comm ..
      have haborted : (effect.apply s task.number).aborted = (s.aborted || effect.aborts) := rfl
      rw [hstopped, haborted, Bool.or_eq_true, Bool.or_eq_true, hstops, or_assoc]
      rfl

theorem raised_of_transition
    (h : Transition s action t)
    (numbered : Numbered s)
    (standing : Standing s)
    (raised : Raised s) :
    Raised t where
  halts := halts_of_raised h raised
  stops := stops_of_raised h raised
  abrupt aborted := by
    rw [State.settings, setup_of_transition h]
    rcases cause_of_transition h aborted with hold | ⟨habrupt, -⟩
    · exact raised.abrupt hold
    · exact habrupt
  failed abrupt item hdone hfailed := by
    rw [State.settings, setup_of_transition h] at abrupt
    rcases failed_of_transition h standing abrupt hdone hfailed with
      ⟨before, hbefore, hstatus⟩ | haborted
    · exact aborted_of_transition h (raised.failed abrupt before hbefore hstatus)
    · exact haborted
  cause aborted fatal stage := by
    rcases cause_of_transition h aborted with hold | ⟨-, hnew⟩
    · obtain ⟨item, hdone, hfailed⟩ := raised.cause hold (fatal_of_transition h fatal)
        (stage_ne_unwound (live_of_transition h))
      obtain ⟨location, hagain⟩ := done_again h numbered fatal stage hdone
      exact ⟨_, hagain, hfailed⟩
    · exact hnew

theorem raised_opened
    {setup : Setup} {items : List Item} {checkpoint : Checkpoint} {throttle : Throttle}
    {registry : Registry} {monitor : Monitor} {clock : Nat} :
    Raised (.opened setup items checkpoint throttle registry monitor clock) where
  halts := by simp [State.opened, State.log, State.isHalted]
  stops := by simp [State.opened, State.log, State.isHalted]
  abrupt h := by cases h
  failed _ item hdone := by
    rcases hdone with hfinished | ⟨task, htask, -⟩
    · cases hfinished
    · cases htask
  cause h := by cases h

end Signals

section Runs

variable {s t : State} {action : Action}

theorem Unstarted.refl (s : State) : Unstarted s s :=
  ⟨rfl, fun task htask processing => ⟨task, htask, rfl, processing⟩⟩

theorem Unstarted.trans
    {u : State}
    (first : Unstarted s t)
    (last : Unstarted t u) :
    Unstarted s u := by
  refine ⟨last.seen.trans first.seen, fun task htask processing => ?_⟩
  obtain ⟨middle, hmiddle, hlast, hstatus⟩ := last.tasks task htask processing
  obtain ⟨before, hbefore, hfirst, hsame⟩ := first.tasks middle hmiddle hstatus
  exact ⟨before, hbefore, hfirst.trans hlast, hsame⟩

theorem Uncalled.refl (s : State) : Uncalled s s :=
  ⟨rfl, fun task htask _ phase => ⟨task, htask, rfl, phase⟩⟩

theorem Uncalled.trans
    {u : State}
    (first : Uncalled s t)
    (last : Uncalled t u) :
    Uncalled s u := by
  refine ⟨last.seen.trans first.seen, fun task htask since phase => ?_⟩
  obtain ⟨middle, hmiddle, hlast, hphase⟩ := last.tasks task htask since phase
  obtain ⟨before, hbefore, hfirst, hsame⟩ := first.tasks middle hmiddle since hphase
  exact ⟨before, hbefore, hfirst.trans hlast, hsame⟩

theorem unstarted_of_transition
    (h : Transition s action t)
    (standing : Standing s)
    (stop : s.stopped = true) :
    Unstarted s t := by
  have hsame : ∀ {task}, task ∈ s.tasks → task.item.status = .processing →
      ∃ before ∈ s.tasks, before.number = task.number ∧ before.item.status = .processing :=
    fun hmem processing => ⟨_, hmem, rfl, processing⟩
  cases h with
  | advances | cancels | skips | takesPermit | flushes | leaves | closes | closesNot =>
      exact ⟨rfl, fun _ htask => hsame htask⟩
  | breaksInSkip => exact ⟨rfl, fun _ htask => nomatch htask⟩
  | @spawns item rest _ waiting =>
      refine ⟨rfl, fun task htask processing => ?_⟩
      rcases List.mem_append.mp htask with hold | hnew
      · exact hsame hold processing
      · cases List.mem_singleton.mp hnew
        have hpending := standing.waiting item (by simp [waiting])
        cases hpending.symm.trans processing
  | @turns task move effect live found turn =>
      have htask := (mem_of_task? found).1
      constructor
      case seen =>
        show startsIn (s.seen effect.events).events = _
        rw [startsIn_seen, starts_of_turn turn stop]
        rfl
      case tasks =>
        intro next hnext processing
        rcases mem_tasks hnext with hfate | ⟨hold, -⟩
        · exact ⟨task, htask, (turn_number turn hfate).symm,
            processing_of_goesOn turn hfate stop processing⟩
        · exact hsame hold processing

theorem uncalled_of_transition
    (h : Transition s action t)
    (halts : s.isHalted = true → s.stopped = true)
    (halt : s.isHalted = true) :
    Uncalled s t := by
  have hsame : ∀ {task since}, task ∈ s.tasks → task.phase = .calling since →
      ∃ before ∈ s.tasks, before.number = task.number ∧ before.phase = .calling since :=
    fun hmem phase => ⟨_, hmem, rfl, phase⟩
  cases h with
  | advances | cancels | skips | takesPermit | flushes | leaves | closes | closesNot =>
      exact ⟨rfl, fun _ htask _ => hsame htask⟩
  | breaksInSkip => exact ⟨rfl, fun _ htask => nomatch htask⟩
  | spawns =>
      refine ⟨rfl, fun task htask since phase => ?_⟩
      rcases List.mem_append.mp htask with hold | hnew
      · exact hsame hold phase
      · cases List.mem_singleton.mp hnew
        cases phase
  | @turns task move effect live found turn =>
      constructor
      case seen =>
        show attemptsIn (s.seen effect.events).events = _
        rw [attemptsIn_seen, attempts_of_turn turn halts halt]
        rfl
      case tasks =>
        intro next hnext since phase
        rcases mem_tasks hnext with hfate | ⟨hold, -⟩
        · exact absurd phase (calling_of_goesOn turn hfate halts halt)
        · exact hsame hold phase

/-- Once dispatch has stopped, no item enters its processing. -/
theorem unstarted_of_reaches
    (run : Reaches s t)
    (standing : Standing s)
    (stop : s.stopped = true) :
    Unstarted s t := by
  have hall := run.invariant (P := fun u => Standing u ∧ u.stopped = true ∧ Unstarted s u)
    (fun h ⟨hstanding, hstop, hunstarted⟩ =>
      ⟨standing_of_transition h hstanding, stopped_of_transition h hstop,
        hunstarted.trans (unstarted_of_transition h hstanding hstop)⟩)
    ⟨standing, stop, .refl s⟩
  exact hall.2.2

/-- Once the run has halted, no call begins. -/
theorem uncalled_of_reaches
    (run : Reaches s t)
    (halts : s.isHalted = true → s.stopped = true)
    (halt : s.isHalted = true) :
    Uncalled s t := by
  have hall := run.invariant
    (P := fun u => u.stopped = true ∧ u.isHalted = true ∧ Uncalled s u)
    (fun h ⟨hstop, hhalt, huncalled⟩ =>
      ⟨stopped_of_transition h hstop, halted_of_transition h hhalt,
        huncalled.trans (uncalled_of_transition h (fun _ => hstop) hhalt)⟩)
    ⟨halts halt, halt, .refl s⟩
  exact hall.2.2

end Runs

end Run
end BatchRun
