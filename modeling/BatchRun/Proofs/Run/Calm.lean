import BatchRun.Proofs.Run.Pacing

/-!
# Calm runs

A run in which the executor answers and nobody outside breaks off, cancels, or fails.

**Invariant.**
A run of calm steps has no fault, its latencies fit in the windows of its monitor, and there are
attempts left for the items that wait for another one (`Flowing`).

**Results.**
* `faults_of_calm`: a calm step of a task has no fault.
* `flowing_of_transition`: calm steps keep the invariant.
-/

namespace BatchRun
namespace Run

/-- Whether a step of a task goes well. -/
def Move.isCalm : Move → Bool
  | resume panic => panic.isNone
  | reply _ => true
  | expire => false
  | giveUp => false
  | persist (.ok _) => true
  | persist (.error _) => false
  | save fault => fault.isNone

/-- Whether nobody outside breaks off, cancels, or fails. -/
def Action.isCalm : Action → Bool
  | advance _ => true
  | cancel => false
  | skipNext _ => false
  | takePermit => true
  | spawn => true
  | task _ move => move.isCalm
  | flush => true
  | close fault => fault.isNone

section Turns

variable {service : Service} {final : String → Status} {s : State} {task : Task} {move : Move}
  {effect : Effect}

/-- A calm step of a task has no fault. -/
theorem faults_of_calm
    (suits : service.Suits s.setup)
    (running : s.stopped = false)
    (going : s.isHalted = false)
    (roomy : s.monitor.Roomy farFuture)
    (fits : service.Fits final s.stopped task)
    (paced : task.Paced s.settings.retry.maxAttempts s.clock)
    (calm : move.isCalm = true)
    (turn : Turn s task move effect) :
    effect.faults = [] := by
  cases turn with
  | turnsAway _ _ stop =>
      rw [running] at stop
      cases stop
  | rejects _ admits start =>
      have expects := Service.expects_of_admits admits fits
      rw [Item.start_of_canMoveTo (expects.canMoveTo rfl)] at start
      cases start
  | breaksAtStart | breaksInRetry => cases calm
  | breaksInSample _ phase record =>
      -- No call takes longer than any wait, so that the sample fits in its window.
      obtain ⟨next, hrecord, -⟩ := record_of_answered roomy paced phase
      rw [record] at hrecord
      cases hrecord
  | fails _ samples _ fail =>
      obtain ⟨expects, -⟩ := Service.answered_of_samples samples fits
      rw [← fail, Item.fail_of_canMoveTo _ (expects.canMoveTo rfl)]
      rfl
  | interrupts stops =>
      rw [Service.halted_of_interrupts stops] at going
      cases going
  | completes _ phase compares =>
      simp only [Service.Fits, phase] at fits
      cases compares with
      | unchecked =>
          rw [Item.succeed_of_canMoveTo _ (by rw [fits.1]; rfl)]
          rfl
      | first on | duplicate on =>
          rw [State.settings, suits.unchecked] at on
          cases on
  | closes closing =>
      cases closing with
      | persistsNot | savesNot => cases calm
      | finishes panic =>
          cases panic with
          | none => rfl
          | some message => cases calm
      | _ => rfl
  | _ => rfl

end Turns

/-- What is known of a run of calm steps. -/
structure Flowing (service : Service) (final : String → Status) (s : State) : Prop where
  judged : Judged service final s
  numbered : Numbered s
  staged : Staged s
  balances : s.Balances
  slots : 0 < s.settings.slots
  fatal : s.fatal = none
  uncancelled : s.cancelled = false
  roomy : s.monitor.Roomy farFuture
  paced : ∀ task ∈ s.tasks, task.Paced s.settings.retry.maxAttempts s.clock
  stage : s.stage.isLive = true ∨ ∃ result, s.stage = .returned (.ok result)

/-- A step in which the executor answers and nobody outside breaks off, cancels, or fails. -/
structure Service.Calm (service : Service) (s : State) (action : Action) : Prop where
  calm : action.isCalm = true
  serves : service.Serves s action

section Steps

variable {service : Service} {final : String → Status} {s t : State} {action : Action}

theorem running_of_flowing
    (flowing : Flowing service final s) :
    s.stopped = false := by
  cases hstop : s.stopped with
  | false => rfl
  | true =>
      rcases flowing.judged.stops hstop with hcancelled | hfault
      · rw [flowing.uncancelled] at hcancelled
        cases hcancelled
      · exact absurd flowing.fatal hfault

theorem going_of_flowing
    (flowing : Flowing service final s) :
    s.isHalted = false := by
  cases hhalted : s.isHalted with
  | false => rfl
  | true =>
      have hstop := flowing.judged.halts hhalted
      rw [running_of_flowing flowing] at hstop
      cases hstop

theorem flowing_turn
    {task : Task} {move : Move} {effect : Effect}
    (flowing : Flowing service final s)
    (htask : task ∈ s.tasks)
    (turn : Turn s task move effect)
    (calm : move.isCalm = true) :
    effect.faults = [] :=
  faults_of_calm flowing.judged.suits (running_of_flowing flowing) (going_of_flowing flowing)
    flowing.roomy (flowing.judged.tasks task htask) (flowing.paced task htask) calm turn

theorem paced_of_flowing
    (flowing : Flowing service final s) :
    s.Paced where
  numbered := flowing.numbered
  staged := flowing.staged
  slots := flowing.slots
  balances _ := flowing.balances
  tasks := flowing.paced

/-- A run without a fault ends with a result. -/
theorem stage_of_ends
    {last : Stage}
    (roomy : s.monitor.Roomy farFuture)
    (fatal : s.fatal = none)
    (ends : Ends s last) :
    ∃ result, last = .returned (.ok result) := by
  cases ends with
  | fails h =>
      rw [fatal] at h
      cases h
  | breaks _ snapshot =>
      obtain ⟨health, hhealth⟩ := Monitor.snapshot_of_roomy roomy
      rw [hhealth] at snapshot
      cases snapshot
  | returns => exact ⟨_, rfl⟩

/-- Calm steps keep the invariant. -/
theorem flowing_of_transition
    (h : Transition s action t)
    (calm : service.Calm s action)
    (flowing : Flowing service final s) :
    Flowing service final t := by
  have judged := judged_of_transition h calm.serves flowing.judged
  obtain ⟨numbered, staged, slots, balances, paced⟩ :=
    paced_of_transition h (paced_of_flowing flowing)
  have roomy := roomy_of_transition h (paced_of_flowing flowing) flowing.roomy
  have live := live_of_transition h
  obtain ⟨calm, -⟩ := calm
  cases h with
  | cancels | skips | breaksInSkip | closesNot => cases calm
  | advances | takesPermit | spawns =>
      exact ⟨judged, numbered, staged, balances (stage_ne_unwound live), slots, flowing.fatal,
        flowing.uncancelled, roomy, paced, .inl live⟩
  | flushes =>
      exact ⟨judged, numbered, staged, balances (by simp), slots, flowing.fatal,
        flowing.uncancelled, roomy, paced, .inl rfl⟩
  | leaves fault stage ends =>
      obtain ⟨result, rfl⟩ := stage_of_ends flowing.roomy flowing.fatal ends
      exact ⟨judged, numbered, staged, balances (by simp), slots, flowing.fatal,
        flowing.uncancelled, roomy, paced, .inr ⟨result, rfl⟩⟩
  | closes stage full ends =>
      obtain ⟨result, rfl⟩ := stage_of_ends (s := State.seen { s with saved := _ } _)
        flowing.roomy flowing.fatal ends
      exact ⟨judged, numbered, staged, balances (by simp), slots, flowing.fatal,
        flowing.uncancelled, roomy, paced, .inr ⟨result, rfl⟩⟩
  | @turns task move effect _ found turn =>
      have hfaults := flowing_turn flowing (mem_of_task? found).1 turn calm
      refine ⟨judged, numbered, staged, balances (stage_ne_unwound live), slots, ?_,
        flowing.uncancelled, roomy, paced, .inl live⟩
      simp [Effect.apply, State.faulted, hfaults, flowing.fatal]

end Steps

section Opening

variable {service : Service} {final : String → Status} {setup : Setup} {items : List Item}
  {checkpoint : Checkpoint} {throttle : Throttle} {registry : Registry} {monitor : Monitor}
  {clock : Nat}

theorem flowing_opened
    (suits : service.Suits setup)
    (expects : ∀ item ∈ items, service.Expects final item .pending (item.attempts + 1))
    (valid : setup.settings.fault? = none)
    (slots : setup.settings.slots < unboundedPermits)
    (roomy : monitor.Roomy farFuture) :
    Flowing service final (.opened setup items checkpoint throttle registry monitor clock) where
  judged := judged_opened suits expects
  numbered := numbered_opened
  staged := staged_opened
  balances := rfl
  slots := slots_pos valid
  fatal := rfl
  uncancelled := rfl
  roomy := roomy
  paced task htask := absurd htask List.not_mem_nil
  stage := by
    refine .inl ?_
    rw [stage_opened, if_neg (Nat.not_le.mpr slots)]
    rfl

end Opening

end Run
end BatchRun
