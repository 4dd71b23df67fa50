import BatchRun.Proofs.Run.Resumption
import BatchRun.Proofs.Run.Settlement

/-!
# Calls of a run

A run calls for the items that it has taken on, and for each of them unless it is stopped.

**Invariant.**
Calls are for items that waited when the run began; an item that was started was called for, and
so was one that is done, unless dispatch has stopped (`Calling`).

**Results.**
* `task_of_call`: a call is for the item of a task.
* `calling_of_transition`: each step keeps the invariant.
* `called_of_returned`: a run that was neither cancelled nor aborted has called for all its items.
-/

namespace BatchRun
namespace Run

/-- Whether the item of a task was started. -/
def Phase.isStarted : Phase → Bool
  | spawned => false
  | throttled _ => false
  | _ => true

/-- What a run knows of its calls. -/
structure Calling (first s : State) : Prop where
  origins : ∀ item ∈ s.own, item.origin ∈ first.waiting.map Item.origin
  callers : ∀ id, 0 < callsIn s.events id → id ∈ first.waiting.map Item.id
  tasks : ∀ task ∈ s.tasks, task.phase.isStarted = true → 0 < callsIn s.events task.item.id
  done : ∀ item, Done s item → 0 < callsIn s.events item.id ∨ s.stopped = true

section Turns

variable {s : State} {task next : Task} {item : Item} {move : Move} {effect : Effect}

theorem isStarted_of_isEnding
    {phase : Phase}
    (ending : phase.isEnding = true) :
    phase.isStarted = true := by
  cases phase with
  | persisting | buffering | saving | finishing => rfl
  | _ => cases ending

theorem isStarted_endingPhase
    (s : State)
    (item : Item) :
    (s.endingPhase item).isStarted = true :=
  isStarted_of_isEnding (isEnding_endingPhase s item)

theorem isStarted_of_admits
    {throttle : Option Throttle} {events : List Event}
    (admits : Admits s task throttle events) :
    task.phase.isStarted = false := by
  cases admits with
  | atOnce phase | afterWait phase => rw [phase]; rfl

theorem isStarted_of_samples
    {outcome : Except AttemptFailure Json} {latency : Nat} {monitor : Monitor}
    (samples : Samples s task outcome latency monitor) :
    task.phase.isStarted = true := by
  rw [samples.phase]
  rfl

theorem isStarted_of_retries
    {monitor : Option Monitor} {events : List Event}
    (retries : Retries s task monitor events) :
    task.phase.isStarted = true := by
  cases retries with
  | atOnce samples => exact isStarted_of_samples samples
  | afterPause phase => rw [phase]; rfl

theorem isStarted_of_interrupts
    {monitor : Option Monitor} {events : List Event}
    (stops : Interrupts s task move monitor events) :
    task.phase.isStarted = true := by
  cases stops with
  | inCall phase => rw [phase]; rfl
  | inPause _ phase => rcases phase with phase | phase <;> rw [phase] <;> rfl
  | afterCall samples => exact isStarted_of_samples samples

/-- A task that has not started its item is new, or waits for its first token with the same item. -/
theorem early_of_goesOn
    (turn : Turn s task move effect)
    (h : effect.fate = .goesOn next)
    (early : next.phase.isStarted = false) :
    task.phase.isStarted = false ∧ next.item = task.item := by
  cases turn with
  | turnsAway panic => cases panic <;> cases h
  | rejects | breaksAtStart | breaksInSample | breaksInRetry => cases h
  | waits panic phase =>
      cases h
      exact ⟨by rw [phase]; rfl, rfl⟩
  | fails | interrupts | completes =>
      cases h
      cases (isStarted_endingPhase s _).symm.trans early
  | closes closing =>
      cases closing with
      | finishes panic => cases panic <;> cases h
      | _ => cases h; cases early
  | _ => cases h; cases early

/-- A task that goes on with a started item has started it before, or calls now. -/
theorem call_of_goesOn
    (turn : Turn s task move effect)
    (h : effect.fate = .goesOn next)
    (started : next.phase.isStarted = true) :
    task.phase.isStarted = true ∨
      ∃ event ∈ effect.events, event.isCallFor task.item.id = true := by
  cases turn with
  | turnsAway panic => cases panic <;> cases h
  | rejects | breaksAtStart | breaksInSample | breaksInRetry => cases h
  | waits =>
      cases h
      cases started
  | starts admits start =>
      obtain ⟨_, _, _, rfl⟩ := Item.start_eq_ok start
      refine .inr ⟨_, List.mem_append_right _ (List.mem_cons_of_mem _ List.mem_cons_self), ?_⟩
      simp [Event.isCallFor, Item.beginAttempt]
  | answers phase | recallsAfterWait _ phase | completes _ phase => exact .inl (by rw [phase]; rfl)
  | succeeds _ samples | fails _ samples | pauses samples =>
      exact .inl (isStarted_of_samples samples)
  | rewaits _ retries | recalls _ retries => exact .inl (isStarted_of_retries retries)
  | interrupts stops => exact .inl (isStarted_of_interrupts stops)
  | closes closing => exact .inl (isStarted_of_isEnding (isEnding_of_closing closing))

/-- An item comes to its end only after its start. -/
theorem started_of_conclusion
    {registry : Option Registry}
    (conclusion : Conclusion s task item registry) :
    task.phase.isStarted = true ∧ item.id = task.item.id := by
  cases conclusion with
  | fails samples => exact ⟨isStarted_of_samples samples, by simp⟩
  | succeeds phase | wins phase | repeats phase => exact ⟨by rw [phase]; rfl, by simp⟩
  | interrupted stops => exact ⟨isStarted_of_interrupts stops, by simp⟩

end Turns

section Steps

variable {first s t : State} {action : Action} {item : Item} {id : String}

theorem callsIn_le_of_transition
    (h : Transition s action t)
    (id : String) :
    callsIn s.events id ≤ callsIn t.events id := by
  obtain ⟨new, hevents⟩ := events_of_transition h
  rw [hevents, callsIn, callsIn, List.countP_append]
  exact Nat.le_add_left _ _

/-- A call is for the item of a task. -/
theorem task_of_call
    (h : Transition s action t)
    (call : callsIn t.events id ≠ callsIn s.events id) :
    ∃ task ∈ s.tasks, task.item.id = id := by
  cases h with
  | advances | cancels | takesPermit | spawns | flushes | leaves | closesNot => exact absurd rfl call
  | skips | breaksInSkip | closes =>
      exact absurd (callsIn_eq (by simp [Event.isCallFor])) call
  | @turns task move effect live found turn =>
      refine ⟨task, (mem_of_task? found).1, ?_⟩
      by_contra hother
      refine call (callsIn_eq fun event hevent => ?_)
      obtain ⟨before, hbefore, rfl⟩ := List.mem_map.mp hevent
      exact mute_of_turn turn (.inr hother) before (List.mem_reverse.mp hbefore)

theorem calling_of_transition
    (h : Transition s action t)
    (standing : Standing s)
    (calling : Calling first s) :
    Calling first t where
  origins item hitem := by
    obtain ⟨before, hbefore, hkept⟩ := kept_of_transition h hitem
    exact hkept.origin ▸ calling.origins before hbefore
  callers id hid := by
    by_cases hsame : callsIn t.events id = callsIn s.events id
    · exact calling.callers id (hsame ▸ hid)
    · obtain ⟨task, htask, rfl⟩ := task_of_call h hsame
      have horigin := calling.origins task.item (mem_own.mpr (.inr (.inl ⟨task, htask, rfl⟩)))
      obtain ⟨before, hbefore, heq⟩ := List.mem_map.mp horigin
      exact List.mem_map.mpr ⟨before, hbefore, Item.id_of_origin heq⟩
  tasks task htask hstarted := by
    rcases mem_tasks_of_transition h htask with
      hold | hspawned | ⟨before, hbefore, move, effect, hturn, hfate, hevents⟩
    · exact Nat.lt_of_lt_of_le (calling.tasks task hold hstarted) (callsIn_le_of_transition h _)
    · rw [hspawned] at hstarted
      cases hstarted
    · rw [Item.id_of_origin (kept_of_goesOn hturn hfate).origin]
      rcases call_of_goesOn hturn hfate hstarted with hearlier | ⟨event, hevent, hcall⟩
      · exact Nat.lt_of_lt_of_le (calling.tasks before hbefore hearlier)
          (callsIn_le_of_transition h _)
      · refine List.countP_pos_iff.mpr ⟨(s.clock, event), ?_, hcall⟩
        rw [hevents]
        exact List.mem_append_left _ (List.mem_map_of_mem (List.mem_reverse.mpr hevent))
  done item hdone := by
    rcases done_of_transition h standing hdone with
      ⟨before, location, hbefore, rfl⟩ | ⟨registry, hcomes, -⟩
    · rcases calling.done before hbefore with hcalled | hstop
      · exact .inl (Nat.lt_of_lt_of_le hcalled (callsIn_le_of_transition h before.id))
      · exact .inr (stopped_of_transition h hstop)
    · cases hcomes with
      | @concludes task _ _ htask conclusion =>
          obtain ⟨hstarted, hid⟩ := started_of_conclusion conclusion
          rw [hid]
          exact .inl (Nat.lt_of_lt_of_le (calling.tasks task htask hstarted)
            (callsIn_le_of_transition h _))
      | turnedAway away =>
          obtain ⟨-, -, -, hstop, -⟩ := away
          exact .inr (stopped_of_transition h hstop)

end Steps

section Runs

variable {setup : Setup} {items : List Item} {checkpoint : Checkpoint} {throttle : Throttle}
  {registry : Registry} {monitor : Monitor} {clock : Nat} {first s : State} {result : Returned}

theorem calling_opened :
    Calling (.opened setup items checkpoint throttle registry monitor clock)
      (.opened setup items checkpoint throttle registry monitor clock) where
  origins item hitem := by
    rcases mem_own.mp hitem with hfinished | ⟨task, htask, -⟩ | hwaiting
    · cases hfinished
    · cases htask
    · exact List.mem_map_of_mem hwaiting
  callers id hid := by
    simp [State.opened, State.log, callsIn, Event.isCallFor] at hid
  tasks _ htask := absurd htask List.not_mem_nil
  done item hdone := by
    rcases hdone with hfinished | ⟨task, htask, -⟩
    · cases hfinished
    · cases htask

/-- A run that returns without having been cancelled or aborted was not stopped. -/
theorem running_of_returned
    (orderly : Orderly first s)
    (returned : s.stage = .returned (.ok result))
    (uncancelled : result.cancelled = false)
    (unaborted : result.aborted = false) :
    s.stopped = false := by
  obtain ⟨hfatal, -, haborted, hcancelled⟩ := orderly.staged.returned result returned
  cases hstop : s.stopped with
  | false => rfl
  | true =>
      rcases orderly.disposed.stops hstop with h | h | h
      · rw [← hcancelled, uncancelled] at h
        cases h
      · rw [← haborted, unaborted] at h
        cases h
      · exact absurd hfatal h

/-- Such a run has called for all its items. -/
theorem called_of_returned
    (orderly : Orderly first s)
    (calling : Calling first s)
    (distinct : (first.waiting.map Item.id).Nodup)
    (returned : s.stage = .returned (.ok result))
    (uncancelled : result.cancelled = false)
    (unaborted : result.aborted = false) :
    ∀ item ∈ first.waiting, 0 < callsIn s.events item.id := by
  intro item hitem
  have hrunning := running_of_returned orderly returned uncancelled unaborted
  have hperm := (finished_distinct orderly distinct returned).1
  obtain ⟨done, hdone, horigin⟩ :=
    List.mem_map.mp (hperm.mem_iff.mpr (List.mem_map_of_mem hitem))
  rcases calling.done done (.inl hdone) with hcalled | hstop
  · exact Item.id_of_origin horigin ▸ hcalled
  · rw [hrunning] at hstop
    cases hstop

end Runs

end Run
end BatchRun
