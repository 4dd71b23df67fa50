import BatchRun.Proofs.Run.Calm
import BatchRun.Proofs.Run.Termination

/-!
# Progress of calm runs

A calm run goes on until it returns, and it returns after a bounded number of steps, not counting
delays of the files.

**Results.**
* `step_of_flowing`: as long as the run has not returned, a calm step is possible that is no delay.
* `returns_of_flowing`: a run of calm steps has a bounded length and returns in the end.
-/

namespace BatchRun
namespace Run

section Steps

variable {service : Service} {final : String → Status} {s t : State}

/-- A task goes on, or waits for a later tick. -/
theorem calms_or_waits
    (service : Service)
    (s : State)
    (task : Task) :
    (∃ move, move.isCalm = true ∧ (s.move? task move).isSome = true ∧
        ∀ reply, move = .reply reply → reply = service.reply task.item.id task.item.attempts) ∨
      ∃ due, s.due? task = some due ∧ s.clock < due := by
  by_cases hcalling : ∃ since, task.phase = .calling since
  · obtain ⟨since, hphase⟩ := hcalling
    refine .inl ⟨.reply (service.reply task.item.id task.item.attempts), rfl, ?_, ?_⟩
    · simp [State.move?, hphase]
    · rintro reply ⟨⟩
      rfl
  · refine (easyMoves_or_waits s (not_exists.mp hcalling)).imp_left ?_
    rintro ⟨move, hmove, hpossible⟩
    simp only [easyMoves, List.mem_cons, List.not_mem_nil, or_false] at hmove
    rcases hmove with rfl | rfl | rfl <;> exact ⟨_, rfl, hpossible, fun _ hreply => by cases hreply⟩

theorem stopped_of_skipNext
    (h : (s.dispatch? (.skipNext none)).isSome = true) :
    s.stopped = true := by
  unfold State.dispatch? at h
  split at h
  case h_1 =>
      split at h
      case isTrue guard =>
          simp only [Bool.and_eq_true] at guard
          exact guard.1.1
      case isFalse => cases h
  all_goals simp_all

/-- The dispatcher goes on calmly, or waits for a task. -/
theorem calms_or_blocked
    (flowing : Flowing service final s)
    (live : s.stage.isLive = true) :
    (∃ action, service.Calm s action ∧ s.isDelay action = false ∧
        (s.step? action).isSome = true) ∨
      s.stage = .dispatching ∧ s.isDispatchBlocked = true := by
  refine (dispatches_or_blocked (paced_of_flowing flowing) live).imp_left ?_
  rintro ⟨action, heasy, hpossible⟩
  suffices service.Calm s action ∧ s.isDelay action = false from
    ⟨action, this.1, this.2, step_of_easyActions live heasy hpossible⟩
  simp only [easyActions, List.mem_cons, List.not_mem_nil, or_false] at heasy
  rcases heasy with rfl | rfl | rfl | rfl | rfl
  · have hstop := stopped_of_skipNext hpossible
    rw [running_of_flowing flowing] at hstop
    cases hstop
  all_goals exact ⟨⟨rfl, trivial⟩, rfl⟩

theorem serves_of_isCalm
    {task : Task} {move : Move}
    (found : s.task? task.number = some task)
    (calm : move.isCalm = true)
    (answers : ∀ reply, move = .reply reply →
      reply = service.reply task.item.id task.item.attempts) :
    service.Serves s (.task task.number move) := by
  cases move with
  | reply reply =>
      intro other hother
      rw [found] at hother
      cases hother
      exact answers reply rfl
  | expire => cases calm
  | _ => trivial

/-- As long as the run has not returned, a calm step is possible that is no delay. -/
theorem step_of_flowing
    (flowing : Flowing service final s)
    (live : s.stage.isLive = true) :
    ∃ action, service.Calm s action ∧ s.isDelay action = false ∧
      (s.step? action).isSome = true := by
  -- Time passes only where every task waits.  Otherwise one that does not wait goes on.
  by_cases hwaits : ∀ task ∈ s.tasks, ∃ due, s.due? task = some due ∧ s.clock < due
  · rcases calms_or_blocked flowing live with hstep | ⟨hstage, hblocked⟩
    · exact hstep
    · exact ⟨.advance (s.clock + 1), ⟨rfl, trivial⟩,
        isDelay_of_waits (paced_of_flowing flowing) hstage hblocked hwaits _,
        step_of_waits live hblocked hwaits⟩
  · obtain ⟨task, htask, hready⟩ : ∃ task ∈ s.tasks,
        ¬ ∃ due, s.due? task = some due ∧ s.clock < due := by
      simpa using hwaits
    obtain ⟨move, hcalm, hmove, hreply⟩ := (calms_or_waits service s task).resolve_right hready
    have hfound := task?_of_mem flowing.numbered htask
    exact ⟨.task task.number move, ⟨hcalm, serves_of_isCalm hfound hcalm hreply⟩, rfl,
      step_of_move live hfound hmove⟩

end Steps

/-- A state that follows a first one after so many calm steps, delays not counted. -/
inductive Service.Calmly (service : Service) (first : State) : Nat → State → Prop
  | here : Calmly service first 0 first
  | step {steps : Nat} {s t : State} {action : Action} (before : Calmly service first steps s)
      (calm : service.Calm s action) (prompt : s.isDelay action = false)
      (h : s.step? action = some t) :
      Calmly service first (steps + 1) t
  | delay {steps : Nat} {s t : State} {action : Action} (before : Calmly service first steps s)
      (delay : s.isDelay action = true) (h : s.step? action = some t) :
      Calmly service first steps t

/-- A run of calm steps has a bounded length but for delays, and returns if it goes on until
nothing but a delay is possible. -/
structure Service.Returns (service : Service) (first : State) : Prop where
  bounded : ∃ bound, ∀ steps s, service.Calmly first steps s → steps ≤ bound
  returned : ∀ steps s, service.Calmly first steps s →
    (∀ action, service.Calm s action → s.isDelay action = false → s.step? action = none) →
    ∃ result, s.stage = .returned (.ok result) ∧ result.cancelled = false

section Returning

variable {service : Service} {final : String → Status} {first s : State} {steps : Nat}

theorem calm_of_isDelay
    {action : Action}
    (delay : s.isDelay action = true) :
    service.Calm s action := by
  cases action with
  | advance => exact ⟨rfl, trivial⟩
  | _ => cases delay

theorem flowing_of_calmly
    (flowing : Flowing service final first)
    (run : service.Calmly first steps s) :
    Flowing service final s ∧ steps + s.weight ≤ first.weight := by
  induction run with
  | here => exact ⟨flowing, by omega⟩
  | step _ calm prompt h ih =>
      obtain ⟨hflowing, hweight⟩ := ih
      have transition := transition_of_step? h
      have hlt := weight_lt_of_transition transition (paced_of_flowing hflowing)
        (by rintro rfl; cases calm.calm) prompt
      exact ⟨flowing_of_transition transition calm hflowing, by omega⟩
  | delay _ delay h ih =>
      obtain ⟨hflowing, hweight⟩ := ih
      have transition := transition_of_step? h
      have hle := weight_le_of_isDelay transition delay
      exact ⟨flowing_of_transition transition (calm_of_isDelay delay) hflowing, by omega⟩

/-- A run of calm steps returns. -/
theorem returns_of_flowing
    (flowing : Flowing service final first) :
    service.Returns first where
  bounded := by
    refine ⟨first.weight, fun steps s run => ?_⟩
    have hweight := (flowing_of_calmly flowing run).2
    omega
  returned steps s run stuck := by
    obtain ⟨hflowing, -⟩ := flowing_of_calmly flowing run
    rcases hflowing.stage with hlive | ⟨result, hreturned⟩
    · obtain ⟨action, hcalm, hprompt, hstep⟩ := step_of_flowing hflowing hlive
      rw [stuck action hcalm hprompt] at hstep
      cases hstep
    · obtain ⟨-, -, -, hcancelled⟩ := hflowing.staged.returned result hreturned
      exact ⟨result, hreturned, hcancelled.trans hflowing.uncancelled⟩

end Returning

end Run
end BatchRun
