import BatchRun.Proofs.Run.Pacing
import Mathlib.Algebra.Order.BigOperators.Group.List
import Mathlib.Algebra.GroupWithZero.Nat
import Mathlib.Algebra.Order.Group.Nat

/-!
# Termination of runs

Every run comes to an end, whatever the executor, the files and the observers do, as long as the
files answer at some time.

**Types.**
`Task.rank` bounds the number of steps of a task and `Task.left` the number of ticks of its wait.
`State.weight` puts them together: a rank weighs more than any wait.  A step is a delay of the
files if it lets time pass while nothing else is awaited (`State.isDelay`).

**Results.**
* `weight_lt_of_transition`: a step lowers the weight, unless the caller takes it or the files
  delay it.
* `step_of_paced`: as long as a run has not ended, a step is possible for which nobody has to wait
  for the executor or the caller, and which is no delay.
* `terminates_of_paced`: a run has a bounded length but for delays, and goes on up to its end.
-/

namespace BatchRun
namespace Run

namespace Task

/-- Number of steps of a task up to its end, or somewhat more. -/
def rank (limit : Nat) (task : Task) : Nat :=
  match task.phase with
  | .spawned => 6 * (limit - task.item.attempts) + 9
  | .throttled _ => 6 * (limit - task.item.attempts) + 8
  | .calling _ => 6 * (limit - task.item.attempts) + 7
  | .answered _ _ => 6 * (limit - task.item.attempts) + 6
  | .pausing _ => 6 * (limit - task.item.attempts) + 3
  | .rethrottled _ => 6 * (limit - task.item.attempts) + 2
  | .comparing _ => 5
  | .persisting => 4
  | .buffering => 3
  | .saving _ => 2
  | .finishing => 1

/-- Number of ticks up to the end of a wait. -/
def left (timeout clock : Nat) (task : Task) : Nat :=
  match task.phase with
  | .throttled due => due - clock
  | .calling since => tickAfter since timeout - clock
  | .pausing due => due - clock
  | .rethrottled due => due - clock
  | _ => 0

/-- Bound on the number of steps and ticks of a task; no wait has more than `farFuture` ticks. -/
def weight (settings : Settings) (clock : Nat) (task : Task) : Nat :=
  task.rank settings.retry.maxAttempts * (farFuture + 1) + task.left settings.itemTimeout clock

end Task

section Endings

variable {task : Task} {limit clock timeout : Nat}

theorem rank_of_isEnding
    (ending : task.phase.isEnding = true) :
    task.rank limit ≤ 4 := by
  unfold Task.rank
  cases hphase : task.phase with
  | persisting | buffering | saving _ | finishing => simp
  | _ => rw [hphase] at ending; cases ending

theorem left_of_isEnding
    (ending : task.phase.isEnding = true) :
    task.left timeout clock = 0 := by
  unfold Task.left
  cases hphase : task.phase with
  | throttled _ | calling _ | pausing _ | rethrottled _ => rw [hphase] at ending; cases ending
  | _ => rfl

end Endings

section Turns

variable {s : State} {task next : Task} {move : Move} {effect : Effect}

/-- Waits are bounded. -/
theorem left_of_goesOn
    (turn : Turn s task move effect)
    (h : effect.fate = .goesOn next) :
    next.left s.settings.itemTimeout s.clock ≤ farFuture := by
  cases turn with
  | turnsAway panic => cases panic <;> cases h
  | rejects | breaksAtStart | breaksInSample | breaksInRetry => cases h
  | waits | rewaits =>
      cases h
      exact Nat.sub_le_iff_le_add'.mpr (Wait.tick_le _ s.clock)
  | starts | recalls | recallsAfterWait | pauses =>
      cases h
      exact Nat.sub_le_iff_le_add'.mpr (tickAfter_le s.clock _)
  | answers | succeeds => cases h; exact Nat.zero_le _
  | fails | interrupts | completes =>
      cases h
      rw [left_of_isEnding (isEnding_endingPhase s _)]
      exact Nat.zero_le _
  | closes closing =>
      cases closing with
      | finishes panic => cases panic <;> cases h
      | _ => cases h; exact Nat.zero_le _

theorem rank_attempted
    (item : Item)
    (limit : Nat) :
    (s.attempted task item).rank limit = 6 * (limit - (item.attempts + 1)) + 7 :=
  rfl

/-- An interruption saves at least the steps of an item at its end. -/
theorem rank_of_interrupts
    {monitor : Option Monitor} {events : List Event}
    (paced : task.Paced s.settings.retry.maxAttempts s.clock)
    (stops : Interrupts s task move monitor events) :
    4 < task.rank s.settings.retry.maxAttempts := by
  cases stops with
  | inCall phase =>
      simp only [Task.rank, phase]
      omega
  | afterCall samples =>
      simp only [Task.rank, samples.phase]
      omega
  | inPause _ phase =>
      rcases phase with phase | phase
      all_goals
        have hattempts : task.item.attempts < s.settings.retry.maxAttempts := by
          simpa only [Task.Paced, phase] using paced
        simp only [Task.rank, phase]
        omega

/-- A task that goes on comes closer to its end. -/
theorem rank_of_goesOn
    (paced : task.Paced s.settings.retry.maxAttempts s.clock)
    (turn : Turn s task move effect)
    (h : effect.fate = .goesOn next) :
    next.rank s.settings.retry.maxAttempts < task.rank s.settings.retry.maxAttempts := by
  cases turn with
  | turnsAway panic => cases panic <;> cases h
  | rejects | breaksAtStart | breaksInSample | breaksInRetry => cases h
  | waits _ phase =>
      cases h
      simp [Task.rank, phase]
  | starts admits start =>
      cases h
      obtain ⟨_, _, _, rfl⟩ := Item.start_eq_ok start
      rw [rank_attempted]
      cases admits with
      | atOnce phase | afterWait phase =>
          simp only [Task.rank, phase]
          omega
  | answers phase =>
      cases h
      simp [Task.rank, phase]
  | succeeds _ samples =>
      cases h
      simp [Task.rank, samples.phase]
  | fails _ samples =>
      cases h
      refine Nat.lt_of_le_of_lt (rank_of_isEnding (isEnding_endingPhase s _)) ?_
      simp only [Task.rank, samples.phase]
      omega
  | pauses samples =>
      cases h
      simp [Task.rank, samples.phase]
  | rewaits _ retries =>
      cases h
      cases retries with
      | atOnce samples => simp [Task.rank, samples.phase]
      | afterPause phase => simp [Task.rank, phase]
  | recalls _ retries =>
      cases h
      have hattempts := attempts_lt_of_retries paced retries
      rw [rank_attempted]
      cases retries with
      | atOnce samples =>
          simp only [Task.rank, samples.phase]
          omega
      | afterPause phase =>
          simp only [Task.rank, phase]
          omega
  | recallsAfterWait _ phase =>
      cases h
      have hattempts : task.item.attempts < s.settings.retry.maxAttempts := by
        simpa only [Task.Paced, phase] using paced
      rw [rank_attempted]
      simp only [Task.rank, phase]
      omega
  | interrupts stops =>
      cases h
      exact Nat.lt_of_le_of_lt (rank_of_isEnding (isEnding_endingPhase s _))
        (rank_of_interrupts paced stops)
  | completes _ phase =>
      cases h
      refine Nat.lt_of_le_of_lt (rank_of_isEnding (isEnding_endingPhase s _)) ?_
      simp [Task.rank, phase]
  | closes closing =>
      cases closing with
      | finishes panic => cases panic <;> cases h
      | persists _ phase | persistsNot _ phase | passes _ phase | buffers _ phase
      | flushes _ phase | saves phase | savesNot _ phase =>
          cases h
          simp [Task.rank, phase]

end Turns

/-- Bound on the steps and ticks of an item that was not dispatched yet. -/
def Settings.load (settings : Settings) (item : Item) : Nat :=
  (6 * (settings.retry.maxAttempts - item.attempts) + 10) * (farFuture + 1)

/-- Number of steps of the dispatcher after the last task. -/
def Stage.rank : Stage → Nat
  | dispatching => 2
  | flushing _ => 1
  | returned _ => 0
  | unwound => 0

/-- Bound on the number of steps that can follow. -/
def State.weight (s : State) : Nat :=
  (s.tasks.map (Task.weight s.settings s.clock)).sum
    + (s.waiting.map (Settings.load s.settings)).sum + (1 - s.held) + s.stage.rank

section Weights

variable {s t : State} {action : Action}

/-- A step of a task changes only its own part of a sum over all tasks. -/
theorem sum_tasks
    {old : List Task} {task : Task}
    (f : Task → Nat)
    (fate : Fate)
    (distinct : (old.map Task.number).Nodup)
    (htask : task ∈ old) :
    ((fate.tasks task.number old).map f).sum + f task
      = (fate.gather fun next => [f next]).sum + (old.map f).sum := by
  obtain ⟨rest, hbefore, hafter⟩ := flatMap_tasks (fun task => [f task]) fate distinct htask
  have hbefore := hbefore.sum_nat
  have hafter := hafter.sum_nat
  rw [← List.map_eq_flatMap] at hbefore hafter
  rw [List.sum_append] at hbefore hafter
  simp only [List.sum_singleton] at hbefore
  omega

/-- A task that goes on becomes lighter: its rank falls by one at least, which outweighs any
wait. -/
theorem weight_of_goesOn
    {task next : Task} {move : Move} {effect : Effect}
    (paced : task.Paced s.settings.retry.maxAttempts s.clock)
    (turn : Turn s task move effect)
    (h : effect.fate = .goesOn next) :
    next.weight s.settings s.clock < task.weight s.settings s.clock := by
  have hrank := rank_of_goesOn paced turn h
  have hleft := left_of_goesOn turn h
  -- One rank is worth `farFuture + 1`, which is more than the ticks of any wait.
  have hmul := Nat.mul_le_mul_right (farFuture + 1) (Nat.succ_le_of_lt hrank)
  rw [Nat.succ_mul] at hmul
  unfold Task.weight
  omega

theorem weight_pos
    (settings : Settings)
    (clock : Nat)
    (task : Task) :
    0 < task.weight settings clock := by
  have hrank : 1 ≤ task.rank settings.retry.maxAttempts := by
    unfold Task.rank
    cases task.phase <;> simp
  have hmul := Nat.mul_le_mul_right (farFuture + 1) hrank
  unfold Task.weight
  omega

/-- A step of a task makes all tasks together lighter. -/
theorem weights_of_turn
    {task : Task} {move : Move} {effect : Effect}
    (paced : s.Paced)
    (htask : task ∈ s.tasks)
    (turn : Turn s task move effect) :
    ((effect.fate.tasks task.number s.tasks).map (Task.weight s.settings s.clock)).sum
      < (s.tasks.map (Task.weight s.settings s.clock)).sum := by
  have hsum :=
    sum_tasks (Task.weight s.settings s.clock) effect.fate paced.numbered.distinct htask
  have hpos := weight_pos s.settings s.clock task
  cases hfate : effect.fate with
  | goesOn next =>
      have hlt := weight_of_goesOn (paced.tasks task htask) turn hfate
      rw [hfate] at hsum
      simp only [Fate.gather, List.sum_singleton] at hsum
      omega
  | files _ | loses =>
      rw [hfate] at hsum
      simp only [Fate.gather, List.sum_nil] at hsum
      omega

/-- A dispatcher that is blocked before all items are finished waits for a task. -/
theorem tasks_ne_nil
    (paced : s.Paced)
    (stage : s.stage = .dispatching)
    (blocked : s.isDispatchBlocked = true) :
    s.tasks ≠ [] := by
  intro hnone
  have hbalances := paced.balances (by simp [stage])
  have hslots := paced.slots
  unfold State.isDispatchBlocked at blocked
  cases hwaiting : s.waiting with
  | nil => simp [stage, hwaiting, hnone] at blocked
  | cons item rest =>
      cases hmode : s.settings.mode with
      | sequential => simp [stage, hwaiting, hmode, hnone] at blocked
      | parallel =>
          obtain ⟨hfree, hempty⟩ : s.free = 0 ∧ s.holding = false := by
            simp [stage, hwaiting, hmode] at blocked
            exact ⟨blocked.1.2, blocked.2⟩
          simp [State.Balances, State.held, hfree, hempty, hnone] at hbalances
          omega

/-- A wait goes on for as long as nothing happens to a task by itself, or longer. -/
theorem left_of_due
    {task : Task} {due : Nat}
    (hdue : s.due? task = some due) :
    ∃ last, due ≤ last ∧ ∀ clock, task.left s.settings.itemTimeout clock = last - clock := by
  unfold Task.left
  cases hphase : task.phase with
  | calling since => exact ⟨_, due_of_calling hphase hdue, fun _ => rfl⟩
  | throttled | pausing | rethrottled =>
      simp only [State.due?, hphase] at hdue
      split at hdue
      case isTrue => cases hdue
      case isFalse =>
          cases hdue
          exact ⟨_, Nat.le_refl _, fun _ => rfl⟩
  | _ => simp [State.due?, hphase] at hdue

/-- Time that passes makes every task lighter that does not wait for the files. -/
theorem weight_of_canAdvance
    {target : Nat} {task : Task}
    (free : s.canAdvance target = true)
    (htask : task ∈ s.tasks)
    (idle : task.phase.isWriting = false) :
    task.weight s.settings target < task.weight s.settings s.clock := by
  obtain ⟨due, hdue, htarget⟩ := due_of_canAdvance free htask idle
  obtain ⟨last, hlast, hleft⟩ := left_of_due hdue
  have hlater : s.clock < target := by
    simp only [State.canAdvance, Bool.and_eq_true, decide_eq_true_eq] at free
    exact free.1.1
  unfold Task.weight
  rw [hleft, hleft]
  omega

theorem weight_of_isWriting
    {settings : Settings} {task : Task}
    (writing : task.phase.isWriting = true)
    (target clock : Nat) :
    task.weight settings target = task.weight settings clock := by
  have hleft : ∀ now, task.left settings.itemTimeout now = 0 := by
    intro now
    unfold Task.left
    cases hphase : task.phase with
    | throttled | calling | pausing | rethrottled => rw [hphase] at writing; cases writing
    | _ => rfl
  unfold Task.weight
  rw [hleft, hleft]

/-- Time that passes makes no task heavier. -/
theorem weight_le_of_canAdvance
    {target : Nat} {task : Task}
    (free : s.canAdvance target = true)
    (htask : task ∈ s.tasks) :
    task.weight s.settings target ≤ task.weight s.settings s.clock := by
  cases hwriting : task.phase.isWriting with
  | true => exact Nat.le_of_eq (weight_of_isWriting hwriting target s.clock)
  | false => exact Nat.le_of_lt (weight_of_canAdvance free htask hwriting)

theorem load_pos
    (settings : Settings)
    (item : Item) :
    0 < Settings.load settings item :=
  Nat.mul_pos (Nat.succ_pos _) (Nat.succ_pos _)

theorem rank_of_ends
    {last : Stage}
    (ends : Ends s last) :
    last.rank = 0 := by
  cases ends <;> rfl

/-- Whether a step is time that passes while nothing is awaited but the files. -/
def State.isDelay (s : State) : Action → Bool
  | .advance _ => s.tasks.all fun task => task.phase.isWriting
  | _ => false

/-- A delay does not raise the weight. -/
theorem weight_le_of_isDelay
    (h : Transition s action t)
    (delay : s.isDelay action = true) :
    t.weight ≤ s.weight := by
  cases h with
  | @advances target free =>
      have hsum : (s.tasks.map (Task.weight s.settings target)).sum ≤
          (s.tasks.map (Task.weight s.settings s.clock)).sum :=
        List.sum_le_sum fun task htask => weight_le_of_canAdvance free htask
      simp only [State.weight, State.settings, State.held] at hsum ⊢
      omega
  | _ => cases delay

/-- A step lowers the weight, unless the caller takes it or the files delay it. -/
theorem weight_lt_of_transition
    (h : Transition s action t)
    (paced : s.Paced)
    (own : action ≠ .cancel)
    (prompt : s.isDelay action = false) :
    t.weight < s.weight := by
  cases h with
  | cancels => exact absurd rfl own
  | @advances target free =>
      obtain ⟨task, htask, hidle⟩ : ∃ task ∈ s.tasks, task.phase.isWriting = false := by
        simpa [State.isDelay] using prompt
      have hsum := List.sum_lt_sum (Task.weight s.settings target)
        (Task.weight s.settings s.clock) (fun task htask => weight_le_of_canAdvance free htask)
        ⟨task, htask, weight_of_canAdvance free htask hidle⟩
      simp only [State.weight, State.settings, State.held] at hsum ⊢
      omega
  | @skips item rest _ stage waiting =>
      have hpos := load_pos s.settings item
      simp only [State.weight, State.settings, State.held, State.seen, State.faulted, waiting,
        List.map_cons, List.sum_cons] at hpos ⊢
      omega
  | @breaksInSkip item rest _ _ stage waiting =>
      have hpos := load_pos s.settings item
      simp only [State.weight, State.settings, State.held, State.seen, State.faulted, waiting,
        stage, Stage.rank, List.map_cons, List.sum_cons, List.map_nil, List.sum_nil] at hpos ⊢
      omega
  | takesPermit stage waiting running idle empty free =>
      simp only [State.weight, State.settings, State.held, empty]
      simp
  | @spawns item rest stage waiting holds =>
      have hnew : Task.weight s.settings s.clock { number := s.dispatched, item }
          + (farFuture + 1) = Settings.load s.settings item := by
        simp only [Task.weight, Task.rank, Task.left, Settings.load]
        rw [Nat.add_zero, ← Nat.succ_mul]
      have hfar : 1 ≤ farFuture := by decide
      simp only [State.settings] at hnew
      simp only [State.weight, State.settings, State.held, holds, waiting, List.map_append,
        List.sum_append, List.map_cons, List.sum_cons, List.map_nil, List.sum_nil,
        Bool.false_eq_true, if_false, if_true]
      omega
  | flushes stage waiting tasks =>
      simp only [State.weight, State.settings, State.held, stage]
      simp [Stage.rank]
  | leaves fault stage ends =>
      simp only [State.weight, State.settings, State.held, stage, rank_of_ends ends]
      simp [Stage.rank]
  | closes stage full ends =>
      simp only [State.weight, State.settings, State.held, State.seen, stage, rank_of_ends ends]
      simp [Stage.rank]
  | closesNot fault stage full ends =>
      simp only [State.weight, State.settings, State.held, State.faulted, stage,
        rank_of_ends ends]
      simp [Stage.rank]
  | @turns task move effect live found turn =>
      have hsum := weights_of_turn paced (mem_of_task? found).1 turn
      show ((effect.fate.tasks task.number s.tasks).map (Task.weight s.settings s.clock)).sum
        + (s.waiting.map (Settings.load s.settings)).sum + (1 - s.held) + s.stage.rank < s.weight
      unfold State.weight
      omega

end Weights

/-- Steps of a task for which nothing outside goes wrong, and which need no reply. -/
def easyMoves : List Move := [.resume none, .persist (.ok ""), .save none]

/-- Steps of the dispatcher for which nothing outside goes wrong. -/
def easyActions : List Action := [.skipNext none, .takePermit, .spawn, .flush, .close none]

/-- Whether a step needs neither the executor nor the caller. -/
def Action.isOwn : Action → Bool
  | cancel => false
  | task _ (.reply _) => false
  | _ => true

section Steps

variable {s : State} {task : Task}

theorem task?_of_mem
    (numbered : Numbered s)
    (htask : task ∈ s.tasks) :
    s.task? task.number = some task := by
  unfold State.task?
  cases hfind : s.tasks.find? (fun other => other.number == task.number) with
  | none =>
      have hnone := List.find?_eq_none.mp hfind task htask
      simp at hnone
  | some other =>
      obtain ⟨hother, hnumber⟩ := mem_of_task? hfind
      rw [eq_of_number numbered.distinct htask hother hnumber]

theorem step_of_move
    {move : Move}
    (live : s.stage.isLive = true)
    (found : s.task? task.number = some task)
    (h : (s.move? task move).isSome = true) :
    (s.step? (.task task.number move)).isSome = true := by
  unfold State.step?
  cases hstage : s.stage with
  | dispatching | flushing _ => simpa [found] using h
  | returned _ | unwound =>
      rw [hstage] at live
      cases live

theorem step_of_easyActions
    {action : Action}
    (live : s.stage.isLive = true)
    (easy : action ∈ easyActions)
    (h : (s.dispatch? action).isSome = true) :
    (s.step? action).isSome = true := by
  unfold State.step?
  cases hstage : s.stage with
  | dispatching | flushing _ =>
      simp only [easyActions, List.mem_cons, List.not_mem_nil, or_false] at easy
      rcases easy with rfl | rfl | rfl | rfl | rfl <;> exact h
  | returned _ | unwound =>
      rw [hstage] at live
      cases live

/-- A task that is not in a call goes on, or waits for a later tick. -/
theorem easyMoves_or_waits
    (s : State)
    (between : ∀ since, task.phase ≠ .calling since) :
    (∃ move ∈ easyMoves, (s.move? task move).isSome = true) ∨
      ∃ due, s.due? task = some due ∧ s.clock < due := by
  cases hphase : task.phase with
  | calling since => exact absurd hphase (between since)
  | spawned =>
      refine .inl ⟨.resume none, by simp [easyMoves], ?_⟩
      cases hstop : s.stopped <;> simp [State.move?, hphase, hstop]
  | throttled due =>
      by_cases hgoes : s.stopped = true ∨ due ≤ s.clock
      · refine .inl ⟨.resume none, by simp [easyMoves], ?_⟩
        cases hstop : s.stopped with
        | true => simp [State.move?, hphase, hstop]
        | false =>
            have hcome := hgoes.resolve_left (by simp [hstop])
            simp [State.move?, hphase, hstop, State.hasCome, hcome]
      · have hstays := not_or.mp hgoes
        exact .inr ⟨due, by simp [State.due?, hphase, hstays.1], Nat.lt_of_not_le hstays.2⟩
  | pausing due | rethrottled due =>
      by_cases hgoes : s.isHalted = true ∨ due ≤ s.clock
      · refine .inl ⟨.resume none, by simp [easyMoves], ?_⟩
        cases hhalt : s.isHalted with
        | true => simp [State.move?, hphase, hhalt]
        | false =>
            have hcome := hgoes.resolve_left (by simp [hhalt])
            simp [State.move?, hphase, hhalt, State.hasCome, hcome]
      · have hstays := not_or.mp hgoes
        exact .inr ⟨due, by simp [State.due?, hphase, hstays.1], Nat.lt_of_not_le hstays.2⟩
  | persisting => exact .inl ⟨.persist (.ok ""), by simp [easyMoves], by simp [State.move?, hphase]⟩
  | saving => exact .inl ⟨.save none, by simp [easyMoves], by simp [State.move?, hphase]⟩
  | answered | comparing | buffering | finishing =>
      exact .inl ⟨.resume none, by simp [easyMoves], by simp [State.move?, hphase]⟩

/-- A call without a reply is ended in time. -/
theorem ends_or_waits
    {since : Nat}
    (s : State)
    (phase : task.phase = .calling since) :
    (∃ move ∈ [Move.expire, Move.giveUp], (s.move? task move).isSome = true) ∨
      ∃ due, s.due? task = some due ∧ s.clock < due := by
  by_cases hexpired : s.timeoutTick since ≤ s.clock
  · exact .inl ⟨.expire, by simp, by simp [State.move?, phase, State.hasCome, hexpired]⟩
  · have hearly := Nat.lt_of_not_le hexpired
    cases hgrace : s.graceTick? since with
    | none => exact .inr ⟨_, by simp [State.due?, phase, hgrace], hearly⟩
    | some grace =>
        by_cases hover : grace ≤ s.clock
        · exact .inl ⟨.giveUp, by simp, by simp [State.move?, phase, hgrace, State.hasCome, hover]⟩
        · refine .inr ⟨min (s.timeoutTick since) grace, by simp [State.due?, phase, hgrace], ?_⟩
          omega

/-- A task goes on without a reply, or waits for a later tick. -/
theorem moves_or_waits
    (s : State)
    (task : Task) :
    (∃ move, (Action.task task.number move).isOwn = true ∧ (s.move? task move).isSome = true) ∨
      ∃ due, s.due? task = some due ∧ s.clock < due := by
  by_cases hcalling : ∃ since, task.phase = .calling since
  · obtain ⟨since, hphase⟩ := hcalling
    refine (ends_or_waits s hphase).imp_left ?_
    rintro ⟨move, hmove, hpossible⟩
    refine ⟨move, ?_, hpossible⟩
    simp only [List.mem_cons, List.not_mem_nil, or_false] at hmove
    rcases hmove with rfl | rfl <;> rfl
  · refine (easyMoves_or_waits s (not_exists.mp hcalling)).imp_left ?_
    rintro ⟨move, hmove, hpossible⟩
    refine ⟨move, ?_, hpossible⟩
    simp only [easyMoves, List.mem_cons, List.not_mem_nil, or_false] at hmove
    rcases hmove with rfl | rfl | rfl <;> rfl

/-- With one item at a time and no task, a permit is free. -/
theorem free_of_idle
    (paced : s.Paced)
    (stage : s.stage = .dispatching)
    (empty : s.holding = false)
    (idle : s.tasks = []) :
    s.free ≠ 0 := by
  have hbalances := paced.balances (by simp [stage])
  have hslots := paced.slots
  simp only [State.Balances, State.held, empty, idle] at hbalances
  simp at hbalances
  omega

/-- The dispatcher goes on, or waits for a task. -/
theorem dispatches_or_blocked
    (paced : s.Paced)
    (live : s.stage.isLive = true) :
    (∃ action ∈ easyActions, (s.dispatch? action).isSome = true) ∨
      s.stage = .dispatching ∧ s.isDispatchBlocked = true := by
  cases hstage : s.stage with
  | returned _ | unwound =>
      rw [hstage] at live
      cases live
  | flushing batch =>
      refine .inl ⟨.close none, by simp [easyActions], ?_⟩
      simp only [State.dispatch?, hstage]
      split <;> rfl
  | dispatching =>
      cases hwaiting : s.waiting with
      | nil =>
          cases htasks : s.tasks with
          | nil =>
              refine .inl ⟨.flush, by simp [easyActions], ?_⟩
              simp [State.dispatch?, hstage, hwaiting, htasks]
          | cons task rest =>
              refine .inr ⟨rfl, ?_⟩
              simp [State.isDispatchBlocked, hstage, hwaiting, htasks]
      | cons item rest =>
          cases hholds : s.holding with
          | true =>
              refine .inl ⟨.spawn, by simp [easyActions], ?_⟩
              simp [State.dispatch?, hstage, hwaiting, hholds]
          | false =>
              by_cases hskips : s.stopped = true ∧ s.canDispatch = true
              · refine .inl ⟨.skipNext none, by simp [easyActions], ?_⟩
                simp [State.dispatch?, hstage, hwaiting, hholds, hskips]
              by_cases htakes : s.stopped = false ∧ s.canDispatch = true ∧ s.free ≠ 0
              · refine .inl ⟨.takePermit, by simp [easyActions], ?_⟩
                simp [State.dispatch?, hstage, hwaiting, hholds, htakes]
              refine .inr ⟨rfl, ?_⟩
              simp only [State.isDispatchBlocked, hstage, hwaiting]
              cases hmode : s.settings.mode with
              | parallel =>
                  have hcan : s.canDispatch = true := by simp [State.canDispatch, hmode]
                  simp only [hcan] at hskips htakes
                  cases hstop : s.stopped <;> simp_all
              | sequential =>
                  cases htasks : s.tasks with
                  | cons task others => rfl
                  | nil =>
                      have hcan : s.canDispatch = true := by
                        simp [State.canDispatch, hmode, htasks]
                      have hfree := free_of_idle paced hstage hholds htasks
                      cases hstop : s.stopped with
                      | true => exact absurd ⟨hstop, hcan⟩ hskips
                      | false => exact absurd ⟨hstop, hcan, hfree⟩ htakes

/-- Where everybody waits, time passes. -/
theorem step_of_waits
    (live : s.stage.isLive = true)
    (blocked : s.isDispatchBlocked = true)
    (waits : ∀ task ∈ s.tasks, ∃ due, s.due? task = some due ∧ s.clock < due) :
    (s.step? (.advance (s.clock + 1))).isSome = true := by
  have hfree : s.canAdvance (s.clock + 1) = true := by
    simp only [State.canAdvance, Bool.and_eq_true, decide_eq_true_eq]
    refine ⟨⟨Nat.lt_succ_self s.clock, blocked⟩, List.all_eq_true.mpr fun task htask => ?_⟩
    obtain ⟨due, hdue, hlater⟩ := waits task htask
    simp only [hdue, Bool.or_eq_true]
    exact .inr (decide_eq_true hlater)
  cases hstage : s.stage with
  | dispatching | flushing _ => simp [State.step?, hstage, hfree]
  | returned _ | unwound =>
      rw [hstage] at live
      cases live

theorem isWriting_of_due
    {due : Nat}
    (hdue : s.due? task = some due) :
    task.phase.isWriting = false := by
  unfold State.due? at hdue
  cases hphase : task.phase with
  | persisting | saving _ => rw [hphase] at hdue; cases hdue
  | _ => rfl

/-- Where the dispatcher waits for tasks that wait for a tick, time that passes is no delay. -/
theorem isDelay_of_waits
    (paced : s.Paced)
    (stage : s.stage = .dispatching)
    (blocked : s.isDispatchBlocked = true)
    (waits : ∀ task ∈ s.tasks, ∃ due, s.due? task = some due ∧ s.clock < due)
    (target : Nat) :
    s.isDelay (.advance target) = false := by
  obtain ⟨task, htask⟩ := List.exists_mem_of_ne_nil _ (tasks_ne_nil paced stage blocked)
  obtain ⟨due, hdue, -⟩ := waits task htask
  refine Bool.eq_false_iff.mpr fun hall => ?_
  have hwriting := List.all_eq_true.mp hall task htask
  rw [isWriting_of_due hdue] at hwriting
  cases hwriting

/-- As long as a run has not ended, a step is possible that needs neither the executor nor the
caller, and is no delay. -/
theorem step_of_paced
    (paced : s.Paced)
    (live : s.stage.isLive = true) :
    ∃ action, action.isOwn = true ∧ s.isDelay action = false ∧
      (s.step? action).isSome = true := by
  -- Time passes only where every task waits.  Otherwise one that does not wait goes on.
  by_cases hwaits : ∀ task ∈ s.tasks, ∃ due, s.due? task = some due ∧ s.clock < due
  · rcases dispatches_or_blocked paced live with ⟨action, heasy, hpossible⟩ | ⟨hstage, hblocked⟩
    · have hstep := step_of_easyActions live heasy hpossible
      simp only [easyActions, List.mem_cons, List.not_mem_nil, or_false] at heasy
      rcases heasy with rfl | rfl | rfl | rfl | rfl <;> exact ⟨_, rfl, rfl, hstep⟩
    · exact ⟨.advance (s.clock + 1), rfl, isDelay_of_waits paced hstage hblocked hwaits _,
        step_of_waits live hblocked hwaits⟩
  · obtain ⟨task, htask, hready⟩ : ∃ task ∈ s.tasks,
        ¬ ∃ due, s.due? task = some due ∧ s.clock < due := by
      simpa using hwaits
    obtain ⟨move, hown, hmove⟩ := (moves_or_waits s task).resolve_right hready
    exact ⟨.task task.number move, hown, rfl,
      step_of_move live (task?_of_mem paced.numbered htask) hmove⟩

end Steps

/-- Whether the caller cancels the run. -/
def Action.isCancel : Action → Bool
  | cancel => true
  | _ => false

/-- Number of delays along a list of actions. -/
def State.delays (s : State) : List Action → Nat
  | [] => 0
  | action :: actions =>
    (if s.isDelay action then 1 else 0) +
      match s.step? action with
      | some next => next.delays actions
      | none => 0

/-- A run has a bounded length, but for repeated cancellations and for delays of the files, and
goes on up to its end even if the executor never replies. -/
structure Terminates (first : State) : Prop where
  bounded : ∃ bound, ∀ actions last, first.follow? actions = some last →
    actions.countP (fun action => !action.isCancel) ≤ bound + first.delays actions
  proceeds : ∀ last, Reaches first last → last.stage.isLive = true →
    ∃ action, action.isOwn = true ∧ last.isDelay action = false ∧
      (last.step? action).isSome = true

section Ends

variable {first last : State} {actions : List Action}

theorem weight_of_follow?
    (paced : first.Paced)
    (run : first.follow? actions = some last) :
    actions.countP (fun action => !action.isCancel) + last.weight ≤
      first.weight + first.delays actions := by
  induction actions generalizing first with
  | nil =>
      cases run
      simp
  | cons action actions ih =>
      simp only [State.follow?] at run
      split at run
      case h_1 next hstep =>
          have transition := transition_of_step? hstep
          have hrest := ih (paced_of_transition transition paced) run
          simp only [State.delays, hstep, List.countP_cons]
          cases hcancel : action.isCancel with
          | true =>
              cases action <;> cases hcancel
              have hweight : next.weight = first.weight := by
                cases transition
                rfl
              simp only [Bool.not_true, Bool.false_eq_true, if_false]
              omega
          | false =>
              simp only [Bool.not_false, if_true]
              cases hdelay : first.isDelay action with
              | true =>
                  have hle := weight_le_of_isDelay transition hdelay
                  simp only [if_true]
                  omega
              | false =>
                  have hlt := weight_lt_of_transition transition paced
                    (by rintro rfl; cases hcancel) hdelay
                  simp only [Bool.false_eq_true, if_false]
                  omega
      case h_2 =>
          cases run

/-- Every run comes to its end. -/
theorem terminates_of_paced
    (paced : first.Paced) :
    Terminates first where
  bounded := by
    refine ⟨first.weight, fun actions last run => ?_⟩
    have hweight := weight_of_follow? paced run
    omega
  proceeds _ run live := step_of_paced (paced_of_reaches run paced) live

end Ends

end Run
end BatchRun
