import BatchRun.Proofs.Run.Metering
import BatchRun.Proofs.Run.Observers

/-!
# Items and their tasks

Which calls were made for an item: those of the task that has its number.

**Types.**
An `Account` is an item as it came, with its number, its course and the place where it is now.
`callOutcomes` are what the calls of a task have come to, and `outcomesIn` what is seen of them in a
course.

**Invariant.**
Accounts have the numbers of their items in the order of dispatch, which are those of their tasks,
and their courses have the outcomes of the calls of these tasks (`Assigned`).

**Results.**
* `outcomes_of_turn`: a call that ends has its outcome, and what is judged is seen.
* `Assigned.keep`, `Assigned.open`, `Assigned.turn`: each kind of step keeps the assignment.
-/

namespace BatchRun
namespace Run

/-- The outcome of an attempt that is judged. -/
def Event.judged? : Event → Option (Except AttemptFailure Json)
  | sampled _ outcome _ => some outcome
  | _ => none

/-- Outcomes of the attempts that are judged, the first one first. -/
def outcomesIn (course : List (Nat × Event)) : List (Except AttemptFailure Json) :=
  course.filterMap fun entry => entry.2.judged?

/-- What a call comes to if a move ends it. -/
def Move.outcome? (timeout : Nat) : Move → Option (Except AttemptFailure Json)
  | reply answer => some answer.outcome
  | expire => some (.error (.deadlineExceeded timeout))
  | _ => none

/-- What a call of a task comes to if an action ends it. -/
def Action.outcome? (timeout number : Nat) : Action → Option (Except AttemptFailure Json)
  | task other move => if other = number then move.outcome? timeout else none
  | _ => none

/-- What the calls of a task have come to in some actions, the first call first. -/
def callOutcomes (timeout number : Nat) (actions : List Action) :
    List (Except AttemptFailure Json) :=
  actions.filterMap fun action => action.outcome? timeout number

/-- The outcome of a call that has ended and is still to be judged. -/
def Task.unjudged (task : Task) : List (Except AttemptFailure Json) :=
  match task.phase with
  | .answered outcome _ => [outcome]
  | _ => []

/-- Where an item is that a run has taken. -/
inductive Whereabouts where
  | underway (task : Task)
  | done (item : Item)
  /-- Nowhere: the sample of its last attempt could not be kept. -/
  | lost

/-- An item as it came, where it is now, and what happened for it. -/
structure Account where
  input : Item
  /-- Place in the order of dispatch. -/
  number : Nat
  place : Whereabouts
  course : List (Nat × Event)

namespace Whereabouts

/-- The task of an item. -/
def tasks : Whereabouts → List Task
  | underway task => [task]
  | _ => []

/-- An item that is finished. -/
def items : Whereabouts → List Item
  | done item => [item]
  | _ => []

/-- Outcomes of the calls for an item that were not judged: that of a call that has just ended, or
the one whose sample could not be kept. -/
def Unjudged (rest : List (Except AttemptFailure Json)) : Whereabouts → Prop
  | underway task => rest = task.unjudged
  | done _ => rest = []
  | lost => ∃ outcome, rest = [outcome]

end Whereabouts

/-- Where an item is after a step of its task. -/
def Fate.place : Fate → Whereabouts
  | goesOn task => .underway task
  | files item => .done item
  | loses => .lost

/-- The outcomes in the course of an account are those of the calls of its task. -/
def Account.Answered (timeout : Nat) (actions : List Action) (account : Account) : Prop :=
  ∃ rest, account.place.Unjudged rest ∧
    outcomesIn account.course ++ rest = callOutcomes timeout account.number actions

section Outcomes

variable {s : State} {task : Task} {move : Move} {effect : Effect} {events : List Event}

theorem outcomesIn_append
    (course more : List (Nat × Event)) :
    outcomesIn (course ++ more) = outcomesIn course ++ outcomesIn more :=
  List.filterMap_append

/-- Events that judge nothing add no outcome. -/
theorem outcomesIn_quiet
    {more : List Event}
    (events : List Event)
    (quiet : outcomesIn (s.timed more) = []) :
    outcomesIn (s.timed (events ++ more)) = outcomesIn (s.timed events) := by
  rw [timed_append, outcomesIn_append, quiet, List.append_nil]

theorem callOutcomes_concat
    (timeout number : Nat)
    (past : List Action)
    (action : Action) :
    callOutcomes timeout number (past ++ [action]) =
      callOutcomes timeout number past ++ (action.outcome? timeout number).toList := by
  unfold callOutcomes
  rw [List.filterMap_append]
  cases h : action.outcome? timeout number <;> simp [h]

theorem unjudged_of_isEnding
    (ending : task.phase.isEnding = true) :
    task.unjudged = [] := by
  unfold Task.unjudged
  cases hphase : task.phase with
  | answered => rw [hphase] at ending; cases ending
  | _ => rfl

theorem unjudged_of_samples
    {outcome : Except AttemptFailure Json} {latency : Nat} {monitor : Monitor}
    (samples : Samples s task outcome latency monitor) :
    task.unjudged = [outcome] := by
  rw [Task.unjudged, samples.phase]

theorem outcomes_of_admits
    {throttle : Option Throttle}
    (admits : Admits s task throttle events) :
    outcomesIn (s.timed events) = [] ∧ task.unjudged = [] := by
  cases admits with
  | atOnce phase | afterWait phase => exact ⟨rfl, by rw [Task.unjudged, phase]⟩

theorem outcomes_of_retries
    {monitor : Option Monitor}
    (retries : Retries s task monitor events) :
    outcomesIn (s.timed events) = task.unjudged := by
  cases retries with
  | atOnce samples => rw [unjudged_of_samples samples]; rfl
  | afterPause phase => rw [Task.unjudged, phase]; rfl

theorem outcomes_of_interrupts
    {monitor : Option Monitor}
    (stops : Interrupts s task move monitor events) :
    outcomesIn (s.timed events) = task.unjudged ∧
      move.outcome? s.settings.itemTimeout = none := by
  cases stops with
  | inCall phase => exact ⟨by rw [Task.unjudged, phase]; rfl, rfl⟩
  | inPause _ phase =>
      refine ⟨?_, rfl⟩
      rcases phase with phase | phase <;> rw [Task.unjudged, phase] <;> rfl
  | afterCall samples => exact ⟨by rw [unjudged_of_samples samples]; rfl, rfl⟩

/-- A call that ends has its outcome, and an outcome is seen when it is judged. -/
theorem outcomes_of_turn
    {number : Nat}
    (turn : Turn s task move effect)
    (silent : (Action.task number move).message? = none) :
    ∃ rest, effect.fate.place.Unjudged rest ∧
      outcomesIn (s.timed effect.events) ++ rest =
        task.unjudged ++ (move.outcome? s.settings.itemTimeout).toList := by
  cases turn with
  | turnsAway panic phase =>
      cases panic with
      | some message => cases silent
      | none =>
          refine ⟨[], rfl, ?_⟩
          rcases phase with phase | ⟨due, phase⟩ <;> rw [Task.unjudged, phase] <;> rfl
  | breaksAtStart | breaksInRetry => cases silent
  | waits _ phase | recallsAfterWait _ phase =>
      exact ⟨[], rfl, by rw [Task.unjudged, phase]; rfl⟩
  | rejects _ admits =>
      obtain ⟨hevents, htask⟩ := outcomes_of_admits admits
      exact ⟨[], rfl, by rw [hevents, htask]; rfl⟩
  | starts admits =>
      obtain ⟨hevents, htask⟩ := outcomes_of_admits admits
      exact ⟨[], rfl, by rw [outcomesIn_quiet _ rfl, hevents, htask]; rfl⟩
  | answers phase ends =>
      refine ⟨_, rfl, ?_⟩
      cases ends with
      | replied | expired => rw [Task.unjudged, Task.unjudged, phase]; rfl
  | breaksInSample _ phase => exact ⟨_, ⟨_, rfl⟩, by rw [Task.unjudged, phase]; rfl⟩
  | succeeds _ samples | pauses samples =>
      exact ⟨[], rfl, by rw [unjudged_of_samples samples]; rfl⟩
  | fails _ samples =>
      refine ⟨[], (unjudged_of_isEnding (isEnding_endingPhase s _)).symm, ?_⟩
      rw [unjudged_of_samples samples]
      rfl
  | rewaits _ retries | recalls _ retries =>
      exact ⟨[], rfl, by rw [outcomesIn_quiet _ rfl, outcomes_of_retries retries]; rfl⟩
  | interrupts stops =>
      obtain ⟨hevents, hmove⟩ := outcomes_of_interrupts stops
      refine ⟨[], (unjudged_of_isEnding (isEnding_endingPhase s _)).symm, ?_⟩
      rw [outcomesIn_quiet _ rfl, hevents, hmove]
      rfl
  | completes _ phase =>
      refine ⟨[], (unjudged_of_isEnding (isEnding_endingPhase s _)).symm, ?_⟩
      rw [Task.unjudged, phase]
      rfl
  | closes closing =>
      have hending := unjudged_of_isEnding (isEnding_of_closing closing)
      cases closing with
      | finishes panic =>
          cases panic with
          | some message => cases silent
          | none => exact ⟨[], rfl, by rw [hending]; rfl⟩
      | _ => exact ⟨[], rfl, by rw [hending]; rfl⟩

end Outcomes

/-- Accounts are numbered as their items were dispatched, and the outcomes in their courses are
those of the calls of the tasks with these numbers. -/
structure Assigned (first s : State) (past : List Action) (accounts : List Account) : Prop where
  numbers : (accounts.map Account.number).Perm (List.range accounts.length)
  inputs : ∀ account ∈ accounts, first.waiting[account.number]? = some account.input
  tasks : ∀ account ∈ accounts, ∀ task ∈ account.place.tasks, task.number = account.number
  outcomes : ∀ account ∈ accounts, account.Answered first.settings.itemTimeout past
  /-- The next item is the one with the next number. -/
  waiting : first.waiting.drop accounts.length = s.waiting
  dispatched : s.stopped = false ∨ s.holding = true → s.dispatched = accounts.length
  /-- No call was made for an item that was not taken. -/
  unused : ∀ number, accounts.length ≤ number →
    callOutcomes first.settings.itemTimeout number past = []

section Steps

variable {first s t : State} {action : Action} {past : List Action}
  {account : Account} {accounts others : List Account} {task : Task} {input : Item}
  {course : List (Nat × Event)}

/-- Where an item can still be dispatched, it could be before. -/
theorem going_of_transition
    (h : Transition s action t)
    (going : t.stopped = false ∨ t.holding = true) :
    s.stopped = false ∨ s.holding = true := by
  rcases going with running | holds
  · refine .inl (Bool.eq_false_iff.mpr fun stop => ?_)
    cases running.symm.trans (stopped_of_transition h stop)
  · cases h with
    | takesPermit _ _ running => exact .inl running
    | spawns => cases holds
    | _ => exact .inr holds

/-- No item was taken yet. -/
theorem assigned_nil
    (waiting : s.waiting = first.waiting)
    (dispatched : s.dispatched = 0) :
    Assigned first s [] [] where
  numbers := .refl _
  inputs _ h := absurd h List.not_mem_nil
  tasks _ h := absurd h List.not_mem_nil
  outcomes _ h := absurd h List.not_mem_nil
  waiting := waiting.symm
  dispatched _ := dispatched
  unused _ _ := rfl

theorem Assigned.of_perm
    (assigned : Assigned first s past accounts)
    (perm : accounts.Perm others) :
    Assigned first s past others where
  numbers := perm.length_eq ▸ (perm.map Account.number).symm.trans assigned.numbers
  inputs account haccount := assigned.inputs account (perm.mem_iff.mpr haccount)
  tasks account haccount := assigned.tasks account (perm.mem_iff.mpr haccount)
  outcomes account haccount := assigned.outcomes account (perm.mem_iff.mpr haccount)
  waiting := perm.length_eq ▸ assigned.waiting
  dispatched := perm.length_eq ▸ assigned.dispatched
  unused := perm.length_eq ▸ assigned.unused

/-- The numbers of accounts that were opened are below that of the next one. -/
theorem Assigned.number_lt
    (assigned : Assigned first s past accounts)
    (haccount : account ∈ accounts) :
    account.number < accounts.length :=
  List.mem_range.mp (assigned.numbers.mem_iff.mp (List.mem_map_of_mem haccount))

/-- An action of a task ends no call of another one. -/
theorem outcome?_of_ne
    {move : Move} {timeout number other : Nat}
    (h : number ≠ other) :
    (Action.task number move).outcome? timeout other = none :=
  if_neg h

theorem callOutcomes_other
    {timeout number : Nat}
    (other : action.outcome? timeout number = none) :
    callOutcomes timeout number (past ++ [action]) = callOutcomes timeout number past := by
  rw [callOutcomes_concat, other, Option.toList_none, List.append_nil]

/-- A step that takes up no item and ends no call leaves the accounts as they are. -/
theorem Assigned.keep
    (assigned : Assigned first s past accounts)
    (h : Transition s action t)
    (idle : ∀ timeout number, action.outcome? timeout number = none)
    (waiting : t.waiting = s.waiting)
    (dispatched : t.dispatched = s.dispatched) :
    Assigned first t (past ++ [action]) accounts where
  numbers := assigned.numbers
  inputs := assigned.inputs
  tasks := assigned.tasks
  outcomes account haccount := by
    rw [Account.Answered, callOutcomes_other (idle _ _)]
    exact assigned.outcomes account haccount
  waiting := waiting ▸ assigned.waiting
  dispatched going := dispatched.trans (assigned.dispatched (going_of_transition h going))
  unused number fresh := (callOutcomes_other (idle _ _)).trans (assigned.unused number fresh)

/-- A step that takes up an item opens an account with the next number. -/
theorem Assigned.open
    {place : Whereabouts}
    (assigned : Assigned first s past accounts)
    (idle : ∀ timeout number, action.outcome? timeout number = none)
    (waiting : s.waiting = input :: t.waiting)
    (numbered : ∀ task ∈ place.tasks, task.number = accounts.length)
    (unjudged : place.Unjudged [])
    (dispatched : t.stopped = false ∨ t.holding = true → t.dispatched = accounts.length + 1) :
    Assigned first t (past ++ [action]) (⟨input, accounts.length, place, []⟩ :: accounts) where
  numbers := by
    rw [List.map_cons, List.length_cons, List.range_succ]
    exact (assigned.numbers.cons _).trans (List.perm_append_singleton _ _).symm
  inputs account haccount := by
    rcases List.mem_cons.mp haccount with rfl | hold
    · rw [← List.head?_drop, assigned.waiting, waiting]
      rfl
    · exact assigned.inputs account hold
  tasks account haccount := by
    rcases List.mem_cons.mp haccount with rfl | hold
    · exact numbered
    · exact assigned.tasks account hold
  outcomes account haccount := by
    rw [Account.Answered, callOutcomes_other (idle _ _)]
    rcases List.mem_cons.mp haccount with rfl | hold
    · exact ⟨[], unjudged, (assigned.unused accounts.length (Nat.le_refl _)).symm⟩
    · exact assigned.outcomes account hold
  waiting := by
    rw [List.length_cons, ← List.tail_drop, assigned.waiting, waiting]
    rfl
  dispatched := dispatched
  unused number fresh :=
    (callOutcomes_other (idle _ _)).trans (assigned.unused number (Nat.le_of_succ_le fresh))

/-- A step of a task changes the account with its number alone. -/
theorem Assigned.turn
    {move : Move} {effect : Effect}
    (assigned : Assigned first s past (⟨input, task.number, .underway task, course⟩ :: others))
    (limit : s.settings.itemTimeout = first.settings.itemTimeout)
    (h : Transition s (.task task.number move) (effect.apply s task.number))
    (turn : Turn s task move effect)
    (silent : (Action.task task.number move).message? = none) :
    Assigned first (effect.apply s task.number) (past ++ [.task task.number move])
      (⟨input, task.number, effect.fate.place, course ++ s.timed effect.events⟩ :: others) where
  numbers := assigned.numbers
  inputs account haccount := by
    rcases List.mem_cons.mp haccount with rfl | hold
    · exact assigned.inputs ⟨input, task.number, .underway task, course⟩ List.mem_cons_self
    · exact assigned.inputs account (List.mem_cons_of_mem _ hold)
  tasks account haccount := by
    rcases List.mem_cons.mp haccount with rfl | hold
    · intro next hnext
      cases hfate : effect.fate with
      | goesOn other =>
          rw [hfate] at hnext
          cases List.mem_singleton.mp hnext
          exact turn_number turn hfate
      | files | loses => rw [hfate] at hnext; cases hnext
    · exact assigned.tasks account (List.mem_cons_of_mem _ hold)
  outcomes account haccount := by
    rcases List.mem_cons.mp haccount with rfl | hold
    · obtain ⟨before, hbefore, hpast⟩ := assigned.outcomes _ List.mem_cons_self
      obtain ⟨rest, hrest, houtcomes⟩ := outcomes_of_turn turn silent
      cases hbefore
      refine ⟨rest, hrest, ?_⟩
      have hown : (Action.task task.number move).outcome? first.settings.itemTimeout task.number =
          move.outcome? s.settings.itemTimeout := by
        rw [limit]
        exact if_pos rfl
      rw [callOutcomes_concat, hown, ← hpast, outcomesIn_append, List.append_assoc, houtcomes,
        List.append_assoc]
    · have hdistinct := List.nodup_cons.mp (assigned.numbers.nodup_iff.mpr List.nodup_range)
      have hne : task.number ≠ account.number := fun heq =>
        hdistinct.1 (List.mem_map.mpr ⟨account, hold, heq.symm⟩)
      rw [Account.Answered, callOutcomes_other (outcome?_of_ne hne)]
      exact assigned.outcomes account (List.mem_cons_of_mem _ hold)
  waiting := assigned.waiting
  dispatched going := assigned.dispatched (going_of_transition h going)
  unused number fresh := by
    have hlt := assigned.number_lt List.mem_cons_self
    have hne : task.number ≠ number := Nat.ne_of_lt (Nat.lt_of_lt_of_le hlt fresh)
    exact (callOutcomes_other (outcome?_of_ne hne)).trans (assigned.unused number fresh)

end Steps

end Run
end BatchRun
