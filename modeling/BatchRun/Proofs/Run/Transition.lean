import BatchRun.Proofs.Run.Turn
import Mathlib.Data.List.Nodup

/-!
# Transitions of runs

**Rules.**
`Transition` lists all that a run can do in one step: the clock, the caller, the dispatcher, and
the tasks, whose own rules are those of `Turn`.

**Invariant.**
No two tasks have the same number (`Numbered`), so that a step of a task changes that task alone.

**Results.**
* `transition_of_step?`: every step is allowed by one of the rules.
* `Reaches.invariant`: what every transition preserves holds of all that follows.
* `numbered_of_reaches`: the numbers of tasks stay apart.
* `flatMap_tasks`: what all tasks give changes only by the part of the task that went on.
* `reaches_of_follow?`: a list of actions that can be followed leads to a state that is reached.
* `history_of_follow?`, `invariant_of_follow?`: what certain actions preserve holds after a list of
  them.
* `step_of_ending`: an action that ends a run is its last one.
-/

namespace BatchRun
namespace Run

/-- Whether a run goes on. -/
def Stage.isLive : Stage → Bool
  | dispatching => true
  | flushing _ => true
  | returned _ => false
  | unwound => false

/-- How a run ends. -/
inductive Ends (s : State) : Stage → Prop
  | fails {fault : RunFault} (fatal : s.fatal = some fault) : Ends s (.returned (.error fault))
  /-- The health of the destinations cannot be told. -/
  | breaks {fault : HealthFault} (fatal : s.fatal = none)
      (snapshot : s.monitor.snapshot = .error fault) : Ends s .unwound
  | returns {health : Snapshot} (fatal : s.fatal = none)
      (snapshot : s.monitor.snapshot = .ok health) :
      Ends s (.returned (.ok ⟨s.allItems, s.aborted, s.cancelled, health⟩))

/-- What a run can do in one step. -/
inductive Transition (s : State) : Action → State → Prop
  | advances {target : Nat} (free : s.canAdvance target = true) :
      Transition s (.advance target) { s with clock := target }
  | cancels (live : s.stage.isLive = true) : Transition s .cancel s.cancel
  | turns {task : Task} {move : Move} {effect : Effect} (live : s.stage.isLive = true)
      (found : s.task? task.number = some task) (turn : Turn s task move effect) :
      Transition s (.task task.number move) (effect.apply s task.number)
  /-- Dispatch has stopped: the next item is skipped. -/
  | skips {item : Item} {rest : List Item} {moved : Except RejectedMove Item}
      (stage : s.stage = .dispatching) (waiting : s.waiting = item :: rest)
      (stop : s.stopped = true) (idle : s.canDispatch = true) (empty : s.holding = false)
      (skip : item.skip s.skipReason s.stamp = moved) :
      Transition s (.skipNext none)
        { (s.faulted (moveFaults moved)).seen [.finished (settled item moved)] with
          waiting := rest
          finished := s.finished ++ [settled item moved] }
  /-- An observer breaks off the dispatcher, and with it the run. -/
  | breaksInSkip {item : Item} {rest : List Item} {moved : Except RejectedMove Item}
      {message : String} (stage : s.stage = .dispatching) (waiting : s.waiting = item :: rest)
      (stop : s.stopped = true) (idle : s.canDispatch = true) (empty : s.holding = false)
      (skip : item.skip s.skipReason s.stamp = moved) :
      Transition s (.skipNext (some message))
        { (s.faulted (moveFaults moved)).seen [.finished (settled item moved)] with
          waiting := rest
          tasks := []
          stage := .unwound }
  | takesPermit (stage : s.stage = .dispatching) (waiting : s.waiting ≠ [])
      (running : s.stopped = false) (idle : s.canDispatch = true) (empty : s.holding = false)
      (free : s.free ≠ 0) :
      Transition s .takePermit { s with free := s.free - 1, holding := true }
  | spawns {item : Item} {rest : List Item} (stage : s.stage = .dispatching)
      (waiting : s.waiting = item :: rest) (holds : s.holding = true) :
      Transition s .spawn
        { s with
          waiting := rest
          holding := false
          tasks := s.tasks ++ [{ number := s.dispatched, item }]
          dispatched := s.dispatched + 1 }
  | flushes (stage : s.stage = .dispatching) (waiting : s.waiting = []) (tasks : s.tasks = []) :
      Transition s .flush
        { s with
          unflushed := []
          stage := .flushing (if s.keepsCheckpoint then s.unflushed else []) }
  /-- There are no last entries. -/
  | leaves {last : Stage} (fault : Option CheckpointFault) (stage : s.stage = .flushing [])
      (ends : Ends s last) : Transition s (.close fault) { s with stage := last }
  | closes {batch : List CheckpointEntry} {last : Stage} (stage : s.stage = .flushing batch)
      (full : batch ≠ [])
      (ends : Ends (State.seen { s with saved := s.saved.recordAll batch } [.saved batch]) last) :
      Transition s (.close none)
        { State.seen { s with saved := s.saved.recordAll batch } [.saved batch] with
          stage := last }
  | closesNot {batch : List CheckpointEntry} {last : Stage} (fault : CheckpointFault)
      (stage : s.stage = .flushing batch) (full : batch ≠ [])
      (ends : Ends (s.faulted [.checkpoint fault]) last) :
      Transition s (.close (some fault))
        { s.faulted [.checkpoint fault] with stage := last }

section Steps

variable {s t : State} {action : Action}

theorem mem_of_task?
    {number : Nat} {task : Task}
    (h : s.task? number = some task) :
    task ∈ s.tasks ∧ task.number = number :=
  ⟨List.mem_of_find?_eq_some h, by simpa using List.find?_some h⟩

theorem leave_eq (s : State) : ∃ last, Ends s last ∧ s.leave = { s with stage := last } := by
  cases hfatal : s.fatal with
  | some fault => exact ⟨_, .fails hfatal, by simp [State.leave, hfatal]⟩
  | none =>
      cases hsnapshot : s.monitor.snapshot with
      | error fault => exact ⟨_, .breaks hfatal hsnapshot, by simp [State.leave, hfatal, hsnapshot]⟩
      | ok health =>
          refine ⟨_, .returns hfatal hsnapshot, ?_⟩
          simp [State.leave, hfatal, hsnapshot]

theorem skipNext_none
    (item : Item)
    (rest : List Item) :
    s.skipNext item rest none =
      { (s.faulted (moveFaults (item.skip s.skipReason s.stamp))).seen
          [.finished (settled item (item.skip s.skipReason s.stamp))] with
        waiting := rest
        finished := s.finished ++ [settled item (item.skip s.skipReason s.stamp)] } := by
  have hstamp : s.stamp = Time.Timestamp.ofMillis s.clock := rfl
  have hreason : s.skipReason = if s.aborted then SkipReason.aborted else .cancelled := rfl
  cases hskip : item.skip s.skipReason s.stamp <;> rw [hstamp, hreason] at hskip <;>
    simp [State.skipNext, State.skipped, State.skipReason, State.stamp, hskip, State.fail,
      State.halt, State.file, State.log, State.faulted, State.seen]

theorem skipNext_some
    (item : Item)
    (rest : List Item)
    (message : String) :
    s.skipNext item rest (some message) =
      { (s.faulted (moveFaults (item.skip s.skipReason s.stamp))).seen
          [.finished (settled item (item.skip s.skipReason s.stamp))] with
        waiting := rest
        tasks := []
        stage := .unwound } := by
  have hstamp : s.stamp = Time.Timestamp.ofMillis s.clock := rfl
  have hreason : s.skipReason = if s.aborted then SkipReason.aborted else .cancelled := rfl
  cases hskip : item.skip s.skipReason s.stamp <;> rw [hstamp, hreason] at hskip <;>
    simp [State.skipNext, State.skipped, State.skipReason, State.stamp, hskip, State.fail,
      State.halt, State.log, State.faulted, State.seen]

theorem transition_of_dispatch?
    (h : s.dispatch? action = some t) :
    Transition s action t := by
  unfold State.dispatch? at h
  split at h
  case h_1 panic item rest stage waiting =>
      split at h
      case isTrue guard =>
          cases h
          simp only [Bool.and_eq_true, Bool.not_eq_true'] at guard
          obtain ⟨⟨stop, idle⟩, empty⟩ := guard
          cases panic with
          | none =>
              rw [skipNext_none]
              exact .skips stage waiting stop idle empty rfl
          | some message =>
              rw [skipNext_some]
              exact .breaksInSkip stage waiting stop idle empty rfl
      case isFalse =>
          cases h
  case h_2 item rest stage waiting =>
      split at h
      case isTrue guard =>
          cases h
          simp only [Bool.and_eq_true, Bool.not_eq_true', bne_iff_ne] at guard
          obtain ⟨⟨⟨running, idle⟩, empty⟩, free⟩ := guard
          exact .takesPermit stage (by simp [waiting]) running idle empty free
      case isFalse =>
          cases h
  case h_3 item rest stage waiting =>
      split at h
      case isTrue holds =>
          cases h
          exact .spawns stage waiting holds
      case isFalse =>
          cases h
  case h_4 stage waiting =>
      split at h
      case isTrue empty =>
          cases h
          exact .flushes stage waiting (by simpa using empty)
      case isFalse =>
          cases h
  case h_5 batch fault stage =>
      split at h
      case isTrue empty =>
          cases h
          have hbatch : batch = [] := by
            simpa using empty
          obtain ⟨last, ends, heq⟩ := leave_eq s
          rw [heq]
          exact .leaves fault (hbatch ▸ stage) ends
      case isFalse full =>
          cases h
          have full : batch ≠ [] := by
            simpa using full
          cases fault with
          | none =>
              obtain ⟨last, ends, heq⟩ :=
                leave_eq (State.seen { s with saved := s.saved.recordAll batch } [.saved batch])
              have h := Transition.closes stage full ends
              rw [← heq] at h
              exact h
          | some fault =>
              obtain ⟨last, ends, heq⟩ := leave_eq (s.faulted [.checkpoint fault])
              have h := Transition.closesNot fault stage full ends
              rw [← heq] at h
              have hfail : s.fail (.checkpoint fault) = s.faulted [.checkpoint fault] := by
                simp [State.fail, State.halt, State.faulted]
              rw [← hfail] at h
              exact h
  case h_6 =>
      cases h

/-- Every step is allowed by one of the rules. -/
theorem transition_of_step?
    (h : s.step? action = some t) :
    Transition s action t := by
  unfold State.step? at h
  split at h
  case h_1 =>
      cases h
  case h_2 =>
      cases h
  case h_3 hreturned hunwound =>
      have live : s.stage.isLive = true := by
        cases hstage : s.stage with
        | dispatching | flushing _ => rfl
        | returned result => exact absurd hstage (hreturned result)
        | unwound => exact absurd hstage hunwound
      split at h
      case h_1 target =>
          split at h
          case isTrue free =>
              cases h
              exact .advances free
          case isFalse =>
              cases h
      case h_2 =>
          cases h
          exact .cancels live
      case h_3 number move =>
          split at h
          case h_1 task found =>
              obtain ⟨effect, turn, rfl⟩ := does_of_move? h
              obtain ⟨-, rfl⟩ := mem_of_task? found
              exact .turns live found turn
          case h_2 =>
              cases h
      case h_4 =>
          exact transition_of_dispatch? h

end Steps

section Runs

variable {s t u : State}

theorem Reaches.trans
    (first : Reaches s t)
    (last : Reaches t u) :
    Reaches s u := by
  induction last with
  | here => exact first
  | step _ h ih => exact ih.step h

/-- What every transition preserves holds of all that follows. -/
theorem Reaches.invariant
    {P : State → Prop}
    (preserved : ∀ {s t : State} {action : Action}, Transition s action t → P s → P t)
    (h : Reaches s t)
    (start : P s) :
    P t := by
  induction h with
  | here => exact start
  | step _ h ih => exact preserved (transition_of_step? h) ih

/-- State after a list of actions, if each is possible in its turn. -/
def State.follow? (s : State) : List Action → Option State
  | [] => some s
  | action :: actions =>
    match s.step? action with
    | some t => t.follow? actions
    | none => none

theorem reaches_of_follow?
    {actions : List Action}
    (h : s.follow? actions = some t) :
    Reaches s t := by
  induction actions generalizing s with
  | nil =>
      cases h
      exact .here _
  | cons action actions ih =>
      simp only [State.follow?] at h
      split at h
      case h_1 next hstep =>
          exact ((Reaches.here s).step hstep).trans (ih h)
      case h_2 =>
          cases h

/-- What every transition by certain actions preserves, with the actions before it, holds after a
list of them. -/
theorem history_of_follow?
    {P : List Action → State → Prop} {allowed : Action → Prop} {actions : List Action}
    (done : List Action)
    (preserved : ∀ {s t : State} {action : Action} {done : List Action}, Transition s action t →
      allowed action → P done s → P (done ++ [action]) t)
    (h : s.follow? actions = some t)
    (all : ∀ action ∈ actions, allowed action)
    (start : P done s) :
    P (done ++ actions) t := by
  induction actions generalizing s done with
  | nil =>
      cases h
      exact (List.append_nil done).symm ▸ start
  | cons action actions ih =>
      simp only [State.follow?] at h
      split at h
      case h_1 next hstep =>
          have hnext := preserved (transition_of_step? hstep) (all action List.mem_cons_self) start
          have hlast :=
            ih _ h (fun other hother => all other (List.mem_cons_of_mem action hother)) hnext
          rwa [List.append_assoc] at hlast
      case h_2 =>
          cases h

/-- What every transition by certain actions preserves holds after a list of them. -/
theorem invariant_of_follow?
    {P : State → Prop} {allowed : Action → Prop} {actions : List Action}
    (preserved : ∀ {s t : State} {action : Action}, Transition s action t → allowed action →
      P s → P t)
    (h : s.follow? actions = some t)
    (all : ∀ action ∈ actions, allowed action)
    (start : P s) :
    P t :=
  history_of_follow? (P := fun _ => P) [] preserved h all start

theorem follow?_append
    (before after : List Action) :
    s.follow? (before ++ after) = (s.follow? before).bind fun t => t.follow? after := by
  induction before generalizing s with
  | nil => rfl
  | cons action before ih =>
      rw [List.cons_append, State.follow?, State.follow?]
      cases s.step? action with
      | none => rfl
      | some t => exact ih

theorem step?_of_ended
    (ended : s.stage.isLive = false)
    (action : Action) :
    s.step? action = none := by
  unfold State.step?
  cases hstage : s.stage with
  | returned _ | unwound => rfl
  | dispatching | flushing _ =>
      rw [hstage] at ended
      cases ended

theorem follow?_of_ended
    {actions : List Action}
    (ended : s.stage.isLive = false)
    (h : s.follow? actions = some t) :
    actions = [] ∧ t = s := by
  cases actions with
  | nil =>
      cases h
      exact ⟨rfl, rfl⟩
  | cons action actions =>
      rw [State.follow?, step?_of_ended ended] at h
      cases h

/-- An action that ends a run is its last one. -/
theorem step_of_ending
    {action : Action} {actions : List Action}
    (ends : ∀ {s t : State}, s.step? action = some t → t.stage.isLive = false)
    (h : s.follow? actions = some u)
    (hmem : action ∈ actions) :
    ∃ t, Reaches s t ∧ t.step? action = some u := by
  obtain ⟨before, after, rfl⟩ := List.append_of_mem hmem
  rw [follow?_append] at h
  obtain ⟨t, hbefore, hrest⟩ := Option.bind_eq_some_iff.mp h
  rw [State.follow?] at hrest
  cases hstep : t.step? action with
  | none =>
      rw [hstep] at hrest
      cases hrest
  | some next =>
      rw [hstep] at hrest
      obtain ⟨-, rfl⟩ := follow?_of_ended (ends hstep) hrest
      exact ⟨t, reaches_of_follow? hbefore, hstep⟩

/-- What a run has returned, if it has. -/
def State.returned? (s : State) : Option Returned :=
  match s.stage with
  | .returned (.ok result) => some result
  | _ => none

theorem stage_of_returned?
    {result : Returned}
    (h : s.returned? = some result) :
    s.stage = .returned (.ok result) := by
  unfold State.returned? at h
  split at h
  case h_1 stage =>
      cases h
      exact stage
  case h_2 =>
      cases h

theorem returns_of_follow?
    {actions : List Action}
    (h : ((s.follow? actions).bind State.returned?).isSome = true) :
    ∃ t result, Reaches s t ∧ t.stage = .returned (.ok result) := by
  obtain ⟨result, hresult⟩ := Option.isSome_iff_exists.mp h
  obtain ⟨t, hfollow, hreturned⟩ := Option.bind_eq_some_iff.mp hresult
  exact ⟨t, result, reaches_of_follow? hfollow, stage_of_returned? hreturned⟩

end Runs

/-- What a function gives for the task that goes on. -/
def Fate.gather {α : Type} (f : Task → List α) : Fate → List α
  | goesOn next => f next
  | files _ => []
  | loses => []

section Tasks

variable {old : List Task} {task next : Task} {number : Nat}

/-- A task afterwards is the one that went on, or another one that was there before. -/
theorem mem_tasks
    {fate : Fate} {other : Task}
    (h : other ∈ fate.tasks number old) :
    fate = .goesOn other ∨ (other ∈ old ∧ other.number ≠ number) := by
  cases fate with
  | goesOn next =>
      obtain ⟨before, hmem, heq⟩ := List.mem_map.mp h
      split at heq
      case isTrue hnumber =>
          exact .inl (by rw [heq])
      case isFalse hnumber =>
          exact .inr (heq ▸ ⟨hmem, hnumber⟩)
  | files item =>
      obtain ⟨hmem, hnumber⟩ := List.mem_filter.mp h
      exact .inr ⟨hmem, by simpa using hnumber⟩
  | loses =>
      obtain ⟨hmem, hnumber⟩ := List.mem_filter.mp h
      exact .inr ⟨hmem, by simpa using hnumber⟩

theorem mem_tasks_goesOn
    (htask : task ∈ old) :
    next ∈ (Fate.goesOn next).tasks task.number old :=
  List.mem_map.mpr ⟨task, htask, if_pos rfl⟩

/-- The other tasks stay. -/
theorem mem_tasks_of_ne
    {other : Task}
    (fate : Fate)
    (hother : other ∈ old)
    (h : other.number ≠ number) :
    other ∈ fate.tasks number old := by
  cases fate with
  | goesOn next => exact List.mem_map.mpr ⟨other, hother, if_neg h⟩
  | files _ | loses => exact List.mem_filter.mpr ⟨hother, by simpa using h⟩

/-- A task with its own number is the only one with it. -/
theorem eq_of_number
    {other : Task}
    (distinct : (old.map Task.number).Nodup)
    (htask : task ∈ old)
    (hother : other ∈ old)
    (h : other.number = task.number) :
    other = task :=
  List.inj_on_of_nodup_map distinct hother htask h

/-- A function that does not tell a task from what it went on as does not see the step. -/
theorem map_goesOn
    {α : Type} {f : Task → α}
    (distinct : (old.map Task.number).Nodup)
    (htask : task ∈ old)
    (same : f next = f task) :
    ((Fate.goesOn next).tasks task.number old).map f = old.map f := by
  rw [Fate.tasks, List.map_map]
  refine List.map_congr_left fun other hother => ?_
  by_cases hnumber : other.number = task.number
  · have heq : other = task := eq_of_number distinct htask hother hnumber
    simp [heq, same]
  · simp [hnumber]

/-- The tasks before a task ended are the task and those afterwards. -/
theorem perm_filter
    (distinct : (old.map Task.number).Nodup)
    (htask : task ∈ old) :
    old.Perm (task :: old.filter fun other => other.number != task.number) := by
  induction old with
  | nil => cases htask
  | cons first rest ih =>
      rw [List.map_cons, List.nodup_cons] at distinct
      obtain ⟨hfirst, hrest⟩ := distinct
      rcases List.mem_cons.mp htask with rfl | hmem
      · have hkeep : rest.filter (fun other => other.number != task.number) = rest := by
          refine List.filter_eq_self.mpr fun other hother => ?_
          have hne : other.number ≠ task.number := fun h =>
            hfirst (h ▸ List.mem_map_of_mem hother)
          simpa using hne
        simp [hkeep]
      · have hne : first.number ≠ task.number := fun h =>
          hfirst (h ▸ List.mem_map_of_mem hmem)
        have hstays : (first.number != task.number) = true := by
          simpa using hne
        rw [List.filter_cons, if_pos hstays]
        exact ((ih hrest hmem).cons first).trans (.swap task first _)

/-- A step of a task changes only its own part of what all tasks give. -/
theorem flatMap_tasks
    {α : Type}
    (f : Task → List α)
    (fate : Fate)
    (distinct : (old.map Task.number).Nodup)
    (htask : task ∈ old) :
    ∃ rest, (old.flatMap f).Perm (f task ++ rest) ∧
      ((fate.tasks task.number old).flatMap f).Perm (fate.gather f ++ rest) := by
  let others := old.filter fun other => other.number != task.number
  have hperm : old.Perm (task :: others) := perm_filter distinct htask
  refine ⟨others.flatMap f, hperm.flatMap_right f, ?_⟩
  cases fate with
  | files _ | loses => exact .refl _
  | goesOn next =>
      have hothers : others.map (fun other => if other.number = task.number then next else other)
          = others.map id := by
        refine List.map_congr_left fun other hother => if_neg ?_
        simpa using (List.mem_filter.mp hother).2
      have hnext := hperm.map fun other => if other.number = task.number then next else other
      rw [List.map_cons, if_pos rfl, hothers, List.map_id] at hnext
      exact hnext.flatMap_right f

end Tasks

/-- No two tasks have the same number, and no later task gets the number of one of them. -/
structure Numbered (s : State) : Prop where
  distinct : (s.tasks.map Task.number).Nodup
  below : ∀ task ∈ s.tasks, task.number < s.dispatched

theorem turn_number
    {s : State} {task next : Task} {move : Move} {effect : Effect}
    (turn : Turn s task move effect)
    (h : effect.fate = .goesOn next) :
    next.number = task.number := by
  cases turn with
  | turnsAway panic => cases panic <;> cases h
  | rejects | breaksAtStart | breaksInSample | breaksInRetry => cases h
  | closes closing =>
      cases closing with
      | finishes panic => cases panic <;> cases h
      | _ => cases h; rfl
  | _ => cases h; rfl

theorem number_mem_tasks
    {s : State} {task other : Task} {move : Move} {effect : Effect}
    (turn : Turn s task move effect)
    (htask : task ∈ s.tasks)
    (h : other ∈ effect.fate.tasks task.number s.tasks) :
    ∃ before ∈ s.tasks, before.number = other.number := by
  rcases mem_tasks h with hnext | ⟨hother, -⟩
  · exact ⟨task, htask, (turn_number turn hnext).symm⟩
  · exact ⟨other, hother, rfl⟩

theorem distinct_of_turn
    {s : State} {task : Task} {move : Move} {effect : Effect}
    (turn : Turn s task move effect)
    (htask : task ∈ s.tasks)
    (distinct : (s.tasks.map Task.number).Nodup) :
    ((effect.fate.tasks task.number s.tasks).map Task.number).Nodup := by
  cases hfate : effect.fate with
  | goesOn next =>
      rw [map_goesOn distinct htask (turn_number turn hfate)]
      exact distinct
  | files _ | loses => exact distinct.sublist (List.filter_sublist.map _)

theorem numbered_of_transition
    {s t : State} {action : Action}
    (h : Transition s action t)
    (numbered : Numbered s) :
    Numbered t := by
  obtain ⟨distinct, below⟩ := numbered
  cases h with
  | advances => exact ⟨distinct, below⟩
  | cancels => exact ⟨distinct, below⟩
  | turns live found turn =>
      have htask := (mem_of_task? found).1
      refine ⟨distinct_of_turn turn htask distinct, fun other hother => ?_⟩
      obtain ⟨before, hbefore, hnumber⟩ := number_mem_tasks turn htask hother
      exact hnumber ▸ below before hbefore
  | skips => exact ⟨distinct, below⟩
  | breaksInSkip => exact ⟨List.nodup_nil, fun task htask => absurd htask (by simp)⟩
  | takesPermit => exact ⟨distinct, below⟩
  | @spawns item =>
      refine ⟨?_, fun task htask => ?_⟩
      · rw [List.map_append, List.nodup_append]
        refine ⟨distinct, by simp, fun number hnumber other hother => ?_⟩
        obtain ⟨task, htask, rfl⟩ := List.mem_map.mp hnumber
        have hlt := below task htask
        simp only [List.map_cons, List.map_nil, List.mem_singleton] at hother
        omega
      · rcases List.mem_append.mp htask with hold | hnew
        · have hlt := below task hold
          show task.number < s.dispatched + 1
          omega
        · rw [List.mem_singleton.mp hnew]
          exact Nat.lt_succ_self s.dispatched
  | flushes => exact ⟨distinct, below⟩
  | leaves => exact ⟨distinct, below⟩
  | closes => exact ⟨distinct, below⟩
  | closesNot => exact ⟨distinct, below⟩

theorem numbered_of_reaches
    {s t : State}
    (h : Reaches s t)
    (numbered : Numbered s) :
    Numbered t :=
  h.invariant numbered_of_transition numbered

theorem stage_ne_unwound
    {s : State}
    (live : s.stage.isLive = true) :
    s.stage ≠ .unwound := by
  intro h
  rw [h] at live
  cases live

theorem live_of_transition
    {s t : State} {action : Action}
    (h : Transition s action t) :
    s.stage.isLive = true := by
  cases h with
  | advances free =>
      simp only [State.canAdvance, State.isDispatchBlocked, Bool.and_eq_true] at free
      cases hstage : s.stage with
      | dispatching | flushing _ => rfl
      | returned _ | unwound => simp [hstage] at free
  | cancels live | turns live => exact live
  | skips stage | breaksInSkip stage | takesPermit stage | spawns stage | flushes stage
  | leaves _ stage | closes stage | closesNot _ stage => rw [stage]; rfl

/-- What the stage of a run says of its other parts. -/
structure Staged (s : State) : Prop where
  drained : s.stage ≠ .dispatching → s.stage ≠ .unwound → s.waiting = [] ∧ s.tasks = []
  returned : ∀ result, s.stage = .returned (.ok result) →
    s.fatal = none ∧ result.items = s.allItems ∧ result.aborted = s.aborted ∧
      result.cancelled = s.cancelled

theorem staged_of_ends
    {s : State} {last : Stage}
    (drained : s.waiting = [] ∧ s.tasks = [])
    (ends : Ends s last) :
    Staged { s with stage := last } := by
  refine ⟨fun _ _ => drained, fun result hreturned => ?_⟩
  cases ends with
  | fails | breaks => cases hreturned
  | returns fatal =>
      cases hreturned
      exact ⟨fatal, rfl, rfl, rfl⟩

theorem staged_of_live
    {s t : State}
    (live : s.stage.isLive = true)
    (stage : t.stage = s.stage)
    (drained : s.stage ≠ .dispatching → t.waiting = [] ∧ t.tasks = []) :
    Staged t := by
  refine ⟨fun hdispatching _ => drained (stage ▸ hdispatching), fun result hreturned => ?_⟩
  rw [← stage, hreturned] at live
  cases live

theorem staged_of_transition
    {s t : State} {action : Action}
    (h : Transition s action t)
    (staged : Staged s) :
    Staged t := by
  have live := live_of_transition h
  have drained : s.stage ≠ .dispatching → s.waiting = [] ∧ s.tasks = [] := fun hdispatching =>
    staged.drained hdispatching (stage_ne_unwound live)
  cases h with
  | advances | cancels => exact staged_of_live live rfl drained
  | turns _ found =>
      refine staged_of_live live rfl fun hdispatching => ?_
      have hmem := (mem_of_task? found).1
      rw [(drained hdispatching).2] at hmem
      cases hmem
  | skips stage | takesPermit stage | spawns stage =>
      exact staged_of_live live rfl fun hdispatching => absurd stage hdispatching
  | breaksInSkip => exact ⟨fun _ hwound => absurd rfl hwound, fun _ hreturned => by cases hreturned⟩
  | flushes _ waiting tasks =>
      exact ⟨fun _ _ => ⟨waiting, tasks⟩, fun _ hreturned => by cases hreturned⟩
  | leaves fault stage ends => exact staged_of_ends (drained (by simp [stage])) ends
  | closes stage full ends =>
      exact staged_of_ends (s := State.seen { s with saved := s.saved.recordAll _ } _)
        (drained (by simp [stage])) ends
  | closesNot fault stage full ends =>
      exact staged_of_ends (s := s.faulted [.checkpoint fault]) (drained (by simp [stage])) ends

theorem staged_of_reaches
    {s t : State}
    (h : Reaches s t)
    (staged : Staged s) :
    Staged t :=
  h.invariant staged_of_transition staged

end Run
end BatchRun
