import BatchRun.Proofs.Run.Draining

/-!
# Permits of runs

Of the items of a run no more are processed at a time, and no more are called for, than its settings
allow.

**Invariant.**
Every permit is free, or held by the dispatcher or by a task (`State.Balances`); the dispatcher
holds one only for an item that waits (`State.Promised`).  An item that is processed belongs to a
task, and so do calls, so that the tasks bound both.

**Results.**
* `releases_always`: a task keeps its permit as long as it goes on, and its end gives the
  permit back, whichever end it is.
* `permitted_of_transition`: each step keeps the invariant.
* `bounded_of_reaches`: the permits of a parallel run add up in every state and bound what it does.
-/

namespace BatchRun
namespace Run

/-- Whether a task waits for the executor. -/
def Phase.isCalling : Phase → Bool
  | calling _ => true
  | _ => false

/-- The dispatcher holds a permit only for an item that waits. -/
def State.Promised (s : State) : Prop := s.holding = true → s.waiting ≠ []

/-- A step of a task leaves the task its permit if the task goes on, and frees the permit if the
task ends. -/
def State.Releases (s : State) : Prop :=
  ∀ number move t, s.step? (.task number move) = some t →
    ((t.task? number).isSome = true ∧ t.free = s.free) ∨
      (t.task? number = none ∧ t.free = s.free + 1)

/-- A run whose permits balance and whose items stand where their tasks are. -/
structure Permitted (s : State) : Prop where
  paced : s.Paced
  standing : Standing s
  promised : s.Promised
  unwound : s.stage = .unwound → s.tasks = []
  restored : ∀ item ∈ s.restored, item.isTerminal = true

/-- The permits of a run add up, and bound what the run does. -/
structure State.Bounded (s : State) (count : Nat) : Prop where
  /-- As long as there is a dispatcher, every permit is free, or held by it or by a task. -/
  balances : s.stage ≠ .unwound → s.free + s.held + s.tasks.length = count
  processing : (s.restored ++ s.own).countP (fun item => item.status = .processing) ≤ count
  calling : s.tasks.countP (fun task => task.phase.isCalling) ≤ count
  releases : s.Releases
  promised : s.Promised
  /-- A run that has returned holds no permit. -/
  returned : ∀ result, s.stage = .returned result → s.free = count

section Turns

variable {s : State} {task : Task} {move : Move} {effect : Effect}

/-- A task is still there after its step, and has its permit, or it has given the permit back. -/
theorem freed_of_turn
    (turn : Turn s task move effect)
    (htask : task ∈ s.tasks) :
    (((effect.apply s task.number).task? task.number).isSome = true ∧ effect.fate.freed = 0) ∨
      ((effect.apply s task.number).task? task.number = none ∧ effect.fate.freed = 1) := by
  have htasks : (effect.apply s task.number).task? task.number =
      (effect.fate.tasks task.number s.tasks).find? fun other => other.number == task.number := rfl
  rw [htasks]
  cases hfate : effect.fate with
  | goesOn next =>
      have hnext : next ∈ (Fate.goesOn next).tasks task.number s.tasks := mem_tasks_goesOn htask
      refine .inl ⟨List.find?_isSome.mpr ⟨next, hnext, ?_⟩, rfl⟩
      simpa using turn_number turn hfate
  | files _ | loses =>
      refine .inr ⟨List.find?_eq_none.mpr fun other hother => ?_, rfl⟩
      simpa using (List.mem_filter.mp hother).2

theorem releases_always
    (s : State) :
    s.Releases := by
  intro number move t h
  cases transition_of_step? h with
  | @turns task _ effect _ found turn =>
      have hfree : (effect.apply s task.number).free = s.free + effect.fate.freed := rfl
      rcases freed_of_turn turn (mem_of_task? found).1 with ⟨hstays, hfreed⟩ | ⟨hgone, hfreed⟩
      · exact .inl ⟨hstays, by rw [hfree, hfreed, Nat.add_zero]⟩
      · exact .inr ⟨hgone, by rw [hfree, hfreed]⟩

end Turns

section Steps

variable {s t : State} {action : Action}

theorem promised_of_transition
    (h : Transition s action t)
    (promised : s.Promised) :
    t.Promised := by
  cases h with
  | advances | cancels | turns | flushes | leaves | closes | closesNot => exact promised
  | skips _ _ _ _ empty | breaksInSkip _ _ _ _ empty =>
      intro holds
      cases empty.symm.trans holds
  | takesPermit _ waiting => exact fun _ => waiting
  | spawns => exact nofun

/-- A run that broke off has no tasks any more. -/
theorem tasks_of_unwound
    (h : Transition s action t)
    (staged : Staged s)
    (stage : t.stage = .unwound) :
    t.tasks = [] := by
  have live := live_of_transition h
  cases h with
  | advances | cancels | turns | skips | takesPermit | spawns =>
      exact absurd stage (stage_ne_unwound live)
  | breaksInSkip => rfl
  | flushes _ _ tasks => exact tasks
  | leaves _ before | closes before | closesNot _ before =>
      exact (staged.drained (by simp [before]) (stage_ne_unwound live)).2

theorem restored_of_transition
    (h : Transition s action t) :
    t.restored = s.restored := by
  cases h <;> rfl

theorem permitted_of_transition
    (h : Transition s action t)
    (permitted : Permitted s) :
    Permitted t where
  paced := paced_of_transition h permitted.paced
  standing := standing_of_transition h permitted.standing
  promised := promised_of_transition h permitted.promised
  unwound := tasks_of_unwound h permitted.paced.staged
  restored item hitem := permitted.restored item (restored_of_transition h ▸ hitem)

/-- There are no more tasks than permits. -/
theorem length_tasks_le
    (permitted : Permitted s) :
    s.tasks.length ≤ s.settings.slots := by
  by_cases stage : s.stage = .unwound
  · simp [permitted.unwound stage]
  · have hbalances := permitted.paced.balances stage
    unfold State.Balances at hbalances
    omega

/-- An item that is processed belongs to a task. -/
theorem processing_le
    (permitted : Permitted s) :
    (s.restored ++ s.own).countP (fun item => item.status = .processing) ≤ s.tasks.length := by
  have hterminal : ∀ items : List Item, (∀ item ∈ items, item.isTerminal = true) →
      items.countP (fun item => item.status = .processing) = 0 := by
    refine fun items terminal => List.countP_eq_zero.mpr fun item hitem hstatus => ?_
    have hends := terminal item hitem
    rw [Item.isTerminal, of_decide_eq_true hstatus] at hends
    cases hends
  have hwaiting : s.waiting.countP (fun item => item.status = .processing) = 0 := by
    refine List.countP_eq_zero.mpr fun item hitem hstatus => ?_
    rw [permitted.standing.waiting item hitem] at hstatus
    cases hstatus
  have htasks := List.countP_le_length (p := fun item => decide (item.status = .processing))
    (l := s.tasks.map Task.item)
  rw [List.length_map] at htasks
  rw [State.own, List.countP_append, List.countP_append, List.countP_append,
    hterminal _ permitted.restored, hterminal _ permitted.standing.finished, hwaiting]
  omega

theorem free_of_returned
    {result : Except RunFault Returned}
    (permitted : Permitted s)
    (returned : s.stage = .returned result) :
    s.free = s.settings.slots := by
  have hstage : s.stage ≠ .unwound := by simp [returned]
  obtain ⟨hwaiting, htasks⟩ := permitted.paced.staged.drained (by simp [returned]) hstage
  have hheld : s.held = 0 := if_neg fun holds => permitted.promised holds hwaiting
  have hbalances := permitted.paced.balances hstage
  rw [State.Balances, hheld, htasks] at hbalances
  exact hbalances

theorem bounded_of_permitted
    (permitted : Permitted s) :
    s.Bounded s.settings.slots where
  balances := permitted.paced.balances
  processing := Nat.le_trans (processing_le permitted) (length_tasks_le permitted)
  calling := Nat.le_trans List.countP_le_length (length_tasks_le permitted)
  releases := releases_always s
  promised := permitted.promised
  returned _ := free_of_returned permitted

end Steps

section Runs

variable {setup : Setup} {items : List Item} {checkpoint : Checkpoint} {throttle : Throttle}
  {registry : Registry} {monitor : Monitor} {clock : Nat} {first s : State}

theorem permitted_opened
    (pending : ∀ item ∈ items, item.status = .pending)
    (valid : setup.settings.fault? = none) :
    Permitted (.opened setup items checkpoint throttle registry monitor clock) where
  paced := paced_opened valid
  standing := standing_opened pending
  promised := nofun
  unwound _ := rfl
  restored item hitem := by
    rw [opened_restored] at hitem
    obtain ⟨before, -, rfl⟩ := List.mem_map.mp hitem
    exact (restored_spec checkpoint before _).2.2

/-- The permits of a parallel run add up in each of its states, and bound what it does. -/
theorem bounded_of_reaches
    (pending : ∀ item ∈ items, item.status = .pending)
    (parallel : setup.settings.mode = .parallel)
    (opened : State.initial? setup items (.ok checkpoint) throttle registry monitor clock
      = .ok first)
    (run : Reaches first s) :
    s.Bounded setup.settings.concurrency := by
  obtain ⟨_, hsaved, valid, rfl⟩ := opened_of_initial? opened
  cases hsaved
  have hsetup : s.setup = setup := setup_of_reaches run
  have hslots : s.settings.slots = setup.settings.concurrency := by
    rw [State.settings, hsetup, Settings.slots, parallel]
  have hpermitted := run.invariant permitted_of_transition (permitted_opened pending valid)
  exact hslots ▸ bounded_of_permitted hpermitted

/-- Two of three items are called for at once, and the third one gets no permit. -/
theorem bounded_of_twoCalls :
    ∃ s, Reaches (.opened twoAbreast threeItems {} {} {} {} 0) s ∧
      (s.free, s.waiting.length, s.tasks.map fun task => task.phase.isCalling) =
        (0, 1, [true, true]) ∧
      s.Bounded 2 := by
  have hfollow : ((State.opened twoAbreast threeItems {} {} {} {} 0).follow?
      (failsAbreast.take 6)).map (fun s =>
        (s.free, s.waiting.length, s.tasks.map fun task => task.phase.isCalling)) =
      some (0, 1, [true, true]) := by
    decide +kernel
  obtain ⟨s, hs, hshown⟩ := Option.map_eq_some_iff.mp hfollow
  have run := reaches_of_follow? hs
  exact ⟨s, run, hshown,
    bounded_of_reaches (by decide) rfl (initial?_eq_ok (by decide +kernel)) run⟩

end Runs

end Run
end BatchRun
