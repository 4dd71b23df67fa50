import BatchRun.Proofs.Job.Health
import BatchRun.Proofs.Run.Verdict

/-!
# Pace of runs

No run loses a permit, makes an attempt too many, or measures a latency that does not fit in the
windows of its monitor, whatever comes from outside.

**Invariant.**
Every permit is free, or held by the dispatcher or by a task (`State.Balances`).  A call takes no
longer than any wait, and an item that waits for another attempt has one (`Task.Paced`).
`State.Paced` puts them together.

**Results.**
* `balances_of_transition`: no step gains or loses a permit.
* `paced_of_goesOn`, `Task.Paced.advance`: a task keeps its pace in its own steps, and as time
  passes.
* `paced_of_reaches`: the invariant holds in every state.
* `roomy_of_transition`: each latency fits in the windows of the monitor.
-/

namespace BatchRun

theorem tickAfter_le
    (now nanos : Nat) :
    tickAfter now nanos ≤ now + farFuture :=
  Nat.add_le_add_left (Nat.min_le_right _ _) now

theorem Wait.tick_le
    (wait : Wait)
    (now : Nat) :
    wait.tick now ≤ now + farFuture := by
  cases wait with
  | none => exact Nat.le_add_right now _
  | nanos count => exact tickAfter_le now count
  | endless => exact Nat.le_refl _

namespace Run

/-- Number of permits of the dispatcher. -/
def State.held (s : State) : Nat := if s.holding then 1 else 0

/-- Every permit is free, or held by the dispatcher or by a task. -/
def State.Balances (s : State) : Prop :=
  s.free + s.held + s.tasks.length = s.settings.slots

section Permits

variable {s t : State} {action : Action}

theorem length_tasks
    {task : Task}
    (fate : Fate)
    (numbered : Numbered s)
    (htask : task ∈ s.tasks) :
    (fate.tasks task.number s.tasks).length + fate.freed = s.tasks.length := by
  have hlength := (perm_filter numbered.distinct htask).length_eq
  cases fate with
  | goesOn next => simp
  | files _ | loses => simpa using hlength.symm

/-- No step gains or loses a permit. -/
theorem balances_of_transition
    (h : Transition s action t)
    (numbered : Numbered s)
    (balances : s.Balances)
    (stage : t.stage ≠ .unwound) :
    t.Balances := by
  unfold State.Balances at *
  rw [State.settings, setup_of_transition h]
  cases h with
  | advances | cancels | skips | flushes | leaves | closes | closesNot => exact balances
  | breaksInSkip => exact absurd rfl stage
  | @turns task move effect live found turn =>
      have hlength := length_tasks effect.fate numbered (mem_of_task? found).1
      have hfree : (effect.apply s task.number).free = s.free + effect.fate.freed := rfl
      have hheld : (effect.apply s task.number).held = s.held := rfl
      have htasks : (effect.apply s task.number).tasks =
          effect.fate.tasks task.number s.tasks := rfl
      rw [hfree, hheld, htasks, ← State.settings]
      omega
  | takesPermit _ _ _ _ empty free =>
      simp only [State.held, empty, State.settings] at balances ⊢
      simp at balances ⊢
      omega
  | spawns _ _ holds =>
      simp only [State.held, holds, State.settings] at balances ⊢
      simp at balances ⊢
      omega

end Permits

/-- A call takes no longer than any wait, and an item that waits for another attempt has one. -/
def Task.Paced (limit clock : Nat) (task : Task) : Prop :=
  match task.phase with
  | .calling since => clock ≤ since + farFuture
  | .answered _ latency => latency ≤ farFuture
  | .pausing _ => task.item.attempts < limit
  | .rethrottled _ => task.item.attempts < limit
  | _ => True

section Endings

variable {task : Task} {limit clock : Nat}

theorem isEnding_endingPhase
    (s : State)
    (item : Item) :
    (s.endingPhase item).isEnding = true := by
  rcases Service.endingPhase_cases s item with h | h | h <;> rw [h] <;> rfl

theorem paced_of_isEnding
    (ending : task.phase.isEnding = true) :
    task.Paced limit clock := by
  unfold Task.Paced
  cases hphase : task.phase with
  | persisting | buffering | saving _ | finishing => trivial
  | _ => rw [hphase] at ending; cases ending

end Endings

section Turns

variable {s : State} {task next : Task} {move : Move} {effect : Effect}

theorem latency_of_answered
    {outcome : Except AttemptFailure Json} {latency : Nat}
    (paced : task.Paced s.settings.retry.maxAttempts s.clock)
    (phase : task.phase = .answered outcome latency) :
    latency ≤ farFuture := by
  simpa only [Task.Paced, phase] using paced

/-- The sample of an attempt fits in its window. -/
theorem record_of_answered
    {outcome : Except AttemptFailure Json} {latency : Nat}
    (roomy : s.monitor.Roomy farFuture)
    (paced : task.Paced s.settings.retry.maxAttempts s.clock)
    (phase : task.phase = .answered outcome latency) :
    ∃ monitor, s.monitor.record s.settings.destination (sampleOf outcome latency)
      = (monitor, .ok ()) ∧ monitor.Roomy farFuture :=
  Monitor.record_of_roomy roomy s.settings.destination (latency_of_answered paced phase)

theorem roomy_of_samples
    {outcome : Except AttemptFailure Json} {latency : Nat} {monitor : Monitor}
    (roomy : s.monitor.Roomy farFuture)
    (paced : task.Paced s.settings.retry.maxAttempts s.clock)
    (samples : Samples s task outcome latency monitor) :
    monitor.Roomy farFuture := by
  obtain ⟨next, hrecord, hroomy⟩ := record_of_answered roomy paced samples.phase
  rw [samples.record] at hrecord
  cases hrecord
  exact hroomy

/-- The windows of the monitor stay within bounds. -/
theorem roomy_of_turn
    (roomy : s.monitor.Roomy farFuture)
    (paced : task.Paced s.settings.retry.maxAttempts s.clock)
    (turn : Turn s task move effect) :
    (effect.monitor.getD s.monitor).Roomy farFuture := by
  cases turn with
  | breaksInSample _ phase record =>
      obtain ⟨next, hrecord, -⟩ := record_of_answered roomy paced phase
      rw [record] at hrecord
      cases hrecord
  | breaksInRetry _ samples | succeeds _ samples | fails _ samples | pauses samples =>
      exact roomy_of_samples roomy paced samples
  | rewaits _ retries | recalls _ retries =>
      cases retries with
      | atOnce samples => exact roomy_of_samples roomy paced samples
      | afterPause => exact roomy
  | interrupts stops =>
      cases stops with
      | afterCall samples => exact roomy_of_samples roomy paced samples
      | inCall | inPause => exact roomy
  | closes closing => cases closing <;> exact roomy
  | _ => exact roomy

theorem attempts_lt_of_again
    {failure : AttemptFailure}
    (again : s.isLastFailure task failure = false) :
    task.item.attempts < s.settings.retry.maxAttempts := by
  simpa using (Bool.or_eq_false_iff.mp again).2

theorem attempts_lt_of_retries
    {monitor : Option Monitor} {events : List Event}
    (paced : task.Paced s.settings.retry.maxAttempts s.clock)
    (retries : Retries s task monitor events) :
    task.item.attempts < s.settings.retry.maxAttempts := by
  cases retries with
  | atOnce _ again => exact attempts_lt_of_again again
  | afterPause phase => simpa only [Task.Paced, phase] using paced

/-- A task that goes on stays paced. -/
theorem paced_of_goesOn
    (paced : task.Paced s.settings.retry.maxAttempts s.clock)
    (turn : Turn s task move effect)
    (h : effect.fate = .goesOn next) :
    next.Paced s.settings.retry.maxAttempts s.clock := by
  cases turn with
  | turnsAway panic => cases panic <;> cases h
  | rejects | breaksAtStart | breaksInSample | breaksInRetry => cases h
  | waits | succeeds => cases h; trivial
  | starts | recalls | recallsAfterWait => cases h; exact Nat.le_add_right _ _
  | @answers since _ _ phase =>
      cases h
      have hclock : s.clock ≤ since + farFuture := by
        simpa only [Task.Paced, phase] using paced
      show s.clock - since ≤ farFuture
      omega
  | pauses _ again => cases h; exact attempts_lt_of_again again
  | rewaits _ retries =>
      have hattempts := attempts_lt_of_retries paced retries
      cases h
      exact hattempts
  | fails | interrupts | completes => cases h; exact paced_of_isEnding (isEnding_endingPhase s _)
  | closes closing =>
      cases closing with
      | finishes panic => cases panic <;> cases h
      | _ => cases h; trivial

end Turns

/-- A run keeps its permits and its pace. -/
structure State.Paced (s : State) : Prop where
  numbered : Numbered s
  staged : Staged s
  slots : 0 < s.settings.slots
  balances : s.stage ≠ .unwound → s.Balances
  tasks : ∀ task ∈ s.tasks, task.Paced s.settings.retry.maxAttempts s.clock

section Steps

variable {s t : State} {action : Action}

theorem due_of_canAdvance
    {target : Nat} {task : Task}
    (free : s.canAdvance target = true)
    (htask : task ∈ s.tasks)
    (idle : task.phase.isWriting = false) :
    ∃ due, s.due? task = some due ∧ target ≤ due := by
  have hall := (Bool.and_eq_true_iff.mp free).2
  have hdue := List.all_eq_true.mp hall task htask
  rw [idle, Bool.false_or] at hdue
  split at hdue
  case h_1 due h => exact ⟨due, h, by simpa using hdue⟩
  case h_2 => cases hdue

/-- No call outlasts its time. -/
theorem due_of_calling
    {task : Task} {since due : Nat}
    (phase : task.phase = .calling since)
    (hdue : s.due? task = some due) :
    due ≤ s.timeoutTick since := by
  simp only [State.due?, phase] at hdue
  split at hdue
  case h_1 grace _ =>
      cases hdue
      exact Nat.min_le_left _ _
  case h_2 =>
      cases hdue
      exact Nat.le_refl _

theorem Task.Paced.advance
    {target limit : Nat} {task : Task}
    (paced : task.Paced limit s.clock)
    (free : s.canAdvance target = true)
    (htask : task ∈ s.tasks) :
    task.Paced limit target := by
  unfold Task.Paced at *
  cases hphase : task.phase with
  | calling since =>
      obtain ⟨due, hdue, hle⟩ := due_of_canAdvance free htask (by rw [hphase]; rfl)
      exact Nat.le_trans (Nat.le_trans hle (due_of_calling hphase hdue))
        (tickAfter_le since s.settings.itemTimeout)
  | answered | pausing | rethrottled => simpa only [hphase] using paced
  | _ => trivial

theorem pacedTask_of_transition
    (h : Transition s action t)
    (paced : ∀ task ∈ s.tasks, task.Paced s.settings.retry.maxAttempts s.clock) :
    ∀ task ∈ t.tasks, task.Paced t.settings.retry.maxAttempts t.clock := by
  intro task htask
  cases h with
  | cancels | skips | takesPermit | flushes | leaves | closes | closesNot =>
      exact paced task htask
  | advances free => exact (paced task htask).advance free htask
  | breaksInSkip => cases htask
  | spawns =>
      rcases List.mem_append.mp htask with hold | hnew
      · exact paced task hold
      · cases List.mem_singleton.mp hnew
        trivial
  | turns live found turn =>
      rcases mem_tasks htask with hnext | ⟨hold, -⟩
      · exact paced_of_goesOn (s := s) (paced _ (mem_of_task? found).1) turn hnext
      · exact paced task hold

/-- Latencies always fit in the windows of the monitor. -/
theorem roomy_of_transition
    (h : Transition s action t)
    (paced : s.Paced)
    (roomy : s.monitor.Roomy farFuture) :
    t.monitor.Roomy farFuture := by
  cases h with
  | turns _ found turn => exact roomy_of_turn roomy (paced.tasks _ (mem_of_task? found).1) turn
  | _ => exact roomy

theorem paced_of_transition
    (h : Transition s action t)
    (paced : s.Paced) :
    t.Paced where
  numbered := numbered_of_transition h paced.numbered
  staged := staged_of_transition h paced.staged
  slots := by
    rw [State.settings, setup_of_transition h]
    exact paced.slots
  balances := balances_of_transition h paced.numbered
    (paced.balances (stage_ne_unwound (live_of_transition h)))
  tasks := pacedTask_of_transition h paced.tasks

/-- Every run keeps its pace. -/
theorem paced_of_reaches
    (run : Reaches s t)
    (paced : s.Paced) :
    t.Paced :=
  run.invariant paced_of_transition paced

end Steps

section Opening

variable {setup : Setup} {items : List Item} {checkpoint : Checkpoint} {throttle : Throttle}
  {registry : Registry} {monitor : Monitor} {clock : Nat}

theorem slots_pos
    {settings : Settings}
    (valid : settings.fault? = none) :
    0 < settings.slots := by
  unfold Settings.slots
  cases settings.mode with
  | sequential => exact Nat.one_pos
  | parallel =>
      refine Nat.pos_of_ne_zero fun hzero => ?_
      have hnone : settings.concurrency = 0 := hzero
      simp [Settings.fault?, hnone] at valid

theorem paced_opened
    (valid : setup.settings.fault? = none) :
    (State.opened setup items checkpoint throttle registry monitor clock).Paced where
  numbered := numbered_opened
  staged := staged_opened
  slots := slots_pos valid
  balances _ := rfl
  tasks _ htask := absurd htask List.not_mem_nil

end Opening

end Run
end BatchRun
