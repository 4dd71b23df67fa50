import BatchRun.Proofs.Run.Assignment
import BatchRun.Proofs.Run.Deadlines
import BatchRun.Proofs.Run.Narration

/-!
# Accounts of items

What a run does for each of its items: the work of a run merges the courses of the items that it
has taken, each in its own order.

**Types.**
`Task.Follows` reads off the phase of a task where its course stands, and `Ending` how a course has
ended.  `Reckoned` says that there is an account for each item that was taken, which fits what has
become of it.

**Results.**
* `follows_of_goesOn`, `done_of_files`, `breaks_of_loses`: a step of a task keeps to its course.
* `fits_of_turn`: the account of the item still fits after it.
* `reckoned_of_transition`: so do all accounts after a step of the run.
-/

namespace BatchRun

theorem Wait.le_tick
    (wait : Wait)
    (now : Nat) :
    now ≤ wait.tick now := by
  cases wait with
  | none => exact Nat.le_refl _
  | nanos | endless => exact Nat.le_add_right _ _

/-- An item is a duplicate of another one. -/
def Item.IsDuplicate (item : Item) : Prop :=
  item.status = .skipped ∧ ∃ firstId, item.skipReason = some (.duplicate firstId)

/-- An item was skipped because of a cancellation. -/
def Item.IsCancelled (item : Item) : Prop :=
  item.status = .skipped ∧ item.skipReason = some .cancelled

namespace Run

/-- An item that was not started has no course, or has just asked for its first token. -/
def NotBegun (retry : RetryPolicy) (input : Item) (course : List (Nat × Event)) : Prop :=
  course = [] ∨ ∃ attempts due, Course retry input attempts (.asked due) course

/-- How an item ends that was started, if the run halted at some time or did not. -/
inductive Ending (retry : RetryPolicy) (halted : Option Nat) (input item : Item) :
    List (Nat × Event) → Prop
  | succeeds {tick : Nat} {result : Json} {course : List (Nat × Event)}
      (stands : Course retry input item.attempts (.ended tick (.ok result)) course)
      (ends : item.status = .success ∧ item.result = some result ∨ item.IsDuplicate) :
      Ending retry halted input item course
  | fails {tick : Nat} {failure : AttemptFailure} {course : List (Nat × Event)}
      (stands : Course retry input item.attempts (.ended tick (.error failure)) course)
      (last : failure.isRetryable = false ∨ retry.maxAttempts ≤ item.attempts)
      (status : item.status = .failed) (cause : item.failure = some failure.toItemFailure) :
      Ending retry halted input item course
  | stopsInCall {since tick halt : Nat} {other : Item} {course : List (Nat × Event)}
      (stands : Course retry input item.attempts (.calling since) course)
      (own : other.origin = input.origin)
      (ends : item.IsCancelled) (halts : halted = some halt) (order : halt ≤ tick) :
      Ending retry halted input item (course ++ [(tick, .interrupted other)])
  | stopsInPause {tick halt due : Nat} {other : Item} {course : List (Nat × Event)}
      (stands : Course retry input item.attempts (.pausing due) course ∨
        Course retry input item.attempts (.reasked due) course)
      (own : other.origin = input.origin)
      (ends : item.IsCancelled) (halts : halted = some halt) (order : halt ≤ tick) :
      Ending retry halted input item (course ++ [(tick, .interrupted other)])

/-- Where the course of the item of a task stands. -/
def Task.Follows (s : State) (input : Item) (task : Task) (course : List (Nat × Event)) : Prop :=
  match task.phase with
  | .spawned => course = [] ∧ task.item.attempts = input.attempts
  | .throttled due => Course s.settings.retry input task.item.attempts (.asked due) course
  | .calling since => Course s.settings.retry input task.item.attempts (.calling since) course
  | .answered _ latency => ∃ since, since + latency = s.clock ∧
      Course s.settings.retry input task.item.attempts (.calling since) course
  | .pausing due => Course s.settings.retry input task.item.attempts (.pausing due) course
  | .rethrottled due => Course s.settings.retry input task.item.attempts (.reasked due) course
  | .comparing result => ∃ tick,
      Course s.settings.retry input task.item.attempts (.ended tick (.ok result)) course
  | .persisting => Ending s.settings.retry s.haltedAt input task.item course
  | .buffering => Ending s.settings.retry s.haltedAt input task.item course
  | .saving _ => Ending s.settings.retry s.haltedAt input task.item course
  | .finishing => Ending s.settings.retry s.haltedAt input task.item course

/-- An account fits what has become of its item. -/
def Account.Fits (s : State) (account : Account) : Prop :=
  match account.place with
  | .underway task => task.item.origin = account.input.origin ∧
      task.Follows s account.input account.course
  | .done item => item.origin = account.input.origin ∧
      (NotBegun s.settings.retry account.input account.course ∨
        Ending s.settings.retry s.haltedAt account.input item account.course)
  | .lost => s.fatal ≠ none ∧ ∃ attempts since,
      Course s.settings.retry account.input attempts (.calling since) account.course

section Turns

variable {s t : State} {task next : Task} {input item : Item} {move : Move} {effect : Effect}
  {course : List (Nat × Event)}

/-- An item that has its first token has asked for it. -/
theorem course_of_admits
    {throttle : Option Throttle} {events : List Event}
    (admits : Admits s task throttle events)
    (own : task.item.origin = input.origin)
    (follows : task.Follows s input course) :
    ∃ due, due ≤ s.clock ∧ Course s.settings.retry input task.item.attempts (.asked due)
      (course ++ s.timed events) := by
  cases admits with
  | atOnce phase =>
      simp only [Task.Follows, phase] at follows
      obtain ⟨rfl, fresh⟩ := follows
      exact ⟨s.clock, Nat.le_refl _, .asks own fresh (Nat.le_refl _)⟩
  | @afterWait due phase _ come =>
      simp only [Task.Follows, phase] at follows
      exact ⟨due, come, (List.append_nil course).symm ▸ follows⟩

theorem course_of_samples
    {outcome : Except AttemptFailure Json} {latency : Nat} {monitor : Monitor}
    (samples : Samples s task outcome latency monitor)
    (own : task.item.origin = input.origin)
    (follows : task.Follows s input course) :
    Course s.settings.retry input task.item.attempts (.ended s.clock outcome)
      (course ++ [(s.clock, .sampled task.item outcome latency)]) := by
  simp only [Task.Follows, samples.phase] at follows
  obtain ⟨since, hclock, calling⟩ := follows
  have hlatency : latency = s.clock - since := by omega
  rw [hlatency]
  exact .ends calling (by omega) own

/-- A failure that is not the last one is followed by the announcement of another attempt. -/
theorem course_of_again
    {failure : AttemptFailure} {latency : Nat} {monitor : Monitor}
    (samples : Samples s task (.error failure) latency monitor)
    (again : s.isLastFailure task failure = false)
    (own : task.item.origin = input.origin)
    (follows : task.Follows s input course) :
    Course s.settings.retry input task.item.attempts
      (.pausing (tickAfter s.clock (s.backoff task failure)))
      (course ++ [(s.clock, .sampled task.item (.error failure) latency),
        (s.clock, .retrying task.item failure (s.backoff task failure))]) := by
  have hretryable : failure.isRetryable = true := by
    simpa using (Bool.or_eq_false_iff.mp again).1
  have hpauses := Course.retries (course_of_samples samples own follows) hretryable
    (attempts_lt_of_again again) own
  rwa [List.append_assoc] at hpauses

theorem course_of_retries
    {monitor : Option Monitor} {events : List Event}
    (retries : Retries s task monitor events)
    (own : task.item.origin = input.origin)
    (follows : task.Follows s input course) :
    ∃ due, due ≤ s.clock ∧ Course s.settings.retry input task.item.attempts (.pausing due)
      (course ++ s.timed events) := by
  cases retries with
  | atOnce samples again _ delay =>
      refine ⟨_, ?_, course_of_again samples again own follows⟩
      rw [delay, tickAfter_zero]
  | @afterPause due phase _ come =>
      simp only [Task.Follows, phase] at follows
      exact ⟨due, come, (List.append_nil course).symm ▸ follows⟩

/-- A token for another attempt is asked for after the pause. -/
theorem course_of_rearms
    {monitor : Option Monitor} {events : List Event} {next : Nat}
    (retries : Retries s task monitor events)
    (own : task.item.origin = input.origin)
    (follows : task.Follows s input course)
    (wait : s.clock ≤ next) :
    Course s.settings.retry input task.item.attempts (.reasked next)
      (course ++ s.timed (events ++ [.reserved task.item next])) := by
  obtain ⟨due, come, pauses⟩ := course_of_retries retries own follows
  rw [timed_append, ← List.append_assoc]
  exact .reasks pauses come own wait

theorem isActive_of_interrupts
    {monitor : Option Monitor} {events : List Event}
    (stops : Interrupts s task move monitor events) :
    task.phase.isActive = true := by
  cases stops with
  | inCall phase => rw [phase]; rfl
  | inPause _ phase => rcases phase with phase | phase <;> rw [phase] <;> rfl
  | afterCall samples => exact isActive_of_samples samples

theorem ending_of_fails
    {failure : AttemptFailure} {moved : Except RejectedMove Item} {tick : Nat}
    (stands :
      Course s.settings.retry input task.item.attempts (.ended tick (.error failure)) course)
    (last : s.isLastFailure task failure = true)
    (processing : task.item.status = .processing)
    (fail : task.item.fail failure.toItemFailure s.stamp = moved)
    (halted : Option Nat) :
    Ending s.settings.retry halted input (settled task.item moved) course := by
  rw [Item.fail_of_canMoveTo _ (by rw [processing]; rfl)] at fail
  subst fail
  have hattempts : (task.item.moved .failed s.stamp).attempts = task.item.attempts :=
    Item.attempts_moved _
  refine .fails (hattempts ▸ stands) ?_ (Item.status_moved _) rfl
  have hlast : failure.isRetryable = false ∨ s.settings.retry.maxAttempts ≤ task.item.attempts := by
    simpa [State.isLastFailure] using last
  exact hattempts ▸ hlast

theorem ending_of_compares
    {result : Json} {registry : Option Registry} {moved : Except RejectedMove Item} {tick : Nat}
    (stands : Course s.settings.retry input task.item.attempts (.ended tick (.ok result)) course)
    (processing : task.item.status = .processing)
    (compares : Compares s task result registry moved)
    (halted : Option Nat) :
    Ending s.settings.retry halted input (settled task.item moved) course := by
  have hattempts := attempts_of_compares compares
  refine .succeeds (hattempts ▸ stands) ?_
  cases compares with
  | unchecked | first =>
      rw [Item.succeed_of_canMoveTo _ (by rw [processing]; rfl)]
      exact .inl ⟨Item.status_moved _, rfl⟩
  | duplicate =>
      rw [Item.skip_of_canMoveTo _ (by rw [processing]; rfl)]
      exact .inr ⟨Item.status_moved _, _, rfl⟩

theorem ending_of_interrupts
    {monitor : Option Monitor} {events : List Event} {moved : Except RejectedMove Item}
    {halted : Option Nat} {halt : Nat}
    (stops : Interrupts s task move monitor events)
    (own : task.item.origin = input.origin)
    (follows : task.Follows s input course)
    (processing : task.item.status = .processing)
    (halts : halted = some halt)
    (order : halt ≤ s.clock)
    (skip : task.item.skip .cancelled s.stamp = moved) :
    Ending s.settings.retry halted input (settled task.item moved)
      (course ++ s.timed (events ++ [.interrupted task.item])) := by
  have hattempts := attempts_of_skip skip
  rw [Item.skip_of_canMoveTo _ (by rw [processing]; rfl)] at skip
  subst skip
  have hends : Item.IsCancelled
      { task.item.moved .skipped s.stamp with skipReason := some .cancelled } :=
    ⟨Item.status_moved _, rfl⟩
  rw [timed_append, ← List.append_assoc]
  cases stops with
  | inCall phase =>
      simp only [Task.Follows, phase] at follows
      rw [← hattempts] at follows
      exact .stopsInCall ((List.append_nil course).symm ▸ follows) own hends halts order
  | inPause _ phase =>
      have hpauses : ∃ due, Course s.settings.retry input task.item.attempts (.pausing due) course ∨
          Course s.settings.retry input task.item.attempts (.reasked due) course := by
        rcases phase with phase | phase
        · simp only [Task.Follows, phase] at follows
          exact ⟨_, .inl follows⟩
        · simp only [Task.Follows, phase] at follows
          exact ⟨_, .inr follows⟩
      obtain ⟨due, hpauses⟩ := hpauses
      rw [← hattempts] at hpauses
      exact .stopsInPause ((List.append_nil course).symm ▸ hpauses) own hends halts order
  | afterCall samples again =>
      have hpauses := course_of_again samples again own follows
      rw [← hattempts] at hpauses
      exact .stopsInPause (.inl hpauses) own hends halts order

theorem follows_of_isEnding
    (ending : task.phase.isEnding = true) :
    task.Follows s input course ↔ Ending s.settings.retry s.haltedAt input task.item course := by
  unfold Task.Follows
  cases hphase : task.phase with
  | persisting | buffering | saving _ | finishing => rfl
  | _ => rw [hphase] at ending; cases ending

theorem follows_ended
    {moved : Except RejectedMove Item}
    (ending : Ending t.settings.retry t.haltedAt input (settled task.item moved) course) :
    (s.ended task moved).Follows t input course :=
  (follows_of_isEnding (isEnding_endingPhase s _)).mpr ending

/-- An item keeps its end as its record is written. -/
theorem Ending.located
    {retry : RetryPolicy} {halted : Option Nat} {location : String}
    (ending : Ending retry halted input item course) :
    Ending retry halted input { item with location := some location } course := by
  cases ending with
  | succeeds stands ends => exact .succeeds stands ends
  | fails stands last status cause => exact .fails stands last status cause
  | stopsInCall stands own ends halts order => exact .stopsInCall stands own ends halts order
  | stopsInPause stands own ends halts order => exact .stopsInPause stands own ends halts order

theorem Ending.mono
    {retry : RetryPolicy} {halted later : Option Nat}
    (ending : Ending retry halted input item course)
    (kept : ∀ halt, halted = some halt → later = some halt) :
    Ending retry later input item course := by
  cases ending with
  | succeeds stands ends => exact .succeeds stands ends
  | fails stands last status cause => exact .fails stands last status cause
  | stopsInCall stands own ends halts order =>
      exact .stopsInCall stands own ends (kept _ halts) order
  | stopsInPause stands own ends halts order =>
      exact .stopsInPause stands own ends (kept _ halts) order

theorem haltedAt_of_faulted
    {halt : Nat}
    (h : s.haltedAt = some halt)
    (faults : List RunFault) :
    (s.faulted faults).haltedAt = some halt := by
  show (if faults.isEmpty then s.haltedAt else s.haltedAt.or (some s.clock)) = _
  rw [h]
  exact ite_self _

/-- A task that goes on continues the course of its item by what is seen. -/
theorem follows_of_goesOn
    {items : List Item}
    (turn : Turn s task move effect)
    (timely : Timely items s task)
    (halts : ∀ halt, s.haltedAt = some halt → halt ≤ s.clock)
    (own : task.item.origin = input.origin)
    (follows : task.Follows s input course)
    (h : effect.fate = .goesOn next) :
    next.Follows (effect.apply s task.number) input (course ++ s.timed effect.events) := by
  cases turn with
  | turnsAway panic => cases panic <;> cases h
  | rejects | breaksAtStart | breaksInSample | breaksInRetry => cases h
  | @waits _ wait _ phase =>
      cases h
      simp only [Task.Follows, phase] at follows
      obtain ⟨rfl, fresh⟩ := follows
      exact .asks own fresh (wait.le_tick s.clock)
  | starts admits start =>
      cases h
      obtain ⟨due, come, asked⟩ := course_of_admits admits own follows
      obtain ⟨_, _, _, rfl⟩ := Item.start_eq_ok start
      rw [timed_append, ← List.append_assoc]
      exact .starts asked come own own rfl
  | @answers since _ outcome phase =>
      cases h
      simp only [Task.Follows, phase] at follows
      have hbegun := (timely.calls since phase).begun
      exact ⟨since, Nat.add_sub_of_le hbegun, (List.append_nil course).symm ▸ follows⟩
  | succeeds _ samples =>
      have hended := course_of_samples samples own follows
      cases h
      exact ⟨s.clock, hended⟩
  | fails _ samples last fail =>
      have hended := course_of_samples samples own follows
      have hprocessing := timely.active (isActive_of_samples samples)
      cases h
      exact follows_ended (s := s) (ending_of_fails hended last hprocessing fail _)
  | pauses samples again =>
      have hpauses := course_of_again samples again own follows
      cases h
      exact hpauses
  | @rewaits _ _ _ wait _ retries =>
      have hasked := course_of_rearms retries own follows (wait.le_tick s.clock)
      cases h
      exact hasked
  | @recalls _ events _ _ retries =>
      have hasked := course_of_rearms retries own follows (Nat.le_refl s.clock)
      have hevents :
          [Event.reserved task.item s.clock, .called task.item.beginAttempt s.callLimit] =
            [.reserved task.item s.clock] ++ [.called task.item.beginAttempt s.callLimit] := rfl
      cases h
      rw [hevents, ← List.append_assoc, timed_append, ← List.append_assoc]
      exact .recalls hasked (Nat.le_refl s.clock) own rfl
  | recallsAfterWait _ phase _ come =>
      cases h
      simp only [Task.Follows, phase] at follows
      exact .recalls follows come own rfl
  | interrupts stops skip =>
      have hprocessing := timely.active (isActive_of_interrupts stops)
      obtain ⟨halt, hhalt⟩ := Option.isSome_iff_exists.mp (Service.halted_of_interrupts stops)
      have hending :=
        ending_of_interrupts stops own follows hprocessing hhalt (halts halt hhalt) skip
      cases h
      exact follows_ended (s := s) (hending.mono fun halt h => haltedAt_of_faulted h _)
  | completes _ phase compares =>
      have hprocessing := timely.active (by rw [phase]; rfl)
      simp only [Task.Follows, phase] at follows
      obtain ⟨tick, stands⟩ := follows
      have hending := ending_of_compares stands hprocessing compares
      cases h
      exact follows_ended (s := s) ((List.append_nil course).symm ▸ hending _)
  | closes closing =>
      have hending := (follows_of_isEnding (isEnding_of_closing closing)).mp follows
      have hkept : Ending s.settings.retry (effect.apply s task.number).haltedAt input task.item
          course := hending.mono fun halt h => haltedAt_of_faulted h _
      cases closing with
      | finishes panic => cases panic <;> cases h
      | persists => cases h; exact (List.append_nil course).symm ▸ hkept.located
      | _ => cases h; exact (List.append_nil course).symm ▸ hkept

/-- A task that files its item has not begun it, or has come to its end. -/
theorem done_of_files
    {number : Nat}
    (turn : Turn s task move effect)
    (silent : (Action.task number move).message? = none)
    (own : task.item.origin = input.origin)
    (follows : task.Follows s input course)
    (h : effect.fate = .files item) :
    NotBegun s.settings.retry input (course ++ s.timed effect.events) ∨
      Ending s.settings.retry s.haltedAt input item (course ++ s.timed effect.events) := by
  cases turn with
  | turnsAway panic phase =>
      cases panic with
      | some message => cases h
      | none =>
          have hcourse : course ++ s.timed [.finished item] = course := List.append_nil course
          cases h
          rw [hcourse]
          rcases phase with phase | ⟨due, phase⟩
          · simp only [Task.Follows, phase] at follows
            exact .inl (.inl follows.1)
          · simp only [Task.Follows, phase] at follows
            exact .inl (.inr ⟨_, due, follows⟩)
  | rejects _ admits =>
      obtain ⟨due, -, asked⟩ := course_of_admits admits own follows
      exact .inl (.inr ⟨_, due, asked⟩)
  | closes closing =>
      have hending := (follows_of_isEnding (isEnding_of_closing closing)).mp follows
      cases closing with
      | finishes panic =>
          cases panic with
          | some message => cases silent
          | none =>
              cases h
              exact .inr ((List.append_nil course).symm ▸ hending)
      | _ => cases h
  | _ => cases h

/-- Without observers an item is lost only as its sample cannot be kept. -/
theorem breaks_of_loses
    {number : Nat}
    (turn : Turn s task move effect)
    (silent : (Action.task number move).message? = none)
    (h : effect.fate = .loses) :
    effect.events = [] ∧ ∃ outcome latency monitor fault, task.phase = .answered outcome latency ∧
      s.monitor.record s.settings.destination (sampleOf outcome latency)
        = (monitor, .error fault) := by
  cases turn with
  | turnsAway panic =>
      cases panic with
      | none => cases h
      | some message => cases silent
  | breaksAtStart | breaksInRetry => cases silent
  | breaksInSample _ phase record => exact ⟨rfl, _, _, _, _, phase, record⟩
  | closes closing =>
      cases closing with
      | finishes panic =>
          cases panic with
          | none => cases h
          | some message => cases silent
      | _ => cases h
  | _ => cases h

theorem calling_of_loses
    {number : Nat}
    (turn : Turn s task move effect)
    (silent : (Action.task number move).message? = none)
    (follows : task.Follows s input course)
    (h : effect.fate = .loses) :
    ∃ attempts since, Course s.settings.retry input attempts (.calling since)
      (course ++ s.timed effect.events) := by
  obtain ⟨hevents, outcome, latency, -, -, phase, -⟩ := breaks_of_loses turn silent h
  simp only [Task.Follows, phase] at follows
  obtain ⟨since, -, calling⟩ := follows
  rw [hevents]
  exact ⟨_, since, (List.append_nil course).symm ▸ calling⟩

/-- If there is room for all samples, no item is lost. -/
theorem fate_ne_loses
    {number : Nat}
    (turn : Turn s task move effect)
    (silent : (Action.task number move).message? = none)
    (paced : task.Paced s.settings.retry.maxAttempts s.clock)
    (roomy : s.monitor.Roomy farFuture) :
    effect.fate ≠ .loses := by
  intro h
  obtain ⟨-, outcome, latency, monitor, fault, phase, record⟩ := breaks_of_loses turn silent h
  obtain ⟨next, hrecord, -⟩ := record_of_answered roomy paced phase
  rw [record] at hrecord
  cases hrecord

/-- The account of an item after a step of its task. -/
theorem fits_of_turn
    {items : List Item} {number : Nat}
    (turn : Turn s task move effect)
    (silent : (Action.task task.number move).message? = none)
    (timely : Timely items s task)
    (halts : ∀ halt, s.haltedAt = some halt → halt ≤ s.clock)
    (fits : Account.Fits s ⟨input, number, .underway task, course⟩) :
    Account.Fits (effect.apply s task.number)
      ⟨input, number, effect.fate.place, course ++ s.timed effect.events⟩ := by
  obtain ⟨own, follows⟩ := fits
  cases hfate : effect.fate with
  | goesOn next =>
      exact ⟨(kept_of_goesOn turn hfate).origin.trans own,
        follows_of_goesOn turn timely halts own follows hfate⟩
  | files item =>
      refine ⟨(kept_of_files turn hfate).origin.trans own, ?_⟩
      rcases done_of_files turn silent own follows hfate with hidle | hending
      · exact .inl hidle
      · exact .inr (hending.mono fun halt h => haltedAt_of_faulted h _)
  | loses =>
      have hcalling := calling_of_loses turn silent follows hfate
      exact ⟨fatal_apply (faults_of_loses turn hfate), hcalling⟩

end Turns

/-- The work of a run so far, which has done some actions, merges the courses of the items that it
has taken. -/
structure Reckoned (first s : State) (past : List Action) (accounts : List Account) : Prop where
  inputs : (accounts.map Account.input ++ s.waiting).Perm first.waiting
  underway : (accounts.flatMap fun account => account.place.tasks).Perm s.tasks
  done : (accounts.flatMap fun account => account.place.items).Perm s.finished
  merged : Interleaves (accounts.map Account.course) s.work
  fits : ∀ account ∈ accounts, account.Fits s
  kept : first.monitor.Roomy farFuture → ∀ account ∈ accounts, account.place ≠ .lost
  assigned : Assigned first s past accounts

section Steps

variable {first s t : State} {action : Action} {past : List Action} {account : Account}
  {accounts others : List Account} {task : Task} {input : Item} {course : List (Nat × Event)}

theorem haltedAt_kept
    {halt : Nat}
    (h : Transition s action t)
    (halted : s.haltedAt = some halt) :
    t.haltedAt = some halt := by
  cases h with
  | cancels => simp [State.cancel, State.halt, halted]
  | turns | skips | breaksInSkip => exact haltedAt_of_faulted halted _
  | closesNot fault => exact haltedAt_of_faulted (s := s) halted [.checkpoint fault]
  | _ => exact halted

/-- A task that does nothing stays where its course stands. -/
theorem follows_frame
    (h : Transition s action t)
    (htask : task ∈ s.tasks)
    (follows : task.Follows s input course) :
    task.Follows t input course := by
  have hretry : t.settings.retry = s.settings.retry := by
    rw [State.settings, State.settings, setup_of_transition h]
  unfold Task.Follows at *
  rw [hretry]
  cases hphase : task.phase with
  | answered outcome latency =>
      simp only [hphase] at follows
      rcases clock_of_transition h with hclock | ⟨target, free, -⟩
      · rw [hclock]
        exact follows
      · -- Time does not pass before the outcome is judged.
        obtain ⟨due, hdue, -⟩ := due_of_canAdvance free htask (by rw [hphase]; rfl)
        simp [State.due?, hphase] at hdue
  | persisting | buffering | saving _ | finishing =>
      simp only [hphase] at follows
      exact follows.mono fun halt halted => haltedAt_kept h halted
  | _ => simpa only [hphase] using follows

theorem fits_frame
    (h : Transition s action t)
    (present : ∀ task ∈ account.place.tasks, task ∈ s.tasks)
    (fits : account.Fits s) :
    account.Fits t := by
  have hretry : t.settings.retry = s.settings.retry := by
    rw [State.settings, State.settings, setup_of_transition h]
  unfold Account.Fits at *
  cases hplace : account.place with
  | underway task =>
      simp only [hplace] at fits
      rw [hplace] at present
      exact ⟨fits.1, follows_frame h (present task (List.mem_singleton.mpr rfl)) fits.2⟩
  | done item =>
      simp only [hplace] at fits
      rw [hretry]
      obtain ⟨own, hidle | hending⟩ := fits
      · exact ⟨own, .inl hidle⟩
      · exact ⟨own, .inr (hending.mono fun halt halted => haltedAt_kept h halted)⟩
  | lost =>
      simp only [hplace] at fits
      rw [hretry]
      refine ⟨fun hnone => fits.1 (fatal_of_transition h hnone), fits.2⟩

theorem Reckoned.of_perm
    (reckoned : Reckoned first s past accounts)
    (perm : accounts.Perm others) :
    Reckoned first s past others where
  inputs := ((perm.map Account.input).symm.append_right s.waiting).trans reckoned.inputs
  underway := (perm.flatMap_right _).symm.trans reckoned.underway
  done := (perm.flatMap_right _).symm.trans reckoned.done
  merged := reckoned.merged.of_perm (perm.map Account.course)
  fits account haccount := reckoned.fits account (perm.mem_iff.mpr haccount)
  kept roomy account haccount := reckoned.kept roomy account (perm.mem_iff.mpr haccount)
  assigned := reckoned.assigned.of_perm perm

theorem fits_after
    (h : Transition s action t)
    (reckoned : Reckoned first s past accounts)
    (haccount : account ∈ accounts) :
    account.Fits t := by
  refine fits_frame h (fun task htask => ?_) (reckoned.fits account haccount)
  exact reckoned.underway.mem_iff.mp (List.mem_flatMap.mpr ⟨account, haccount, htask⟩)

/-- A step that takes up no item and ends no call leaves the accounts as they are. -/
theorem Reckoned.keep
    (reckoned : Reckoned first s past accounts)
    (h : Transition s action t)
    (idle : ∀ timeout number, action.outcome? timeout number = none)
    (waiting : t.waiting = s.waiting)
    (dispatched : t.dispatched = s.dispatched)
    (tasks : t.tasks = s.tasks)
    (finished : t.finished = s.finished)
    (work : t.work = s.work) :
    Reckoned first t (past ++ [action]) accounts where
  inputs := waiting ▸ reckoned.inputs
  underway := tasks ▸ reckoned.underway
  done := finished ▸ reckoned.done
  merged := work ▸ reckoned.merged
  fits _ haccount := fits_after h reckoned haccount
  kept := reckoned.kept
  assigned := reckoned.assigned.keep h idle waiting dispatched

/-- A step that takes up an item opens an account. -/
theorem Reckoned.open
    (reckoned : Reckoned first s past accounts)
    (h : Transition s action t)
    (place : Whereabouts)
    (assigned : Assigned first t (past ++ [action])
      (⟨input, accounts.length, place, []⟩ :: accounts))
    (present : place ≠ .lost)
    (waiting : s.waiting = input :: t.waiting)
    (tasks : t.tasks = s.tasks ++ place.tasks)
    (finished : t.finished = s.finished ++ place.items)
    (work : t.work = s.work)
    (fits : Account.Fits t ⟨input, accounts.length, place, []⟩) :
    Reckoned first t (past ++ [action]) (⟨input, accounts.length, place, []⟩ :: accounts) where
  inputs := by
    refine List.Perm.trans ?_ reckoned.inputs
    rw [waiting]
    exact List.perm_middle.symm
  underway := by
    rw [tasks, List.flatMap_cons]
    exact List.perm_append_comm.trans (reckoned.underway.append_right _)
  done := by
    rw [finished, List.flatMap_cons]
    exact List.perm_append_comm.trans (reckoned.done.append_right _)
  merged := work ▸ reckoned.merged.cons_nil
  fits account haccount := by
    rcases List.mem_cons.mp haccount with rfl | hold
    · exact fits
    · exact fits_after h reckoned hold
  kept roomy account haccount := by
    rcases List.mem_cons.mp haccount with rfl | hold
    · exact present
    · exact reckoned.kept roomy account hold
  assigned := assigned

/-- A step of a task changes the account of its item alone. -/
theorem reckoned_of_turn
    {effect : Effect}
    (reckoned : Reckoned first s past (⟨input, task.number, .underway task, course⟩ :: others))
    (h : Transition s action (effect.apply s task.number))
    (numbered : Numbered s)
    (htask : task ∈ s.tasks)
    (fits : Account.Fits (effect.apply s task.number)
      ⟨input, task.number, effect.fate.place, course ++ s.timed effect.events⟩)
    (kept : first.monitor.Roomy farFuture → effect.fate ≠ .loses)
    (assigned : Assigned first (effect.apply s task.number) (past ++ [action])
      (⟨input, task.number, effect.fate.place, course ++ s.timed effect.events⟩ :: others)) :
    Reckoned first (effect.apply s task.number) (past ++ [action])
      (⟨input, task.number, effect.fate.place, course ++ s.timed effect.events⟩ :: others) where
  inputs := reckoned.inputs
  underway := by
    obtain ⟨rest, hbefore, hafter⟩ :=
      flatMap_tasks (fun task => [task]) effect.fate numbered.distinct htask
    rw [List.flatMap_singleton'] at hbefore hafter
    have hothers : (others.flatMap fun account => account.place.tasks).Perm rest :=
      (reckoned.underway.trans hbefore).cons_inv
    have hplace : effect.fate.place.tasks = effect.fate.gather fun task => [task] := by
      cases effect.fate <;> rfl
    refine List.Perm.trans ?_ hafter.symm
    rw [List.flatMap_cons, hplace]
    exact hothers.append_left _
  done := by
    have hplace : effect.fate.place.items = effect.fate.filed := by
      cases effect.fate <;> rfl
    rw [List.flatMap_cons, hplace]
    exact List.perm_append_comm.trans (reckoned.done.append_right _)
  merged := by
    rw [work_of_turn]
    exact reckoned.merged.append _
  fits account haccount := by
    rcases List.mem_cons.mp haccount with rfl | hold
    · exact fits
    · exact fits_after h reckoned (List.mem_cons_of_mem _ hold)
  kept roomy account haccount := by
    rcases List.mem_cons.mp haccount with rfl | hold
    · intro hlost
      cases hfate : effect.fate with
      | goesOn | files => rw [hfate] at hlost; cases hlost
      | loses => exact kept roomy hfate
    · exact reckoned.kept roomy account (List.mem_cons_of_mem _ hold)
  assigned := assigned

/-- A task has an account with its number, which can be put first. -/
theorem exists_account
    (reckoned : Reckoned first s past accounts)
    (htask : task ∈ s.tasks) :
    ∃ input course others,
      accounts.Perm (⟨input, task.number, .underway task, course⟩ :: others) := by
  obtain ⟨⟨input, number, place, course⟩, haccount, hplace⟩ :=
    List.mem_flatMap.mp (reckoned.underway.mem_iff.mpr htask)
  have hnumber : task.number = number := reckoned.assigned.tasks _ haccount task hplace
  obtain ⟨before, after, rfl⟩ := List.append_of_mem haccount
  cases place with
  | underway other =>
      cases List.mem_singleton.mp hplace
      exact ⟨input, course, before ++ after, hnumber ▸ List.perm_middle⟩
  | done | lost => cases hplace

/-- Each step keeps the accounts of a run, if no observer breaks off. -/
theorem reckoned_of_transition
    {items : List Item}
    (h : Transition s action t)
    (silent : action.message? = none)
    (limit : s.settings.itemTimeout = first.settings.itemTimeout)
    (clocked : Clocked items s)
    (paced : s.Paced)
    (roomy : first.monitor.Roomy farFuture → s.monitor.Roomy farFuture)
    (reckoned : Reckoned first s past accounts) :
    ∃ accounts, Reckoned first t (past ++ [action]) accounts := by
  have hstep := h
  cases h with
  | advances | cancels | takesPermit | flushes | leaves | closesNot =>
      exact ⟨accounts, reckoned.keep hstep (fun _ _ => rfl) rfl rfl rfl rfl rfl⟩
  | @closes batch =>
      exact ⟨accounts, reckoned.keep hstep (fun _ _ => rfl) rfl rfl rfl rfl
        (work_seen_of_idle (s := { s with saved := s.saved.recordAll batch }) rfl)⟩
  | breaksInSkip => cases silent
  | @skips item rest moved _ waiting stop _ empty skip =>
      have hown := (kept_of_skip skip).1.origin
      have hstopped : ¬ (s.stopped = false ∨ s.holding = true) := by
        simp [stop, empty]
      refine ⟨_, reckoned.open hstep (.done (settled item moved)) ?_ (fun h => by cases h)
        waiting (List.append_nil _).symm rfl (work_seen_of_idle (s := s) rfl)
        ⟨hown, .inl (.inl rfl)⟩⟩
      exact reckoned.assigned.open (fun _ _ => rfl) waiting (fun _ h => absurd h List.not_mem_nil)
        rfl fun going => absurd (going_of_transition hstep going) hstopped
  | @spawns item rest _ waiting holds =>
      have hnumber := reckoned.assigned.dispatched (.inr holds)
      refine ⟨_, reckoned.open hstep (.underway { number := s.dispatched, item }) ?_
        (fun h => by cases h) waiting rfl (List.append_nil _).symm rfl ⟨rfl, rfl, rfl⟩⟩
      exact reckoned.assigned.open (fun _ _ => rfl) waiting
        (fun task htask => List.mem_singleton.mp htask ▸ hnumber) rfl
        fun _ => congrArg (· + 1) hnumber
  | @turns task move effect _ found turn =>
      have htask := (mem_of_task? found).1
      obtain ⟨input, course, others, hperm⟩ := exists_account reckoned htask
      have hfirst := reckoned.of_perm hperm
      have hfits := fits_of_turn turn silent (clocked.tasks task htask) clocked.halted
        (hfirst.fits _ List.mem_cons_self)
      have hkept : first.monitor.Roomy farFuture → effect.fate ≠ .loses := fun room =>
        fate_ne_loses turn silent (paced.tasks task htask) (roomy room)
      exact ⟨_, reckoned_of_turn hfirst hstep clocked.numbered htask hfits hkept
        (hfirst.assigned.turn limit hstep turn silent)⟩

end Steps

end Run
end BatchRun
