import BatchRun.Proofs.Run.Accounts

/-!
# Attempts for items

Each item that a run starts is attempted once, and again as long as it fails in a way that may
pass, the number of attempts allows it, and the run goes on.

**Types.**
`Finish` says how an item ends, by the outcome of its last attempt.  `Attempted` puts together what
a run has done for all its items, each of which has an account of its own, with the outcomes of the
calls of its own task.

**Results.**
* `conduct_of_ending`, `finish_of_ending`: an item that has ended was attempted as it should be.
* `conducts_of_fits`: so are the items whose accounts fit.
* `attempted_of_follow?`: every run attempts its items so.
* `early_of_longPause`: a pause of more than thirty years is cut short, and an item is lost if its
  sample cannot be kept.
-/

namespace BatchRun
namespace Run

/-- How a new item has ended that was started. -/
structure Finish (retry : RetryPolicy) (halted : Option Nat) (item : Item)
    (course : List (Nat × Event)) : Prop where
  succeeds : item.status = .success ∨ item.IsDuplicate ↔
    ∃ result, lastOutcome course = some (.ok result)
  result : ∀ result, item.status = .success → lastOutcome course = some (.ok result) →
    item.result = some result
  /-- The last attempt has failed for good, or was the last one that is allowed. -/
  fails : item.status = .failed ↔ ∃ failure, lastOutcome course = some (.error failure) ∧
    (failure.isRetryable = false ∨ item.attempts = retry.maxAttempts)
  cause : ∀ failure, item.status = .failed → lastOutcome course = some (.error failure) →
    item.failure = some failure.toItemFailure
  otherwise : item.IsCancelled ↔
    ¬ (item.status = .success ∨ item.IsDuplicate) ∧ item.status ≠ .failed
  /-- An item is cancelled only after the run has halted. -/
  halts : item.IsCancelled → ∃ earlier tick other halt,
    course = earlier ++ [(tick, .interrupted other)] ∧ halted = some halt ∧ halt ≤ tick
  /-- An attempt without an outcome was given up. -/
  givenUp : lastOutcome course = none → ∃ earlier began tick called other limit,
    course = earlier ++ [(began, .called called limit), (tick, .interrupted other)]

section Endings

variable {retry : RetryPolicy} {halted : Option Nat} {input item : Item}
  {course : List (Nat × Event)}

theorem lastOutcome_interrupted
    (tick : Nat)
    (other : Item) :
    lastOutcome (course ++ [(tick, .interrupted other)]) = lastOutcome course :=
  lastOutcome_concat

/-- What has ended is a course, which may have been interrupted. -/
theorem course_of_ending
    (ending : Ending retry halted input item course) :
    ∃ point earlier, Course retry input item.attempts point earlier ∧
      (course = earlier ∨ ∃ tick other, other.origin = input.origin ∧
        course = earlier ++ [(tick, .interrupted other)]) := by
  cases ending with
  | succeeds stands | fails stands => exact ⟨_, _, stands, .inl rfl⟩
  | stopsInCall stands own => exact ⟨_, _, stands, .inr ⟨_, _, own, rfl⟩⟩
  | stopsInPause stands own =>
      rcases stands with pauses | asks
      · exact ⟨_, _, pauses, .inr ⟨_, _, own, rfl⟩⟩
      · exact ⟨_, _, asks, .inr ⟨_, _, own, rfl⟩⟩

theorem own_of_ending
    (ending : Ending retry halted input item course) :
    ∀ entry ∈ course, ∃ other, entry.2.worked? = some other ∧ other.origin = input.origin := by
  obtain ⟨point, earlier, stands, rfl | ⟨tick, other, own, rfl⟩⟩ := course_of_ending ending
  · exact own_of_course stands
  · intro entry hentry
    rcases List.mem_append.mp hentry with hold | hnew
    · exact own_of_course stands entry hold
    · cases List.mem_singleton.mp hnew
      exact ⟨other, rfl, own⟩

/-- A new item that has ended was attempted in order. -/
theorem conduct_of_ending
    (fresh : input.attempts = 0)
    (positive : 0 < retry.maxAttempts)
    (ending : Ending retry halted input item course) :
    Conduct retry item.attempts course := by
  obtain ⟨point, earlier, stands, rfl | ⟨tick, other, -, rfl⟩⟩ := course_of_ending ending
  · exact conduct_of_course fresh positive stands
  · exact (conduct_of_course fresh positive stands).quiet rfl rfl

theorem not_cancelled_of_succeeds
    (ends : item.status = .success ∨ item.IsDuplicate) :
    ¬ item.IsCancelled ∧ item.status ≠ .failed := by
  rcases ends with hsuccess | ⟨hskipped, firstId, hreason⟩
  · constructor
    · rintro ⟨hskipped, -⟩
      cases hsuccess.symm.trans hskipped
    · intro hfailed
      cases hsuccess.symm.trans hfailed
  · constructor
    · rintro ⟨-, hcancelled⟩
      cases hreason.symm.trans hcancelled
    · intro hfailed
      cases hskipped.symm.trans hfailed

/-- An item whose attempts came to a result. -/
theorem finish_of_result
    {result : Json}
    (outcome : lastOutcome course = some (.ok result))
    (ends : item.status = .success ∧ item.result = some result ∨ item.IsDuplicate) :
    Finish retry halted item course := by
  have hends : item.status = .success ∨ item.IsDuplicate := ends.imp_left And.left
  obtain ⟨hcancelled, hfailed⟩ := not_cancelled_of_succeeds hends
  have hnotError : ∀ failure, lastOutcome course ≠ some (.error failure) := by
    intro failure hother
    cases outcome.symm.trans hother
  exact
    { succeeds := ⟨fun _ => ⟨result, outcome⟩, fun _ => hends⟩
      result := fun other status hother => by
        cases outcome.symm.trans hother
        rcases ends with ⟨-, hresult⟩ | ⟨hskipped, -⟩
        · exact hresult
        · cases hskipped.symm.trans status
      fails := ⟨fun h => absurd h hfailed, fun ⟨failure, hother, _⟩ =>
        absurd hother (hnotError failure)⟩
      cause := fun _ h => absurd h hfailed
      otherwise := ⟨fun h => absurd h hcancelled, fun h => absurd hends h.1⟩
      halts := fun h => absurd h hcancelled
      givenUp := fun hnone => by cases outcome.symm.trans hnone }

/-- An item whose last attempt has failed. -/
theorem finish_of_failure
    {failure : AttemptFailure}
    (outcome : lastOutcome course = some (.error failure))
    (last : failure.isRetryable = false ∨ item.attempts = retry.maxAttempts)
    (status : item.status = .failed)
    (cause : item.failure = some failure.toItemFailure) :
    Finish retry halted item course := by
  have hends : ¬ (item.status = .success ∨ item.IsDuplicate) := fun h =>
    (not_cancelled_of_succeeds h).2 status
  have hcancelled : ¬ item.IsCancelled := fun h => by cases status.symm.trans h.1
  have hnotOk : ∀ result, lastOutcome course ≠ some (.ok result) := by
    intro result hother
    cases outcome.symm.trans hother
  exact
    { succeeds := ⟨fun h => absurd h hends, fun ⟨result, hother⟩ => absurd hother (hnotOk result)⟩
      result := fun _ h => absurd (.inl h) hends
      fails := ⟨fun _ => ⟨failure, outcome, last⟩, fun _ => status⟩
      cause := fun other _ hother => by
        cases outcome.symm.trans hother
        exact cause
      otherwise := ⟨fun h => absurd h hcancelled, fun h => absurd status h.2⟩
      halts := fun h => absurd h hcancelled
      givenUp := fun hnone => by cases outcome.symm.trans hnone }

/-- An item that was cancelled: in an attempt, or before another one. -/
theorem finish_of_cancelled
    (ends : item.IsCancelled)
    (halts : ∃ earlier tick other halt,
      course = earlier ++ [(tick, .interrupted other)] ∧ halted = some halt ∧ halt ≤ tick)
    (again : ∀ outcome, lastOutcome course = some outcome → ∃ failure, outcome = .error failure ∧
      failure.isRetryable = true ∧ item.attempts < retry.maxAttempts)
    (givenUp : lastOutcome course = none → ∃ earlier began tick called other limit,
      course = earlier ++ [(began, .called called limit), (tick, .interrupted other)]) :
    Finish retry halted item course := by
  have hends : ¬ (item.status = .success ∨ item.IsDuplicate) := fun h =>
    (not_cancelled_of_succeeds h).1 ends
  have hfailed : item.status ≠ .failed := fun h => by cases ends.1.symm.trans h
  have hnotOk : ∀ result, lastOutcome course ≠ some (.ok result) := by
    intro result hother
    obtain ⟨failure, hfailure, -⟩ := again _ hother
    cases hfailure
  have hnotLast : ∀ failure, lastOutcome course = some (.error failure) →
      ¬ (failure.isRetryable = false ∨ item.attempts = retry.maxAttempts) := by
    intro failure hother hlast
    obtain ⟨_, hfailure, hretryable, hmore⟩ := again _ hother
    cases hfailure
    rcases hlast with hfinal | hmost
    · cases hretryable.symm.trans hfinal
    · exact absurd hmost (Nat.ne_of_lt hmore)
  exact
    { succeeds := ⟨fun h => absurd h hends, fun ⟨result, hother⟩ => absurd hother (hnotOk result)⟩
      result := fun _ h => absurd (.inl h) hends
      fails := ⟨fun h => absurd h hfailed, fun ⟨failure, hother, hlast⟩ =>
        absurd hlast (hnotLast failure hother)⟩
      cause := fun _ h => absurd h hfailed
      otherwise := ⟨fun _ => ⟨hends, hfailed⟩, fun _ => ends⟩
      halts := fun _ => halts
      givenUp := givenUp }

theorem finish_of_ending
    (fresh : input.attempts = 0)
    (positive : 0 < retry.maxAttempts)
    (ending : Ending retry halted input item course) :
    Finish retry halted item course := by
  have hwithin := (conduct_of_ending fresh positive ending).within
  cases ending with
  | succeeds stands ends => exact finish_of_result (lastOutcome_of_ended stands) ends
  | fails stands last status cause =>
      refine finish_of_failure (lastOutcome_of_ended stands) ?_ status cause
      exact last.imp_right fun hmost => Nat.le_antisymm hwithin hmost
  | @stopsInCall _ tick _ other _ stands _ ends halts order =>
      have hnone := (lastOutcome_interrupted tick other).trans (lastOutcome_of_calling stands)
      refine finish_of_cancelled ends ⟨_, _, _, _, rfl, halts, order⟩ (fun outcome h => ?_) ?_
      · cases hnone.symm.trans h
      · intro _
        obtain ⟨earlier, called, limit, rfl, -⟩ := exists_of_calling stands
        exact ⟨earlier, _, _, called, _, limit, List.append_assoc _ _ _⟩
  | @stopsInPause tick _ due other earlier stands _ ends halts order =>
      have hrests : Rests retry item.attempts due earlier :=
        stands.elim rests_of_pausing rests_of_reasked
      obtain ⟨more, ⟨failure, houtcome, again⟩, -⟩ := hrests
      have hlast := (lastOutcome_interrupted tick other).trans houtcome
      refine finish_of_cancelled ends ⟨_, _, _, _, rfl, halts, order⟩ (fun outcome h => ?_) ?_
      · cases hlast.symm.trans h
        exact ⟨failure, rfl, again, more⟩
      · intro hnone
        cases hlast.symm.trans hnone

end Endings

/-- Whether an item was started. -/
def Account.isStarted (account : Account) : Bool :=
  account.course.any fun entry => entry.2.isStart

/-- An account is about the item that it names. -/
structure Account.Owned (account : Account) : Prop where
  tasks : ∀ task ∈ account.place.tasks, task.item.origin = account.input.origin
  items : ∀ item ∈ account.place.items, item.origin = account.input.origin
  course : ∀ entry ∈ account.course, ∃ item, entry.2.worked? = some item ∧
    item.origin = account.input.origin

/-- How a new item is attempted, wherever it is now. -/
def Account.Conducts (s : State) (account : Account) : Prop :=
  match account.place with
  | .underway task => s.stage.isLive = true ∧
      Conduct s.settings.retry task.item.attempts account.course
  | .done item => Conduct s.settings.retry item.attempts account.course ∧
      Finish s.settings.retry s.haltedAt item account.course
  | .lost => s.fatal ≠ none ∧ lastOutcome account.course = none ∧
      ∃ attempts, Conduct s.settings.retry attempts account.course

/-- What a run has done for all the items that it has taken, each of which has an account. -/
structure Attempted (first last : State) (actions : List Action) (accounts : List Account) :
    Prop where
  setup : last.setup = first.setup
  terminates : Terminates first
  inputs : (accounts.map Account.input ++ last.waiting).Perm first.waiting
  underway : (accounts.flatMap fun account => account.place.tasks).Perm last.tasks
  done : (accounts.flatMap fun account => account.place.items).Perm last.finished
  merged : Interleaves (accounts.map Account.course) last.work
  owned : ∀ account ∈ accounts, account.Owned
  conducts : ∀ account ∈ accounts, account.input.attempts = 0 → account.isStarted = true →
    account.Conducts last
  /-- Each request that is seen has withdrawn a token of the destination. -/
  tokens : Through (Grants last.settings.destination) first.throttle (requestsIn last.work)
    last.throttle
  /-- If there is room for it, each sample that is seen was recorded, and no item is lost. -/
  samples : first.monitor.Roomy farFuture →
    Through (Records last.settings.destination) first.monitor (samplesIn last.work) last.monitor ∧
      ∀ account ∈ accounts, account.place ≠ .lost
  /-- Each account has the number of its task, and the outcomes of the calls of this task. -/
  outcomes : Assigned first last actions accounts

section Accounts

variable {s : State} {task : Task} {input item : Item} {course : List (Nat × Event)}
  {account : Account}

theorem own_of_notBegun
    {retry : RetryPolicy}
    (idle : NotBegun retry input course) :
    ∀ entry ∈ course, ∃ item, entry.2.worked? = some item ∧ item.origin = input.origin := by
  rcases idle with rfl | ⟨attempts, due, asked⟩
  · exact fun _ hentry => absurd hentry List.not_mem_nil
  · exact own_of_course asked

/-- An item that has not begun was not started. -/
theorem not_started_of_notBegun
    {retry : RetryPolicy}
    (idle : NotBegun retry input course) :
    (course.any fun entry => entry.2.isStart) = false := by
  rcases idle with rfl | ⟨attempts, due, asked⟩
  · rfl
  · obtain ⟨-, tick, item, rfl, -⟩ := exists_of_asked asked
    rfl

/-- The item of a task has not begun, stands in its course, or has ended. -/
theorem course_of_follows
    (follows : task.Follows s input course) :
    (course = [] ∧ task.item.attempts = input.attempts) ∨
      (∃ point, Course s.settings.retry input task.item.attempts point course) ∨
        Ending s.settings.retry s.haltedAt input task.item course := by
  unfold Task.Follows at follows
  cases hphase : task.phase with
  | spawned =>
      simp only [hphase] at follows
      exact .inl follows
  | throttled | calling | pausing | rethrottled =>
      simp only [hphase] at follows
      exact .inr (.inl ⟨_, follows⟩)
  | answered =>
      simp only [hphase] at follows
      obtain ⟨since, -, calling⟩ := follows
      exact .inr (.inl ⟨_, calling⟩)
  | comparing =>
      simp only [hphase] at follows
      obtain ⟨tick, ended⟩ := follows
      exact .inr (.inl ⟨_, ended⟩)
  | persisting | buffering | saving | finishing =>
      simp only [hphase] at follows
      exact .inr (.inr follows)

theorem own_of_follows
    (follows : task.Follows s input course) :
    ∀ entry ∈ course, ∃ item, entry.2.worked? = some item ∧ item.origin = input.origin := by
  rcases course_of_follows follows with ⟨rfl, -⟩ | ⟨point, stands⟩ | ending
  · exact fun _ hentry => absurd hentry List.not_mem_nil
  · exact own_of_course stands
  · exact own_of_ending ending

/-- The new item of a task is attempted in order. -/
theorem conduct_of_follows
    (fresh : input.attempts = 0)
    (positive : 0 < s.settings.retry.maxAttempts)
    (follows : task.Follows s input course) :
    Conduct s.settings.retry task.item.attempts course := by
  rcases course_of_follows follows with ⟨rfl, same⟩ | ⟨point, stands⟩ | ending
  · rw [same, fresh]
    exact conduct_nil
  · exact conduct_of_course fresh positive stands
  · exact conduct_of_ending fresh positive ending

theorem owned_of_fits
    (fits : account.Fits s) :
    account.Owned := by
  obtain ⟨input, number, place, course⟩ := account
  cases place with
  | underway task =>
      refine ⟨fun other hother => ?_, fun _ hitem => (by cases hitem), own_of_follows fits.2⟩
      cases List.mem_singleton.mp hother
      exact fits.1
  | done item =>
      refine ⟨fun _ htask => (by cases htask), fun other hother => ?_,
        fits.2.elim own_of_notBegun own_of_ending⟩
      cases List.mem_singleton.mp hother
      exact fits.1
  | lost =>
      obtain ⟨-, attempts, since, calling⟩ := fits
      exact ⟨fun _ htask => (by cases htask), fun _ hitem => (by cases hitem),
        own_of_course calling⟩

/-- A new item whose account fits is attempted as it should be. -/
theorem conducts_of_fits
    (fits : account.Fits s)
    (fresh : account.input.attempts = 0)
    (positive : 0 < s.settings.retry.maxAttempts)
    (started : account.isStarted = true)
    (live : ∀ task ∈ account.place.tasks, s.stage.isLive = true) :
    account.Conducts s := by
  obtain ⟨input, number, place, course⟩ := account
  cases place with
  | underway task =>
      exact ⟨live task (List.mem_singleton.mpr rfl), conduct_of_follows fresh positive fits.2⟩
  | done item =>
      rcases fits.2 with hidle | hending
      · cases started.symm.trans (not_started_of_notBegun hidle)
      · exact ⟨conduct_of_ending fresh positive hending, finish_of_ending fresh positive hending⟩
  | lost =>
      obtain ⟨fatal, attempts, since, calling⟩ := fits
      exact ⟨fatal, lastOutcome_of_calling calling, attempts,
        conduct_of_course fresh positive calling⟩

end Accounts

section Runs

variable {setup : Setup} {items : List Item} {checkpoint : Checkpoint} {throttle : Throttle}
  {registry : Registry} {monitor : Monitor} {clock : Nat} {first last : State}
  {actions : List Action}

/-- What is kept of a run that attempts its items, after some actions. -/
structure Attempting (items : List Item) (first : State) (past : List Action) (s : State) :
    Prop where
  setup : s.setup = first.setup
  clocked : Clocked items s
  paced : s.Paced
  roomy : first.monitor.Roomy farFuture → s.monitor.Roomy farFuture
  reckoned : ∃ accounts, Reckoned first s past accounts
  tokens : Through (Grants s.settings.destination) first.throttle (requestsIn s.work) s.throttle
  samples : first.monitor.Roomy farFuture →
    Through (Records s.settings.destination) first.monitor (samplesIn s.work) s.monitor

theorem attempting_of_transition
    {s t : State} {action : Action} {past : List Action}
    (h : Transition s action t)
    (silent : action.message? = none)
    (attempting : Attempting items first past s) :
    Attempting items first (past ++ [action]) t where
  setup := (setup_of_transition h).trans attempting.setup
  clocked := clocked_of_transition h attempting.clocked
  paced := paced_of_transition h attempting.paced
  roomy room := roomy_of_transition h attempting.paced (attempting.roomy room)
  reckoned := by
    obtain ⟨accounts, reckoned⟩ := attempting.reckoned
    have hlimit : s.settings.itemTimeout = first.settings.itemTimeout := by
      rw [State.settings, State.settings, attempting.setup]
    exact reckoned_of_transition h silent hlimit attempting.clocked attempting.paced
      attempting.roomy reckoned
  tokens := granted_of_transition h attempting.tokens
  samples room :=
    metered_of_transition h attempting.paced (attempting.roomy room) (attempting.samples room)

theorem attempting_opened
    (valid : setup.settings.fault? = none) :
    Attempting items (.opened setup items checkpoint throttle registry monitor clock) []
      (.opened setup items checkpoint throttle registry monitor clock) where
  setup := rfl
  clocked := clocked_opened
  paced := paced_opened valid
  roomy room := room
  reckoned := ⟨[],
    { inputs := .refl _
      underway := .refl _
      done := .refl _
      merged := .silent fun _ h => absurd h List.not_mem_nil
      fits := fun _ h => absurd h List.not_mem_nil
      kept := fun _ _ h => absurd h List.not_mem_nil
      assigned := assigned_nil rfl rfl }⟩
  tokens := .here
  samples _ := .here

/-- Every run attempts its items in order, as long as no observer breaks off. -/
theorem attempted_of_follow?
    {saved : Except CheckpointFault Checkpoint}
    (opened : State.initial? setup items saved throttle registry monitor clock = .ok first)
    (silent : ∀ action ∈ actions, action.message? = none)
    (run : first.follow? actions = some last) :
    ∃ accounts, Attempted first last actions accounts := by
  obtain ⟨checkpoint, -, hvalid, rfl⟩ := opened_of_initial? opened
  have hattempting := history_of_follow? [] attempting_of_transition run silent
    (attempting_opened hvalid)
  obtain ⟨accounts, reckoned⟩ := hattempting.reckoned
  have hpositive : 0 < last.settings.retry.maxAttempts := by
    rw [State.settings, hattempting.setup]
    exact maxAttempts_pos hvalid
  refine ⟨accounts,
    { setup := hattempting.setup
      terminates := terminates_of_paced (paced_opened hvalid)
      inputs := reckoned.inputs
      underway := reckoned.underway
      done := reckoned.done
      merged := reckoned.merged
      owned := fun account haccount => owned_of_fits (reckoned.fits account haccount)
      conducts := fun account haccount fresh started => ?_
      tokens := hattempting.tokens
      samples := fun room => ⟨hattempting.samples room, reckoned.kept room⟩
      outcomes := reckoned.assigned }⟩
  refine conducts_of_fits (reckoned.fits account haccount) fresh hpositive started ?_
  intro task htask
  have hmem := reckoned.underway.mem_iff.mp (List.mem_flatMap.mpr ⟨account, haccount, htask⟩)
  exact live_of_task hattempting.clocked hmem

/-- Two items at a time, ten requests a second, and two attempts. -/
def limitedPair : Setup where
  settings :=
    { concurrency := 2, retry := { maxAttempts := 2, baseDelay := 20 }
      rateLimit := some { rate := 10 }, cancelGrace := 29999999 }

/-- First state of a run over two items, ten requests a second. -/
def limitedRun : State :=
  .opened limitedPair twoItems {} {} {} { settings := { windowSize := 1 } } 0

/-- The first item fails and is to be repeated after somewhat more than 49 ticks, the second one
waits for its token; the second attempt for the first one outlasts the grace period of a
cancellation. -/
def outlastsCancel : List Action :=
  [.takePermit, .spawn, .takePermit, .spawn, .task 0 (.resume none), .task 1 (.resume none),
    .task 0 (.reply (.failure (.rateLimited 49000001))), .task 0 (.resume none), .advance 50,
    .task 0 (.resume none), .advance 100, .task 1 (.resume none), .advance 200,
    .task 0 (.resume none), .cancel, .task 1 (.reply (.value .null)), .task 1 (.resume none),
    .task 1 (.resume none), .task 1 (.resume none), .task 1 (.resume none), .advance 230,
    .task 0 .giveUp, .task 0 (.resume none), .flush, .close none]

/-- Each of three attempts has its token, and the one that is given up has neither a sample nor an
outcome. -/
theorem attempted_of_outlastsCancel :
    ∃ last accounts, limitedRun.follow? outlastsCancel = some last ∧
      (last.work.filterMap fun entry => entry.2.call?.map fun number => (entry.1, number)) =
        [(0, 1), (100, 1), (200, 2)] ∧
      requestsIn last.work = [(0, 0), (0, 100), (50, 200)] ∧
      sampleNumbers last.work = [1, 1] ∧
      last.finished.map Item.status = [.success, .skipped] ∧
      callOutcomes limitedPair.settings.itemTimeout 0 outlastsCancel =
        [.error (.rateLimited 49000001)] ∧
      Attempted limitedRun last outlastsCancel accounts := by
  have hfollow : (limitedRun.follow? outlastsCancel).map (fun last =>
      (last.work.filterMap fun entry => entry.2.call?.map fun number => (entry.1, number),
        requestsIn last.work, sampleNumbers last.work, last.finished.map Item.status)) =
      some ([(0, 1), (100, 1), (200, 2)], [(0, 0), (0, 100), (50, 200)], [1, 1],
        [.success, .skipped]) := by
    decide +kernel
  obtain ⟨last, hlast, hshown⟩ := Option.map_eq_some_iff.mp hfollow
  obtain ⟨hcalls, hshown⟩ := Prod.mk.inj hshown
  obtain ⟨hrequests, hshown⟩ := Prod.mk.inj hshown
  obtain ⟨hsamples, hfinished⟩ := Prod.mk.inj hshown
  have hsilent : ∀ action ∈ outlastsCancel, action.message? = none := by
    simp [outlastsCancel, Action.message?]
  obtain ⟨accounts, hattempted⟩ :=
    attempted_of_follow? (initial?_eq_ok (by decide +kernel)) hsilent hlast
  exact ⟨last, accounts, hlast, hcalls, hrequests, hsamples, hfinished, rfl, hattempted⟩

/-- One item at a time, with a pause of a million million milliseconds. -/
def patient : Setup where
  settings :=
    { mode := .sequential
      retry := { maxAttempts := 2, baseDelay := 1000000000000, maxDelay := 1000000000000 } }

/-- The item fails at once, and is attempted again after thirty years. -/
def repeatsEarly : List Action :=
  [.takePermit, .spawn, .task 0 (.resume none), .task 0 (.reply (.failure (.transient "reset"))),
    .task 0 (.resume none), .advance farFuture, .task 0 (.resume none),
    .task 0 (.reply (.value .null)), .task 0 (.resume none)]

/-- The item has a result, and its destination a window that no memory can hold. -/
def outgrowsMonitor : List Action :=
  [.takePermit, .spawn, .task 0 (.resume none), .task 0 (.reply (.value .null)),
    .task 0 (.resume none), .flush, .close none]

/-- An attempt begins before the pause after the one before is over, if that is longer than thirty
years; and an item that has a result ends neither way if its sample cannot be kept. -/
theorem early_of_longPause :
    (∃ last, (State.opened patient (twoItems.take 1) {} {} {}
        { settings := { windowSize := 1 } } 0).follow? repeatsEarly = some last ∧
      patient.settings.fault? = none ∧
      (last.work.filterMap fun entry => entry.2.call?.map fun number => (entry.1, number)) =
        [(0, 1), (farFuture, 2)] ∧
      farFuture * nanosPerTick < patient.settings.retry.pauseAfter 1 none) ∧
    ∃ last, (State.opened patient (twoItems.take 1) {} {} {}
        { settings := { windowSize := HealthSettings.unallocatable } } 0).follow? outgrowsMonitor =
        some last ∧
      callNumbers last.work = [1] ∧ sampleNumbers last.work = [] ∧ last.finished.length = 0 ∧
      last.fatal = some (.panicked "1" "capacity overflow") := by
  have hearly : ((State.opened patient (twoItems.take 1) {} {} {}
      { settings := { windowSize := 1 } } 0).follow? repeatsEarly).map (fun last =>
      (last.work.filterMap fun entry => entry.2.call?.map fun number => (entry.1, number))) =
      some [(0, 1), (farFuture, 2)] := by
    decide +kernel
  have hlost : ((State.opened patient (twoItems.take 1) {} {} {}
      { settings := { windowSize := HealthSettings.unallocatable } } 0).follow?
      outgrowsMonitor).map (fun last =>
      (callNumbers last.work, sampleNumbers last.work, last.finished.length, last.fatal)) =
      some ([1], [], 0, some (.panicked "1" "capacity overflow")) := by
    decide +kernel
  constructor
  · obtain ⟨last, hlast, hcalls⟩ := Option.map_eq_some_iff.mp hearly
    exact ⟨last, hlast, by decide +kernel, hcalls, by decide +kernel⟩
  · obtain ⟨last, hlast, hshown⟩ := Option.map_eq_some_iff.mp hlost
    obtain ⟨hcalls, hshown⟩ := Prod.mk.inj hshown
    obtain ⟨hsamples, hshown⟩ := Prod.mk.inj hshown
    obtain ⟨hfinished, hfatal⟩ := Prod.mk.inj hshown
    exact ⟨last, hlast, hcalls, hsamples, hfinished, hfatal⟩

end Runs

end Run
end BatchRun
