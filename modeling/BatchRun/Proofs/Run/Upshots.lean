import BatchRun.Proofs.Run.Ownership

/-!
# Upshots of items

A run that is not stopped does with each of its items what the replies of the executor come to,
whatever the order in which its tasks go on.

**Types.**
`Service.Reaches` relates a state to all that can follow it while calls end with the replies of the
executor.  An item is `Answered` if its attempts and its end are those of its upshot; it may have
turned out to be a duplicate.

**Invariant.**
Each item on its way is headed for its upshot, and each item that is done has been answered, unless
dispatch has stopped (`Answering`).

**Results.**
* `underway_of_goesOn`: a task that goes on is headed for the same upshot.
* `answered_of_conclusion`: a task that comes to its end answers its item, or the run has halted.
* `answering_of_transition`: each step keeps the invariant.
* `concluded_of_returned`: a run that returns without having been cancelled has brought every item
  to its upshot.
-/

namespace BatchRun

/-- A registry knows an owner of the result, if an outcome has one. -/
def Registry.Knows (registry : Registry) (outcome : Except AttemptFailure Json) : Prop :=
  ∀ result, outcome = .ok result → ∃ owner, registry.owner? result.digest = some owner

namespace Run

/-- What can follow a state while calls end in time and with the replies of the executor. -/
inductive Service.Reaches (service : Service) : State → State → Prop
  | here (s : State) : Reaches service s s
  | step {s t u : State} {action : Action} (before : Reaches service s t)
      (serves : service.Serves t action) (h : t.step? action = some u) : Reaches service s u

theorem Service.Reaches.reaches
    {service : Service} {s t : State}
    (run : service.Reaches s t) :
    Run.Reaches s t := by
  induction run with
  | here => exact .here _
  | step _ _ h ih => exact ih.step h

/-- What the attempts for an item come to that was not begun. -/
def Service.answer (service : Service) (item : Item) : Upshot :=
  service.upshot item.id (item.attempts + 1)

/-- The attempts for the item of a task come to an upshot. -/
def Task.Heads (service : Service) (upshot : Upshot) (task : Task) : Prop :=
  match task.phase with
  | .spawned => service.upshot task.item.id (task.item.attempts + 1) = upshot
  | .throttled _ => service.upshot task.item.id (task.item.attempts + 1) = upshot
  | .calling _ => service.upshot task.item.id task.item.attempts = upshot
  | .answered outcome _ =>
    service.upshot task.item.id task.item.attempts = upshot ∧
      outcome = (service.reply task.item.id task.item.attempts).outcome
  | .pausing _ => service.upshot task.item.id (task.item.attempts + 1) = upshot
  | .rethrottled _ => service.upshot task.item.id (task.item.attempts + 1) = upshot
  | .comparing result => upshot = ⟨task.item.attempts, .ok result⟩
  | _ => True

/-- The item of a task is headed for its upshot, and has nothing yet of its end. -/
structure Underway (service : Service) (before : Item) (task : Task) : Prop where
  origin : task.item.origin = before.origin
  result : task.item.result = before.result
  failure : task.item.failure = before.failure
  heads : task.Heads service (service.answer before)

/-- How an item may end after its last outcome. -/
inductive Settles (deduplicate : Bool) (before item : Item) : Except AttemptFailure Json → Prop
  | fails {failure : AttemptFailure} (status : item.status = .failed)
      (result : item.result = before.result)
      (noted : item.failure = some failure.toItemFailure) :
      Settles deduplicate before item (.error failure)
  | succeeds {result : Json} (status : item.status = .success) (noted : item.result = some result)
      (failure : item.failure = before.failure) : Settles deduplicate before item (.ok result)
  /-- Another item has the same result. -/
  | repeats {result : Json} (on : deduplicate = true) (status : item.status = .skipped)
      (unnoted : item.result = before.result) (failure : item.failure = before.failure) :
      Settles deduplicate before item (.ok result)

/-- The attempts for an item and its end are those of its upshot. -/
structure Answered (service : Service) (deduplicate : Bool) (before item : Item) : Prop where
  origin : item.origin = before.origin
  attempts : item.attempts = (service.answer before).attempts
  settles : Settles deduplicate before item (service.answer before).outcome

/-- An item has come to its upshot, and the registry knows its result if results are compared. -/
def Concluded (service : Service) (first s : State) (item : Item) : Prop :=
  ∃ before ∈ first.waiting, Answered service s.settings.deduplicate before item ∧
    (s.settings.deduplicate = true → s.registry.Knows (service.answer before).outcome)

/-- Items of a run are headed for their upshots, or have come to them. -/
structure Answering (service : Service) (first s : State) : Prop where
  goesOn : s.settings.continueOnError = true
  limit : s.settings.retry.maxAttempts = service.limit
  waiting : ∀ item ∈ s.waiting, item ∈ first.waiting
  tasks : ∀ task ∈ s.tasks, task.phase.isEnding = false →
    ∃ before ∈ first.waiting, Underway service before task
  done : ∀ item, Done s item → s.stopped = true ∨ Concluded service first s item
  stops : s.stopped = true → s.cancelled = true ∨ s.fatal ≠ none

section Turns

variable {service : Service} {s : State} {task next : Task} {before item : Item} {move : Move}
  {effect : Effect} {upshot : Upshot}

theorem heads_of_admits
    {throttle : Option Throttle} {events : List Event}
    (admits : Admits s task throttle events)
    (heads : task.Heads service upshot) :
    service.upshot task.item.id (task.item.attempts + 1) = upshot := by
  cases admits with
  | atOnce phase | afterWait phase => simpa only [Task.Heads, phase] using heads

theorem heads_of_samples
    {outcome : Except AttemptFailure Json} {latency : Nat} {monitor : Monitor}
    (samples : Samples s task outcome latency monitor)
    (heads : task.Heads service upshot) :
    service.upshot task.item.id task.item.attempts = upshot ∧
      (service.reply task.item.id task.item.attempts).outcome = outcome := by
  obtain ⟨hupshot, houtcome⟩ : service.upshot task.item.id task.item.attempts = upshot ∧
      outcome = (service.reply task.item.id task.item.attempts).outcome := by
    simpa only [Task.Heads, samples.phase] using heads
  exact ⟨hupshot, houtcome.symm⟩

/-- After a failure that is not the last one, the next attempt is headed for the same upshot. -/
theorem heads_of_again
    {failure : AttemptFailure} {latency : Nat} {monitor : Monitor}
    (limit : s.settings.retry.maxAttempts = service.limit)
    (samples : Samples s task (.error failure) latency monitor)
    (again : s.isLastFailure task failure = false)
    (heads : task.Heads service upshot) :
    service.upshot task.item.id (task.item.attempts + 1) = upshot := by
  obtain ⟨hupshot, houtcome⟩ := heads_of_samples samples heads
  rw [Service.isLastFailure_eq limit] at again
  exact (Service.upshot_of_again houtcome again).symm.trans hupshot

theorem heads_of_retries
    {monitor : Option Monitor} {events : List Event}
    (limit : s.settings.retry.maxAttempts = service.limit)
    (retries : Retries s task monitor events)
    (heads : task.Heads service upshot) :
    service.upshot task.item.id (task.item.attempts + 1) = upshot := by
  cases retries with
  | atOnce samples again => exact heads_of_again limit samples again heads
  | afterPause phase => simpa only [Task.Heads, phase] using heads

/-- A task whose item does not end goes on to the same upshot. -/
theorem underway_of_goesOn
    (limit : s.settings.retry.maxAttempts = service.limit)
    (turn : Turn s task move effect)
    (found : s.task? task.number = some task)
    (serves : service.Serves s (.task task.number move))
    (underway : Underway service before task)
    (h : effect.fate = .goesOn next)
    (early : next.phase.isEnding = false) :
    Underway service before next := by
  obtain ⟨origin, result, failure, heads⟩ := underway
  cases turn with
  | turnsAway panic => cases panic <;> cases h
  | rejects | breaksAtStart | breaksInSample | breaksInRetry => cases h
  | waits _ phase =>
      cases h
      refine ⟨origin, result, failure, ?_⟩
      simpa only [Task.Heads, phase] using heads
  | starts admits start =>
      cases h
      have hnext := heads_of_admits admits heads
      obtain ⟨_, _, _, rfl⟩ := Item.start_eq_ok start
      exact ⟨origin, result, failure, hnext⟩
  | answers phase ends =>
      cases h
      refine ⟨origin, result, failure, ?_⟩
      simp only [Task.Heads, phase] at heads ⊢
      -- A call that is out of time would end without a reply of the executor.
      cases ends with
      | replied reply => exact ⟨heads, by rw [serves task found]⟩
      | expired => cases serves
  | succeeds _ samples =>
      cases h
      obtain ⟨hupshot, houtcome⟩ := heads_of_samples samples heads
      exact ⟨origin, result, failure, hupshot.symm.trans (Service.upshot_of_ok houtcome)⟩
  | pauses samples again =>
      have hnext := heads_of_again limit samples again heads
      cases h
      exact ⟨origin, result, failure, hnext⟩
  | rewaits _ retries | recalls _ retries =>
      have hnext := heads_of_retries limit retries heads
      cases h
      exact ⟨origin, result, failure, hnext⟩
  | recallsAfterWait _ phase =>
      simp only [Task.Heads, phase] at heads
      cases h
      exact ⟨origin, result, failure, heads⟩
  | fails | interrupts | completes =>
      cases h
      cases (isEnding_endingPhase s _).symm.trans early
  | closes closing =>
      cases closing with
      | finishes panic => cases panic <;> cases h
      | _ => cases h; cases early

theorem isEnding_of_conclusion
    {registry : Option Registry}
    (conclusion : Conclusion s task item registry) :
    task.phase.isEnding = false := by
  cases conclusion with
  | fails samples => rw [samples.phase]; rfl
  | interrupted stops => exact isEnding_of_interrupts stops
  | succeeds phase | wins phase | repeats phase => rw [phase]; rfl

/-- A move to a last status leaves what the item of a task had before. -/
theorem moved_of_underway
    (underway : Underway service before task)
    (target : Status)
    (now : Time.Timestamp) :
    (task.item.moved target now).origin = before.origin ∧
      (task.item.moved target now).attempts = task.item.attempts ∧
      (task.item.moved target now).result = before.result ∧
      (task.item.moved target now).failure = before.failure := by
  refine ⟨?_, ?_, ?_, ?_⟩
  · rw [Item.origin_moved, underway.origin]
  · rw [Item.attempts_moved]
  · rw [Item.result_moved, underway.result]
  · rw [Item.failure_moved, underway.failure]

theorem answered_of_answer
    {deduplicate : Bool} {outcome : Except AttemptFailure Json}
    (answer : service.answer before = ⟨item.attempts, outcome⟩)
    (origin : item.origin = before.origin)
    (settles : Settles deduplicate before item outcome) :
    Answered service deduplicate before item := by
  refine ⟨origin, ?_, ?_⟩
  · rw [answer]
  · rw [answer]
    exact settles

/-- Whoever has asked about a result knows its owner. -/
theorem knows_of_record
    {registry : Registry} {result : Json} {owner? : Option String}
    (answer : service.answer before = ⟨task.item.attempts, .ok result⟩)
    (record : s.registry.record result task.item.id = (registry, owner?)) :
    registry.Knows (service.answer before).outcome := by
  rw [answer]
  rintro _ ⟨⟩
  exact ⟨_, Registry.owner?_recorded record⟩

/-- An item that comes to its end comes to its upshot, unless the run has halted. -/
theorem answered_of_conclusion
    {registry : Option Registry}
    (limit : s.settings.retry.maxAttempts = service.limit)
    (conclusion : Conclusion s task item registry)
    (underway : Underway service before task) :
    s.isHalted = true ∨
      Answered service s.settings.deduplicate before item ∧
        (s.settings.deduplicate = true →
          (registry.getD s.registry).Knows (service.answer before).outcome) := by
  have heads := underway.heads
  cases conclusion with
  | interrupted stops => exact .inl (Service.halted_of_interrupts stops)
  | fails samples last =>
      obtain ⟨horigin, hattempts, hresult, -⟩ := moved_of_underway underway .failed s.stamp
      obtain ⟨hupshot, houtcome⟩ := heads_of_samples samples heads
      rw [Service.isLastFailure_eq limit] at last
      have hanswer := hupshot.symm.trans (Service.upshot_of_last houtcome last)
      rw [← hattempts] at hanswer
      refine .inr ⟨answered_of_answer hanswer horigin ?_, fun _ => ?_⟩
      · exact .fails (by simp) hresult rfl
      · rw [hanswer]
        rintro _ ⟨⟩
  | succeeds phase off =>
      obtain ⟨horigin, hattempts, -, hfailure⟩ := moved_of_underway underway .success s.stamp
      simp only [Task.Heads, phase] at heads
      refine .inr ⟨answered_of_answer (hattempts ▸ heads) horigin ?_, fun on => ?_⟩
      · exact .succeeds (by simp) rfl hfailure
      · cases off.symm.trans on
  | wins phase _ record =>
      obtain ⟨horigin, hattempts, -, hfailure⟩ := moved_of_underway underway .success s.stamp
      simp only [Task.Heads, phase] at heads
      refine .inr ⟨answered_of_answer (hattempts ▸ heads) horigin ?_, fun _ => ?_⟩
      · exact .succeeds (by simp) rfl hfailure
      · exact knows_of_record heads record
  | repeats phase on record =>
      obtain ⟨horigin, hattempts, hresult, hfailure⟩ := moved_of_underway underway .skipped s.stamp
      simp only [Task.Heads, phase] at heads
      refine .inr ⟨answered_of_answer (hattempts ▸ heads) horigin ?_, fun _ => ?_⟩
      · exact .repeats on (by simp) hresult hfailure
      · exact knows_of_record heads record

end Turns

section Steps

variable {service : Service} {first s t : State} {action : Action} {item before : Item}

theorem Settles.located
    {deduplicate : Bool} {outcome : Except AttemptFailure Json}
    (settles : Settles deduplicate before item outcome)
    (location : Option String) :
    Settles deduplicate before { item with location } outcome := by
  cases settles with
  | fails status result noted => exact .fails status result noted
  | succeeds status noted failure => exact .succeeds status noted failure
  | repeats on status unnoted failure => exact .repeats on status unnoted failure

/-- A registry never forgets an owner. -/
theorem knows_of_transition
    {outcome : Except AttemptFailure Json}
    (h : Transition s action t)
    (standing : Standing s)
    (knows : s.registry.Knows outcome) :
    t.registry.Knows outcome := by
  intro result hresult
  obtain ⟨owner, howner⟩ := knows result hresult
  exact ⟨owner, owner?_of_transition h standing howner⟩

theorem underway_of_transition
    (h : Transition s action t)
    (serves : service.Serves s action)
    (answering : Answering service first s) :
    ∀ task ∈ t.tasks, task.phase.isEnding = false →
      ∃ before ∈ first.waiting, Underway service before task := by
  intro task htask early
  cases h with
  | advances | cancels | skips | takesPermit | flushes | leaves | closes | closesNot =>
      exact answering.tasks task htask early
  | breaksInSkip => cases htask
  | @spawns waiter rest _ waiting =>
      rcases List.mem_append.mp htask with hold | hnew
      · exact answering.tasks task hold early
      · cases List.mem_singleton.mp hnew
        exact ⟨waiter, answering.waiting waiter (by simp [waiting]), rfl, rfl, rfl, rfl⟩
  | @turns turning move effect _ found turn =>
      rcases mem_tasks htask with hnext | ⟨hold, -⟩
      · have hturning := (mem_of_task? found).1
        have hearly : turning.phase.isEnding = false := by
          cases hphase : turning.phase.isEnding with
          | false => rfl
          | true =>
              -- A task at its end stays there.
              rcases fate_of_closing (closing_of_turn turn hphase) with
                ⟨_, _, hfate, hwritten, -⟩ | ⟨-, panic, hfate, -⟩
              · cases hfate.symm.trans hnext
                cases (isEnding_of_isWritten hwritten).symm.trans early
              · cases panic <;> cases hfate.symm.trans hnext
        obtain ⟨before, hbefore, hunderway⟩ := answering.tasks turning hturning hearly
        exact ⟨before, hbefore,
          underway_of_goesOn answering.limit turn found serves hunderway hnext early⟩
      · exact answering.tasks task hold early

theorem concluded_of_transition
    (h : Transition s action t)
    (standing : Standing s)
    (answering : Answering service first s)
    (done : Done t item) :
    t.stopped = true ∨ Concluded service first t item := by
  have hsettings : t.settings = s.settings := congrArg Setup.settings (setup_of_transition h)
  unfold Concluded
  rw [hsettings]
  rcases done_of_transition h standing done with
    ⟨old, location, hold, rfl⟩ | ⟨registry, hcomes, hregistry⟩
  · rcases answering.done old hold with hstop | ⟨before, hbefore, hanswered, hknows⟩
    · exact .inl (stopped_of_transition h hstop)
    · exact .inr ⟨before, hbefore,
        ⟨hanswered.origin, hanswered.attempts, hanswered.settles.located location⟩,
        fun on => knows_of_transition h standing (hknows on)⟩
  · cases hcomes with
    | turnedAway away =>
        obtain ⟨-, -, -, hstop, -⟩ := away
        exact .inl (stopped_of_transition h hstop)
    | @concludes task _ _ htask conclusion =>
        obtain ⟨before, hbefore, hunderway⟩ :=
          answering.tasks task htask (isEnding_of_conclusion conclusion)
        rcases answered_of_conclusion answering.limit conclusion hunderway with
          hhalted | ⟨hanswered, hknows⟩
        · exact .inl (stopped_of_transition h (standing.halts hhalted))
        · exact .inr ⟨before, hbefore, hanswered, fun on => hregistry ▸ hknows on⟩

theorem answering_of_transition
    (h : Transition s action t)
    (serves : service.Serves s action)
    (standing : Standing s)
    (answering : Answering service first s) :
    Answering service first t := by
  have hsettings : t.settings = s.settings := congrArg Setup.settings (setup_of_transition h)
  constructor
  case goesOn => exact hsettings ▸ answering.goesOn
  case limit => exact hsettings ▸ answering.limit
  case waiting =>
      exact fun item hitem => answering.waiting item (waiting_of_transition h hitem)
  case tasks => exact underway_of_transition h serves answering
  case done => exact fun item hdone => concluded_of_transition h standing answering hdone
  case stops => exact stops_of_transition h answering.goesOn answering.stops

end Steps

section Runs

variable {service : Service} {setup : Setup} {items : List Item} {checkpoint : Checkpoint}
  {throttle : Throttle} {registry : Registry} {monitor : Monitor} {clock : Nat} {first s : State}
  {result : Returned}

theorem answering_opened
    (goesOn : setup.settings.continueOnError = true)
    (limit : setup.settings.retry.maxAttempts = service.limit) :
    Answering service (.opened setup items checkpoint throttle registry monitor clock)
      (.opened setup items checkpoint throttle registry monitor clock) where
  goesOn := goesOn
  limit := limit
  waiting _ hitem := hitem
  tasks _ htask := absurd htask List.not_mem_nil
  done item hdone := by
    rcases hdone with hfinished | ⟨task, htask, -⟩
    · cases hfinished
    · cases htask
  stops h := by cases h

theorem answering_of_reaches
    (run : service.Reaches first s)
    (orderly : Orderly first first)
    (answering : Answering service first first) :
    Orderly first s ∧ Answering service first s := by
  induction run with
  | here => exact ⟨orderly, answering⟩
  | step _ serves h ih =>
      obtain ⟨horderly, hanswering⟩ := ih
      have transition := transition_of_step? h
      exact ⟨orderly_of_transition transition horderly,
        answering_of_transition transition serves horderly.standing hanswering⟩

/-- A run that returns without having been cancelled has brought every item to its upshot. -/
theorem concluded_of_returned
    {item : Item}
    (orderly : Orderly first s)
    (answering : Answering service first s)
    (returned : s.stage = .returned (.ok result))
    (uncancelled : result.cancelled = false)
    (finished : item ∈ s.finished) :
    Concluded service first s item := by
  obtain ⟨hfatal, -, -, hcancelled⟩ := orderly.staged.returned result returned
  rcases answering.done item (.inl finished) with hstop | hconcluded
  · rcases answering.stops hstop with h | h
    · rw [← hcancelled, uncancelled] at h
      cases h
    · exact absurd hfatal h
  · exact hconcluded

end Runs

end Run
end BatchRun
