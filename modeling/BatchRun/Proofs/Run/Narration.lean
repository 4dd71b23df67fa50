import BatchRun.Proofs.Run.Capacity
import BatchRun.Proofs.Run.Observers
import Mathlib.Data.List.Forall2

/-!
# What observers are told

**Types.**
A `Tale` is what observers are told about an item from its start to its end.  Some tales
`Interleaves` to a list of events if that list merges them, each in its own order.

**Invariant.**
As long as nothing is lost, what was told after the opening of a run merges the tales of the finished
items and what was told so far about the items of the tasks (`Narrated`); `Task.Tells` reads the
latter off the phase of a task.

**Results.**
* `tells_of_goesOn`: a task that goes on adds to the tale of its own item alone.
* `narrated_of_transition`: each step keeps the invariant.
* `narration_of_returned`: what observers were told by a run that has returned its items.
-/

namespace BatchRun

/-- Lists are merged to one, in which each keeps its order. -/
inductive Interleaves {α : Type} : List (List α) → List α → Prop
  | silent {lists : List (List α)} (h : ∀ list ∈ lists, list = []) : Interleaves lists []
  | heard {list : List α} {rest lists : List (List α)} {whole : List α} {last : α}
      (earlier : Interleaves (list :: rest) whole)
      (perm : lists.Perm ((list ++ [last]) :: rest)) : Interleaves lists (whole ++ [last])

namespace Interleaves

variable {α : Type} {list : List α} {lists others : List (List α)} {whole : List α}

theorem of_perm
    (h : Interleaves lists whole)
    (perm : lists.Perm others) :
    Interleaves others whole := by
  cases h with
  | silent h => exact .silent fun list hlist => h list (perm.mem_iff.mpr hlist)
  | heard earlier heard => exact .heard earlier (perm.symm.trans heard)

theorem append
    (h : Interleaves (list :: lists) whole)
    (more : List α) :
    Interleaves ((list ++ more) :: lists) (whole ++ more) := by
  induction more generalizing list whole with
  | nil => simpa using h
  | cons first more ih =>
      have hfirst : Interleaves ((list ++ [first] ++ more) :: lists) (whole ++ [first] ++ more) :=
        ih (.heard h (.refl _))
      simpa using hfirst

theorem cons_nil
    (h : Interleaves lists whole) :
    Interleaves ([] :: lists) whole := by
  induction h with
  | silent h =>
      refine .silent fun list hlist => ?_
      rcases List.mem_cons.mp hlist with rfl | hold
      · rfl
      · exact h list hold
  | heard _ perm ih => exact .heard (ih.of_perm (.swap _ _ _)) ((perm.cons []).trans (.swap _ _ _))

/-- Nothing is added and nothing is left out. -/
theorem perm_flatten
    (h : Interleaves lists whole) :
    whole.Perm lists.flatten := by
  induction h with
  | silent h => rw [List.flatten_eq_nil_iff.mpr h]
  | @heard list rest lists whole last _ perm ih =>
      refine List.Perm.trans ?_ perm.flatten.symm
      have hlast : ((list ++ [last]) :: rest).flatten = list ++ [last] ++ rest.flatten := rfl
      have hwhole : (list :: rest).flatten = list ++ rest.flatten := rfl
      rw [hlast, List.append_assoc]
      rw [hwhole] at ih
      refine (List.perm_append_singleton last whole).trans ?_
      exact (ih.cons last).trans (List.perm_middle.symm)

end Interleaves

namespace Run

/-- Whether observers are told about an event. -/
def Event.isTold : Event → Bool
  | opened _ _ => true
  | event => event.told?.isSome

/-- What observers were told, the first event first. -/
def State.told (s : State) : List Event := (s.events.reverse.map Prod.snd).filter Event.isTold

/-- What observers are told of an item that was started, up to so many retries. -/
inductive Telling (item : Item) : Nat → List Event → Prop
  | started {begun : Item} (origin : begun.origin = item.origin)
      (status : begun.status = .processing) (attempts : begun.attempts = 0) :
      Telling item 0 [.started begun]
  | retried {retries : Nat} {tale : List Event} {before : Item} {failure : AttemptFailure}
      {delay : Nat} (earlier : Telling item retries tale) (origin : before.origin = item.origin)
      (attempts : before.attempts = retries + 1) :
      Telling item (retries + 1) (tale ++ [.retrying before failure delay])

/-- Whether an item that was started has been retried so often: before each attempt but the first.  If
the item was cancelled, it may have been before another attempt. -/
def Item.Retried (item : Item) (retries : Nat) : Prop :=
  retries + 1 = item.attempts ∨
    item.status = .skipped ∧ item.skipReason = some .cancelled ∧ retries = item.attempts

/-- What observers are told of an item that is finished. -/
inductive Tale (item : Item) : List Event → Prop
  | turnedAway (status : item.status = .skipped) (attempts : item.attempts = 0) :
      Tale item [.finished item]
  | processed {retries : Nat} {tale : List Event} (telling : Telling item retries tale)
      (retried : Item.Retried item retries) : Tale item (tale ++ [.finished item])

/-- What observers have been told of the item of a task. -/
def Task.Tells (task : Task) (tale : List Event) : Prop :=
  match task.phase with
  | .spawned => tale = [] ∧ task.item.attempts = 0
  | .throttled _ => tale = [] ∧ task.item.attempts = 0
  | .calling _ => ∃ retries, Telling task.item retries tale ∧ retries + 1 = task.item.attempts
  | .answered _ _ => ∃ retries, Telling task.item retries tale ∧ retries + 1 = task.item.attempts
  | .pausing _ => Telling task.item task.item.attempts tale
  | .rethrottled _ => Telling task.item task.item.attempts tale
  | .comparing _ => ∃ retries, Telling task.item retries tale ∧ retries + 1 = task.item.attempts
  | .persisting => ∃ retries, Telling task.item retries tale ∧ Item.Retried task.item retries
  | .buffering => ∃ retries, Telling task.item retries tale ∧ Item.Retried task.item retries
  | .saving _ => ∃ retries, Telling task.item retries tale ∧ Item.Retried task.item retries
  | .finishing => ∃ retries, Telling task.item retries tale ∧ Item.Retried task.item retries

section Turns

variable {s : State} {task next : Task} {item : Item} {move : Move} {effect : Effect}
  {tale : List Event} {retries : Nat}

theorem filter_append_silent
    {more : List Event}
    (silent : more.filter Event.isTold = [])
    (events : List Event) :
    (events ++ more).filter Event.isTold = events.filter Event.isTold := by
  rw [List.filter_append, silent, List.append_nil]

/-- A tale is about the origin of an item. -/
theorem Telling.of_origin
    {other : Item}
    (h : Telling item retries tale)
    (origin : other.origin = item.origin) :
    Telling other retries tale := by
  induction h with
  | started same status attempts => exact .started (same.trans origin.symm) status attempts
  | retried _ same attempts ih => exact .retried ih (same.trans origin.symm) attempts

theorem tells_of_early
    (phase : task.phase = .spawned ∨ ∃ due, task.phase = .throttled due)
    (tells : task.Tells tale) :
    tale = [] ∧ task.item.attempts = 0 := by
  rcases phase with phase | ⟨due, phase⟩
  · simpa only [Task.Tells, phase] using tells
  · simpa only [Task.Tells, phase] using tells

theorem tells_of_admits
    {throttle : Option Throttle} {events : List Event}
    (admits : Admits s task throttle events)
    (tells : task.Tells tale) :
    tale = [] ∧ task.item.attempts = 0 ∧ events.filter Event.isTold = [] := by
  cases admits with
  | atOnce phase =>
      obtain ⟨rfl, hattempts⟩ := tells_of_early (.inl phase) tells
      exact ⟨rfl, hattempts, rfl⟩
  | afterWait phase =>
      obtain ⟨rfl, hattempts⟩ := tells_of_early (.inr ⟨_, phase⟩) tells
      exact ⟨rfl, hattempts, rfl⟩

theorem tells_of_samples
    {outcome : Except AttemptFailure Json} {latency : Nat} {monitor : Monitor}
    (samples : Samples s task outcome latency monitor)
    (tells : task.Tells tale) :
    ∃ retries, Telling task.item retries tale ∧ retries + 1 = task.item.attempts := by
  simpa only [Task.Tells, samples.phase] using tells

/-- A retry is announced after an attempt. -/
theorem telling_of_again
    {failure : AttemptFailure} {latency : Nat} {monitor : Monitor}
    (samples : Samples s task (.error failure) latency monitor)
    (tells : task.Tells tale)
    (delay : Nat) :
    Telling task.item task.item.attempts
      (tale ++ ([.sampled task.item (.error failure) latency,
        .retrying task.item failure delay] : List Event).filter Event.isTold) := by
  obtain ⟨retries, htelling, hattempts⟩ := tells_of_samples samples tells
  rw [← hattempts]
  exact .retried htelling rfl hattempts.symm

theorem telling_of_retries
    {monitor : Option Monitor} {events : List Event}
    (again : Retries s task monitor events)
    (tells : task.Tells tale) :
    Telling task.item task.item.attempts (tale ++ events.filter Event.isTold) := by
  cases again with
  | atOnce samples => exact telling_of_again samples tells _
  | afterPause phase =>
      rw [List.filter_nil, List.append_nil]
      simpa only [Task.Tells, phase] using tells

theorem telling_of_interrupts
    {monitor : Option Monitor} {events : List Event}
    (stops : Interrupts s task move monitor events)
    (tells : task.Tells tale) :
    ∃ retries, Telling task.item retries (tale ++ events.filter Event.isTold) ∧
      (retries + 1 = task.item.attempts ∨ retries = task.item.attempts) := by
  cases stops with
  | inCall phase =>
      obtain ⟨retries, htelling, hattempts⟩ : ∃ retries, Telling task.item retries tale ∧
          retries + 1 = task.item.attempts := by
        simpa only [Task.Tells, phase] using tells
      exact ⟨retries, by simpa using htelling, .inl hattempts⟩
  | inPause _ phase =>
      have htelling : Telling task.item task.item.attempts tale := by
        rcases phase with phase | phase
        · simpa only [Task.Tells, phase] using tells
        · simpa only [Task.Tells, phase] using tells
      exact ⟨_, by simpa using htelling, .inr rfl⟩
  | afterCall samples => exact ⟨_, telling_of_again samples tells _, .inr rfl⟩

/-- An item at its end has its tale, up to the last event. -/
theorem tells_of_isEnding
    (ending : task.phase.isEnding = true) :
    task.Tells tale ↔ ∃ retries, Telling task.item retries tale ∧ Item.Retried task.item retries := by
  unfold Task.Tells
  cases hphase : task.phase with
  | persisting | buffering | saving _ | finishing => rfl
  | _ => rw [hphase] at ending; cases ending

/-- A task whose item moves to its last status keeps its tale. -/
theorem tells_ended
    {moved : Except RejectedMove Item}
    (kept : Kept task.item (settled task.item moved))
    (telling : Telling task.item retries tale)
    (retried : Item.Retried (settled task.item moved) retries) :
    (s.ended task moved).Tells tale :=
  (tells_of_isEnding (isEnding_endingPhase s _)).mpr
    ⟨retries, telling.of_origin kept.origin, retried⟩

/-- A task that goes on adds to the tale of its item what observers are told. -/
theorem tells_of_goesOn
    (turn : Turn s task move effect)
    (stands : task.Stands)
    (tells : task.Tells tale)
    (h : effect.fate = .goesOn next) :
    next.Tells (tale ++ effect.events.filter Event.isTold) := by
  cases turn with
  | turnsAway panic => cases panic <;> cases h
  | rejects | breaksAtStart | breaksInSample | breaksInRetry => cases h
  | waits _ phase =>
      cases h
      obtain ⟨rfl, hattempts⟩ := tells_of_early (.inl phase) tells
      exact ⟨rfl, hattempts⟩
  | starts admits start =>
      cases h
      obtain ⟨rfl, hattempts, hsilent⟩ := tells_of_admits admits tells
      obtain ⟨_, _, _, rfl⟩ := Item.start_eq_ok start
      rw [List.filter_append, hsilent]
      exact ⟨0, .started rfl rfl hattempts, congrArg (· + 1) hattempts.symm⟩
  | answers phase =>
      cases h
      rw [List.filter_nil, List.append_nil]
      simpa only [Task.Tells, phase] using tells
  | succeeds _ samples =>
      cases h
      obtain ⟨retries, htelling, hattempts⟩ := tells_of_samples samples tells
      exact ⟨retries, by simpa [Event.isTold, Event.told?] using htelling, hattempts⟩
  | fails _ samples _ fail =>
      cases h
      obtain ⟨retries, htelling, hattempts⟩ := tells_of_samples samples tells
      have hsame := Item.attempts_of_move .failed
        (fun item => { item with failure := some _ }) (fun _ => rfl) fail
      have hsilent := tells_ended (s := s) (kept_of_fail fail).1 htelling
        (.inl (hattempts.trans hsame.symm))
      simpa [Event.isTold, Event.told?] using hsilent
  | @pauses failure _ _ samples =>
      have htelling := telling_of_again samples tells (s.backoff task failure)
      cases h
      exact htelling
  | rewaits _ again =>
      have htelling := telling_of_retries again tells
      cases h
      rw [filter_append_silent rfl]
      exact htelling
  | recalls _ again =>
      have htelling := telling_of_retries again tells
      cases h
      rw [filter_append_silent rfl]
      exact ⟨_, htelling.of_origin rfl, rfl⟩
  | recallsAfterWait _ phase =>
      have htelling : Telling task.item task.item.attempts tale := by
        simpa only [Task.Tells, phase] using tells
      cases h
      exact ⟨_, (List.append_nil tale).symm ▸ htelling.of_origin rfl, rfl⟩
  | interrupts stops skip =>
      cases h
      obtain ⟨retries, htelling, hattempts⟩ := telling_of_interrupts stops tells
      have hstatus := processing_of_interrupts stops stands
      have hkept := (kept_of_skip skip).1
      have hsame := attempts_of_skip skip
      rw [filter_append_silent rfl]
      refine tells_ended hkept htelling ?_
      rcases hattempts with hattempts | hattempts
      · exact .inl (hattempts.trans hsame.symm)
      · rw [Item.skip_of_canMoveTo _ (by rw [hstatus]; rfl)] at skip
        subst skip
        exact .inr ⟨Item.status_moved _, rfl, hattempts.trans hsame.symm⟩
  | completes _ phase compares =>
      cases h
      obtain ⟨retries, htelling, hattempts⟩ : ∃ retries, Telling task.item retries tale ∧
          retries + 1 = task.item.attempts := by
        simpa only [Task.Tells, phase] using tells
      rw [List.filter_nil, List.append_nil]
      exact tells_ended (kept_of_compares compares).1 htelling
        (.inl (hattempts.trans (attempts_of_compares compares).symm))
  | closes closing =>
      obtain ⟨retries, htelling, hretried⟩ := (tells_of_isEnding (isEnding_of_closing closing)).mp tells
      cases closing with
      | finishes panic => cases panic <;> cases h
      | _ =>
          cases h
          exact ⟨retries, (List.append_nil tale).symm ▸ htelling.of_origin rfl, hretried⟩

/-- An item that is skipped before its start has the shortest tale. -/
theorem tale_of_skip
    {reason : SkipReason} {now : Time.Timestamp} {moved : Except RejectedMove Item}
    (pending : item.status = .pending)
    (unstarted : item.attempts = 0)
    (skip : item.skip reason now = moved) :
    Tale (settled item moved) [.finished (settled item moved)] := by
  have hattempts := (attempts_of_skip skip).trans unstarted
  rw [Item.skip_of_canMoveTo _ (by rw [pending]; rfl)] at skip
  subst skip
  exact .turnedAway (Item.status_moved _) hattempts

/-- A task that files its item has told the whole tale of it. -/
theorem tale_of_files
    (turn : Turn s task move effect)
    (stands : task.Stands)
    (tells : task.Tells tale)
    (h : effect.fate = .files item) :
    Tale item (tale ++ effect.events.filter Event.isTold) := by
  cases turn with
  | turnsAway panic phase stop skip =>
      cases panic with
      | some message => cases h
      | none =>
          cases h
          obtain ⟨rfl, hattempts⟩ := tells_of_early phase tells
          exact tale_of_skip (pending_of_early phase stands) hattempts skip
  | rejects panic admits start =>
      rw [Item.start_of_canMoveTo (by rw [pending_of_admits admits stands]; rfl)] at start
      cases start
  | closes closing =>
      obtain ⟨retries, htelling, hretried⟩ := (tells_of_isEnding (isEnding_of_closing closing)).mp tells
      cases closing with
      | finishes panic =>
          cases panic with
          | some message => cases h
          | none =>
              cases h
              exact .processed htelling hretried
      | _ => cases h
  | _ => cases h

end Turns

/-- An item of a run that has left the queue: it is finished, or a task has it. -/
inductive Subject where
  | finished (item : Item)
  | underway (task : Task)

/-- Events are what observers have been told about such an item: its whole tale if it is finished,
and the beginning of it otherwise. -/
def Subject.Tells : Subject → List Event → Prop
  | finished item => Tale item
  | underway task => task.Tells

/-- The items of a run that have left the queue and are not lost. -/
def State.subjects (s : State) : List Subject :=
  s.finished.map .finished ++ s.tasks.flatMap fun task => [.underway task]

/-- A list of events merges what observers have been told about each of some items. -/
def MergesTales (subjects : List Subject) (whole : List Event) : Prop :=
  ∃ tales, List.Forall₂ Subject.Tells subjects tales ∧ Interleaves tales whole

section Merging

variable {subject other : Subject} {subjects others : List Subject} {whole events : List Event}

theorem MergesTales.of_perm
    (h : MergesTales subjects whole)
    (perm : subjects.Perm others) :
    MergesTales others whole := by
  obtain ⟨tales, htells, hwhole⟩ := h
  obtain ⟨arranged, htells, hperm⟩ := List.perm_comp_forall₂ perm.symm htells
  exact ⟨arranged, htells, hwhole.of_perm hperm.symm⟩

/-- The tale of one item goes on. -/
theorem MergesTales.append
    (h : MergesTales (subject :: subjects) whole)
    (adds : ∀ tale, subject.Tells tale → other.Tells (tale ++ events)) :
    MergesTales (other :: subjects) (whole ++ events) := by
  obtain ⟨tales, htells, hwhole⟩ := h
  cases htells with
  | cons hsubject hsubjects => exact ⟨_, .cons (adds _ hsubject) hsubjects, hwhole.append events⟩

/-- The tale of another item begins. -/
theorem MergesTales.cons
    (h : MergesTales subjects whole)
    (tells : subject.Tells events) :
    MergesTales (subject :: subjects) (whole ++ events) := by
  obtain ⟨tales, htells, hwhole⟩ := h
  exact ⟨events :: tales, .cons tells htells, hwhole.cons_nil.append events⟩

end Merging

/-- What observers were told is that the run began, and then the tales of its items so far. -/
structure Narrated (total resumed : Nat) (s : State) : Prop where
  unstarted : ∀ item ∈ s.waiting, item.attempts = 0
  merges : s.fatal = none → s.stage ≠ .unwound →
    ∃ whole, s.told = .opened total resumed :: whole ∧ MergesTales s.subjects whole

section Steps

variable {s t : State} {action : Action} {total resumed : Nat}

theorem told_seen
    (events : List Event) :
    (s.seen events).told = s.told ++ events.filter Event.isTold := by
  simp [State.told, State.seen, Function.comp_def]

/-- A step of a task without a fault adds to the tale of its item. -/
theorem mergesTales_of_turn
    {task : Task} {move : Move} {effect : Effect} {whole : List Event}
    (numbered : Numbered s)
    (standing : Standing s)
    (htask : task ∈ s.tasks)
    (turn : Turn s task move effect)
    (faults : effect.faults = [])
    (merges : MergesTales s.subjects whole) :
    MergesTales (effect.apply s task.number).subjects
      (whole ++ effect.events.filter Event.isTold) := by
  have hstands := standing.tasks task htask
  obtain ⟨rest, hbefore, hafter⟩ :=
    flatMap_tasks (fun task => [Subject.underway task]) effect.fate numbered.distinct htask
  have hsubject : MergesTales (.underway task :: (s.finished.map .finished ++ rest)) whole :=
    merges.of_perm ((hbefore.append_left _).trans List.perm_middle)
  have hsubjects : (effect.apply s task.number).subjects =
      (s.finished ++ effect.fate.filed).map .finished ++
        (effect.fate.tasks task.number s.tasks).flatMap fun task => [.underway task] := rfl
  rw [hsubjects]
  cases hfate : effect.fate with
  | goesOn next =>
      rw [hfate] at hafter
      have hnext : MergesTales (.underway next :: (s.finished.map .finished ++ rest))
          (whole ++ effect.events.filter Event.isTold) :=
        hsubject.append fun tale tells => tells_of_goesOn turn hstands tells hfate
      refine hnext.of_perm (.symm ?_)
      · rw [Fate.filed, List.append_nil]
        exact (hafter.append_left _).trans List.perm_middle
  | files item =>
      rw [hfate] at hafter
      have hfiled : MergesTales (.finished item :: (s.finished.map .finished ++ rest))
          (whole ++ effect.events.filter Event.isTold) :=
        hsubject.append fun tale tells => tale_of_files turn hstands tells hfate
      refine hfiled.of_perm (.symm ?_)
      · rw [Fate.filed, List.map_append, List.append_assoc]
        exact (((hafter.append_left _)).append_left _).trans List.perm_middle
  | loses => exact absurd faults (faults_of_loses turn hfate)

theorem unstarted_of_waiting
    (h : Transition s action t)
    (unstarted : ∀ item ∈ s.waiting, item.attempts = 0) :
    ∀ item ∈ t.waiting, item.attempts = 0 :=
  fun item hitem => unstarted item (waiting_of_transition h hitem)

/-- Each step adds to the tales of the items what observers are told in it. -/
theorem narrated_of_transition
    (h : Transition s action t)
    (numbered : Numbered s)
    (standing : Standing s)
    (narrated : Narrated total resumed s) :
    Narrated total resumed t := by
  refine ⟨unstarted_of_waiting h narrated.unstarted, fun fatal stage => ?_⟩
  obtain ⟨whole, htold, hmerges⟩ :=
    narrated.merges (fatal_of_transition h fatal) (stage_ne_unwound (live_of_transition h))
  cases h with
  | advances | cancels | takesPermit | flushes | leaves => exact ⟨whole, htold, hmerges⟩
  | breaksInSkip => exact absurd rfl stage
  | closesNot => cases (fatal_of_faulted (s := s) fatal).2
  | @closes batch =>
      have hsilent : (State.seen { s with saved := s.saved.recordAll batch } [.saved batch]).told
          = s.told := (told_seen _).trans (List.append_nil _)
      exact ⟨whole, hsilent.trans htold, hmerges⟩
  | @turns task move effect live found turn =>
      obtain ⟨-, hfaults⟩ := fatal_of_faulted (s := s) fatal
      have hadds : (effect.apply s task.number).told
          = s.told ++ effect.events.filter Event.isTold := told_seen (s := s) effect.events
      exact ⟨_, by rw [hadds, htold, List.cons_append],
        mergesTales_of_turn numbered standing (mem_of_task? found).1 turn hfaults hmerges⟩
  | @skips item rest moved _ waiting _ _ _ skip =>
      have hitem : item ∈ s.waiting := by simp [waiting]
      have htale := tale_of_skip (standing.waiting item hitem) (narrated.unstarted item hitem) skip
      have hnew : MergesTales (.finished (settled item moved) :: s.subjects)
          (whole ++ [.finished (settled item moved)]) := hmerges.cons htale
      refine ⟨whole ++ [.finished (settled item moved)], ?_, hnew.of_perm (.symm ?_)⟩
      · refine (told_seen (s := s) [.finished (settled item moved)]).trans ?_
        rw [htold]
        rfl
      · show ((s.finished ++ [settled item moved]).map Subject.finished ++ _).Perm _
        rw [List.map_append, List.append_assoc]
        exact List.perm_middle
  | @spawns item rest _ waiting =>
      have hitem : item ∈ s.waiting := by simp [waiting]
      have htells : Subject.Tells (.underway { number := s.dispatched, item }) [] :=
        ⟨rfl, narrated.unstarted item hitem⟩
      refine ⟨whole, htold, ?_⟩
      have hnew := hmerges.cons htells
      rw [List.append_nil] at hnew
      refine hnew.of_perm (.symm ?_)
      show (s.finished.map Subject.finished ++ (s.tasks ++ [_]).flatMap _).Perm _
      rw [List.flatMap_append, ← List.append_assoc]
      exact List.perm_append_singleton _ _

end Steps

/-- Whether observers are told that an item is finished. -/
def Event.isFinish : Event → Bool
  | finished _ => true
  | _ => false

/-- Whether an event is the opening of a run. -/
def Event.isOpening : Event → Bool
  | opened _ _ => true
  | _ => false

/-- What observers were told by a run over items that has returned: that it began, and afterwards the
tales of the items of its own, which were not taken over. -/
structure Narration (items : List Item) (first last : State) (result : Returned) (own : List Item)
    (tales : List (List Event)) (rest : List Event) : Prop where
  opening : last.told = .opened items.length first.restored.length :: rest
  once : ∀ event ∈ rest, event.isOpening = false
  returned : result.items.Perm (first.restored ++ own)
  origins : (own.map Item.origin).Perm (first.waiting.map Item.origin)
  /-- Items of the run with their tales. -/
  told : List.Forall₂ Tale own tales
  merged : Interleaves tales rest
  finished : rest.countP Event.isFinish + first.restored.length = items.length

section Returning

variable {setup : Setup} {items : List Item} {checkpoint : Checkpoint} {throttle : Throttle}
  {registry : Registry} {monitor : Monitor} {clock : Nat} {first last : State} {result : Returned}
  {item : Item} {tale : List Event} {retries : Nat}

theorem counts_of_telling
    (h : Telling item retries tale) :
    (∀ event ∈ tale, event.isOpening = false) ∧ tale.countP Event.isFinish = 0 := by
  induction h with
  | started => exact ⟨by simp [Event.isOpening], rfl⟩
  | retried _ _ _ ih =>
      obtain ⟨hopening, hfinish⟩ := ih
      refine ⟨fun event hevent => ?_, by rw [List.countP_append, hfinish]; rfl⟩
      rcases List.mem_append.mp hevent with hold | hnew
      · exact hopening event hold
      · rw [List.mem_singleton.mp hnew]
        rfl

/-- A tale ends once, and it has no opening. -/
theorem counts_of_tale
    (h : Tale item tale) :
    (∀ event ∈ tale, event.isOpening = false) ∧ tale.countP Event.isFinish = 1 := by
  cases h with
  | turnedAway => exact ⟨by simp [Event.isOpening], rfl⟩
  | processed telling =>
      obtain ⟨hopening, hfinish⟩ := counts_of_telling telling
      refine ⟨fun event hevent => ?_, by rw [List.countP_append, hfinish]; rfl⟩
      rcases List.mem_append.mp hevent with hold | hnew
      · exact hopening event hold
      · rw [List.mem_singleton.mp hnew]
        rfl

theorem counts_of_tales
    {own : List Item} {tales : List (List Event)}
    (h : List.Forall₂ Tale own tales) :
    (∀ event ∈ tales.flatten, event.isOpening = false) ∧
      tales.flatten.countP Event.isFinish = own.length := by
  induction h with
  | nil => exact ⟨by simp, rfl⟩
  | cons htale _ ih =>
      obtain ⟨hopening, hfinish⟩ := counts_of_tale htale
      refine ⟨fun event hevent => ?_, ?_⟩
      · rcases List.mem_append.mp hevent with hfirst | hrest
        · exact hopening event hfirst
        · exact ih.1 event hrest
      · rw [List.flatten_cons, List.countP_append, hfinish, ih.2, List.length_cons, Nat.add_comm]

theorem narrated_opened
    (unstarted : ∀ item ∈ items, item.attempts = 0) :
    Narrated items.length
      (State.opened setup items checkpoint throttle registry monitor clock).restored.length
      (.opened setup items checkpoint throttle registry monitor clock) where
  unstarted item hitem := by
    rw [opened_waiting] at hitem
    exact unstarted item (List.mem_filter.mp hitem).1
  merges _ _ := by
    have hsubjects : (State.opened setup items checkpoint throttle registry monitor clock).subjects
        = [] := by
      simp [State.subjects, State.opened, State.log]
    refine ⟨[], ?_, hsubjects ▸ ⟨[], .nil, .silent fun _ h => absurd h List.not_mem_nil⟩⟩
    simp [State.opened, State.log, State.told, Event.isTold]

theorem narration_of_returned
    {saved : Except CheckpointFault Checkpoint}
    (pending : ∀ item ∈ items, item.status = .pending)
    (unstarted : ∀ item ∈ items, item.attempts = 0)
    (opened : State.initial? setup items saved throttle registry monitor clock = .ok first)
    (run : Reaches first last)
    (returned : last.stage = .returned (.ok result)) :
    ∃ own tales rest, Narration items first last result own tales rest := by
  obtain ⟨checkpoint, -, -, rfl⟩ := opened_of_initial? opened
  have hinvariant := run.invariant
    (P := fun s => Orderly (.opened setup items checkpoint throttle registry monitor clock) s ∧
      Narrated items.length
        (State.opened setup items checkpoint throttle registry monitor clock).restored.length s)
    (fun h both => ⟨orderly_of_transition h both.1,
      narrated_of_transition h both.1.numbered both.1.standing both.2⟩)
    ⟨orderly_opened pending, narrated_opened unstarted⟩
  obtain ⟨orderly, narrated⟩ := hinvariant
  obtain ⟨hwaiting, htasks, hfatal, -, hunwound⟩ := drained_of_returned orderly returned
  obtain ⟨whole, htold, tales, htales, hmerged⟩ := narrated.merges hfatal hunwound
  have hown : last.own = last.finished := by
    simp [State.own, hwaiting, htasks]
  have horigins := orderly.conserved.origins hfatal hunwound
  rw [hown] at horigins
  have hsubjects : last.subjects = last.finished.map .finished := by
    simp [State.subjects, htasks]
  rw [hsubjects, List.forall₂_map_left_iff] at htales
  have hrestored := orderly.conserved.restored
  have hreturned : result.items.Perm (last.restored ++ last.finished) :=
    (orderly.staged.returned result returned).2.1 ▸ allItems_perm last
  obtain ⟨hopening, hfinish⟩ := counts_of_tales htales
  have hall := hmerged.perm_flatten
  have htotal := (origins_of_returned orderly returned).length_eq
  rw [List.length_map, List.length_map, hreturned.length_eq, List.length_append, hrestored]
    at htotal
  refine ⟨last.finished, tales, whole, htold, fun event hevent => ?_, hrestored ▸ hreturned,
    horigins, htales, hmerged, ?_⟩
  · exact hopening event (hall.mem_iff.mp hevent)
  · rw [hall.countP_eq, hfinish]
    omega

/-- Four items. -/
def fourItems : List Item := threeItems ++ [{ id := "4", position := 3, payload := .null }]

/-- Two items at a time, with a checkpoint. -/
def twoListed : Setup where
  settings := { concurrency := 2 }
  hasStore := true

/-- First state of a run over four items, one of which is taken over. -/
def threeLeft : State :=
  .opened twoListed fourItems { completed := ["1"] } {} {} { settings := { windowSize := 1 } } 0

/-- Of the others, the first one is cancelled as it waits for another attempt, the second one ends with
a result, and the third one is not started. -/
def cancelsInPause : List Action :=
  [.takePermit, .spawn, .takePermit, .spawn, .task 0 (.resume none), .task 1 (.resume none),
    .task 0 (.reply (.failure (.transient "busy"))), .task 0 (.resume none),
    .task 1 (.reply (.value .null)), .task 1 (.resume none), .task 1 (.resume none), .cancel,
    .task 0 (.resume none), .task 1 (.resume none), .task 1 (.resume none), .task 0 (.resume none),
    .skipNext none, .flush, .close none]

/-- Observers hear of the items in turns, and not of the one that is taken over. -/
theorem narration_of_cancelsInPause :
    ∃ last result own tales rest, Reaches threeLeft last ∧ last.stage = .returned (.ok result) ∧
      (last.told.map fun event => event.told?.map fun item => (item.id, item.attempts)) =
        [none, some ("2", 0), some ("3", 0), some ("2", 1), some ("3", 1), some ("2", 1),
          some ("4", 0)] ∧
      Narration fourItems threeLeft last result own tales rest := by
  have hends : (threeLeft.follow? cancelsInPause).map (fun last => (last.returned?.isSome,
      last.told.map fun event => event.told?.map fun item => (item.id, item.attempts))) =
      some (true, [none, some ("2", 0), some ("3", 0), some ("2", 1), some ("3", 1), some ("2", 1),
        some ("4", 0)]) := by
    decide +kernel
  obtain ⟨last, hlast, hshown⟩ := Option.map_eq_some_iff.mp hends
  obtain ⟨hreturned, htold⟩ := Prod.mk.inj hshown
  obtain ⟨result, hresult⟩ := Option.isSome_iff_exists.mp hreturned
  have run := reaches_of_follow? hlast
  have returned := stage_of_returned? hresult
  obtain ⟨own, tales, rest, narration⟩ := narration_of_returned (by simp [fourItems, threeItems, twoItems])
    (by simp [fourItems, threeItems, twoItems]) (initial?_eq_ok (by decide +kernel)) run returned
  exact ⟨last, result, own, tales, rest, run, returned, htold, narration⟩

end Returning

end Run
end BatchRun
