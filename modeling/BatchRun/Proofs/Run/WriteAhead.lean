import BatchRun.Proofs.Checkpoint.Record
import BatchRun.Proofs.Run.Conservation

/-!
# Records before checkpoint entries

A finished item is listed in the checkpoint only after its record was written.

**Types.**
`State.outstanding` are the entries on their way to the checkpoint: those for the next one, and
those that are being written.  An entry is `Backed` by events if it is the entry of an item that
is settled and whose record was written.

**Invariant.**
What a task in one of its last phases stands for is `Backed`, and so is every outstanding entry
(`Ahead`).

**Results.**
* `writeAhead_of_reaches`: in every state, each entry is backed by what was seen before the entry
  came up; an item that is handed over for its record is not skipped unprocessed later.
-/

namespace BatchRun

namespace Run

/-- Entries that are being written in a phase. -/
def Phase.batch : Phase → List CheckpointEntry
  | saving batch => batch
  | _ => []

/-- Entries that are being written at a stage. -/
def Stage.batch : Stage → List CheckpointEntry
  | flushing batch => batch
  | _ => []

@[simp] theorem batch_flushing
    (batch : List CheckpointEntry) :
    (Stage.flushing batch).batch = batch :=
  rfl

@[simp] theorem batch_dispatching : Stage.dispatching.batch = [] :=
  rfl

@[simp] theorem batch_unwound : Stage.unwound.batch = [] :=
  rfl

theorem batch_of_ends
    {s : State} {last : Stage}
    (ends : Ends s last) :
    last.batch = [] := by
  cases ends <;> rfl

/-- Entries on their way to the checkpoint. -/
def State.outstanding (s : State) : List CheckpointEntry :=
  s.unflushed ++ s.tasks.flatMap (fun task => task.phase.batch) ++ s.stage.batch

/-- The record of a settled item was written. -/
def Written (events : List (Nat × Event)) (item : Item) : Prop :=
  (∃ tick, (tick, .persisted item) ∈ events) ∧ item.isSettled = true ∧
    item.location.isSome = true

/-- An entry tells the status and the place of an item whose record was written. -/
def Backed (events : List (Nat × Event)) (entry : CheckpointEntry) : Prop :=
  ∃ item, Written events item ∧ entry = item.checkpointEntry

/-- Entries were backed before they were written to the checkpoint. -/
def Ordered : List (Nat × Event) → Prop
  | [] => True
  | (_, event) :: earlier =>
    (∀ entries, event = .saved entries → ∀ entry ∈ entries, Backed earlier entry) ∧
      Ordered earlier

/-- Whether an event concerns neither records nor the checkpoint nor the end of an item. -/
def Event.isQuiet : Event → Bool
  | persisted _ => false
  | saved _ => false
  | finished _ => false
  | _ => true

/-- Whether a task has done with the record of its item. -/
def Phase.isWritten : Phase → Bool
  | buffering => true
  | saving _ => true
  | finishing => true
  | _ => false

section Events

variable {events new : List (Nat × Event)} {item : Item} {entry : CheckpointEntry}

theorem Written.append
    (h : Written events item) :
    Written (new ++ events) item := by
  obtain ⟨⟨tick, hmem⟩, hrest⟩ := h
  exact ⟨⟨tick, List.mem_append_right new hmem⟩, hrest⟩

theorem Backed.append
    (h : Backed events entry) :
    Backed (new ++ events) entry := by
  obtain ⟨item, written, rfl⟩ := h
  exact ⟨item, written.append, rfl⟩

/-- Events other than writes of the checkpoint come at any time. -/
theorem Ordered.append
    (h : Ordered events)
    (other : ∀ event ∈ new, ∀ entries, event.2 ≠ .saved entries) :
    Ordered (new ++ events) := by
  induction new with
  | nil => exact h
  | cons event new ih =>
      refine ⟨fun entries hevent => ?_, ih fun later hlater =>
        other later (List.mem_cons_of_mem event hlater)⟩
      exact absurd hevent (other event List.mem_cons_self entries)

end Events

section Turns

variable {s : State} {task next : Task} {move : Move} {effect : Effect}

theorem quiet_of_admits
    {throttle : Option Throttle} {events : List Event}
    (admits : Admits s task throttle events) :
    ∀ event ∈ events, event.isQuiet = true := by
  cases admits with
  | atOnce => simp [Event.isQuiet]
  | afterWait => simp

theorem quiet_of_retries
    {monitor : Option Monitor} {events : List Event}
    (retries : Retries s task monitor events) :
    ∀ event ∈ events, event.isQuiet = true := by
  cases retries with
  | atOnce => simp [Event.isQuiet]
  | afterPause => simp

theorem quiet_of_interrupts
    {monitor : Option Monitor} {events : List Event}
    (stops : Interrupts s task move monitor events) :
    ∀ event ∈ events, event.isQuiet = true := by
  cases stops with
  | afterCall => simp [Event.isQuiet]
  | inCall | inPause => simp

/-- What is seen of a turn, and what it means. -/
inductive Seen (s : State) (task : Task) : Move → Effect → Prop
  | quiet {move : Move} {effect : Effect}
      (events : ∀ event ∈ effect.events, event.isQuiet = true) (saved : effect.saved = []) :
      Seen s task move effect
  | persists (location : String) (phase : task.phase = .persisting) :
      Seen s task (.persist (.ok location))
        { fate := .goesOn
            { task with item := { task.item with location := some location }, phase := .buffering }
          events := [.persisted { task.item with location := some location }] }
  | saves {batch : List CheckpointEntry} (phase : task.phase = .saving batch) :
      Seen s task (.save none)
        { fate := .goesOn { task with phase := .finishing }
          events := [.saved batch]
          saved := batch }
  | turnsAway {move : Move} {effect : Effect} {item : Item}
      (phase : task.phase = .spawned ∨ ∃ due, task.phase = .throttled due)
      (events : effect.events = [.finished item]) (saved : effect.saved = []) :
      Seen s task move effect
  | finishes (panic : Option String) (phase : task.phase = .finishing) :
      Seen s task (.resume panic)
        { fate := .ofPanic task.item panic
          events := [.finished task.item]
          faults := panicFaults task.item.id panic }

theorem seen_of_turn
    (turn : Turn s task move effect) :
    Seen s task move effect := by
  cases turn with
  | turnsAway panic phase => exact .turnsAway phase rfl rfl
  | closes closing =>
      cases closing with
      | persists location phase => exact .persists location phase
      | saves phase => exact .saves phase
      | finishes panic phase => exact .finishes panic phase
      | _ => exact .quiet (by simp) rfl
  | rejects panic admits => exact .quiet (quiet_of_admits admits) rfl
  | breaksAtStart message admits | starts admits =>
      refine .quiet (List.forall_mem_append.mpr ⟨quiet_of_admits admits, ?_⟩) rfl
      simp [Event.isQuiet]
  | rewaits panic retries | recalls panic retries =>
      refine .quiet (List.forall_mem_append.mpr ⟨quiet_of_retries retries, ?_⟩) rfl
      simp [Event.isQuiet]
  | interrupts stops =>
      refine .quiet (List.forall_mem_append.mpr ⟨quiet_of_interrupts stops, ?_⟩) rfl
      simp [Event.isQuiet]
  | _ => exact .quiet (by simp [Event.isQuiet]) rfl

@[simp] theorem batch_endingPhase
    (item : Item) :
    (s.endingPhase item).batch = [] := by
  unfold State.endingPhase
  split
  case isTrue => rfl
  case isFalse =>
      split
      case isTrue => rfl
      case isFalse => rfl

theorem endingPhase_eq_persisting
    {item : Item}
    (h : s.endingPhase item = .persisting) :
    item.isSettled = true := by
  unfold State.endingPhase at h
  split at h
  case isTrue => cases h
  case isFalse unsettled => simpa using unsettled

theorem endingPhase_ne_buffering
    (item : Item)
    (sink : s.setup.hasSink = true) :
    s.endingPhase item ≠ .buffering := by
  unfold State.endingPhase
  rw [sink]
  cases item.isSettled <;> simp

/-- Only settled items are handed over for their records. -/
theorem settled_of_goesOn
    (turn : Turn s task move effect)
    (h : effect.fate = .goesOn next)
    (phase : next.phase = .persisting) :
    next.item.isSettled = true := by
  cases turn with
  | turnsAway panic => cases panic <;> cases h
  | rejects | breaksAtStart | breaksInSample | breaksInRetry => cases h
  | fails | interrupts | completes => cases h; exact endingPhase_eq_persisting phase
  | closes closing =>
      cases closing with
      | finishes panic => cases panic <;> cases h
      | _ => cases h; cases phase
  | _ => cases h; cases phase

/-- Only an item whose record was written goes on to the checkpoint. -/
theorem written_of_goesOn
    {events : List (Nat × Event)}
    (sink : s.setup.hasSink = true)
    (turn : Turn s task move effect)
    (h : effect.fate = .goesOn next)
    (settled : task.phase = .persisting → task.item.isSettled = true)
    (phase : next.phase = .buffering)
    (seen : ∀ event ∈ effect.events, (s.clock, event) ∈ events) :
    Written events next.item := by
  cases turn with
  | turnsAway panic => cases panic <;> cases h
  | rejects | breaksAtStart | breaksInSample | breaksInRetry => cases h
  | fails | interrupts | completes => cases h; exact absurd phase (endingPhase_ne_buffering _ sink)
  | closes closing =>
      cases closing with
      | persists location before =>
          cases h
          exact ⟨⟨s.clock, seen _ List.mem_cons_self⟩, settled before, rfl⟩
      | finishes panic => cases panic <;> cases h
      | _ => cases h; cases phase
  | _ => cases h; cases phase

theorem mem_batch_of_goesOn
    {entry : CheckpointEntry}
    (turn : Turn s task move effect)
    (h : effect.fate = .goesOn next)
    (hentry : entry ∈ next.phase.batch) :
    entry ∈ s.unflushed ∨ (task.phase = .buffering ∧ entry = task.item.checkpointEntry) := by
  cases turn with
  | turnsAway panic => cases panic <;> cases h
  | rejects | breaksAtStart | breaksInSample | breaksInRetry => cases h
  | fails | interrupts | completes => cases h; simp [State.ended] at hentry
  | closes closing =>
      cases closing with
      | flushes panic phase =>
          cases h
          rcases List.mem_append.mp hentry with hold | hnew
          · exact .inl hold
          · exact .inr ⟨phase, List.mem_singleton.mp hnew⟩
      | finishes panic => cases panic <;> cases h
      | _ => cases h; cases hentry
  | _ => cases h; cases hentry

theorem mem_unflushed_of_turn
    {entry : CheckpointEntry}
    (turn : Turn s task move effect)
    (hentry : entry ∈ effect.unflushed.getD s.unflushed) :
    entry ∈ s.unflushed ∨ (task.phase = .buffering ∧ entry = task.item.checkpointEntry) := by
  cases turn with
  | closes closing =>
      cases closing with
      | buffers panic phase =>
          rcases List.mem_append.mp hentry with hold | hnew
          · exact .inl hold
          · exact .inr ⟨phase, List.mem_singleton.mp hnew⟩
      | flushes => cases hentry
      | _ => exact .inl hentry
  | _ => exact .inl hentry

/-- An entry comes up when its task is at the checkpoint. -/
theorem mem_outstanding_of_turn
    {entry : CheckpointEntry}
    (turn : Turn s task move effect)
    (hentry : entry ∈ (effect.apply s task.number).outstanding) :
    entry ∈ s.outstanding ∨ (task.phase = .buffering ∧ entry = task.item.checkpointEntry) := by
  have hunflushed : ∀ {entry}, entry ∈ s.unflushed → entry ∈ s.outstanding := fun hmem =>
    List.mem_append_left _ (List.mem_append_left _ hmem)
  rcases List.mem_append.mp hentry with hfirst | hstage
  · rcases List.mem_append.mp hfirst with hbuffer | htasks
    · exact (mem_unflushed_of_turn turn hbuffer).imp hunflushed id
    · obtain ⟨other, hother, hbatch⟩ := List.mem_flatMap.mp htasks
      rcases mem_tasks hother with hnext | ⟨hold, -⟩
      · exact (mem_batch_of_goesOn turn hnext hbatch).imp hunflushed id
      · exact .inl (List.mem_append_left _
          (List.mem_append_right _ (List.mem_flatMap.mpr ⟨other, hold, hbatch⟩)))
  · exact .inl (List.mem_append_right _ hstage)

end Turns

section Steps

variable {s t : State} {action : Action} {entry : CheckpointEntry}

theorem mem_outstanding_of_transition
    (h : Transition s action t)
    (hentry : entry ∈ t.outstanding) :
    entry ∈ s.outstanding ∨
      ∃ task ∈ s.tasks, task.phase = .buffering ∧ entry = task.item.checkpointEntry := by
  cases h with
  | turns live found turn =>
      exact (mem_outstanding_of_turn turn hentry).imp id fun hbuffer =>
        ⟨_, (mem_of_task? found).1, hbuffer⟩
  | advances | cancels | skips | takesPermit => exact .inl hentry
  | breaksInSkip =>
      refine .inl (List.mem_append_left _ (List.mem_append_left _ ?_))
      simpa [State.outstanding, State.seen, State.faulted] using hentry
  | spawns => exact .inl (by simpa [State.outstanding, Phase.batch] using hentry)
  | flushes stage waiting tasks =>
      refine .inl (List.mem_append_left _ (List.mem_append_left _ ?_))
      have hbatch : entry ∈ if s.keepsCheckpoint then s.unflushed else [] := by
        simpa [State.outstanding, tasks] using hentry
      split at hbatch
      case isTrue => exact hbatch
      case isFalse => cases hbatch
  | leaves fault stage ends | closes stage full ends | closesNot fault stage full ends =>
      refine .inl (List.mem_append_left _ ?_)
      simpa [State.outstanding, State.seen, State.faulted, batch_of_ends ends] using hentry

/-- The checkpoint changes only when entries on their way are written to it. -/
theorem saves_of_transition
    (h : Transition s action t) :
    (t.saved = s.saved ∧
      ∃ new, t.events = new ++ s.events ∧ ∀ event ∈ new, ∀ entries, event.2 ≠ .saved entries) ∨
    ∃ batch, (∀ entry ∈ batch, entry ∈ s.outstanding) ∧ t.saved = s.saved.recordAll batch ∧
      t.events = (s.clock, .saved batch) :: s.events := by
  cases h with
  | advances | cancels | takesPermit | spawns | flushes | leaves | closesNot =>
      exact .inl ⟨rfl, [], rfl, fun event hmem => absurd hmem List.not_mem_nil⟩
  | @skips item rest moved | @breaksInSkip item rest moved =>
      exact .inl ⟨rfl, [(s.clock, .finished (settled item moved))], rfl, by simp⟩
  | closes stage =>
      refine .inr ⟨_, fun entry hentry => List.mem_append_right _ ?_, rfl, rfl⟩
      rw [stage]
      exact hentry
  | @turns task move effect live found turn =>
      cases seen_of_turn turn with
      | quiet events saved =>
          refine .inl ⟨?_, effect.events.reverse.map (fun event => (s.clock, event)), rfl, ?_⟩
          · show s.saved.recordAll effect.saved = s.saved
            rw [saved, Checkpoint.recordAll_nil]
          · intro event hmem entries hsaved
            obtain ⟨before, hbefore, rfl⟩ := List.mem_map.mp hmem
            have hquiet := events before (List.mem_reverse.mp hbefore)
            have hsaved : before = .saved entries := hsaved
            rw [hsaved] at hquiet
            cases hquiet
      | persists location =>
          exact .inl ⟨rfl, [(s.clock, .persisted { task.item with location := some location })],
            rfl, by simp⟩
      | @saves batch phase =>
          refine .inr ⟨batch, fun entry hentry => ?_, rfl, rfl⟩
          refine List.mem_append_left _ (List.mem_append_right _ ?_)
          exact List.mem_flatMap.mpr ⟨task, (mem_of_task? found).1, by rw [phase]; exact hentry⟩
      | @turnsAway _ _ item phase events saved =>
          refine .inl ⟨?_, [(s.clock, .finished item)], ?_, by simp⟩
          · show s.saved.recordAll effect.saved = s.saved
            rw [saved, Checkpoint.recordAll_nil]
          · show effect.events.reverse.map (fun event => (s.clock, event)) ++ s.events = _
            rw [events]
            rfl
      | finishes panic => exact .inl ⟨rfl, [(s.clock, .finished task.item)], rfl, by simp⟩

theorem events_of_transition
    (h : Transition s action t) :
    ∃ new, t.events = new ++ s.events := by
  rcases saves_of_transition h with ⟨-, new, hevents, -⟩ | ⟨batch, -, -, hevents⟩
  · exact ⟨new, hevents⟩
  · exact ⟨[(s.clock, .saved batch)], hevents⟩

/-- A record is seen to be written only when the answer to its task says so. -/
theorem persisted_of_transition
    {tick : Nat} {item : Item}
    (h : Transition s action t)
    (hmem : (tick, .persisted item) ∈ t.events) :
    (tick, .persisted item) ∈ s.events ∨
      ∃ task ∈ s.tasks, ∃ location, task.phase = .persisting ∧
        action = .task task.number (.persist (.ok location)) ∧
        item = { task.item with location := some location } ∧
        { task with item, phase := .buffering } ∈ t.tasks := by
  cases h with
  | advances | cancels | takesPermit | spawns | flushes | leaves | closesNot => exact .inl hmem
  | skips | breaksInSkip | closes =>
      rcases List.mem_cons.mp hmem with hnew | hold
      · cases hnew
      · exact .inl hold
  | @turns task move effect live found turn =>
      have htask := (mem_of_task? found).1
      rcases List.mem_append.mp hmem with hnew | hold
      · obtain ⟨event, hevent, heq⟩ := List.mem_map.mp hnew
        cases heq
        have hevent := List.mem_reverse.mp hevent
        cases seen_of_turn turn with
        | quiet events => cases events _ hevent
        | persists location phase =>
            cases List.mem_singleton.mp hevent
            exact .inr ⟨task, htask, location, phase, rfl, rfl, mem_tasks_goesOn htask⟩
        | saves | finishes => cases List.mem_singleton.mp hevent
        | turnsAway phase events =>
            rw [events] at hevent
            cases List.mem_singleton.mp hevent
      · exact .inl hold

/-- A task at its end changes at most the place of the record of its item. -/
theorem fate_of_closing
    {task : Task} {move : Move} {effect : Effect}
    (closing : Closing s task move effect) :
    (∃ next location, effect.fate = .goesOn next ∧ next.phase.isWritten = true ∧
        next.item = { task.item with location } ∧
        (task.phase.isWritten = true → next.item = task.item)) ∨
      (effect.events = [.finished task.item] ∧
        ∃ panic, effect.fate = .ofPanic task.item panic ∧
          effect.faults = panicFaults task.item.id panic) := by
  cases closing with
  | persists location phase =>
      refine .inl ⟨_, some location, rfl, rfl, rfl, fun written => ?_⟩
      rw [phase] at written
      cases written
  | persistsNot | passes | buffers | flushes | saves | savesNot =>
      exact .inl ⟨_, task.item.location, rfl, rfl, rfl, fun _ => rfl⟩
  | finishes panic => exact .inr ⟨rfl, panic, rfl, rfl⟩

theorem isEnding_of_isWritten
    {phase : Phase}
    (h : phase.isWritten = true) :
    phase.isEnding = true := by
  cases phase with
  | buffering | saving _ | finishing => rfl
  | _ => cases h

/-- An item is with a task that has done with its record, or is finished. -/
def Carried (s : State) (item : Item) : Prop :=
  (∃ task ∈ s.tasks, task.item = item ∧ task.phase.isWritten = true) ∨
    ((∃ tick, (tick, .finished item) ∈ s.events) ∧ (s.fatal = none → item ∈ s.finished)) ∨
    s.stage = .unwound

theorem fatal_of_transition
    (h : Transition s action t)
    (fatal : t.fatal = none) :
    s.fatal = none := by
  cases h with
  | advances | cancels | takesPermit | spawns | flushes | leaves | closes => exact fatal
  | turns | skips | breaksInSkip | closesNot => exact (fatal_of_faulted (s := s) fatal).1

theorem finished_of_transition
    {item : Item}
    (h : Transition s action t)
    (hmem : item ∈ s.finished) :
    item ∈ t.finished := by
  cases h with
  | turns | skips => exact List.mem_append_left _ hmem
  | _ => exact hmem

theorem carried_of_transition
    {item : Item}
    (h : Transition s action t)
    (numbered : Numbered s)
    (carried : Carried s item) :
    Carried t item := by
  rcases carried with ⟨task, htask, hitem, hwritten⟩ | ⟨⟨tick, hevent⟩, hfinished⟩ | hstage
  · cases h with
    | advances | cancels | skips | takesPermit | flushes | leaves | closes | closesNot =>
        exact .inl ⟨task, htask, hitem, hwritten⟩
    | spawns => exact .inl ⟨task, List.mem_append_left _ htask, hitem, hwritten⟩
    | breaksInSkip => exact .inr (.inr rfl)
    | @turns turning move effect live found turn =>
        have hturning := (mem_of_task? found).1
        by_cases hnumber : task.number = turning.number
        · cases eq_of_number numbered.distinct hturning htask hnumber
          rcases fate_of_closing (closing_of_turn turn (isEnding_of_isWritten hwritten)) with
            ⟨next, _, hfate, hphase, -, hnext⟩ | ⟨hevents, panic, hfate, hfaults⟩
          · refine .inl ⟨next, ?_, (hnext hwritten).trans hitem, hphase⟩
            show next ∈ effect.fate.tasks task.number s.tasks
            rw [hfate]
            exact mem_tasks_goesOn htask
          · refine .inr (.inl ⟨⟨s.clock, List.mem_append_left _ ?_⟩, fun hfatal => ?_⟩)
            · rw [hevents, hitem]
              exact List.mem_singleton.mpr rfl
            · have hcalm := hfaults.symm.trans (fatal_of_faulted (s := s) hfatal).2
              cases panic with
              | some message => cases hcalm
              | none =>
                  refine List.mem_append_right _ ?_
                  rw [hfate, ← hitem]
                  exact List.mem_singleton.mpr rfl
        · exact .inl ⟨task, mem_tasks_of_ne effect.fate htask hnumber, hitem, hwritten⟩
  · obtain ⟨new, hnew⟩ := events_of_transition h
    refine .inr (.inl ⟨⟨tick, hnew ▸ List.mem_append_right new hevent⟩, fun hfatal => ?_⟩)
    exact finished_of_transition h (hfinished (fatal_of_transition h hfatal))
  · exact absurd hstage (stage_ne_unwound (live_of_transition h))

end Steps

/-- What is known of records and entries in a run that began with a checkpoint. -/
structure Ahead (checkpoint : Checkpoint) (s : State) : Prop where
  sink : s.setup.hasSink = true
  persisting : ∀ task ∈ s.tasks, task.phase = .persisting → task.item.isSettled = true
  buffering : ∀ task ∈ s.tasks, task.phase = .buffering → Written s.events task.item
  outstanding : ∀ entry ∈ s.outstanding, Backed s.events entry
  ordered : Ordered s.events
  pointers : ∀ entry ∈ s.saved.pointers, entry ∈ checkpoint.pointers ∨ Backed s.events entry
  completed : ∀ id ∈ s.saved.completed,
    id ∈ checkpoint.completed ∨ ∃ pointer, Backed s.events (id, pointer)
  carried : ∀ tick item, (tick, .persisted item) ∈ s.events → Carried s item

section Runs

variable {checkpoint : Checkpoint} {s t : State} {action : Action} {entry : CheckpointEntry}

/-- Entries are backed by what was seen before they came up. -/
theorem backed_of_transition
    (h : Transition s action t)
    (ahead : Ahead checkpoint s)
    (hentry : entry ∈ t.outstanding) :
    Backed s.events entry := by
  rcases mem_outstanding_of_transition h hentry with hold | ⟨task, htask, phase, heq⟩
  · exact ahead.outstanding entry hold
  · exact ⟨task.item, ahead.buffering task htask phase, heq⟩

/-- A task afterwards was there before, is new, or took the turn. -/
theorem mem_tasks_of_transition
    {task : Task}
    (h : Transition s action t)
    (htask : task ∈ t.tasks) :
    task ∈ s.tasks ∨ task.phase = .spawned ∨
      ∃ before ∈ s.tasks, ∃ move effect, Turn s before move effect ∧
        effect.fate = .goesOn task ∧ t.events = (s.seen effect.events).events := by
  cases h with
  | advances | cancels | skips | takesPermit | flushes | leaves | closes | closesNot =>
      exact .inl htask
  | breaksInSkip => cases htask
  | spawns =>
      rcases List.mem_append.mp htask with hold | hnew
      · exact .inl hold
      · rw [List.mem_singleton.mp hnew]
        exact .inr (.inl rfl)
  | @turns before move effect live found turn =>
      rcases mem_tasks htask with hnext | ⟨hold, -⟩
      · exact .inr (.inr ⟨before, (mem_of_task? found).1, move, effect, turn, hnext, rfl⟩)
      · exact .inl hold

theorem setup_of_transition
    (h : Transition s action t) :
    t.setup = s.setup := by
  cases h <;> rfl

theorem setup_of_reaches
    (h : Reaches s t) :
    t.setup = s.setup :=
  h.invariant (P := fun u => u.setup = s.setup)
    (fun h same => (setup_of_transition h).trans same) rfl

theorem settled_of_transition
    (h : Transition s action t)
    (ahead : Ahead checkpoint s) :
    ∀ task ∈ t.tasks, task.phase = .persisting → task.item.isSettled = true := by
  intro task htask phase
  rcases mem_tasks_of_transition h htask with hold | hspawned | ⟨_, _, _, _, turn, hfate, _⟩
  · exact ahead.persisting task hold phase
  · rw [hspawned] at phase
    cases phase
  · exact settled_of_goesOn turn hfate phase

theorem written_of_transition
    (h : Transition s action t)
    (ahead : Ahead checkpoint s) :
    ∀ task ∈ t.tasks, task.phase = .buffering → Written t.events task.item := by
  intro task htask phase
  rcases mem_tasks_of_transition h htask with
    hold | hspawned | ⟨before, hbefore, _, effect, turn, hfate, hevents⟩
  · obtain ⟨new, hnew⟩ := events_of_transition h
    exact hnew ▸ (ahead.buffering task hold phase).append
  · rw [hspawned] at phase
    cases phase
  · refine written_of_goesOn ahead.sink turn hfate (ahead.persisting before hbefore) phase
      fun event hevent => ?_
    rw [hevents]
    exact List.mem_append_left _ (List.mem_map.mpr ⟨event, List.mem_reverse.mpr hevent, rfl⟩)

theorem ordered_of_transition
    (h : Transition s action t)
    (ahead : Ahead checkpoint s) :
    Ordered t.events := by
  rcases saves_of_transition h with ⟨-, new, hevents, hother⟩ | ⟨batch, hbatch, -, hevents⟩
  · exact hevents ▸ ahead.ordered.append hother
  · rw [hevents]
    refine ⟨fun entries heq entry hentry => ?_, ahead.ordered⟩
    cases heq
    exact ahead.outstanding entry (hbatch entry hentry)

theorem pointers_of_transition
    (h : Transition s action t)
    (ahead : Ahead checkpoint s) :
    ∀ entry ∈ t.saved.pointers, entry ∈ checkpoint.pointers ∨ Backed s.events entry := by
  intro entry hentry
  rcases saves_of_transition h with ⟨hsaved, -⟩ | ⟨batch, hbatch, hsaved, -⟩
  · exact ahead.pointers entry (hsaved ▸ hentry)
  · rw [hsaved] at hentry
    rcases Checkpoint.mem_of_mem_pointers_recordAll hentry with hold | hnew
    · exact ahead.pointers entry hold
    · exact .inr (ahead.outstanding entry (hbatch entry hnew))

theorem completed_of_transition
    (h : Transition s action t)
    (ahead : Ahead checkpoint s) :
    ∀ id ∈ t.saved.completed,
      id ∈ checkpoint.completed ∨ ∃ pointer, Backed s.events (id, pointer) := by
  intro id hid
  rcases saves_of_transition h with ⟨hsaved, -⟩ | ⟨batch, hbatch, hsaved, -⟩
  · exact ahead.completed id (hsaved ▸ hid)
  · rw [hsaved] at hid
    rcases Checkpoint.mem_completed_recordAll.mp hid with hold | hnew
    · exact ahead.completed id hold
    · obtain ⟨entry, hentry, rfl⟩ := List.mem_map.mp hnew
      exact .inr ⟨entry.2, ahead.outstanding entry (hbatch entry hentry)⟩

theorem ahead_of_transition
    (h : Transition s action t)
    (numbered : Numbered s)
    (ahead : Ahead checkpoint s) :
    Ahead checkpoint t := by
  obtain ⟨new, hnew⟩ := events_of_transition h
  have keep : ∀ {entry}, Backed s.events entry → Backed t.events entry := fun backed =>
    hnew ▸ backed.append
  refine ⟨setup_of_transition h ▸ ahead.sink, settled_of_transition h ahead,
    written_of_transition h ahead, fun entry hentry => keep (backed_of_transition h ahead hentry),
    ordered_of_transition h ahead,
    fun entry hentry => (pointers_of_transition h ahead entry hentry).imp_right keep,
    fun key hkey => (completed_of_transition h ahead key hkey).imp_right
      fun ⟨pointer, backed⟩ => ⟨pointer, keep backed⟩,
    fun tick item hmem => ?_⟩
  rcases persisted_of_transition h hmem with hold | ⟨_, _, _, _, _, _, hnext⟩
  · exact carried_of_transition h numbered (ahead.carried tick item hold)
  · exact .inl ⟨_, hnext, rfl, rfl⟩

/-- A task with a number has its item at its end, which differs at most by the place of its
record from what it was. -/
structure Handed (number : Nat) (item : Item) (s : State) : Prop where
  below : number < s.dispatched
  item : ∀ task ∈ s.tasks, task.number = number →
    task.phase.isEnding = true ∧ ∃ location, task.item = { item with location }

theorem dispatched_of_transition
    (h : Transition s action t) :
    s.dispatched ≤ t.dispatched := by
  cases h with
  | spawns => exact Nat.le_succ s.dispatched
  | _ => exact Nat.le_refl _

theorem handed_of_transition
    {number : Nat} {item : Item}
    (h : Transition s action t)
    (handed : Handed number item s) :
    Handed number item t := by
  refine ⟨Nat.lt_of_lt_of_le handed.below (dispatched_of_transition h), ?_⟩
  intro task htask hnumber
  cases h with
  | advances | cancels | skips | takesPermit | flushes | leaves | closes | closesNot =>
      exact handed.item task htask hnumber
  | breaksInSkip => cases htask
  | spawns =>
      rcases List.mem_append.mp htask with hold | hnew
      · exact handed.item task hold hnumber
      · have hbelow := handed.below
        rw [List.mem_singleton.mp hnew] at hnumber
        simp only at hnumber
        omega
  | @turns before move effect live found turn =>
      rcases mem_tasks htask with hnext | ⟨hold, -⟩
      · have hbefore := (mem_of_task? found).1
        obtain ⟨hending, location, hitem⟩ :=
          handed.item before hbefore ((turn_number turn hnext).symm.trans hnumber)
        rcases fate_of_closing (closing_of_turn turn hending) with
          ⟨next, place, hfate, hphase, hplace, -⟩ | ⟨-, panic, hfate, -⟩
        · cases hnext.symm.trans hfate
          exact ⟨isEnding_of_isWritten hphase, place, by rw [hplace, hitem]⟩
        · cases panic <;> cases hnext.symm.trans hfate
      · exact handed.item task hold hnumber

/-- An item that was handed over for its record is finished with the status it had. -/
theorem finished_of_handed
    {number tick : Nat} {item after : Item} {move : Move}
    (h : Transition s (.task number move) t)
    (handed : Handed number item s)
    (hevents : t.events = (tick, .finished after) :: s.events) :
    ∃ location, after = { item with location } := by
  cases h with
  | @turns task move effect live found turn =>
      obtain ⟨hending, location, hitem⟩ := handed.item task (mem_of_task? found).1 rfl
      have hseen : (s.seen effect.events).events = (tick, .finished after) :: s.events := hevents
      cases seen_of_turn turn with
      | quiet events =>
          have hlist : effect.events.reverse.map (fun event => (s.clock, event))
              = [(tick, .finished after)] := List.append_cancel_right hseen
          have hmem := hlist ▸ List.mem_singleton.mpr rfl
          obtain ⟨event, hevent, heq⟩ := List.mem_map.mp hmem
          cases heq
          cases events _ (List.mem_reverse.mp hevent)
      | persists | saves => cases hseen
      | turnsAway phase =>
          rcases phase with hphase | ⟨due, hphase⟩ <;> rw [hphase] at hending <;> cases hending
      | finishes panic phase =>
          cases hseen
          exact ⟨location, hitem⟩

/-- What a run says of records and of entries of the checkpoint, in one of its states. -/
structure WriteAhead (checkpoint : Checkpoint) (s : State) : Prop where
  /-- Entries on their way to the checkpoint have their records. -/
  outstanding : ∀ entry ∈ s.outstanding, Backed s.events entry
  /-- Entries had their records when they were written. -/
  ordered : Ordered s.events
  pointers : ∀ entry ∈ s.saved.pointers, entry ∈ checkpoint.pointers ∨ Backed s.events entry
  completed : ∀ id ∈ s.saved.completed,
    id ∈ checkpoint.completed ∨ ∃ pointer, Backed s.events (id, pointer)
  /-- Entries have their records before they come up. -/
  created : ∀ action t, s.step? action = some t → ∀ entry ∈ t.outstanding, Backed s.events entry
  /-- A record is known to be written from the answer alone. -/
  answered : ∀ action t tick item, s.step? action = some t →
    (tick, .persisted item) ∈ t.events → (tick, .persisted item) ∈ s.events ∨
      ∃ task ∈ s.tasks, ∃ location, task.phase = .persisting ∧
        action = .task task.number (.persist (.ok location)) ∧
        item = { task.item with location := some location }
  /-- An item stays what its record says. -/
  carried : ∀ tick item, (tick, .persisted item) ∈ s.events → Carried s item
  /-- Only settled items are handed over for their records. -/
  settled : ∀ task ∈ s.tasks, task.phase = .persisting → task.item.isSettled = true
  /-- An item that was handed over is finished with the status it had. -/
  handed : ∀ task ∈ s.tasks, task.phase = .persisting → ∀ t u move tick item, Reaches s t →
    t.step? (.task task.number move) = some u →
    u.events = (tick, .finished item) :: t.events →
    item.isSettled = true ∧ ∃ location, item = { task.item with location }

variable {setup : Setup} {items : List Item} {throttle : Throttle} {registry : Registry}
  {monitor : Monitor} {clock : Nat} {first : State}

theorem batch_opened :
    (State.opened setup items checkpoint throttle registry monitor clock).stage.batch = [] := by
  rw [stage_opened]
  split <;> rfl

theorem ahead_opened
    (sink : setup.hasSink = true) :
    Ahead checkpoint (.opened setup items checkpoint throttle registry monitor clock) where
  sink := sink
  persisting task htask := absurd htask List.not_mem_nil
  buffering task htask := absurd htask List.not_mem_nil
  outstanding entry hentry := by
    rw [State.outstanding, batch_opened] at hentry
    cases hentry
  ordered := by
    refine ⟨fun entries heq => ?_, trivial⟩
    cases heq
  pointers entry hentry := .inl hentry
  completed id hid := .inl hid
  carried tick item hmem := by
    cases List.mem_singleton.mp hmem

/-- Each entry of the checkpoint has its record, which was written before. -/
theorem writeAhead_of_reaches
    (sink : setup.hasSink = true)
    (opened : State.initial? setup items (.ok checkpoint) throttle registry monitor clock
      = .ok first)
    (run : Reaches first s) :
    WriteAhead checkpoint s := by
  obtain ⟨_, hsaved, -, rfl⟩ := opened_of_initial? opened
  cases hsaved
  have numbered := numbered_of_reaches run numbered_opened
  obtain ⟨-, ahead⟩ := run.invariant (P := fun s => Numbered s ∧ Ahead checkpoint s)
    (fun h both => ⟨numbered_of_transition h both.1, ahead_of_transition h both.1 both.2⟩)
    ⟨numbered_opened, ahead_opened sink⟩
  refine ⟨ahead.outstanding, ahead.ordered, ahead.pointers, ahead.completed, ?_, ?_,
    ahead.carried, ahead.persisting, ?_⟩
  · intro action t h entry hentry
    exact backed_of_transition (transition_of_step? h) ahead hentry
  · intro action t tick item h hmem
    rcases persisted_of_transition (transition_of_step? h) hmem with
      hold | ⟨task, htask, location, phase, haction, hitem, -⟩
    · exact .inl hold
    · exact .inr ⟨task, htask, location, phase, haction, hitem⟩
  · intro task htask phase t u move tick item later h hevents
    have hstart : Handed task.number task.item s := by
      refine ⟨numbered.below task htask, fun other hother hnumber => ?_⟩
      cases eq_of_number numbered.distinct htask hother hnumber
      exact ⟨by rw [phase]; rfl, task.item.location, rfl⟩
    have handed := later.invariant (P := Handed task.number task.item) handed_of_transition hstart
    obtain ⟨location, rfl⟩ := finished_of_handed (transition_of_step? h) handed hevents
    exact ⟨ahead.persisting task htask phase, location, rfl⟩

/-- One of two items is new in the checkpoint, and its record was written before. -/
theorem writeAhead_of_second_resumed :
    ∃ last, Reaches (.opened oneByOne twoItems { completed := ["2"] } {} {} {} 0) last ∧
      last.saved.completed = ["1", "2"] ∧ WriteAhead { completed := ["2"] } last := by
  have hlists : (State.follow? (.opened oneByOne twoItems { completed := ["2"] } {} {} {} 0)
      processesOne).map (fun s => s.saved.completed) = some ["1", "2"] := by
    decide +kernel
  obtain ⟨last, hfollow, hcompleted⟩ := Option.map_eq_some_iff.mp hlists
  have run := reaches_of_follow? hfollow
  exact ⟨last, run, hcompleted, writeAhead_of_reaches rfl (initial?_eq_ok (by decide +kernel)) run⟩

end Runs

end Run
end BatchRun
