import BatchRun.Proofs.Run.WriteAhead

/-!
# Ledger of checkpoint entries

Every record that was written leads to one entry, and the ledger tells where that entry is.

**Types.**
An entry is `State.underway` from the record to the checkpoint.  `State.dropped` are the entries
that an action takes out of the run without listing them: the batch of a write of the checkpoint
that fails, and all that the tasks hold when an observer breaks off the dispatcher.
`State.lost` collects them along a run.  `State.listing` are the entries that an action lists.

**Invariant.**
The entries of all records are those underway, those that the run has listed, and those that are
lost, each once (`Balanced`).

**Results.**
* `saved_of_transition`: the checkpoint changes by the entries that an action lists.
* `solvent_of_follow?`: the ledger of a run is balanced in every state.
* `ledger_of_follow?`: the checkpoint lists an item whose record was written if and only if its
  entry is neither underway nor lost.
-/

namespace BatchRun
namespace Run

/-- Entries that are due because of an event. -/
def Event.recorded : Event → List CheckpointEntry
  | persisted item => [item.checkpointEntry]
  | _ => []

/-- Entries that an event says are listed. -/
def Event.listed : Event → List CheckpointEntry
  | saved entries => entries
  | _ => []

/-- Entries of all records that were written. -/
def recordedIn (events : List (Nat × Event)) : List CheckpointEntry :=
  events.flatMap fun event => event.2.recorded

/-- Entries that were listed. -/
def listedIn (events : List (Nat × Event)) : List CheckpointEntry :=
  events.flatMap fun event => event.2.listed

/-- Entries that a task holds. -/
def Task.entries (task : Task) : List CheckpointEntry :=
  match task.phase with
  | .buffering => [task.item.checkpointEntry]
  | .saving batch => batch
  | _ => []

/-- Entries that a step of a task drops. -/
def Task.dropped (task : Task) : Move → List CheckpointEntry
  | .save (some _) => task.phase.batch
  | _ => []

/-- Id of an item whose record was not written yet. -/
def Task.pledge (task : Task) : List String :=
  if task.phase.isWritten then [] else [task.item.id]

/-- Id of an item whose record is to be written. -/
def Task.awaited (task : Task) : List String :=
  match task.phase with
  | .persisting => [task.item.id]
  | _ => []

/-- Id of an item whose record is not written in a step of its task. -/
def Task.unrecorded (task : Task) : Move → List String
  | .persist (.error _) => task.awaited
  | _ => []

namespace State

/-- Entries from the record to the checkpoint. -/
def underway (s : State) : List CheckpointEntry :=
  s.tasks.flatMap Task.entries ++ s.unflushed ++ s.stage.batch

/-- Entries that an action takes out of a run without listing them. -/
def dropped (s : State) : Action → List CheckpointEntry
  | .task number move =>
    match s.task? number with
    | some task => task.dropped move
    | none => []
  | .close (some _) => s.stage.batch
  | .skipNext (some _) => s.tasks.flatMap Task.entries
  | _ => []

/-- Entries that an action lists in the checkpoint. -/
def listing (s : State) : Action → List CheckpointEntry
  | .task number (.save none) =>
    match s.task? number with
    | some task => task.phase.batch
    | none => []
  | .close none => s.stage.batch
  | _ => []

/-- Entries that actions take out of a run without listing them. -/
def lost (s : State) : List Action → List CheckpointEntry
  | [] => []
  | action :: actions =>
    s.dropped action ++
      match s.step? action with
      | some t => t.lost actions
      | none => []

/-- Ids of items whose records were to be written and will not be after an action. -/
def unrecordedBy (s : State) : Action → List String
  | .task number move =>
    match s.task? number with
    | some task => task.unrecorded move
    | none => []
  | .skipNext (some _) => s.tasks.flatMap Task.awaited
  | _ => []

/-- Ids of items whose records were to be written and will not be after some actions. -/
def unrecorded (s : State) : List Action → List String
  | [] => []
  | action :: actions =>
    s.unrecordedBy action ++
      match s.step? action with
      | some t => t.unrecorded actions
      | none => []

/-- Ids of the items whose records were written or may still be written. -/
def pledged (s : State) : List String :=
  (recordedIn s.events).map Prod.fst ++ s.tasks.flatMap Task.pledge ++ s.waiting.map Item.id

end State

/-- Each entry is underway, listed, or lost. -/
def Balanced (s : State) (lost : List CheckpointEntry) : Prop :=
  (recordedIn s.events).Perm (s.underway ++ listedIn s.events ++ lost)

section Turns

variable {s : State} {task next : Task} {move : Move} {effect : Effect}

theorem entries_eq_nil
    (h : task.phase.isEnding = false) :
    task.entries = [] := by
  unfold Task.entries
  cases hphase : task.phase with
  | buffering | saving _ => rw [hphase] at h; cases h
  | _ => rfl

theorem entries_ended
    (moved : Except RejectedMove Item)
    (sink : s.setup.hasSink = true) :
    (s.ended task moved).entries = [] := by
  simp only [Task.entries, State.ended, State.endingPhase, sink]
  cases (settled task.item moved).isSettled <;> rfl

theorem entries_of_isQuiet
    {event : Event}
    (h : event.isQuiet = true) :
    event.recorded = [] ∧ event.listed = [] := by
  cases event with
  | persisted _ | saved _ | finished _ => cases h
  | _ => exact ⟨rfl, rfl⟩

/-- Before its end a task is not seen to do anything about entries. -/
theorem events_of_early
    (turn : Turn s task move effect)
    (early : task.phase.isEnding = false) :
    effect.events.reverse.flatMap Event.recorded = [] ∧
      effect.events.reverse.flatMap Event.listed = [] := by
  cases seen_of_turn turn with
  | quiet events =>
      rw [List.flatMap_eq_nil_iff, List.flatMap_eq_nil_iff]
      exact ⟨fun event hevent => (entries_of_isQuiet (events event (List.mem_reverse.mp hevent))).1,
        fun event hevent => (entries_of_isQuiet (events event (List.mem_reverse.mp hevent))).2⟩
  | turnsAway phase events =>
      rw [events]
      exact ⟨rfl, rfl⟩
  | persists _ phase | saves phase | finishes _ phase =>
      rw [phase] at early
      cases early

/-- Before its end a task neither takes entries nor drops any. -/
theorem fate_of_early
    (sink : s.setup.hasSink = true)
    (turn : Turn s task move effect)
    (early : task.phase.isEnding = false) :
    effect.fate.gather Task.entries = [] ∧ effect.unflushed = none ∧ task.dropped move = [] := by
  cases turn with
  | closes closing =>
      rw [isEnding_of_closing closing] at early
      cases early
  | turnsAway panic =>
      cases panic with
      | none | some _ => exact ⟨rfl, rfl, rfl⟩
  | fails | completes => exact ⟨entries_ended _ sink, rfl, rfl⟩
  | interrupts stops =>
      refine ⟨entries_ended _ sink, rfl, ?_⟩
      cases stops <;> rfl
  | answers phase ends =>
      refine ⟨rfl, rfl, ?_⟩
      cases ends <;> rfl
  | _ => exact ⟨rfl, rfl, rfl⟩

/-- What a turn does to the ledger. -/
theorem balanced_of_turn
    (sink : s.setup.hasSink = true)
    (keeps : s.keepsCheckpoint = true)
    (turn : Turn s task move effect) :
    (effect.events.reverse.flatMap Event.recorded ++ task.entries ++ s.unflushed).Perm
      (effect.fate.gather Task.entries ++ effect.unflushed.getD s.unflushed
        ++ effect.events.reverse.flatMap Event.listed ++ task.dropped move) := by
  cases hphase : task.phase.isEnding with
  | false =>
      obtain ⟨hrecorded, hlisted⟩ := events_of_early turn hphase
      obtain ⟨hfate, hunflushed, hdropped⟩ := fate_of_early sink turn hphase
      simp [hrecorded, hlisted, entries_eq_nil hphase, hfate, hunflushed, hdropped]
  | true =>
      cases closing_of_turn turn hphase with
      | persists location phase =>
          simp [Task.entries, phase, Fate.gather, Event.recorded, Event.listed, Task.dropped]
      | persistsNot fault phase => simp [Task.entries, phase, Fate.gather, Task.dropped]
      | passes panic phase off =>
          rw [keeps] at off
          cases off
      | buffers panic phase | flushes panic phase =>
          have hswap : ([task.item.checkpointEntry] ++ s.unflushed).Perm
              (s.unflushed ++ [task.item.checkpointEntry]) := List.perm_append_comm
          simpa [Task.entries, phase, Fate.gather, Task.dropped] using hswap
      | saves phase =>
          simpa [Task.entries, phase, Fate.gather, Event.recorded, Event.listed, Task.dropped]
            using List.perm_append_comm
      | savesNot fault phase =>
          simpa [Task.entries, phase, Fate.gather, Phase.batch, Task.dropped] using
            List.perm_append_comm
      | finishes panic phase =>
          cases panic <;>
            simp [Task.entries, phase, Fate.gather, Event.recorded, Event.listed, Task.dropped]

theorem pledge_of_early
    (early : task.phase.isEnding = false) :
    task.pledge = [task.item.id] := by
  refine if_neg fun hwritten => ?_
  rw [isEnding_of_isWritten hwritten] at early
  cases early

theorem unrecorded_of_early
    (turn : Turn s task move effect)
    (early : task.phase.isEnding = false) :
    task.unrecorded move = [] := by
  cases turn with
  | closes closing =>
      rw [isEnding_of_closing closing] at early
      cases early
  | answers _ ends => cases ends <;> rfl
  | interrupts stops => cases stops <;> rfl
  | _ => rfl

/-- A record is written for an item at most once, and not after it was refused. -/
theorem pledge_of_turn
    (turn : Turn s task move effect) :
    ((effect.events.reverse.flatMap Event.recorded).map Prod.fst
      ++ effect.fate.gather Task.pledge ++ task.unrecorded move).Sublist task.pledge := by
  cases hphase : task.phase.isEnding with
  | false =>
      rw [(events_of_early turn hphase).1, pledge_of_early hphase, unrecorded_of_early turn hphase,
        List.append_nil]
      cases hfate : effect.fate with
      | goesOn next =>
          have hid : next.item.id = task.item.id :=
            congrArg Prod.fst (kept_of_goesOn turn hfate).origin
          simp only [Fate.gather, Task.pledge, hid, List.map_nil, List.nil_append]
          split
          case isTrue => exact List.nil_sublist _
          case isFalse => exact .refl _
      | files _ | loses => exact List.nil_sublist _
  | true =>
      cases closing_of_turn turn hphase with
      | persists location phase =>
          simp [Task.pledge, phase, Phase.isWritten, Fate.gather, Event.recorded,
            Item.checkpointEntry, Task.unrecorded]
      | persistsNot fault phase =>
          simp [Task.pledge, phase, Phase.isWritten, Fate.gather, Task.unrecorded, Task.awaited]
      | finishes panic => cases panic <;> simp [Fate.gather, Event.recorded, Task.unrecorded]
      | saves =>
          simp [Task.pledge, Phase.isWritten, Fate.gather, Event.recorded, Task.unrecorded]
      | passes | buffers | flushes | savesNot =>
          simp [Task.pledge, Phase.isWritten, Fate.gather, Task.unrecorded]

end Turns

section Steps

variable {s t : State} {action : Action} {lost : List CheckpointEntry}

theorem recordedIn_append
    (new events : List (Nat × Event)) :
    recordedIn (new ++ events) = recordedIn new ++ recordedIn events :=
  List.flatMap_append

theorem listedIn_append
    (new events : List (Nat × Event)) :
    listedIn (new ++ events) = listedIn new ++ listedIn events :=
  List.flatMap_append

theorem recordedIn_map
    (tick : Nat)
    (events : List Event) :
    recordedIn (events.map fun event => (tick, event)) = events.flatMap Event.recorded :=
  List.flatMap_map ..

theorem listedIn_map
    (tick : Nat)
    (events : List Event) :
    listedIn (events.map fun event => (tick, event)) = events.flatMap Event.listed :=
  List.flatMap_map ..

theorem balanced_of_transition
    (h : Transition s action t)
    (sink : s.setup.hasSink = true)
    (keeps : s.keepsCheckpoint = true)
    (numbered : Numbered s)
    (balanced : Balanced s lost) :
    Balanced t (lost ++ s.dropped action) := by
  unfold Balanced State.underway at *
  rw [List.perm_iff_count] at *
  intro entry
  have hentry := balanced entry
  simp only [List.count_append] at hentry ⊢
  cases h with
  | advances | cancels | takesPermit =>
      simp only [State.dropped, List.count_nil]
      exact hentry
  | @turns task move effect live found turn =>
      obtain ⟨rest, hbefore, hafter⟩ := flatMap_tasks Task.entries effect.fate numbered.distinct
        (mem_of_task? found).1
      have hturn := (balanced_of_turn sink keeps turn).count_eq entry
      have hbefore := hbefore.count_eq entry
      have hafter := hafter.count_eq entry
      simp only [State.dropped, found, Effect.apply, State.seen, State.faulted, recordedIn_append,
        listedIn_append, recordedIn_map, listedIn_map, List.count_append] at hturn hbefore hafter ⊢
      omega
  | skips =>
      simp only [State.dropped, State.seen, State.faulted, recordedIn_append, listedIn_append,
        recordedIn_map, listedIn_map, List.count_append]
      simpa [Event.recorded, Event.listed] using hentry
  | breaksInSkip stage =>
      simp only [stage, batch_dispatching, List.count_nil] at hentry
      simp only [State.dropped, State.seen, State.faulted, recordedIn_append, listedIn_append,
        recordedIn_map, listedIn_map, List.count_append]
      simp [Event.recorded, Event.listed]
      omega
  | spawns =>
      simp only [State.dropped, List.flatMap_append, List.count_append]
      simpa [Task.entries] using hentry
  | flushes stage waiting tasks =>
      simp only [stage, tasks, batch_dispatching, List.flatMap_nil, List.count_nil] at hentry
      simp only [State.dropped, tasks, keeps, if_true, batch_flushing, List.flatMap_nil,
        List.count_nil]
      omega
  | leaves fault stage ends =>
      simp only [stage, batch_flushing, List.count_nil] at hentry
      cases fault <;> simp [State.dropped, stage, batch_of_ends ends] <;> omega
  | closes stage full ends =>
      simp only [stage, batch_flushing] at hentry
      simp only [State.dropped, State.seen, batch_of_ends ends, recordedIn_append,
        listedIn_append, recordedIn_map, listedIn_map, List.count_append]
      simp [Event.recorded, Event.listed]
      omega
  | closesNot fault stage full ends =>
      simp only [stage, batch_flushing] at hentry
      simp only [State.dropped, State.faulted, stage, batch_of_ends ends, batch_flushing,
        List.count_nil]
      omega

/-- What a task awaits it has promised. -/
theorem awaited_sublist
    (task : Task) :
    task.awaited.Sublist task.pledge := by
  unfold Task.awaited Task.pledge
  cases task.phase with
  | persisting => exact .refl _
  | _ => exact List.nil_sublist _

theorem awaited_tasks_sublist
    (tasks : List Task) :
    (tasks.flatMap Task.awaited).Sublist (tasks.flatMap Task.pledge) := by
  induction tasks with
  | nil => exact .refl _
  | cons task rest ih => exact (awaited_sublist task).append ih

/-- No step promises a record for an item a second time, or keeps a promise that was refused. -/
theorem count_pledged_add_le
    (h : Transition s action t)
    (numbered : Numbered s)
    (id : String) :
    t.pledged.count id + (s.unrecordedBy action).count id ≤ s.pledged.count id := by
  unfold State.pledged
  simp only [List.count_append]
  cases h with
  | advances | cancels | takesPermit | flushes | leaves | closesNot => exact Nat.le_refl _
  | @turns task move effect live found turn =>
      obtain ⟨rest, hbefore, hafter⟩ := flatMap_tasks Task.pledge effect.fate numbered.distinct
        (mem_of_task? found).1
      have hturn := (pledge_of_turn turn).count_le id
      have hbefore := hbefore.count_eq id
      have hafter := hafter.count_eq id
      simp only [State.unrecordedBy, found, Effect.apply, State.seen, State.faulted,
        recordedIn_append, recordedIn_map, List.map_append, List.count_append]
        at hturn hbefore hafter ⊢
      omega
  | skips stage waiting =>
      simp only [State.seen, State.faulted, recordedIn_append, recordedIn_map, waiting]
      simp [Event.recorded, List.count_cons, State.unrecordedBy]
  | breaksInSkip stage waiting =>
      have hawaited := (awaited_tasks_sublist s.tasks).count_le id
      simp only [State.seen, State.faulted, recordedIn_append, recordedIn_map, waiting]
      simp [Event.recorded, List.count_cons, State.unrecordedBy]
      omega
  | spawns stage waiting =>
      simp only [List.flatMap_append, List.count_append, waiting]
      simp [Task.pledge, Phase.isWritten, List.count_cons, State.unrecordedBy]
      omega
  | closes =>
      simp only [State.seen, recordedIn_append, recordedIn_map]
      simp [Event.recorded, State.unrecordedBy]

theorem count_pledged_le
    (h : Transition s action t)
    (numbered : Numbered s)
    (id : String) :
    t.pledged.count id ≤ s.pledged.count id :=
  Nat.le_trans (Nat.le_add_right _ _) (count_pledged_add_le h numbered id)

end Steps

theorem saved_of_turn
    {task : Task} {move : Move} {effect : Effect}
    (found : s.task? task.number = some task)
    (turn : Turn s task move effect) :
    effect.saved = s.listing (.task task.number move) := by
  cases turn with
  | closes closing =>
      cases closing with
      | saves phase =>
          simp only [State.listing, found, phase]
          rfl
      | _ => rfl
  | answers _ ends => cases ends <;> rfl
  | interrupts stops => cases stops <;> rfl
  | _ => rfl

/-- The checkpoint changes by what an action lists, and by nothing else. -/
theorem saved_of_transition
    (h : Transition s action t) :
    t.saved = s.saved.recordAll (s.listing action) := by
  cases h with
  | turns live found turn =>
      rw [← saved_of_turn found turn]
      rfl
  | leaves fault stage =>
      have hnone : s.listing (.close fault) = [] := by
        cases fault with
        | none => simp [State.listing, stage]
        | some fault => rfl
      rw [hnone]
      rfl
  | closes stage =>
      simp only [State.listing, stage]
      rfl
  | _ => rfl

/-- What the checkpoint of a run lists. -/
structure Booked (checkpoint : Checkpoint) (s : State) : Prop where
  completed : ∀ id, id ∈ s.saved.completed ↔
    id ∈ checkpoint.completed ∨ id ∈ (listedIn s.events).map Prod.fst
  pointer : ∀ id ∈ (listedIn s.events).map Prod.fst,
    ∃ pointer, s.saved.pointer? id = some pointer ∧ (id, pointer) ∈ listedIn s.events

section Books

variable {checkpoint : Checkpoint} {s t : State} {action : Action}

theorem listedIn_eq_nil
    {events : List (Nat × Event)}
    (h : ∀ event ∈ events, ∀ entries, event.2 ≠ .saved entries) :
    listedIn events = [] := by
  refine List.flatMap_eq_nil_iff.mpr fun event hevent => ?_
  cases hkind : event.2 with
  | saved entries => exact absurd hkind (h event hevent entries)
  | _ => rfl

theorem booked_of_transition
    (h : Transition s action t)
    (booked : Booked checkpoint s) :
    Booked checkpoint t := by
  rcases saves_of_transition h with ⟨hsaved, new, hevents, hother⟩ | ⟨batch, -, hsaved, hevents⟩
  · have hlisted : listedIn t.events = listedIn s.events := by
      rw [hevents, listedIn_append, listedIn_eq_nil hother, List.nil_append]
    exact ⟨by rw [hsaved, hlisted]; exact booked.completed,
      by rw [hsaved, hlisted]; exact booked.pointer⟩
  · have hlisted : listedIn t.events = batch ++ listedIn s.events := by
      rw [hevents]
      rfl
    refine ⟨fun id => ?_, fun id hid => ?_⟩
    · rw [hsaved, hlisted, Checkpoint.mem_completed_recordAll, booked.completed, List.map_append,
        List.mem_append, or_assoc]
      exact or_congr_right or_comm
    · rw [hlisted] at hid ⊢
      by_cases hnew : id ∈ batch.map Prod.fst
      · obtain ⟨pointer, hpointer, hmem⟩ := Checkpoint.pointer?_recordAll_of_mem hnew
        exact ⟨pointer, hsaved ▸ hpointer, List.mem_append_left _ hmem⟩
      · have hold : id ∈ (listedIn s.events).map Prod.fst := by
          rw [List.map_append, List.mem_append] at hid
          exact hid.resolve_left hnew
        obtain ⟨pointer, hpointer, hmem⟩ := booked.pointer id hold
        refine ⟨pointer, ?_, List.mem_append_right _ hmem⟩
        rw [hsaved, Checkpoint.pointer?_recordAll_of_not_mem hnew, hpointer]

end Books

/-- What is known of entries in a run that began with a checkpoint and has lost some of them. -/
structure Solvent (checkpoint : Checkpoint) (s : State) (lost : List CheckpointEntry) : Prop where
  sink : s.setup.hasSink = true
  keeps : s.keepsCheckpoint = true
  numbered : Numbered s
  staged : Staged s
  balanced : Balanced s lost
  booked : Booked checkpoint s
  once : ∀ id, s.pledged.count id ≤ 1
  new : ∀ id ∈ s.pledged, id ∉ checkpoint.completed
  emptied : s.stage ≠ .dispatching → s.stage ≠ .unwound → s.unflushed = []

section Runs

variable {checkpoint : Checkpoint} {s t : State} {action : Action} {actions : List Action}
  {lost : List CheckpointEntry}

theorem keepsCheckpoint_of_transition
    (h : Transition s action t) :
    t.keepsCheckpoint = s.keepsCheckpoint := by
  unfold State.keepsCheckpoint State.settings
  rw [setup_of_transition h]

/-- Once all items are finished no entry is left for another checkpoint. -/
theorem emptied_of_transition
    (h : Transition s action t)
    (staged : Staged s)
    (emptied : s.stage ≠ .dispatching → s.stage ≠ .unwound → s.unflushed = []) :
    t.stage ≠ .dispatching → t.stage ≠ .unwound → t.unflushed = [] := by
  have hwound := stage_ne_unwound (live_of_transition h)
  intro hdispatching hunwound
  cases h with
  | advances | cancels => exact emptied hdispatching hunwound
  | skips stage | takesPermit stage | spawns stage => exact absurd stage hdispatching
  | breaksInSkip => exact absurd rfl hunwound
  | flushes => rfl
  | leaves fault stage | closes stage | closesNot fault stage =>
      exact emptied (by simp [stage]) hwound
  | turns live found turn =>
      have hmem := (mem_of_task? found).1
      rw [(staged.drained hdispatching hwound).2] at hmem
      cases hmem

theorem solvent_of_transition
    (h : Transition s action t)
    (solvent : Solvent checkpoint s lost) :
    Solvent checkpoint t (lost ++ s.dropped action) where
  sink := setup_of_transition h ▸ solvent.sink
  keeps := (keepsCheckpoint_of_transition h).trans solvent.keeps
  numbered := numbered_of_transition h solvent.numbered
  staged := staged_of_transition h solvent.staged
  balanced := balanced_of_transition h solvent.sink solvent.keeps solvent.numbered solvent.balanced
  booked := booked_of_transition h solvent.booked
  once id := Nat.le_trans (count_pledged_le h solvent.numbered id) (solvent.once id)
  new id hid := by
    have hcount := count_pledged_le h solvent.numbered id
    have hpos := List.count_pos_iff.mpr hid
    exact solvent.new id (List.count_pos_iff.mp (by omega))
  emptied := emptied_of_transition h solvent.staged solvent.emptied

theorem solvent_of_follow?
    (run : s.follow? actions = some t)
    (solvent : Solvent checkpoint s lost) :
    Solvent checkpoint t (lost ++ s.lost actions) := by
  induction actions generalizing s lost with
  | nil =>
      cases run
      simpa [State.lost] using solvent
  | cons action actions ih =>
      simp only [State.follow?] at run
      split at run
      case h_1 next hstep =>
          have hnext := ih run (solvent_of_transition (transition_of_step? hstep) solvent)
          simpa [State.lost, hstep] using hnext
      case h_2 =>
          cases run

/-- What has become of the items whose records were written, after some actions. -/
structure Ledger (first last : State) (actions : List Action) : Prop where
  /-- An item is listed if and only if its entry is neither underway nor lost. -/
  listed : ∀ tick item, (tick, .persisted item) ∈ last.events →
    (last.saved.contains item.id = true ↔
      item.checkpointEntry ∉ last.underway ∧ item.checkpointEntry ∉ first.lost actions)
  pointer : ∀ tick item, (tick, .persisted item) ∈ last.events →
    last.saved.contains item.id = true →
    last.saved.pointer? item.id = some ⟨item.status, item.location⟩
  /-- What is lost stays unlisted. -/
  lost : ∀ entry ∈ first.lost actions, last.saved.contains entry.1 = false
  /-- At the end nothing is underway. -/
  returned : ∀ result, last.stage = .returned result → last.underway = []

theorem mem_recordedIn
    {events : List (Nat × Event)} {entry : CheckpointEntry} :
    entry ∈ recordedIn events ↔
      ∃ tick item, (tick, .persisted item) ∈ events ∧ entry = item.checkpointEntry := by
  constructor
  · intro h
    obtain ⟨⟨tick, event⟩, hevent, hentry⟩ := List.mem_flatMap.mp h
    cases event with
    | persisted item => exact ⟨tick, item, hevent, List.mem_singleton.mp hentry⟩
    | _ => cases hentry
  · rintro ⟨tick, item, hevent, rfl⟩
    exact List.mem_flatMap.mpr ⟨_, hevent, List.mem_singleton.mpr rfl⟩

/-- Two recorded entries of one item are the same entry, and it is in one place. -/
theorem unlisted_of_solvent
    {entry : CheckpointEntry}
    (solvent : Solvent checkpoint s lost)
    (hentry : entry ∈ s.underway ++ lost) :
    entry.1 ∉ (listedIn s.events).map Prod.fst := by
  intro hlisted
  have honce := solvent.once entry.1
  have hcount := (solvent.balanced.map Prod.fst).count_eq entry.1
  have hhere := List.count_pos_iff.mpr (List.mem_map_of_mem (f := Prod.fst) hentry)
  have hthere := List.count_pos_iff.mpr hlisted
  simp only [State.pledged, List.map_append, List.count_append] at honce hcount hhere
  omega

/-- Records are written only for items that were not listed when the run began. -/
theorem new_of_recorded
    {entry : CheckpointEntry}
    (solvent : Solvent checkpoint s lost)
    (hentry : entry ∈ recordedIn s.events) :
    entry.1 ∉ checkpoint.completed :=
  solvent.new entry.1 (List.mem_append_left _ (List.mem_append_left _
    (List.mem_map_of_mem hentry)))

theorem contains_iff_of_solvent
    {entry : CheckpointEntry}
    (solvent : Solvent checkpoint s lost)
    (hentry : entry ∈ recordedIn s.events) :
    s.saved.contains entry.1 = true ↔ entry.1 ∈ (listedIn s.events).map Prod.fst := by
  rw [Checkpoint.contains, List.contains_iff_mem, solvent.booked.completed]
  exact or_iff_right (new_of_recorded solvent hentry)

theorem eq_of_recorded
    {entry other : CheckpointEntry}
    (solvent : Solvent checkpoint s lost)
    (hentry : entry ∈ recordedIn s.events)
    (hother : other ∈ recordedIn s.events)
    (h : entry.1 = other.1) :
    entry = other := by
  have hnodup : ((recordedIn s.events).map Prod.fst).Nodup := by
    refine List.nodup_iff_count_le_one.mpr fun id => ?_
    have honce := solvent.once id
    simp only [State.pledged, List.count_append] at honce
    omega
  exact List.inj_on_of_nodup_map hnodup hentry hother h

/-- Nothing is underway once a run has returned. -/
theorem underway_of_returned
    {result : Except RunFault Returned}
    (staged : Staged s)
    (emptied : s.stage ≠ .dispatching → s.stage ≠ .unwound → s.unflushed = [])
    (stage : s.stage = .returned result) :
    s.underway = [] := by
  have hdrained := staged.drained (by simp [stage]) (by simp [stage])
  have hemptied := emptied (by simp [stage]) (by simp [stage])
  simp [State.underway, hdrained.2, hemptied, stage, Stage.batch]

theorem ledger_of_solvent
    {first : State}
    (solvent : Solvent checkpoint t (first.lost actions)) :
    Ledger first t actions where
  listed tick item hevent := by
    have hentry := mem_recordedIn.mpr ⟨tick, item, hevent, rfl⟩
    have hcontains := contains_iff_of_solvent solvent hentry
    refine hcontains.trans ⟨fun hlisted => ⟨fun hway => ?_, fun hlost => ?_⟩, fun hnot => ?_⟩
    · exact unlisted_of_solvent solvent (List.mem_append_left _ hway) hlisted
    · exact unlisted_of_solvent solvent (List.mem_append_right _ hlost) hlisted
    · rcases List.mem_append.mp (solvent.balanced.mem_iff.mp hentry) with hfirst | hlost
      · rcases List.mem_append.mp hfirst with hway | hlisted
        · exact absurd hway hnot.1
        · exact List.mem_map_of_mem hlisted
      · exact absurd hlost hnot.2
  pointer tick item hevent hcontains := by
    have hentry := mem_recordedIn.mpr ⟨tick, item, hevent, rfl⟩
    have hlisted := (contains_iff_of_solvent solvent hentry).mp hcontains
    obtain ⟨pointer, hpointer, hmem⟩ := solvent.booked.pointer item.id hlisted
    have hrecorded : (item.id, pointer) ∈ recordedIn t.events :=
      solvent.balanced.mem_iff.mpr (List.mem_append_left _ (List.mem_append_right _ hmem))
    have heq := eq_of_recorded solvent hrecorded hentry rfl
    rw [hpointer, (Prod.mk.inj heq).2]
  lost entry hlost := by
    have hentry := solvent.balanced.mem_iff.mpr (List.mem_append_right _ hlost)
    have hunlisted := unlisted_of_solvent solvent (List.mem_append_right _ hlost)
    exact Bool.eq_false_iff.mpr fun h =>
      hunlisted ((contains_iff_of_solvent solvent hentry).mp h)
  returned _ stage := underway_of_returned solvent.staged solvent.emptied stage

variable {setup : Setup} {items : List Item} {throttle : Throttle} {registry : Registry}
  {monitor : Monitor} {clock : Nat} {first last : State}

theorem pledged_opened
    (store : setup.hasStore = true) :
    (State.opened setup items checkpoint throttle registry monitor clock).pledged =
      (items.filter fun item => !checkpoint.contains item.id).map Item.id := by
  rw [State.pledged, opened_waiting]
  simp [Setup.resumes, store, State.opened, State.log, recordedIn, Event.recorded]

theorem keepsCheckpoint_opened
    (store : setup.hasStore = true)
    (interval : setup.settings.checkpointInterval ≠ 0) :
    (State.opened setup items checkpoint throttle registry monitor clock).keepsCheckpoint
      = true := by
  show (setup.hasStore && setup.settings.checkpointInterval != 0) = true
  simp [store, interval]

theorem booked_opened :
    Booked checkpoint (.opened setup items checkpoint throttle registry monitor clock) :=
  ⟨fun id => by simp [State.opened, State.log, listedIn, Event.listed],
    fun id hid => by cases hid⟩

theorem solvent_opened
    (sink : setup.hasSink = true)
    (store : setup.hasStore = true)
    (interval : setup.settings.checkpointInterval ≠ 0)
    (distinct : (items.map Item.id).Nodup) :
    Solvent checkpoint (.opened setup items checkpoint throttle registry monitor clock) [] where
  sink := sink
  keeps := keepsCheckpoint_opened store interval
  numbered := numbered_opened
  staged := staged_opened
  balanced := by
    rw [Balanced, State.underway, batch_opened]
    exact .refl _
  booked := booked_opened
  once id := by
    rw [pledged_opened store]
    exact List.nodup_iff_count_le_one.mp (distinct.sublist (List.filter_sublist.map _)) id
  new id hid := by
    rw [pledged_opened store] at hid
    obtain ⟨item, hitem, rfl⟩ := List.mem_map.mp hid
    have hnot := (List.mem_filter.mp hitem).2
    simpa [Checkpoint.contains] using hnot
  emptied _ _ := rfl

/-- Of the items whose records were written, the checkpoint lists those whose entries are neither
underway nor lost. -/
theorem ledger_of_follow?
    (sink : setup.hasSink = true)
    (store : setup.hasStore = true)
    (interval : setup.settings.checkpointInterval ≠ 0)
    (distinct : (items.map Item.id).Nodup)
    (opened : State.initial? setup items (.ok checkpoint) throttle registry monitor clock
      = .ok first)
    (run : first.follow? actions = some last) :
    Ledger first last actions := by
  obtain ⟨_, hsaved, -, rfl⟩ := opened_of_initial? opened
  cases hsaved
  exact ledger_of_solvent (solvent_of_follow? run (solvent_opened sink store interval distinct))

/-- A checkpoint for every item. -/
def eachItem : Setup where
  settings := { checkpointInterval := 1 }
  hasSink := true
  hasStore := true

/-- Steps of a task up to the write of the checkpoint. -/
def upToSave (number : Nat) (location : String) : List Action :=
  [.task number (.reply (.value .null)), .task number (.resume none), .task number (.resume none),
    .task number (.persist (.ok location)), .task number (.resume none)]

/-- Two items are on their way when a write of the checkpoint fails, and the next one succeeds. -/
def failsOnce : List Action :=
  [.takePermit, .spawn, .takePermit, .spawn, .task 0 (.resume none), .task 1 (.resume none)]
    ++ upToSave 0 "results.jsonl:1"
    ++ [.task 0 (.save (some (.unwritable ⟨"checkpoint.json"⟩ (.other "disk full"))))]
    ++ upToSave 1 "results.jsonl:2"
    ++ [.task 1 (.save none), .task 0 (.resume none), .task 1 (.resume none), .flush, .close none]

/-- First state of a run over two items that writes a checkpoint for each. -/
def eachOfTwo : State :=
  .opened eachItem twoItems {} {} {} { settings := { windowSize := 1 } } 0

/-- The second write leaves out the item of the first one, whose record was written. -/
theorem ledger_of_failed_write :
    ∃ last, eachOfTwo.follow? failsOnce = some last ∧ last.saved.completed = ["2"] ∧
      eachOfTwo.lost failsOnce = [("1", ⟨.success, some "results.jsonl:1"⟩)] ∧
      Ledger eachOfTwo last failsOnce := by
  have hlists : (eachOfTwo.follow? failsOnce).map (fun s => s.saved.completed) = some ["2"] := by
    decide +kernel
  obtain ⟨last, hfollow, hcompleted⟩ := Option.map_eq_some_iff.mp hlists
  exact ⟨last, hfollow, hcompleted, by decide +kernel,
    ledger_of_follow? rfl rfl (by decide) (by decide) (initial?_eq_ok (by decide +kernel)) hfollow⟩

end Runs

end Run
end BatchRun
