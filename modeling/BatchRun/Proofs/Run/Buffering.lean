import BatchRun.Proofs.Run.Observers
import BatchRun.Proofs.Run.Settlement

/-!
# Entries between items and the checkpoint

A settled item is added to the next checkpoint once, and from then on its entry is in one place:
it waits for the next checkpoint, is being written, or is listed.

**Types.**
`State.buffered` are the items that were added to the next checkpoint along a run.
`State.abandoned` are entries whose write will not end, because the dispatcher broke off and took
the tasks with it; `State.handed` are all entries that are being written.

**Invariants.**
* `Passing`: the items that were added are settled, with their records written if there is a sink,
  and none is missed.
* `Shelved`: the entries of the items that were added are those that wait, that are being written,
  and that are listed, each once.

**Results.**
* `shelved_of_turn`, `shelved_of_transition`: each step keeps the invariants.
* `buffering_of_follow?`: without a failing write every item that was added is in one place, fewer
  entries wait than make a checkpoint, and all are listed once a run has returned.
-/

namespace BatchRun
namespace Run

/-- Whether a task has done with the next checkpoint. -/
def Phase.isPast : Phase → Bool
  | saving _ => true
  | finishing => true
  | _ => false

/-- Item that a task adds to the next checkpoint in a step. -/
def Task.buffered (task : Task) : Move → List Item
  | .resume _ =>
    match task.phase with
    | .buffering => [task.item]
    | _ => []
  | _ => []

/-- Id of an item that its task may still add to the next checkpoint. -/
def Task.unbuffered (task : Task) : List String :=
  if task.phase.isPast then [] else [task.item.id]

namespace State

/-- What actions contribute, one after the other. -/
def along {α : Type} (part : State → Action → List α) (s : State) : List Action → List α
  | [] => []
  | action :: actions =>
    part s action ++
      match s.step? action with
      | some t => t.along part actions
      | none => []

/-- Item that an action adds to the next checkpoint. -/
def bufferedBy (s : State) : Action → List Item
  | .task number move =>
    match s.task? number with
    | some task => task.buffered move
    | none => []
  | _ => []

/-- Entries of writes that do not end because of an action. -/
def abandonedBy (s : State) : Action → List CheckpointEntry
  | .skipNext (some _) => s.tasks.flatMap fun task => task.phase.batch
  | _ => []

/-- Items that actions add to the next checkpoint. -/
def buffered (s : State) (actions : List Action) : List Item := s.along bufferedBy actions

/-- Entries of writes that do not end because of some actions. -/
def abandoned (s : State) (actions : List Action) : List CheckpointEntry :=
  s.along abandonedBy actions

/-- Entries whose write has not ended. -/
def handed (s : State) (abandoned : List CheckpointEntry) : List CheckpointEntry :=
  s.tasks.flatMap (fun task => task.phase.batch) ++ s.stage.batch ++ abandoned

/-- Ids of the items that were added to the next checkpoint or may still be. -/
def bound (s : State) (buffered : List Item) : List String :=
  buffered.map Item.id ++ s.tasks.flatMap Task.unbuffered ++ s.waiting.map Item.id

end State

section Turns

variable {s : State} {task next : Task} {move : Move} {effect : Effect}

/-- Before its end a task has nothing to do with the next checkpoint. -/
theorem batch_of_early
    (turn : Turn s task move effect)
    (early : task.phase.isEnding = false) :
    effect.fate.gather (fun task => task.phase.batch) = [] ∧ effect.unflushed = none := by
  cases turn with
  | closes closing =>
      rw [isEnding_of_closing closing] at early
      cases early
  | turnsAway panic =>
      cases panic with
      | none | some _ => exact ⟨rfl, rfl⟩
  | fails | interrupts | completes => exact ⟨batch_endingPhase _, rfl⟩
  | _ => exact ⟨rfl, rfl⟩

theorem buffered_of_early
    (move : Move)
    (early : task.phase.isEnding = false) :
    task.buffered move = [] ∧ task.phase.batch = [] := by
  unfold Task.buffered
  cases hphase : task.phase with
  | persisting | buffering | saving | finishing => rw [hphase] at early; cases early
  | _ => cases move <;> exact ⟨rfl, rfl⟩

/-- A task at the next checkpoint adds its item. -/
theorem buffered_of_turn
    (turn : Turn s task move effect)
    (phase : task.phase = .buffering) :
    task.buffered move = [task.item] := by
  cases closing_of_turn turn (by rw [phase]; rfl) with
  | passes | buffers | flushes => rw [Task.buffered, phase]
  | persists _ other | persistsNot _ other | saves other | savesNot _ other | finishes _ other =>
      cases phase.symm.trans other

/-- What a turn does to the entries of the items that were added. -/
theorem shelved_of_turn
    (keeps : s.keepsCheckpoint = true)
    (stores : (Action.task task.number move).failsStore = false)
    (turn : Turn s task move effect) :
    ((task.buffered move).map Item.checkpointEntry ++ task.phase.batch ++ s.unflushed).Perm
      (effect.fate.gather (fun task => task.phase.batch) ++ effect.unflushed.getD s.unflushed
        ++ effect.events.reverse.flatMap Event.listed) := by
  cases hphase : task.phase.isEnding with
  | false =>
      obtain ⟨hbuffered, hbatch⟩ := buffered_of_early move hphase
      obtain ⟨hfate, hunflushed⟩ := batch_of_early turn hphase
      simp [hbuffered, hbatch, hfate, hunflushed, (events_of_early turn hphase).2]
  | true =>
      cases closing_of_turn turn hphase with
      | persists location phase =>
          simp [Task.buffered, phase, Phase.batch, Fate.gather, Event.listed]
      | persistsNot fault phase => simp [Task.buffered, phase, Phase.batch, Fate.gather]
      | passes panic phase off => cases keeps.symm.trans off
      | buffers panic phase | flushes panic phase =>
          have hswap : ([task.item.checkpointEntry] ++ s.unflushed).Perm
              (s.unflushed ++ [task.item.checkpointEntry]) := List.perm_append_comm
          simpa [Task.buffered, phase, Phase.batch, Fate.gather] using hswap
      | saves phase =>
          simpa [Task.buffered, phase, Phase.batch, Fate.gather, Event.listed] using
            List.perm_append_comm
      | savesNot fault phase => cases stores
      | finishes panic phase =>
          cases panic <;> simp [Task.buffered, phase, Phase.batch, Fate.gather, Event.listed]

/-- An item is added at most once. -/
theorem unbuffered_of_turn
    (turn : Turn s task move effect) :
    ((task.buffered move).map Item.id ++ effect.fate.gather Task.unbuffered).Sublist
      task.unbuffered := by
  cases hphase : task.phase.isEnding with
  | false =>
      have hunbuffered : task.unbuffered = [task.item.id] := by
        refine if_neg fun hpast => ?_
        cases htask : task.phase with
        | saving | finishing => rw [htask] at hphase; cases hphase
        | _ => rw [htask] at hpast; cases hpast
      rw [(buffered_of_early move hphase).1, hunbuffered]
      cases hfate : effect.fate with
      | goesOn next =>
          have hid : next.item.id = task.item.id :=
            congrArg Prod.fst (kept_of_goesOn turn hfate).origin
          simp only [Fate.gather, Task.unbuffered, hid, List.map_nil, List.nil_append]
          split
          case isTrue => exact List.nil_sublist _
          case isFalse => exact .refl _
      | files _ | loses => exact List.nil_sublist _
  | true =>
      cases closing_of_turn turn hphase with
      | finishes panic phase =>
          cases panic <;> simp [Fate.gather, Task.buffered, phase]
      | persists _ phase | persistsNot _ phase | passes _ phase | buffers _ phase
      | flushes _ phase | saves phase | savesNot _ phase =>
          simp [Task.unbuffered, Task.buffered, phase, Phase.isPast, Fate.gather]

/-- Fewer entries wait than make a checkpoint. -/
theorem short_of_turn
    (turn : Turn s task move effect)
    (short : s.unflushed.length < s.settings.checkpointInterval) :
    (effect.unflushed.getD s.unflushed).length < s.settings.checkpointInterval := by
  cases turn with
  | closes closing =>
      cases closing with
      | buffers _ _ _ room => simpa using room
      | flushes => exact Nat.lt_of_le_of_lt (Nat.zero_le _) short
      | _ => exact short
  | _ => exact short

/-- A task that has done with the next checkpoint has added its item, if that is settled and was
not refused. -/
theorem past_of_turn
    (turn : Turn s task move effect)
    (h : effect.fate = .goesOn next)
    (past : next.phase.isPast = true)
    (settled : next.item.isSettled = true) :
    task.phase = .persisting ∨ next.item ∈ task.buffered move ∨
      (task.phase.isPast = true ∧ next.item = task.item) := by
  cases turn with
  | turnsAway panic => cases panic <;> cases h
  | rejects | breaksAtStart | breaksInSample | breaksInRetry => cases h
  | waits | starts | answers | succeeds | pauses | rewaits | recalls | recallsAfterWait =>
      cases h
      cases past
  | fails | interrupts | completes =>
      cases h
      rcases endingPhase_of_isSettled (s := s) settled with hphase | hphase <;>
        cases (congrArg Phase.isPast hphase).symm.trans past
  | closes closing =>
      cases closing with
      | finishes panic => cases panic <;> cases h
      | persists _ phase | persistsNot _ phase => exact .inl phase
      | passes _ phase | buffers _ phase | flushes _ phase =>
          cases h
          exact .inr (.inl (by simp [Task.buffered, phase]))
      | saves phase | savesNot _ phase =>
          cases h
          exact .inr (.inr ⟨by rw [phase]; rfl, rfl⟩)

end Turns

/-- What is known of the items that were added to the next checkpoint. -/
structure Passing (s : State) (buffered : List Item) : Prop where
  settled : ∀ task ∈ s.tasks, task.phase = .persisting ∨ task.phase = .buffering →
    task.item.isSettled = true
  written : s.setup.hasSink = true → ∀ task ∈ s.tasks, task.phase = .buffering →
    Written s.events task.item
  bare : s.setup.hasSink = false → Sinkless s
  added : ∀ item ∈ buffered, item.isSettled = true ∧
    (s.setup.hasSink = true → ∃ tick, (tick, .persisted item) ∈ s.events)
  recorded : ∀ tick item, (tick, .persisted item) ∈ s.events → item ∈ buffered ∨
    (∃ task ∈ s.tasks, task.phase = .buffering ∧ task.item = item) ∨ s.stage = .unwound
  unrecorded : s.setup.hasSink = false → ∀ task ∈ s.tasks, task.phase.isPast = true →
    task.item.isSettled = true → task.item ∈ buffered

section Passing

variable {s t : State} {action : Action} {buffered : List Item} {task : Task} {item : Item}

theorem mem_bufferedBy
    (h : item ∈ s.bufferedBy action) :
    ∃ task ∈ s.tasks, task.phase = .buffering ∧ task.item = item := by
  cases action with
  | task number move =>
      simp only [State.bufferedBy] at h
      split at h
      case h_1 task found =>
          cases move with
          | resume panic =>
              simp only [Task.buffered] at h
              split at h
              case h_1 phase =>
                  exact ⟨task, (mem_of_task? found).1, phase, (List.mem_singleton.mp h).symm⟩
              case h_2 => cases h
          | _ => cases h
      case h_2 => cases h
  | _ => cases h

/-- A task at the next checkpoint stays there, or adds its item, or breaks off with the run. -/
theorem buffering_of_transition
    (h : Transition s action t)
    (numbered : Numbered s)
    (htask : task ∈ s.tasks)
    (phase : task.phase = .buffering) :
    task ∈ t.tasks ∨ task.item ∈ s.bufferedBy action ∨ t.stage = .unwound := by
  cases h with
  | advances | cancels | skips | takesPermit | flushes | leaves | closes | closesNot =>
      exact .inl htask
  | spawns => exact .inl (List.mem_append_left _ htask)
  | breaksInSkip => exact .inr (.inr rfl)
  | @turns turning move effect live found turn =>
      by_cases hnumber : task.number = turning.number
      · cases eq_of_number numbered.distinct (mem_of_task? found).1 htask hnumber
        refine .inr (.inl ?_)
        simp [State.bufferedBy, found, buffered_of_turn turn phase]
      · exact .inl (mem_tasks_of_ne effect.fate htask hnumber)

/-- An item comes to the next checkpoint after its record was written, if there is a sink. -/
theorem writtenTask_of_transition
    (h : Transition s action t)
    (passing : Passing s buffered)
    (sink : s.setup.hasSink = true)
    (htask : task ∈ t.tasks)
    (phase : task.phase = .buffering) :
    Written t.events task.item := by
  rcases mem_tasks_of_transition h htask with
    hold | hspawned | ⟨before, hbefore, move, effect, turn, hfate, hevents⟩
  · obtain ⟨new, hnew⟩ := events_of_transition h
    exact hnew ▸ (passing.written sink task hold phase).append
  · cases hspawned.symm.trans phase
  · refine written_of_goesOn sink turn hfate (fun hphase => passing.settled before hbefore
      (.inl hphase)) phase fun event hevent => ?_
    rw [hevents]
    exact List.mem_append_left _ (List.mem_map.mpr ⟨event, List.mem_reverse.mpr hevent, rfl⟩)

/-- Without a sink, a task that has done with the next checkpoint has added its item. -/
theorem unrecorded_of_transition
    (h : Transition s action t)
    (passing : Passing s buffered)
    (sink : s.setup.hasSink = false)
    (htask : task ∈ t.tasks)
    (past : task.phase.isPast = true)
    (settled : task.item.isSettled = true) :
    task.item ∈ buffered ++ s.bufferedBy action := by
  have hold : task ∈ s.tasks → task.item ∈ buffered ++ s.bufferedBy action := fun hmem =>
    List.mem_append_left _ (passing.unrecorded sink task hmem past settled)
  cases h with
  | advances | cancels | skips | takesPermit | flushes | leaves | closes | closesNot =>
      exact hold htask
  | breaksInSkip => cases htask
  | spawns =>
      rcases List.mem_append.mp htask with hmem | hnew
      · exact hold hmem
      · cases List.mem_singleton.mp hnew
        cases past
  | @turns before move effect live found turn =>
      have hbefore := (mem_of_task? found).1
      rcases mem_tasks htask with hfate | ⟨hmem, -⟩
      · rcases past_of_turn turn hfate past settled with hphase | hadds | ⟨hpast, hitem⟩
        · exact absurd hphase ((passing.bare sink).tasks before hbefore)
        · refine List.mem_append_right _ ?_
          simpa [State.bufferedBy, found] using hadds
        · rw [hitem] at settled ⊢
          exact List.mem_append_left _ (passing.unrecorded sink before hbefore hpast settled)
      · exact hold hmem

theorem passing_of_transition
    (h : Transition s action t)
    (numbered : Numbered s)
    (passing : Passing s buffered) :
    Passing t (buffered ++ s.bufferedBy action) where
  settled := settledTask_of_transition h passing.settled
  written sink task htask phase := by
    rw [setup_of_transition h] at sink
    exact writtenTask_of_transition h passing sink htask phase
  bare sink := by
    rw [setup_of_transition h] at sink
    exact sinkless_of_transition h (passing.bare sink)
  added item hitem := by
    obtain ⟨new, hnew⟩ := events_of_transition h
    rw [setup_of_transition h, hnew]
    rcases List.mem_append.mp hitem with hold | hadds
    · obtain ⟨hsettled, hrecorded⟩ := passing.added item hold
      refine ⟨hsettled, fun sink => ?_⟩
      obtain ⟨tick, hevent⟩ := hrecorded sink
      exact ⟨tick, List.mem_append_right new hevent⟩
    · obtain ⟨task, htask, hphase, rfl⟩ := mem_bufferedBy hadds
      refine ⟨passing.settled task htask (.inr hphase), fun sink => ?_⟩
      exact (passing.written sink task htask hphase).append.1
  recorded tick item hevent := by
    rcases persisted_of_transition h hevent with hold | ⟨task, _, location, _, _, _, hnext⟩
    · rcases passing.recorded tick item hold with hbuffered | ⟨task, htask, hphase, rfl⟩ | hunwound
      · exact .inl (List.mem_append_left _ hbuffered)
      · rcases buffering_of_transition h numbered htask hphase with hstays | hadds | hunwound
        · exact .inr (.inl ⟨task, hstays, hphase, rfl⟩)
        · exact .inl (List.mem_append_right _ hadds)
        · exact .inr (.inr hunwound)
      · exact absurd hunwound (stage_ne_unwound (live_of_transition h))
    · exact .inr (.inl ⟨_, hnext, rfl, rfl⟩)
  unrecorded sink task htask past settled := by
    rw [setup_of_transition h] at sink
    exact unrecorded_of_transition h passing sink htask past settled

end Passing

/-- Where the entries of the items are that were added to the next checkpoint. -/
structure Shelved (checkpoint : Checkpoint) (s : State) (buffered : List Item)
    (abandoned : List CheckpointEntry) : Prop where
  keeps : s.keepsCheckpoint = true
  numbered : Numbered s
  staged : Staged s
  passing : Passing s buffered
  booked : Booked checkpoint s
  emptied : s.stage ≠ .dispatching → s.stage ≠ .unwound → s.unflushed = []
  short : s.unflushed.length < s.settings.checkpointInterval
  shelved : (buffered.map Item.checkpointEntry).Perm
    (s.outstanding ++ listedIn s.events ++ abandoned)
  whole : s.stage ≠ .unwound → abandoned = []
  once : ∀ id, (s.bound buffered).count id ≤ 1
  new : ∀ id ∈ s.bound buffered, id ∉ checkpoint.completed

section Steps

variable {checkpoint : Checkpoint} {s t : State} {action : Action} {actions : List Action}
  {buffered : List Item} {abandoned : List CheckpointEntry}

/-- The entries stay in their places, or move on by one. -/
theorem perm_of_transition
    (h : Transition s action t)
    (stores : action.failsStore = false)
    (shelved : Shelved checkpoint s buffered abandoned) :
    ((buffered ++ s.bufferedBy action).map Item.checkpointEntry).Perm
      (t.outstanding ++ listedIn t.events ++ (abandoned ++ s.abandonedBy action)) := by
  have hperm := shelved.shelved
  unfold State.outstanding at *
  rw [List.perm_iff_count] at *
  intro entry
  have hentry := hperm entry
  simp only [List.map_append, List.count_append] at hentry ⊢
  cases h with
  | advances | cancels | takesPermit =>
      simp only [State.bufferedBy, State.abandonedBy, List.map_nil, List.count_nil]
      exact hentry
  | @turns task move effect live found turn =>
      obtain ⟨rest, hbefore, hafter⟩ := flatMap_tasks (fun task => task.phase.batch) effect.fate
        shelved.numbered.distinct (mem_of_task? found).1
      have hturn := (shelved_of_turn shelved.keeps stores turn).count_eq entry
      have hbefore := hbefore.count_eq entry
      have hafter := hafter.count_eq entry
      simp only [State.bufferedBy, State.abandonedBy, found, Effect.apply, State.seen,
        State.faulted, listedIn_append, listedIn_map, List.count_append, List.count_nil]
        at hturn hbefore hafter ⊢
      omega
  | skips =>
      simp only [State.seen, State.faulted, listedIn_append, listedIn_map, List.count_append]
      simpa [Event.listed, State.bufferedBy, State.abandonedBy] using hentry
  | breaksInSkip stage =>
      simp only [stage, batch_dispatching, List.count_nil] at hentry
      simp only [State.seen, State.faulted, listedIn_append, listedIn_map, List.count_append]
      simp [Event.listed, State.bufferedBy, State.abandonedBy]
      omega
  | spawns =>
      simp only [List.flatMap_append, List.count_append]
      simpa [Phase.batch, State.bufferedBy, State.abandonedBy] using hentry
  | flushes stage waiting tasks =>
      simp only [stage, tasks, batch_dispatching, List.flatMap_nil, List.count_nil] at hentry
      simp only [State.bufferedBy, State.abandonedBy, tasks, shelved.keeps, if_true,
        batch_flushing, List.flatMap_nil, List.map_nil, List.count_nil]
      omega
  | leaves fault stage ends =>
      simp only [stage, batch_flushing, List.count_nil] at hentry
      simp [State.bufferedBy, State.abandonedBy, batch_of_ends ends]
      omega
  | closes stage full ends =>
      simp only [stage, batch_flushing] at hentry
      simp only [State.bufferedBy, State.abandonedBy, State.seen, batch_of_ends ends,
        listedIn_append, listedIn_map, List.count_append]
      simp [Event.listed]
      omega
  | closesNot => cases stores

/-- No step adds an item a second time. -/
theorem count_bound_le
    (h : Transition s action t)
    (numbered : Numbered s)
    (id : String) :
    (t.bound (buffered ++ s.bufferedBy action)).count id ≤ (s.bound buffered).count id := by
  unfold State.bound
  simp only [List.map_append, List.count_append]
  cases h with
  | advances | cancels | takesPermit | flushes | leaves | closes | closesNot =>
      exact Nat.le_refl _
  | @turns task move effect live found turn =>
      obtain ⟨rest, hbefore, hafter⟩ := flatMap_tasks Task.unbuffered effect.fate
        numbered.distinct (mem_of_task? found).1
      have hturn := (unbuffered_of_turn turn).count_le id
      have hbefore := hbefore.count_eq id
      have hafter := hafter.count_eq id
      simp only [State.bufferedBy, found, Effect.apply, State.faulted, List.count_append]
        at hturn hbefore hafter ⊢
      omega
  | skips stage waiting =>
      simp only [State.seen, State.faulted, waiting]
      simp [List.count_cons, State.bufferedBy]
  | breaksInSkip stage waiting =>
      simp [waiting, List.count_cons, State.bufferedBy]
      omega
  | spawns stage waiting =>
      simp only [List.flatMap_append, List.count_append, waiting]
      simp [Task.unbuffered, Phase.isPast, List.count_cons, State.bufferedBy]
      omega

theorem short_of_transition
    (h : Transition s action t)
    (short : s.unflushed.length < s.settings.checkpointInterval) :
    t.unflushed.length < t.settings.checkpointInterval := by
  have hsettings : t.settings = s.settings := congrArg Setup.settings (setup_of_transition h)
  rw [hsettings]
  cases h with
  | turns _ _ turn => exact short_of_turn turn short
  | flushes => exact Nat.lt_of_le_of_lt (Nat.zero_le _) short
  | _ => exact short

theorem whole_of_transition
    (h : Transition s action t)
    (whole : s.stage ≠ .unwound → abandoned = [])
    (stage : t.stage ≠ .unwound) :
    abandoned ++ s.abandonedBy action = [] := by
  rw [whole (stage_ne_unwound (live_of_transition h))]
  cases h with
  | breaksInSkip => exact absurd rfl stage
  | _ => rfl

theorem shelved_of_transition
    (h : Transition s action t)
    (stores : action.failsStore = false)
    (shelved : Shelved checkpoint s buffered abandoned) :
    Shelved checkpoint t (buffered ++ s.bufferedBy action)
      (abandoned ++ s.abandonedBy action) where
  keeps := (keepsCheckpoint_of_transition h).trans shelved.keeps
  numbered := numbered_of_transition h shelved.numbered
  staged := staged_of_transition h shelved.staged
  passing := passing_of_transition h shelved.numbered shelved.passing
  booked := booked_of_transition h shelved.booked
  emptied := emptied_of_transition h shelved.staged shelved.emptied
  short := short_of_transition h shelved.short
  shelved := perm_of_transition h stores shelved
  whole := whole_of_transition h shelved.whole
  once id := Nat.le_trans (count_bound_le h shelved.numbered id) (shelved.once id)
  new id hid := by
    have hpos := List.count_pos_iff.mpr hid
    have hcount := Nat.lt_of_lt_of_le hpos (count_bound_le h shelved.numbered id)
    exact shelved.new id (List.count_pos_iff.mp hcount)

theorem shelved_of_follow?
    (run : s.follow? actions = some t)
    (stores : ∀ action ∈ actions, action.failsStore = false)
    (shelved : Shelved checkpoint s buffered abandoned) :
    Shelved checkpoint t (buffered ++ s.buffered actions) (abandoned ++ s.abandoned actions) := by
  induction actions generalizing s buffered abandoned with
  | nil =>
      cases run
      simpa [State.buffered, State.abandoned, State.along] using shelved
  | cons action actions ih =>
      simp only [State.follow?] at run
      split at run
      case h_1 next hstep =>
          have hnext := ih run
            (fun other hother => stores other (List.mem_cons_of_mem action hother))
            (shelved_of_transition (transition_of_step? hstep) (stores action List.mem_cons_self)
              shelved)
          simpa [State.buffered, State.abandoned, State.along, hstep] using hnext
      case h_2 =>
          cases run

end Steps

/-- Where the items are that were added to the next checkpoint, after some actions. -/
structure Buffering (setup : Setup) (first last : State) (actions : List Action) : Prop where
  /-- An item is added once it is settled and its record, if there is a sink, was written. -/
  added : ∀ item ∈ first.buffered actions, item.isSettled = true ∧
    (setup.hasSink = true → ∃ tick, (tick, .persisted item) ∈ last.events)
  /-- An item whose record was written was added, unless its task is still to do so or the run broke
  off before. -/
  recorded : ∀ tick item, (tick, .persisted item) ∈ last.events →
    item ∈ first.buffered actions ∨
      (∃ task ∈ last.tasks, task.phase = .buffering ∧ task.item = item) ∨ last.stage = .unwound
  unrecorded : setup.hasSink = false → ∀ task ∈ last.tasks, task.phase.isPast = true →
    task.item.isSettled = true → task.item ∈ first.buffered actions
  /-- The entry of an item that was added waits, is being written, or is listed. -/
  once : ∀ item ∈ first.buffered actions,
    (last.unflushed.map Prod.fst).count item.id
      + ((last.handed (first.abandoned actions)).map Prod.fst).count item.id
      + (if last.saved.contains item.id then 1 else 0) = 1
  /-- There are no other entries. -/
  sound : ∀ entry ∈ last.unflushed ++ last.handed (first.abandoned actions),
    ∃ item ∈ first.buffered actions, entry = item.checkpointEntry
  pointer : ∀ item ∈ first.buffered actions, last.saved.contains item.id = true →
    last.saved.pointer? item.id = some ⟨item.status, item.location⟩
  short : last.unflushed.length < setup.settings.checkpointInterval
  /-- Only a run that broke off leaves writes that do not end. -/
  whole : last.stage ≠ .unwound → first.abandoned actions = []
  returned : ∀ result, last.stage = .returned result →
    ∀ item ∈ first.buffered actions, last.saved.contains item.id = true

section Runs

variable {checkpoint : Checkpoint} {s first last : State} {actions : List Action}
  {buffered : List Item} {abandoned : List CheckpointEntry} {item : Item}

theorem perm_of_shelved
    (shelved : Shelved checkpoint s buffered abandoned) :
    (buffered.map Item.checkpointEntry).Perm
      (s.unflushed ++ s.handed abandoned ++ listedIn s.events) := by
  refine shelved.shelved.trans (List.perm_iff_count.mpr fun entry => ?_)
  simp only [State.outstanding, State.handed, List.count_append]
  omega

/-- No two items that were added have the same id, and none was listed when the run began. -/
theorem distinct_of_shelved
    (shelved : Shelved checkpoint s buffered abandoned) :
    (buffered.map Item.id).Nodup ∧ ∀ item ∈ buffered, item.id ∉ checkpoint.completed := by
  constructor
  · refine List.nodup_iff_count_le_one.mpr fun id => ?_
    have honce := shelved.once id
    simp only [State.bound, List.count_append] at honce
    omega
  · intro item hitem
    exact shelved.new item.id (List.mem_append_left _ (List.mem_append_left _
      (List.mem_map_of_mem hitem)))

/-- The checkpoint lists an item that was added if its entry was written. -/
theorem contains_iff_of_shelved
    (shelved : Shelved checkpoint s buffered abandoned)
    (hitem : item ∈ buffered) :
    s.saved.contains item.id = true ↔ item.id ∈ (listedIn s.events).map Prod.fst := by
  rw [Checkpoint.contains, List.contains_iff_mem, shelved.booked.completed]
  exact or_iff_right ((distinct_of_shelved shelved).2 item hitem)

/-- The entry of an item that was added is in one place. -/
theorem once_of_shelved
    (shelved : Shelved checkpoint s buffered abandoned)
    (hitem : item ∈ buffered) :
    (s.unflushed.map Prod.fst).count item.id + ((s.handed abandoned).map Prod.fst).count item.id
      + (if s.saved.contains item.id then 1 else 0) = 1 := by
  have hids : ((buffered.map Item.checkpointEntry).map Prod.fst) = buffered.map Item.id :=
    List.map_map
  have hone : (buffered.map Item.id).count item.id = 1 :=
    List.count_eq_one_of_mem (distinct_of_shelved shelved).1 (List.mem_map_of_mem hitem)
  have hcount := ((perm_of_shelved shelved).map Prod.fst).count_eq item.id
  rw [hids, hone] at hcount
  simp only [List.map_append, List.count_append] at hcount
  have hlisted := contains_iff_of_shelved shelved hitem
  split
  case isTrue hcontains =>
      have hpos := List.count_pos_iff.mpr (hlisted.mp hcontains)
      omega
  case isFalse hnot =>
      have hzero := List.count_eq_zero.mpr fun hmem => hnot (hlisted.mpr hmem)
      omega

theorem sound_of_shelved
    {entry : CheckpointEntry}
    (shelved : Shelved checkpoint s buffered abandoned)
    (hentry : entry ∈ s.unflushed ++ s.handed abandoned ++ listedIn s.events) :
    ∃ item ∈ buffered, entry = item.checkpointEntry := by
  obtain ⟨item, hitem, heq⟩ :=
    List.mem_map.mp ((perm_of_shelved shelved).mem_iff.mpr hentry)
  exact ⟨item, hitem, heq.symm⟩

theorem pointer_of_shelved
    (shelved : Shelved checkpoint s buffered abandoned)
    (hitem : item ∈ buffered)
    (hcontains : s.saved.contains item.id = true) :
    s.saved.pointer? item.id = some ⟨item.status, item.location⟩ := by
  have hlisted := (contains_iff_of_shelved shelved hitem).mp hcontains
  obtain ⟨pointer, hpointer, hmem⟩ := shelved.booked.pointer item.id hlisted
  obtain ⟨other, hother, heq⟩ := sound_of_shelved shelved (List.mem_append_right _ hmem)
  have hid : other.id = item.id := (Prod.mk.inj heq).1.symm
  cases List.inj_on_of_nodup_map (distinct_of_shelved shelved).1 hother hitem hid
  rw [hpointer, (Prod.mk.inj heq).2]

/-- Once a run has returned, all items that were added are listed. -/
theorem contains_of_shelved
    {result : Except RunFault Returned}
    (shelved : Shelved checkpoint s buffered abandoned)
    (stage : s.stage = .returned result)
    (hitem : item ∈ buffered) :
    s.saved.contains item.id = true := by
  have hunwound : s.stage ≠ .unwound := by simp [stage]
  have hdispatching : s.stage ≠ .dispatching := by simp [stage]
  have htasks := (shelved.staged.drained hdispatching hunwound).2
  have houtstanding : s.outstanding = [] := by
    simp [State.outstanding, shelved.emptied hdispatching hunwound, htasks, stage, Stage.batch]
  have hentry := shelved.shelved.mem_iff.mp (List.mem_map_of_mem hitem)
  rw [houtstanding, shelved.whole hunwound, List.nil_append, List.append_nil] at hentry
  exact (contains_iff_of_shelved shelved hitem).mpr (List.mem_map_of_mem (f := Prod.fst) hentry)

variable {setup : Setup} {items : List Item} {throttle : Throttle} {registry : Registry}
  {monitor : Monitor} {clock : Nat}

theorem passing_opened :
    Passing (.opened setup items checkpoint throttle registry monitor clock) [] where
  settled _ htask := absurd htask List.not_mem_nil
  written _ _ htask := absurd htask List.not_mem_nil
  bare sink := sinkless_opened sink
  added _ hitem := absurd hitem List.not_mem_nil
  recorded _ _ hevent := by cases List.mem_singleton.mp hevent
  unrecorded _ _ htask := absurd htask List.not_mem_nil

theorem bound_opened
    (store : setup.hasStore = true) :
    (State.opened setup items checkpoint throttle registry monitor clock).bound [] =
      (items.filter fun item => !checkpoint.contains item.id).map Item.id := by
  rw [State.bound, opened_waiting]
  simp [Setup.resumes, store, State.opened, State.log]

theorem shelved_opened
    (store : setup.hasStore = true)
    (interval : setup.settings.checkpointInterval ≠ 0)
    (distinct : (items.map Item.id).Nodup) :
    Shelved checkpoint (.opened setup items checkpoint throttle registry monitor clock) [] [] where
  keeps := keepsCheckpoint_opened store interval
  numbered := numbered_opened
  staged := staged_opened
  passing := passing_opened
  booked := booked_opened
  emptied _ _ := rfl
  short := Nat.pos_of_ne_zero interval
  shelved := by
    rw [State.outstanding, batch_opened]
    exact .refl _
  whole _ := rfl
  once id := by
    rw [bound_opened store]
    exact List.nodup_iff_count_le_one.mp (distinct.sublist (List.filter_sublist.map _)) id
  new id hid := by
    rw [bound_opened store] at hid
    obtain ⟨item, hitem, rfl⟩ := List.mem_map.mp hid
    have hnot := (List.mem_filter.mp hitem).2
    simpa [Checkpoint.contains] using hnot

/-- Every item that is added to the next checkpoint is in one place from then on, and is listed once
the run has returned. -/
theorem buffering_of_follow?
    (store : setup.hasStore = true)
    (interval : setup.settings.checkpointInterval ≠ 0)
    (distinct : (items.map Item.id).Nodup)
    (opened : State.initial? setup items (.ok checkpoint) throttle registry monitor clock
      = .ok first)
    (run : first.follow? actions = some last)
    (stores : ∀ action ∈ actions, action.failsStore = false) :
    Buffering setup first last actions := by
  obtain ⟨_, hsaved, -, rfl⟩ := opened_of_initial? opened
  cases hsaved
  have hsetup : last.setup = setup := setup_of_reaches (reaches_of_follow? run)
  have hstart : Shelved checkpoint (.opened setup items checkpoint throttle registry monitor clock)
      [] [] := shelved_opened store interval distinct
  have hshelved := shelved_of_follow? run stores hstart
  rw [List.nil_append, List.nil_append] at hshelved
  refine ⟨?_, hshelved.passing.recorded, ?_, fun item => once_of_shelved hshelved, ?_,
    fun item => pointer_of_shelved hshelved, ?_, hshelved.whole,
    fun _ stage item => contains_of_shelved hshelved stage⟩
  · exact hsetup ▸ hshelved.passing.added
  · exact hsetup ▸ hshelved.passing.unrecorded
  · exact fun entry hentry => sound_of_shelved hshelved (List.mem_append_left _ hentry)
  · have hshort := hshelved.short
    rw [State.settings, hsetup] at hshort
    exact hshort

/-- A checkpoint for every two items. -/
def eachPair : Setup where
  settings := { checkpointInterval := 2 }
  hasSink := true
  hasStore := true

/-- First state of a run over three items that writes a checkpoint for every two. -/
def pairsOfThree : State :=
  .opened eachPair threeItems {} {} {} { settings := { windowSize := 1 } } 0

/-- Two entries are being written while the third one comes up. -/
def writesPair : List Action :=
  [.takePermit, .spawn, .takePermit, .spawn, .takePermit, .spawn, .task 0 (.resume none),
      .task 1 (.resume none), .task 2 (.resume none)]
    ++ upToSave 0 "results.jsonl:1" ++ upToSave 1 "results.jsonl:2"
    ++ upToSave 2 "results.jsonl:3"

/-- The third entry waits while the first two are being written, and the checkpoint lists none. -/
theorem buffering_of_writesPair :
    ∃ last, pairsOfThree.follow? writesPair = some last ∧
      (last.unflushed.map Prod.fst, (last.handed []).map Prod.fst, last.saved.completed) =
        (["3"], ["1", "2"], []) ∧
      Buffering eachPair pairsOfThree last writesPair := by
  have hplaces : (pairsOfThree.follow? writesPair).map (fun s =>
      (s.unflushed.map Prod.fst, (s.handed []).map Prod.fst, s.saved.completed)) =
      some (["3"], ["1", "2"], []) := by
    decide +kernel
  obtain ⟨last, hfollow, hshown⟩ := Option.map_eq_some_iff.mp hplaces
  exact ⟨last, hfollow, hshown, buffering_of_follow? rfl (by decide) (by decide)
    (initial?_eq_ok (by decide +kernel)) hfollow (by decide)⟩

end Runs

end Run
end BatchRun
