import BatchRun.Proofs.Run.Ledger
import BatchRun.Proofs.Run.Verdict

/-!
# Resumption of a run

A run takes over what a checkpoint lists and finishes the rest, so that its outcome is decided
before it begins.

**Outcome.**
`Checkpoint.outcome` is the status of an item to which a checkpoint and an executor lead together:
the recorded status of an item that is listed, and otherwise the one that the replies lead to.

**Invariant.**
What a run adds to its checkpoint changes no outcome (`Steady`).

**Results.**
* `steady_of_transition`: each step keeps the invariant.
* `statuses_of_returned`: a run that was not cancelled returns the outcomes of its checkpoint.
* `calls_of_transition`: no call is made for an item that the checkpoint lists.
-/

namespace BatchRun

namespace Checkpoint

/-- Status that an item takes over. -/
def statusOf (checkpoint : Checkpoint) (id : String) : Status :=
  match checkpoint.pointer? id with
  | some pointer => if pointer.status.isTerminal then pointer.status else .skipped
  | none => .skipped

/-- Status of an item that is taken over if it is listed, and is processed otherwise. -/
def outcome (checkpoint : Checkpoint) (final : String → Status) (id : String) : Status :=
  if checkpoint.contains id then checkpoint.statusOf id else final id

variable {checkpoint : Checkpoint} {final : String → Status} {entries : List CheckpointEntry}
  {id : String}

theorem status_restored
    (checkpoint : Checkpoint)
    (item : Item)
    (now : Time.Timestamp) :
    (checkpoint.restored item now).status = checkpoint.statusOf item.id := by
  unfold restored statusOf
  cases checkpoint.pointer? item.id with
  | some pointer => rfl
  | none => rfl

theorem contains_recordAll :
    (checkpoint.recordAll entries).contains id = true ↔
      checkpoint.contains id = true ∨ id ∈ entries.map Prod.fst := by
  simp only [contains, List.contains_iff_mem]
  exact mem_completed_recordAll

theorem outcome_of_not_contains
    (h : checkpoint.contains id = false) :
    checkpoint.outcome final id = final id := by
  simp [outcome, h]

/-- Entries with final statuses of items that were not listed at first change no outcome. -/
theorem outcome_recordAll
    {initial : Checkpoint}
    (settles : ∀ id, (final id).isTerminal = true)
    (same : checkpoint.outcome final id = initial.outcome final id)
    (hentries : ∀ entry ∈ entries,
      initial.contains entry.1 = false ∧ entry.2.status = final entry.1) :
    (checkpoint.recordAll entries).outcome final id = initial.outcome final id := by
  by_cases hmem : id ∈ entries.map Prod.fst
  · obtain ⟨pointer, hpointer, hentry⟩ :
        ∃ pointer, (checkpoint.recordAll entries).pointer? id = some pointer ∧
          (id, pointer) ∈ entries := pointer?_recordAll_of_mem hmem
    obtain ⟨hnew, hstatus⟩ := hentries _ hentry
    have hstatus : pointer.status = final id := hstatus
    rw [outcome_of_not_contains hnew, outcome, if_pos (contains_recordAll.mpr (.inr hmem))]
    simp [statusOf, hpointer, hstatus, settles id]
  · have hcontains : (checkpoint.recordAll entries).contains id = checkpoint.contains id :=
      Bool.eq_iff_iff.mpr (contains_recordAll.trans (or_iff_left hmem))
    rw [← same]
    simp [outcome, statusOf, hcontains, pointer?_recordAll_of_not_mem hmem]

end Checkpoint

namespace Run

/-- What is known of a run that began in a state with a checkpoint, and whose items end in final
statuses. -/
structure Resumes (service : Service) (final : String → Status) (checkpoint : Checkpoint)
    (first s : State) : Prop where
  solvent : ∃ lost, Solvent checkpoint s lost
  judged : Judged service final s
  conserved : Conserved first s
  steady : ∀ id, s.saved.outcome final id = checkpoint.outcome final id

section Steps

variable {service : Service} {final : String → Status} {checkpoint : Checkpoint}
  {first s t : State} {action : Action} {lost : List CheckpointEntry}

theorem underway_of_outstanding
    {entry : CheckpointEntry}
    (h : entry ∈ s.outstanding) :
    entry ∈ s.underway := by
  rcases List.mem_append.mp h with hfirst | hstage
  · rcases List.mem_append.mp hfirst with hunflushed | htasks
    · exact List.mem_append_left _ (List.mem_append_right _ hunflushed)
    · obtain ⟨task, htask, hbatch⟩ := List.mem_flatMap.mp htasks
      refine List.mem_append_left _ (List.mem_append_left _ ?_)
      refine List.mem_flatMap.mpr ⟨task, htask, ?_⟩
      unfold Task.entries
      cases hphase : task.phase with
      | saving batch =>
          rw [hphase] at hbatch
          exact hbatch
      | _ => rw [hphase] at hbatch; cases hbatch
  · exact List.mem_append_right _ hstage

/-- What a step adds to the checkpoint changes no outcome. -/
theorem steady_of_transition
    (h : Transition s action t)
    (settles : ∀ id, (final id).isTerminal = true)
    (solvent : Solvent checkpoint s lost)
    (judged : Judged service final s)
    (steady : ∀ id, s.saved.outcome final id = checkpoint.outcome final id)
    (id : String) :
    t.saved.outcome final id = checkpoint.outcome final id := by
  rcases saves_of_transition h with ⟨hsaved, -⟩ | ⟨batch, hbatch, hsaved, -⟩
  · rw [hsaved]
    exact steady id
  · rw [hsaved]
    refine Checkpoint.outcome_recordAll settles (steady id) fun entry hentry => ?_
    have hrecorded : entry ∈ recordedIn s.events := by
      refine solvent.balanced.mem_iff.mpr (List.mem_append_left _ (List.mem_append_left _ ?_))
      exact underway_of_outstanding (hbatch entry hentry)
    refine ⟨by simpa [Checkpoint.contains] using new_of_recorded solvent hrecorded, ?_⟩
    obtain ⟨tick, item, hevent, rfl⟩ := mem_recordedIn.mp hrecorded
    exact judged.recorded tick item hevent

theorem resumes_of_transition
    (h : Transition s action t)
    (settles : ∀ id, (final id).isTerminal = true)
    (serves : service.Serves s action)
    (resumes : Resumes service final checkpoint first s) :
    Resumes service final checkpoint first t := by
  obtain ⟨⟨lost, solvent⟩, judged, conserved, steady⟩ := resumes
  exact ⟨⟨_, solvent_of_transition h solvent⟩, judged_of_transition h serves judged,
    conserved_of_transition h solvent.numbered conserved,
    steady_of_transition h settles solvent judged steady⟩

end Steps

/-- Whether an event is a call for an item. -/
def Event.isCallFor (id : String) : Event → Bool
  | called item _ => item.id == id
  | _ => false

/-- Number of calls for an item. -/
def callsIn (events : List (Nat × Event)) (id : String) : Nat :=
  events.countP fun event => event.2.isCallFor id

section Calls

variable {checkpoint : Checkpoint} {s t : State} {action : Action} {lost : List CheckpointEntry}
  {id : String}

theorem mute_of_admits
    {task : Task} {throttle : Option Throttle} {events : List Event}
    (admits : Admits s task throttle events) :
    ∀ event ∈ events, event.isCallFor id = false := by
  cases admits with
  | atOnce => simp [Event.isCallFor]
  | afterWait => simp

theorem mute_of_retries
    {task : Task} {monitor : Option Monitor} {events : List Event}
    (retries : Retries s task monitor events) :
    ∀ event ∈ events, event.isCallFor id = false := by
  cases retries with
  | atOnce => simp [Event.isCallFor]
  | afterPause => simp

theorem mute_of_interrupts
    {task : Task} {move : Move} {monitor : Option Monitor} {events : List Event}
    (stops : Interrupts s task move monitor events) :
    ∀ event ∈ events, event.isCallFor id = false := by
  cases stops with
  | afterCall => simp [Event.isCallFor]
  | inCall | inPause => simp

/-- Only a task whose item has not ended calls, and only for its item. -/
theorem mute_of_turn
    {task : Task} {move : Move} {effect : Effect}
    (turn : Turn s task move effect)
    (other : task.phase.isEnding = true ∨ task.item.id ≠ id) :
    ∀ event ∈ effect.events, event.isCallFor id = false := by
  have hother : task.phase.isEnding = false → task.item.id ≠ id := fun early =>
    other.resolve_left (by simp [early])
  cases turn with
  | closes closing => cases closing <;> simp [Event.isCallFor]
  | rejects panic admits => exact mute_of_admits admits
  | breaksAtStart message admits =>
      exact List.forall_mem_append.mpr ⟨mute_of_admits admits, by simp [Event.isCallFor]⟩
  | starts admits start =>
      have hid : task.item.id ≠ id := hother (isEnding_of_admits admits)
      obtain ⟨_, _, _, rfl⟩ := Item.start_eq_ok start
      refine List.forall_mem_append.mpr ⟨mute_of_admits admits, ?_⟩
      simpa [Event.isCallFor, Item.beginAttempt] using hid
  | rewaits panic retries =>
      exact List.forall_mem_append.mpr ⟨mute_of_retries retries, by simp [Event.isCallFor]⟩
  | recalls panic retries =>
      have hid : task.item.id ≠ id := hother (isEnding_of_retries retries)
      refine List.forall_mem_append.mpr ⟨mute_of_retries retries, ?_⟩
      simpa [Event.isCallFor, Item.beginAttempt] using hid
  | recallsAfterWait panic phase =>
      have hid : task.item.id ≠ id := hother (by rw [phase]; rfl)
      simpa [Event.isCallFor, Item.beginAttempt] using hid
  | interrupts stops =>
      exact List.forall_mem_append.mpr ⟨mute_of_interrupts stops, by simp [Event.isCallFor]⟩
  | _ => simp [Event.isCallFor]

theorem callsIn_eq
    {new events : List (Nat × Event)}
    (mute : ∀ event ∈ new, event.2.isCallFor id = false) :
    callsIn (new ++ events) id = callsIn events id := by
  unfold callsIn
  rw [List.countP_append, List.countP_eq_zero.mpr fun event hevent => by simp [mute event hevent],
    Nat.zero_add]

/-- An item is not listed before it has ended. -/
theorem unlisted_of_early
    {task : Task}
    (solvent : Solvent checkpoint s lost)
    (htask : task ∈ s.tasks)
    (early : task.phase.isEnding = false) :
    s.saved.contains task.item.id = false := by
  have htasks : task.item.id ∈ s.tasks.flatMap Task.pledge :=
    List.mem_flatMap.mpr ⟨task, htask, by simp [pledge_of_early early]⟩
  have hnew : task.item.id ∉ checkpoint.completed :=
    solvent.new _ (List.mem_append_left _ (List.mem_append_right _ htasks))
  have hlisted : task.item.id ∉ (listedIn s.events).map Prod.fst := by
    intro hlisted
    have hrecorded : task.item.id ∈ (recordedIn s.events).map Prod.fst := by
      refine ((solvent.balanced.map Prod.fst).mem_iff).mpr ?_
      rw [List.map_append, List.map_append]
      exact List.mem_append_left _ (List.mem_append_right _ hlisted)
    -- The id would be pledged twice: by its record, and by the task.
    have honce := solvent.once task.item.id
    have hhere := List.count_pos_iff.mpr hrecorded
    have hthere := List.count_pos_iff.mpr htasks
    simp only [State.pledged, List.count_append] at honce
    omega
  refine Bool.eq_false_iff.mpr fun hcontains => ?_
  rw [Checkpoint.contains, List.contains_iff_mem, solvent.booked.completed] at hcontains
  exact hcontains.elim hnew hlisted

/-- No call is made for an item that the checkpoint lists. -/
theorem calls_of_transition
    (h : Transition s action t)
    (solvent : Solvent checkpoint s lost)
    (listed : s.saved.contains id = true) :
    callsIn t.events id = callsIn s.events id := by
  cases h with
  | advances | cancels | takesPermit | spawns | flushes | leaves | closesNot => rfl
  | skips | breaksInSkip | closes => exact callsIn_eq (by simp [Event.isCallFor])
  | @turns task move effect live found turn =>
      refine callsIn_eq fun event hevent => ?_
      obtain ⟨before, hbefore, rfl⟩ := List.mem_map.mp hevent
      refine mute_of_turn turn ?_ before (List.mem_reverse.mp hbefore)
      cases hphase : task.phase.isEnding with
      | true => exact .inl rfl
      | false =>
          have hunlisted := unlisted_of_early solvent (mem_of_task? found).1 hphase
          refine .inr fun hid => ?_
          rw [hid, listed] at hunlisted
          cases hunlisted

end Calls

section Returning

variable {service : Service} {final : String → Status} {setup : Setup} {items : List Item}
  {checkpoint : Checkpoint} {throttle : Throttle} {registry : Registry} {monitor : Monitor}
  {clock : Nat} {s : State} {result : Returned}

theorem resumes_opened
    (suits : service.Suits setup)
    (sink : setup.hasSink = true)
    (store : setup.hasStore = true)
    (interval : setup.settings.checkpointInterval ≠ 0)
    (distinct : (items.map Item.id).Nodup)
    (expects : ∀ item ∈ items, service.Expects final item .pending (item.attempts + 1)) :
    Resumes service final checkpoint
      (.opened setup items checkpoint throttle registry monitor clock)
      (.opened setup items checkpoint throttle registry monitor clock) where
  solvent := ⟨[], solvent_opened sink store interval distinct⟩
  judged := judged_opened suits expects
  conserved := conserved_opened
  steady _ := rfl

/-- An item that was taken over or finished has the outcome of the checkpoint. -/
theorem outcome_of_resumes
    (store : setup.hasStore = true)
    (resumes : Resumes service final checkpoint
      (.opened setup items checkpoint throttle registry monitor clock) s)
    (stage : s.stage ≠ .unwound)
    (fatal : s.fatal = none)
    (uncancelled : s.cancelled = false) :
    ∀ item ∈ s.restored ++ s.finished, item.status = checkpoint.outcome final item.id := by
  intro item hitem
  rcases List.mem_append.mp hitem with hold | hnew
  · -- It was taken over because the checkpoint lists it.
    rw [resumes.conserved.restored, opened_restored] at hold
    obtain ⟨before, hbefore, rfl⟩ := List.mem_map.mp hold
    have hid : (checkpoint.restored before (.ofMillis clock)).id = before.id :=
      congrArg Prod.fst (restored_spec checkpoint before _).1
    have hlisted : checkpoint.contains before.id = true := by
      simpa [Setup.resumes, store] using (List.mem_filter.mp hbefore).2
    rw [Checkpoint.status_restored, hid, Checkpoint.outcome, if_pos hlisted]
  · -- It was dispatched because the checkpoint does not list it.
    have horigin : item.origin ∈ s.own.map Item.origin :=
      List.mem_map_of_mem (mem_own.mpr (.inl hnew))
    obtain ⟨before, hbefore, hsame⟩ :=
      List.mem_map.mp ((resumes.conserved.origins fatal stage).mem_iff.mp horigin)
    have hid : before.id = item.id := congrArg Prod.fst hsame
    rw [opened_waiting] at hbefore
    have hunlisted : checkpoint.contains item.id = false := by
      simpa [Setup.resumes, store, hid] using (List.mem_filter.mp hbefore).2
    rw [Checkpoint.outcome_of_not_contains hunlisted]
    exact status_of_judged resumes.judged fatal uncancelled item hnew

/-- A run that was not cancelled returns its items with the outcomes of the checkpoint. -/
theorem statuses_of_returned
    (store : setup.hasStore = true)
    (resumes : Resumes service final checkpoint
      (.opened setup items checkpoint throttle registry monitor clock) s)
    (returned : s.stage = .returned (.ok result))
    (uncancelled : result.cancelled = false) :
    (result.items.map fun item => (item.origin, item.status)).Perm
      (items.map fun item => (item.origin, checkpoint.outcome final item.id)) := by
  obtain ⟨lost, solvent⟩ := resumes.solvent
  have hstage : s.stage ≠ .unwound := by simp [returned]
  have drained := solvent.staged.drained (by simp [returned]) hstage
  obtain ⟨hfatal, hitems, -, hcancelled⟩ := solvent.staged.returned result returned
  have horigins := origins_of_drained resumes.conserved hstage hfatal drained
  have hstatuses : ((s.restored ++ s.finished).map fun item => (item.origin, item.status)) =
      ((s.restored ++ s.finished).map Item.origin).map
        fun origin => (origin, checkpoint.outcome final origin.1) := by
    rw [List.map_map]
    refine List.map_congr_left fun item hitem => ?_
    have houtcome := outcome_of_resumes store resumes hstage hfatal (hcancelled ▸ uncancelled)
      item hitem
    exact congrArg (Prod.mk item.origin) houtcome
  have hperm := (allItems_perm s).map fun item => (item.origin, item.status)
  rw [hitems]
  refine hperm.trans ?_
  rw [hstatuses]
  simpa [Function.comp_def, Item.origin] using
    horigins.map fun origin => (origin, checkpoint.outcome final origin.1)

end Returning

end Run
end BatchRun
