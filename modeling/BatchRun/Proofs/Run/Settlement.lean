import BatchRun.Proofs.Run.Ledger
import BatchRun.Proofs.Run.Standing

/-!
# Settlement of items

A run without a fault enters every settled item in its checkpoint, whether or not records are
written, and leaves the other items for another run.

**Types.**
An item is left if it was given up or not started because its run was to end.  A settled item is
`Entered` once its entry is on its way to the checkpoint or listed there.

**Invariants.**
* `Disposed`: an item that is done is settled, or is left by a run that was cancelled, aborted, or
  stopped by a fault.
* `Noted`: entries are those of settled items, and without a fault no settled item is missed.

**Results.**
* `disposed_of_transition`, `noted_of_transition`: each step keeps the invariants.
* `listed_iff_of_returned`: a run that has returned has listed exactly its settled items.
-/

namespace BatchRun

/-- Whether an item was given up or not started because its run was to end. -/
def Item.isLeft (item : Item) : Bool :=
  item.status == .skipped
    && (item.skipReason == some .cancelled || item.skipReason == some .aborted)

theorem Item.isLeft_of_isSettled
    {item : Item}
    (settled : item.isSettled = true) :
    item.isLeft = false := by
  cases hleft : item.isLeft with
  | false => rfl
  | true =>
      simp only [isLeft, Bool.and_eq_true, Bool.or_eq_true, beq_iff_eq] at hleft
      obtain ⟨hstatus, hreason⟩ := hleft
      rcases hreason with hreason | hreason
      · simp [isSettled, hstatus, hreason, SkipReason.isProcessed] at settled
      · simp [isSettled, hstatus, hreason, SkipReason.isProcessed] at settled

namespace Run

/-- Items that are done are settled, or left by a run that has a reason to end. -/
structure Disposed (s : State) : Prop where
  done : ∀ item, Done s item →
    item.isSettled = true ∨ (s.stopped = true ∧ item.isLeft = true)
  stops : s.stopped = true → s.cancelled = true ∨ s.aborted = true ∨ s.fatal ≠ none

/-- The entry of an item is on its way to the checkpoint, or is listed there. -/
def Entered (s : State) (item : Item) : Prop :=
  item.checkpointEntry ∈ s.outstanding ∨ item.checkpointEntry ∈ listedIn s.events

/-- The checkpoint gets the entries of the settled items. -/
structure Noted (s : State) : Prop where
  settled : ∀ task ∈ s.tasks, task.phase = .persisting ∨ task.phase = .buffering →
    task.item.isSettled = true
  /-- There are no other entries. -/
  sound : ∀ entry, entry ∈ s.outstanding ∨ entry ∈ listedIn s.events →
    ∃ item, Carried s item ∧ item.isSettled = true ∧ entry = item.checkpointEntry
  tasks : s.fatal = none → s.stage ≠ .unwound → ∀ task ∈ s.tasks, task.phase.isWritten = true →
    task.phase ≠ .buffering → task.item.isSettled = true → Entered s task.item
  finished : s.fatal = none → s.stage ≠ .unwound → ∀ item ∈ s.finished, item.isSettled = true →
    Entered s item

section Reasons

variable {s t : State} {task : Task} {item : Item} {action : Action}

/-- An item that comes to its end is settled, or is left because dispatch has stopped. -/
theorem settled_of_comes
    {registry : Option Registry}
    (comes : Comes s item registry)
    (halts : s.isHalted = true → s.stopped = true) :
    item.isSettled = true ∨ (s.stopped = true ∧ item.isLeft = true) := by
  cases comes with
  | concludes htask conclusion =>
      cases conclusion with
      | fails | succeeds | wins => exact .inl (by simp [Item.isSettled])
      | repeats => exact .inl (by simp [Item.isSettled, SkipReason.isProcessed])
      | interrupted stops =>
          exact .inr ⟨halts (Service.halted_of_interrupts stops), by simp [Item.isLeft]⟩
  | turnedAway away =>
      obtain ⟨before, -, -, hstop, rfl⟩ := away
      refine .inr ⟨hstop, ?_⟩
      unfold State.skipReason
      cases s.aborted with
      | true | false => simp [Item.isLeft]

/-- Dispatch stops because of a cancellation, of an item that failed, or of a fault. -/
theorem reason_of_transition
    (h : Transition s action t)
    (stops : s.stopped = true → s.cancelled = true ∨ s.aborted = true ∨ s.fatal ≠ none)
    (stop : t.stopped = true) :
    t.cancelled = true ∨ t.aborted = true ∨ t.fatal ≠ none := by
  have hfaulted : ∀ faults, (s.faulted faults).stopped = true →
      s.cancelled = true ∨ s.aborted = true ∨ (s.faulted faults).fatal ≠ none := by
    intro faults hstop
    rcases Bool.or_eq_true_iff.mp hstop with hbefore | hnew
    · rcases stops hbefore with hcancelled | haborted | hfatal
      · exact .inl hcancelled
      · exact .inr (.inl haborted)
      · exact .inr (.inr fun hnone => hfatal (fatal_of_faulted hnone).1)
    · refine .inr (.inr fun hnone => ?_)
      rw [(fatal_of_faulted hnone).2] at hnew
      cases hnew
  cases h with
  | advances | takesPermit | spawns | flushes | leaves | closes => exact stops stop
  | cancels => exact .inl rfl
  | skips | breaksInSkip | closesNot => exact hfaulted _ stop
  | @turns task move effect =>
      have hstop : (s.stopped || effect.aborts || !effect.faults.isEmpty) = true := stop
      cases haborts : effect.aborts with
      | true => exact .inr (.inl (by simp [Effect.apply, haborts]))
      | false =>
          rw [haborts, Bool.or_false] at hstop
          rcases hfaulted effect.faults hstop with hcancelled | haborted | hfatal
          · exact .inl hcancelled
          · exact .inr (.inl (by simp [Effect.apply, haborted]))
          · exact .inr (.inr hfatal)

theorem disposed_of_transition
    (h : Transition s action t)
    (standing : Standing s)
    (disposed : Disposed s) :
    Disposed t where
  done item hdone := by
    rcases done_of_transition h standing hdone with
      ⟨before, location, hbefore, rfl⟩ | ⟨registry, hcomes, -⟩
    · rcases disposed.done before hbefore with hsettled | ⟨hstop, hleft⟩
      · exact .inl hsettled
      · exact .inr ⟨stopped_of_transition h hstop, hleft⟩
    · rcases settled_of_comes hcomes standing.halts with hsettled | ⟨hstop, hleft⟩
      · exact .inl hsettled
      · exact .inr ⟨stopped_of_transition h hstop, hleft⟩
  stops := reason_of_transition h disposed.stops

theorem disposed_opened
    {setup : Setup} {items : List Item} {checkpoint : Checkpoint} {throttle : Throttle}
    {registry : Registry} {monitor : Monitor} {clock : Nat} :
    Disposed (.opened setup items checkpoint throttle registry monitor clock) where
  done item hdone := by
    rcases hdone with hfinished | ⟨task, htask, -⟩
    · cases hfinished
    · cases htask
  stops h := by cases h

end Reasons

section Turns

variable {s : State} {task next : Task} {item : Item} {move : Move} {effect : Effect}
  {entry : CheckpointEntry}

/-- Only settled items go on to their records or to the checkpoint. -/
theorem isSettled_of_endingPhase
    (h : s.endingPhase item ≠ .finishing) :
    item.isSettled = true := by
  cases hsettled : item.isSettled with
  | true => rfl
  | false => exact absurd (by simp [State.endingPhase, hsettled]) h

theorem endingPhase_of_isSettled
    (settled : item.isSettled = true) :
    s.endingPhase item = .persisting ∨ s.endingPhase item = .buffering := by
  unfold State.endingPhase
  cases s.setup.hasSink with
  | true | false => simp [settled]

theorem isSettled_of_goesOn
    (turn : Turn s task move effect)
    (h : effect.fate = .goesOn next)
    (settled : task.phase = .persisting → task.item.isSettled = true)
    (phase : next.phase = .persisting ∨ next.phase = .buffering) :
    next.item.isSettled = true := by
  cases turn with
  | turnsAway panic => cases panic <;> cases h
  | rejects | breaksAtStart | breaksInSample | breaksInRetry => cases h
  | waits | starts | answers | succeeds | pauses | rewaits | recalls | recallsAfterWait =>
      cases h
      rcases phase with phase | phase <;> cases phase
  | fails | interrupts | completes =>
      cases h
      refine isSettled_of_endingPhase (s := s) fun hfinishing => ?_
      rcases phase with phase | phase <;> cases hfinishing.symm.trans phase
  | closes closing =>
      cases closing with
      | finishes panic => cases panic <;> cases h
      | persists _ hphase =>
          cases h
          exact settled hphase
      | _ =>
          cases h
          rcases phase with phase | phase <;> cases phase

/-- What is to be written to the checkpoint later stays, or is being written. -/
theorem unflushed_of_turn
    (turn : Turn s task move effect)
    (hentry : entry ∈ s.unflushed) :
    entry ∈ effect.unflushed.getD s.unflushed ∨
      ∃ next, effect.fate = .goesOn next ∧ entry ∈ next.phase.batch := by
  cases turn with
  | closes closing =>
      cases closing with
      | buffers => exact .inl (List.mem_append_left _ hentry)
      | flushes => exact .inr ⟨_, rfl, List.mem_append_left _ hentry⟩
      | _ => exact .inl hentry
  | _ => exact .inl hentry

/-- Entries that are being written are listed afterwards, or there is a fault. -/
theorem batch_of_turn
    (turn : Turn s task move effect)
    (hentry : entry ∈ task.phase.batch) :
    (∃ batch, effect.events = [.saved batch] ∧ entry ∈ batch) ∨ effect.faults ≠ [] := by
  have hending : task.phase.isEnding = true := by
    cases hphase : task.phase with
    | saving _ => rfl
    | _ => rw [hphase] at hentry; cases hentry
  cases closing_of_turn turn hending with
  | saves phase =>
      rw [phase] at hentry
      exact .inl ⟨_, rfl, hentry⟩
  | savesNot => exact .inr (List.cons_ne_nil _ _)
  | persists _ phase | persistsNot _ phase | passes _ phase | buffers _ phase | flushes _ phase
  | finishes _ phase =>
      rw [phase] at hentry
      cases hentry

/-- A task that goes on past the checkpoint has entered its item. -/
theorem entry_of_buffering
    (turn : Turn s task move effect)
    (keeps : s.keepsCheckpoint = true)
    (phase : task.phase = .buffering)
    (h : effect.fate = .goesOn next) :
    task.item.checkpointEntry ∈ effect.unflushed.getD s.unflushed ∨
      task.item.checkpointEntry ∈ next.phase.batch := by
  have closing := closing_of_turn turn (by rw [phase]; rfl)
  cases closing with
  | passes _ _ off => cases keeps.symm.trans off
  | buffers => exact .inl (List.mem_append_right _ (List.mem_singleton.mpr rfl))
  | flushes =>
      cases h
      exact .inr (List.mem_append_right _ (List.mem_singleton.mpr rfl))
  | persists _ other | persistsNot _ other | saves other | savesNot _ other | finishes _ other =>
      cases phase.symm.trans other

/-- A task that has passed the checkpoint without a fault was there before, or at it, unless its
item is not settled. -/
theorem written_of_turn
    (turn : Turn s task move effect)
    (calm : effect.faults = [])
    (h : effect.fate = .goesOn next)
    (written : next.phase.isWritten = true)
    (later : next.phase ≠ .buffering)
    (settled : next.item.isSettled = true) :
    task.phase.isWritten = true ∧ next.item = task.item := by
  cases turn with
  | turnsAway panic => cases panic <;> cases h
  | rejects | breaksAtStart | breaksInSample | breaksInRetry => cases h
  | waits | starts | answers | succeeds | pauses | rewaits | recalls | recallsAfterWait =>
      cases h
      cases written
  | fails | interrupts | completes =>
      cases h
      rcases endingPhase_of_isSettled (s := s) settled with hphase | hphase
      · cases (congrArg Phase.isWritten hphase).symm.trans written
      · exact absurd hphase later
  | closes closing =>
      cases closing with
      | finishes panic => cases panic <;> cases h
      | persists =>
          cases h
          exact absurd rfl later
      | persistsNot | savesNot => cases calm
      | passes _ phase | buffers _ phase | flushes _ phase | saves phase =>
          cases h
          exact ⟨by rw [phase]; rfl, rfl⟩

end Turns

section Steps

variable {s t : State} {item : Item} {action : Action} {entry : CheckpointEntry}

theorem mem_outstanding :
    entry ∈ s.outstanding ↔ entry ∈ s.unflushed ∨
      (∃ task ∈ s.tasks, entry ∈ task.phase.batch) ∨ entry ∈ s.stage.batch := by
  simp only [State.outstanding, List.mem_append, List.mem_flatMap, or_assoc]

theorem listedIn_of_transition
    (h : Transition s action t)
    (hentry : entry ∈ listedIn s.events) :
    entry ∈ listedIn t.events := by
  obtain ⟨new, hevents⟩ := events_of_transition h
  rw [hevents, listedIn_append]
  exact List.mem_append_right _ hentry

/-- A turn without a fault leaves an entry on its way to the checkpoint, or lists it. -/
theorem outstanding_of_turn
    {task : Task} {move : Move} {effect : Effect}
    (numbered : Numbered s)
    (htask : task ∈ s.tasks)
    (turn : Turn s task move effect)
    (calm : effect.faults = [])
    (hentry : entry ∈ s.outstanding) :
    entry ∈ (effect.apply s task.number).outstanding ∨
      entry ∈ listedIn (effect.apply s task.number).events := by
  have hgoes : ∀ next, effect.fate = .goesOn next → entry ∈ next.phase.batch →
      entry ∈ (effect.apply s task.number).outstanding := by
    intro next hfate hbatch
    refine mem_outstanding.mpr (.inr (.inl ⟨next, ?_, hbatch⟩))
    show next ∈ effect.fate.tasks task.number s.tasks
    rw [hfate]
    exact mem_tasks_goesOn htask
  rcases mem_outstanding.mp hentry with hold | ⟨other, hother, hbatch⟩ | hlast
  · rcases unflushed_of_turn turn hold with hstays | ⟨next, hfate, hbatch⟩
    · exact .inl (mem_outstanding.mpr (.inl hstays))
    · exact .inl (hgoes next hfate hbatch)
  · by_cases hnumber : other.number = task.number
    · cases eq_of_number numbered.distinct htask hother hnumber
      rcases batch_of_turn turn hbatch with ⟨batch, hevents, hmem⟩ | hfaults
      · refine .inr ?_
        show entry ∈ listedIn (s.seen effect.events).events
        rw [hevents]
        exact List.mem_append_left _ hmem
      · exact absurd calm hfaults
    · exact .inl (mem_outstanding.mpr
        (.inr (.inl ⟨other, mem_tasks_of_ne effect.fate hother hnumber, hbatch⟩)))
  · exact .inl (mem_outstanding.mpr (.inr (.inr hlast)))

/-- Without a fault, an entry on its way to the checkpoint stays on its way or is listed. -/
theorem outstanding_of_transition
    (h : Transition s action t)
    (keeps : s.keepsCheckpoint = true)
    (numbered : Numbered s)
    (fatal : t.fatal = none)
    (stage : t.stage ≠ .unwound)
    (hentry : entry ∈ s.outstanding) :
    entry ∈ t.outstanding ∨ entry ∈ listedIn t.events := by
  cases h with
  | advances | cancels | skips | takesPermit => exact .inl hentry
  | breaksInSkip => exact absurd rfl stage
  | closesNot => exact absurd (fatal_of_faulted fatal).2 (List.cons_ne_nil _ _)
  | spawns =>
      rcases mem_outstanding.mp hentry with hold | ⟨task, htask, hbatch⟩ | hlast
      · exact .inl (mem_outstanding.mpr (.inl hold))
      · exact .inl (mem_outstanding.mpr (.inr (.inl ⟨task, List.mem_append_left _ htask, hbatch⟩)))
      · exact .inl (mem_outstanding.mpr (.inr (.inr hlast)))
  | flushes dispatching waiting tasks =>
      rcases mem_outstanding.mp hentry with hold | ⟨task, htask, -⟩ | hlast
      · exact .inl (mem_outstanding.mpr (.inr (.inr (by simpa [keeps] using hold))))
      · rw [tasks] at htask
        cases htask
      · rw [dispatching] at hlast
        cases hlast
  | leaves _ flushing =>
      rcases mem_outstanding.mp hentry with hold | htasks | hlast
      · exact .inl (mem_outstanding.mpr (.inl hold))
      · exact .inl (mem_outstanding.mpr (.inr (.inl htasks)))
      · rw [flushing] at hlast
        cases hlast
  | closes flushing =>
      rcases mem_outstanding.mp hentry with hold | htasks | hlast
      · exact .inl (mem_outstanding.mpr (.inl hold))
      · exact .inl (mem_outstanding.mpr (.inr (.inl htasks)))
      · rw [flushing] at hlast
        exact .inr (List.mem_append_left _ hlast)
  | turns _ found turn =>
      exact outstanding_of_turn numbered (mem_of_task? found).1 turn (fatal_of_faulted fatal).2
        hentry

theorem entered_of_transition
    (h : Transition s action t)
    (keeps : s.keepsCheckpoint = true)
    (numbered : Numbered s)
    (fatal : t.fatal = none)
    (stage : t.stage ≠ .unwound)
    (entered : Entered s item) :
    Entered t item := by
  rcases entered with hway | hlisted
  · exact outstanding_of_transition h keeps numbered fatal stage hway
  · exact .inr (listedIn_of_transition h hlisted)

/-- An item stays settled on its way to its record and to the checkpoint. -/
theorem settledTask_of_transition
    (h : Transition s action t)
    (settled : ∀ task ∈ s.tasks, task.phase = .persisting ∨ task.phase = .buffering →
      task.item.isSettled = true) :
    ∀ task ∈ t.tasks, task.phase = .persisting ∨ task.phase = .buffering →
      task.item.isSettled = true := by
  intro task htask hphase
  rcases mem_tasks_of_transition h htask with
    hold | hspawned | ⟨before, hbefore, move, effect, hturn, hfate, -⟩
  · exact settled task hold hphase
  · rw [hspawned] at hphase
    rcases hphase with hphase | hphase <;> cases hphase
  · exact isSettled_of_goesOn hturn hfate (fun hpersisting => settled before hbefore
      (.inl hpersisting)) hphase

theorem sound_of_transition
    (h : Transition s action t)
    (numbered : Numbered s)
    (noted : Noted s)
    (hentry : entry ∈ t.outstanding ∨ entry ∈ listedIn t.events) :
    ∃ item, Carried t item ∧ item.isSettled = true ∧ entry = item.checkpointEntry := by
  have hstays : entry ∈ s.outstanding ∨ entry ∈ listedIn s.events →
      ∃ item, Carried t item ∧ item.isSettled = true ∧ entry = item.checkpointEntry := by
    intro hold
    obtain ⟨item, hcarried, hsettled, heq⟩ := noted.sound entry hold
    exact ⟨item, carried_of_transition h numbered hcarried, hsettled, heq⟩
  rcases hentry with hway | hlisted
  · rcases mem_outstanding_of_transition h hway with hold | ⟨task, htask, hphase, heq⟩
    · exact hstays (.inl hold)
    · have hcarried : Carried s task.item := .inl ⟨task, htask, rfl, by rw [hphase]; rfl⟩
      exact ⟨task.item, carried_of_transition h numbered hcarried,
        noted.settled task htask (.inr hphase), heq⟩
  · rcases saves_of_transition h with ⟨-, new, hevents, hother⟩ | ⟨batch, hbatch, -, hevents⟩
    · rw [hevents, listedIn_append, listedIn_eq_nil hother] at hlisted
      exact hstays (.inr hlisted)
    · have hlisted : entry ∈ batch ++ listedIn s.events := by
        rw [hevents] at hlisted
        exact hlisted
      rcases List.mem_append.mp hlisted with hnew | hold
      · exact hstays (.inl (hbatch entry hnew))
      · exact hstays (.inr hold)

/-- A task that has passed the checkpoint has entered its item, if that is settled. -/
theorem enteredTask_of_transition
    (h : Transition s action t)
    (keeps : s.keepsCheckpoint = true)
    (numbered : Numbered s)
    (noted : Noted s)
    (fatal : t.fatal = none)
    (stage : t.stage ≠ .unwound) :
    ∀ task ∈ t.tasks, task.phase.isWritten = true → task.phase ≠ .buffering →
      task.item.isSettled = true → Entered t task.item := by
  intro task htask hwritten hlater hsettled
  have hstays : Entered s task.item → Entered t task.item :=
    entered_of_transition h keeps numbered fatal stage
  have hfatal := fatal_of_transition h fatal
  have hstage := stage_ne_unwound (live_of_transition h)
  have hold : task ∈ s.tasks → Entered t task.item := fun hmem =>
    hstays (noted.tasks hfatal hstage task hmem hwritten hlater hsettled)
  cases h with
  | advances | cancels | skips | takesPermit | flushes | leaves | closes | closesNot =>
      exact hold htask
  | breaksInSkip => cases htask
  | spawns =>
      rcases List.mem_append.mp htask with hmem | hnew
      · exact hold hmem
      · cases List.mem_singleton.mp hnew
        cases hwritten
  | @turns before move effect live found turn =>
      rcases mem_tasks htask with hfate | ⟨hmem, -⟩
      · have hbefore := (mem_of_task? found).1
        obtain ⟨hpast, hitem⟩ := written_of_turn turn (fatal_of_faulted fatal).2 hfate hwritten
          hlater hsettled
        rw [hitem] at hsettled hstays ⊢
        by_cases hphase : before.phase = .buffering
        · rcases entry_of_buffering turn keeps hphase hfate with hentry | hentry
          · exact .inl (mem_outstanding.mpr (.inl hentry))
          · exact .inl (mem_outstanding.mpr (.inr (.inl ⟨task, htask, hentry⟩)))
        · exact hstays (noted.tasks hfatal hstage before hbefore hpast hphase hsettled)
      · exact hold hmem

theorem noted_of_transition
    (h : Transition s action t)
    (keeps : s.keepsCheckpoint = true)
    (numbered : Numbered s)
    (standing : Standing s)
    (noted : Noted s) :
    Noted t where
  settled := settledTask_of_transition h noted.settled
  sound _ := sound_of_transition h numbered noted
  tasks := enteredTask_of_transition h keeps numbered noted
  finished fatal stage item hitem hsettled := by
    have hfatal := fatal_of_transition h fatal
    have hstage := stage_ne_unwound (live_of_transition h)
    have hstays : Entered s item → Entered t item :=
      entered_of_transition h keeps numbered fatal stage
    rcases filed_of_transition h standing hitem with hold | ⟨task, htask, hphase, rfl⟩ | ⟨haway, -⟩
    · exact hstays (noted.finished hfatal hstage item hold hsettled)
    · exact hstays (noted.tasks hfatal hstage task htask (by rw [hphase]; rfl) (by simp [hphase])
        hsettled)
    · obtain ⟨before, -, -, -, rfl⟩ := haway
      rw [Service.isSettled_skipped] at hsettled
      cases hsettled

theorem noted_opened
    {setup : Setup} {items : List Item} {checkpoint : Checkpoint} {throttle : Throttle}
    {registry : Registry} {monitor : Monitor} {clock : Nat} :
    Noted (.opened setup items checkpoint throttle registry monitor clock) where
  settled _ htask := absurd htask List.not_mem_nil
  sound entry hentry := by
    rcases hentry with hway | hlisted
    · rw [State.outstanding, batch_opened] at hway
      cases hway
    · cases hlisted
  tasks _ _ _ htask := absurd htask List.not_mem_nil
  finished _ _ _ hitem := absurd hitem List.not_mem_nil

end Steps

/-- What is known of a run that began with pending items. -/
structure Orderly (first s : State) : Prop where
  numbered : Numbered s
  staged : Staged s
  standing : Standing s
  conserved : Conserved first s
  disposed : Disposed s

/-- What is known of a run that keeps a checkpoint. -/
structure Keeping (checkpoint : Checkpoint) (first s : State) : Prop extends Orderly first s where
  keeps : s.keepsCheckpoint = true
  noted : Noted s
  booked : Booked checkpoint s
  /-- Items that were not listed by this run have the pointers they had. -/
  untouched : ∀ id, id ∉ (listedIn s.events).map Prod.fst →
    s.saved.pointer? id = checkpoint.pointer? id
  emptied : s.stage ≠ .dispatching → s.stage ≠ .unwound → s.unflushed = []

section Runs

variable {checkpoint : Checkpoint} {first s t : State} {action : Action} {item : Item}
  {result : Returned} {entry : CheckpointEntry}

theorem orderly_of_transition
    (h : Transition s action t)
    (orderly : Orderly first s) :
    Orderly first t where
  numbered := numbered_of_transition h orderly.numbered
  staged := staged_of_transition h orderly.staged
  standing := standing_of_transition h orderly.standing
  conserved := conserved_of_transition h orderly.numbered orderly.conserved
  disposed := disposed_of_transition h orderly.standing orderly.disposed

theorem pointer?_of_transition
    {id : String}
    (h : Transition s action t)
    (unlisted : id ∉ (listedIn t.events).map Prod.fst) :
    t.saved.pointer? id = s.saved.pointer? id := by
  rcases saves_of_transition h with ⟨hsaved, -⟩ | ⟨batch, -, hsaved, hevents⟩
  · rw [hsaved]
  · have hlisted : listedIn t.events = batch ++ listedIn s.events := by
      rw [hevents]
      rfl
    rw [hlisted, List.map_append, List.mem_append, not_or] at unlisted
    rw [hsaved, Checkpoint.pointer?_recordAll_of_not_mem unlisted.1]

theorem keeping_of_transition
    (h : Transition s action t)
    (keeping : Keeping checkpoint first s) :
    Keeping checkpoint first t where
  toOrderly := orderly_of_transition h keeping.toOrderly
  keeps := (keepsCheckpoint_of_transition h).trans keeping.keeps
  noted := noted_of_transition h keeping.keeps keeping.numbered keeping.standing keeping.noted
  booked := booked_of_transition h keeping.booked
  untouched id unlisted := by
    refine (pointer?_of_transition h unlisted).trans (keeping.untouched id fun hlisted => ?_)
    obtain ⟨entry, hentry, rfl⟩ := List.mem_map.mp hlisted
    exact unlisted (List.mem_map_of_mem (listedIn_of_transition h hentry))
  emptied := emptied_of_transition h keeping.staged keeping.emptied

/-- What a run that has returned leaves of its parts. -/
theorem drained_of_returned
    (orderly : Orderly first s)
    (returned : s.stage = .returned (.ok result)) :
    s.waiting = [] ∧ s.tasks = [] ∧ s.fatal = none ∧ s.stage ≠ .dispatching ∧
      s.stage ≠ .unwound := by
  have hunwound : s.stage ≠ .unwound := by simp [returned]
  have hdispatching : s.stage ≠ .dispatching := by simp [returned]
  obtain ⟨hwaiting, htasks⟩ := orderly.staged.drained hdispatching hunwound
  exact ⟨hwaiting, htasks, (orderly.staged.returned result returned).1, hdispatching, hunwound⟩

/-- Once a run has returned, its items are finished and nothing is on its way to the checkpoint. -/
theorem outstanding_of_returned
    (keeping : Keeping checkpoint first s)
    (returned : s.stage = .returned (.ok result)) :
    s.outstanding = [] := by
  obtain ⟨-, htasks, -, hdispatching, hunwound⟩ := drained_of_returned keeping.toOrderly returned
  simp [State.outstanding, keeping.emptied hdispatching hunwound, htasks, returned, Stage.batch]

/-- Every listed entry is that of a finished item that is settled. -/
theorem settled_of_listed
    (keeping : Keeping checkpoint first s)
    (returned : s.stage = .returned (.ok result))
    (hentry : entry ∈ listedIn s.events) :
    ∃ item ∈ s.finished, item.isSettled = true ∧ entry = item.checkpointEntry := by
  obtain ⟨-, htasks, hfatal, -, hunwound⟩ := drained_of_returned keeping.toOrderly returned
  obtain ⟨item, hcarried, hsettled, heq⟩ := keeping.noted.sound entry (.inr hentry)
  rcases hcarried with ⟨task, htask, -⟩ | ⟨-, hfinished⟩ | hstage
  · rw [htasks] at htask
    cases htask
  · exact ⟨item, hfinished hfatal, hsettled, heq⟩
  · exact absurd hstage hunwound

/-- An item of a run that has returned was taken over or finished. -/
theorem mem_returned
    (orderly : Orderly first s)
    (returned : s.stage = .returned (.ok result)) :
    item ∈ result.items ↔ item ∈ s.restored ∨ item ∈ s.finished := by
  rw [(orderly.staged.returned result returned).2.1, (allItems_perm s).mem_iff, List.mem_append]

/-- No two finished items have the same id, if that was so when the run began. -/
theorem finished_distinct
    (orderly : Orderly first s)
    (distinct : (first.waiting.map Item.id).Nodup)
    (returned : s.stage = .returned (.ok result)) :
    (s.finished.map Item.origin).Perm (first.waiting.map Item.origin) ∧
      (s.finished.map Item.id).Nodup := by
  obtain ⟨hwaiting, htasks, hfatal, -, hunwound⟩ := drained_of_returned orderly returned
  have hperm := orderly.conserved.origins hfatal hunwound
  have hown : s.own = s.finished := by
    simp [State.own, hwaiting, htasks]
  rw [hown] at hperm
  refine ⟨hperm, ?_⟩
  have hids := hperm.map Prod.fst
  rw [List.map_map, List.map_map] at hids
  exact hids.nodup_iff.mpr distinct

/-- Once a run has returned, the checkpoint lists the finished items that are settled, each with
its status and the place of its record. -/
theorem listed_iff_of_returned
    (keeping : Keeping checkpoint first s)
    (distinct : (first.waiting.map Item.id).Nodup)
    (returned : s.stage = .returned (.ok result))
    (hitem : item ∈ s.finished) :
    (item.id ∈ (listedIn s.events).map Prod.fst ↔ item.isSettled = true) ∧
      (item.isSettled = true → s.saved.pointer? item.id = some ⟨item.status, item.location⟩) := by
  obtain ⟨-, -, hfatal, -, hunwound⟩ := drained_of_returned keeping.toOrderly returned
  obtain ⟨-, hdistinct⟩ := finished_distinct keeping.toOrderly distinct returned
  have hsame : ∀ entry ∈ listedIn s.events, entry.1 = item.id →
      item.isSettled = true ∧ entry = item.checkpointEntry := by
    intro entry hentry hid
    obtain ⟨other, hother, hsettled, rfl⟩ := settled_of_listed keeping returned hentry
    cases List.inj_on_of_nodup_map hdistinct hother hitem hid
    exact ⟨hsettled, rfl⟩
  have hlisted : item.isSettled = true → item.id ∈ (listedIn s.events).map Prod.fst := by
    intro hsettled
    rcases keeping.noted.finished hfatal hunwound item hitem hsettled with hway | hentry
    · rw [outstanding_of_returned keeping returned] at hway
      cases hway
    · exact List.mem_map_of_mem hentry
  refine ⟨⟨fun hmem => ?_, hlisted⟩, fun hsettled => ?_⟩
  · obtain ⟨entry, hentry, hid⟩ := List.mem_map.mp hmem
    exact (hsame entry hentry hid).1
  · obtain ⟨pointer, hpointer, hentry⟩ := keeping.booked.pointer item.id (hlisted hsettled)
    cases (hsame _ hentry rfl).2
    exact hpointer

end Runs

section Opening

variable {setup : Setup} {items : List Item} {checkpoint : Checkpoint} {throttle : Throttle}
  {registry : Registry} {monitor : Monitor} {clock : Nat}

theorem orderly_opened
    (pending : ∀ item ∈ items, item.status = .pending) :
    Orderly (.opened setup items checkpoint throttle registry monitor clock)
      (.opened setup items checkpoint throttle registry monitor clock) where
  numbered := numbered_opened
  staged := staged_opened
  standing := standing_opened pending
  conserved := conserved_opened
  disposed := disposed_opened

theorem keeping_opened
    (store : setup.hasStore = true)
    (interval : setup.settings.checkpointInterval ≠ 0)
    (pending : ∀ item ∈ items, item.status = .pending) :
    Keeping checkpoint (.opened setup items checkpoint throttle registry monitor clock)
      (.opened setup items checkpoint throttle registry monitor clock) where
  toOrderly := orderly_opened pending
  keeps := keepsCheckpoint_opened store interval
  noted := noted_opened
  booked := ⟨fun _ => by simp [State.opened, State.log, listedIn, Event.listed],
    fun _ hmem => absurd hmem (by simp [State.opened, State.log, listedIn, Event.listed])⟩
  untouched _ _ := rfl
  emptied _ _ := rfl

/-- A run returns the items that it began with. -/
theorem origins_of_returned
    {s : State} {result : Returned}
    (orderly : Orderly (.opened setup items checkpoint throttle registry monitor clock) s)
    (returned : s.stage = .returned (.ok result)) :
    (result.items.map Item.origin).Perm (items.map Item.origin) := by
  obtain ⟨hwaiting, htasks, hfatal, -, hunwound⟩ := drained_of_returned orderly returned
  rw [(orderly.staged.returned result returned).2.1]
  exact ((allItems_perm s).map Item.origin).trans
    (origins_of_drained orderly.conserved hunwound hfatal ⟨hwaiting, htasks⟩)

theorem waiting_distinct
    (distinct : (items.map Item.id).Nodup) :
    ((State.opened setup items checkpoint throttle registry monitor clock).waiting.map
      Item.id).Nodup := by
  rw [opened_waiting]
  exact distinct.sublist (List.filter_sublist.map Item.id)

end Opening

end Run
end BatchRun
