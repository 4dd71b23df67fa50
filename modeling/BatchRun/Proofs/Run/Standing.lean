import BatchRun.Proofs.Run.Calm

/-!
# Where items stand

**Invariant.**
The phase of a task tells the status of its item: pending before its start, processing up to its
outcome, and terminal at its end (`Standing`), so that no move of an item is rejected.

**Types.**
An item is `Done` once it is finished or its task is at its end.  `Conclusion` lists the ways in
which a task comes to its end; `Comes` adds the items that are skipped before their start.

**Results.**
* `standing_of_transition`: each step keeps the invariant.
* `done_of_transition`: an item that is done was done before, or comes to its end in this step.
* `done_again`: without a fault, an item that is done stays what it is.
* `compared_of_transition`: the registry changes only by a task that comes to its end.
-/

namespace BatchRun
namespace Run

/-- The phase of a task tells the status of its item. -/
def Task.Stands (task : Task) : Prop :=
  match task.phase with
  | .spawned => task.item.status = .pending
  | .throttled _ => task.item.status = .pending
  | .calling _ => task.item.status = .processing
  | .answered _ _ => task.item.status = .processing
  | .pausing _ => task.item.status = .processing
  | .rethrottled _ => task.item.status = .processing
  | .comparing _ => task.item.status = .processing
  | .persisting => task.item.isTerminal = true
  | .buffering => task.item.isTerminal = true
  | .saving _ => task.item.isTerminal = true
  | .finishing => task.item.isTerminal = true

/-- Every item has the status that belongs to its place. -/
structure Standing (s : State) : Prop where
  waiting : ∀ item ∈ s.waiting, item.status = .pending
  tasks : ∀ task ∈ s.tasks, task.Stands
  finished : ∀ item ∈ s.finished, item.isTerminal = true
  halts : s.isHalted = true → s.stopped = true

/-- An item that is not processed any further. -/
def Done (s : State) (item : Item) : Prop :=
  item ∈ s.finished ∨ ∃ task ∈ s.tasks, task.phase.isEnding = true ∧ task.item = item

/-- How a task comes to its end: its item then, and the registry if results were compared. -/
inductive Conclusion (s : State) (task : Task) : Item → Option Registry → Prop
  | fails {failure : AttemptFailure} {latency : Nat} {monitor : Monitor}
      (samples : Samples s task (.error failure) latency monitor)
      (last : s.isLastFailure task failure = true) :
      Conclusion s task
        { task.item.moved .failed s.stamp with failure := some failure.toItemFailure } none
  | interrupted {move : Move} {monitor : Option Monitor} {events : List Event}
      (stops : Interrupts s task move monitor events) :
      Conclusion s task
        { task.item.moved .skipped s.stamp with skipReason := some .cancelled } none
  | succeeds {result : Json} (phase : task.phase = .comparing result)
      (off : s.settings.deduplicate = false) :
      Conclusion s task { task.item.moved .success s.stamp with result := some result } none
  /-- Its result is the first of its kind. -/
  | wins {result : Json} {registry : Registry} (phase : task.phase = .comparing result)
      (on : s.settings.deduplicate = true)
      (record : s.registry.record result task.item.id = (registry, none)) :
      Conclusion s task { task.item.moved .success s.stamp with result := some result }
        (some registry)
  /-- Its result is that of another item. -/
  | repeats {result : Json} {registry : Registry} {firstId : String}
      (phase : task.phase = .comparing result) (on : s.settings.deduplicate = true)
      (record : s.registry.record result task.item.id = (registry, some firstId)) :
      Conclusion s task
        { task.item.moved .skipped s.stamp with skipReason := some (.duplicate firstId) }
        (some registry)

/-- An item is skipped before its start, because dispatch has stopped. -/
def TurnedAway (s : State) (item : Item) : Prop :=
  ∃ before ∈ s.own, before.status = .pending ∧ s.stopped = true ∧
    item = { before.moved .skipped s.stamp with skipReason := some s.skipReason }

/-- How an item comes to be done. -/
inductive Comes (s : State) : Item → Option Registry → Prop
  | concludes {task : Task} {item : Item} {registry : Option Registry} (htask : task ∈ s.tasks)
      (conclusion : Conclusion s task item registry) : Comes s item registry
  | turnedAway {item : Item} (away : TurnedAway s item) : Comes s item none

section Turns

variable {s : State} {task next : Task} {item : Item} {move : Move} {effect : Effect}

theorem stands_of_isTerminal
    (ending : task.phase.isEnding = true)
    (terminal : task.item.isTerminal = true) :
    task.Stands := by
  unfold Task.Stands
  cases hphase : task.phase with
  | persisting | buffering | saving _ | finishing => exact terminal
  | _ => rw [hphase] at ending; cases ending

theorem isTerminal_of_stands
    (stands : task.Stands)
    (ending : task.phase.isEnding = true) :
    task.item.isTerminal = true := by
  unfold Task.Stands at stands
  cases hphase : task.phase with
  | persisting | buffering | saving _ | finishing => simpa only [hphase] using stands
  | _ => rw [hphase] at ending; cases ending

theorem pending_of_admits
    {throttle : Option Throttle} {events : List Event}
    (admits : Admits s task throttle events)
    (stands : task.Stands) :
    task.item.status = .pending := by
  cases admits with
  | atOnce phase | afterWait phase => simpa only [Task.Stands, phase] using stands

theorem pending_of_early
    (phase : task.phase = .spawned ∨ ∃ due, task.phase = .throttled due)
    (stands : task.Stands) :
    task.item.status = .pending := by
  rcases phase with phase | ⟨due, phase⟩
  · simpa only [Task.Stands, phase] using stands
  · simpa only [Task.Stands, phase] using stands

theorem processing_of_samples
    {outcome : Except AttemptFailure Json} {latency : Nat} {monitor : Monitor}
    (samples : Samples s task outcome latency monitor)
    (stands : task.Stands) :
    task.item.status = .processing := by
  simpa only [Task.Stands, samples.phase] using stands

theorem processing_of_retries
    {monitor : Option Monitor} {events : List Event}
    (retries : Retries s task monitor events)
    (stands : task.Stands) :
    task.item.status = .processing := by
  cases retries with
  | atOnce samples => exact processing_of_samples samples stands
  | afterPause phase => simpa only [Task.Stands, phase] using stands

theorem processing_of_interrupts
    {monitor : Option Monitor} {events : List Event}
    (stops : Interrupts s task move monitor events)
    (stands : task.Stands) :
    task.item.status = .processing := by
  cases stops with
  | inCall phase => simpa only [Task.Stands, phase] using stands
  | inPause _ phase =>
      rcases phase with phase | phase
      · simpa only [Task.Stands, phase] using stands
      · simpa only [Task.Stands, phase] using stands
  | afterCall samples => exact processing_of_samples samples stands

/-- A task that comes to its end does so in one of the ways of `Conclusion`, and without a fault. -/
theorem conclusion_of_goesOn
    (turn : Turn s task move effect)
    (stands : task.Stands)
    (early : task.phase.isEnding = false)
    (h : effect.fate = .goesOn next)
    (ending : next.phase.isEnding = true) :
    Conclusion s task next.item effect.registry ∧ next.phase = s.endingPhase next.item ∧
      effect.faults = [] := by
  cases turn with
  | turnsAway panic => cases panic <;> cases h
  | rejects | breaksAtStart | breaksInSample | breaksInRetry => cases h
  | waits | starts | answers | succeeds | pauses | rewaits | recalls | recallsAfterWait =>
      cases h
      cases ending
  | fails panic samples last fail =>
      have hstatus := processing_of_samples samples stands
      rw [Item.fail_of_canMoveTo _ (by rw [hstatus]; rfl)] at fail
      subst fail
      cases h
      exact ⟨.fails samples last, rfl, rfl⟩
  | interrupts stops skip =>
      have hstatus := processing_of_interrupts stops stands
      rw [Item.skip_of_canMoveTo _ (by rw [hstatus]; rfl)] at skip
      subst skip
      cases h
      exact ⟨.interrupted stops, rfl, rfl⟩
  | completes panic phase compares =>
      have hstatus : task.item.status = .processing := by
        simpa only [Task.Stands, phase] using stands
      cases h
      cases compares with
      | unchecked off =>
          rw [Item.succeed_of_canMoveTo _ (by rw [hstatus]; rfl)]
          exact ⟨.succeeds phase off, rfl, rfl⟩
      | first on record =>
          rw [Item.succeed_of_canMoveTo _ (by rw [hstatus]; rfl)]
          exact ⟨.wins phase on record, rfl, rfl⟩
      | duplicate on record =>
          rw [Item.skip_of_canMoveTo _ (by rw [hstatus]; rfl)]
          exact ⟨.repeats phase on record, rfl, rfl⟩
  | closes closing =>
      rw [isEnding_of_closing closing] at early
      cases early

theorem isTerminal_of_conclusion
    {registry : Option Registry}
    (conclusion : Conclusion s task item registry) :
    item.isTerminal = true := by
  cases conclusion with
  | fails | interrupted | succeeds | wins | repeats => simp [Item.isTerminal, Status.isTerminal]

/-- A task that goes on still tells the status of its item. -/
theorem stands_of_goesOn
    (turn : Turn s task move effect)
    (stands : task.Stands)
    (h : effect.fate = .goesOn next) :
    next.Stands := by
  cases hending : next.phase.isEnding with
  | true =>
      refine stands_of_isTerminal hending ?_
      cases hphase : task.phase.isEnding with
      | false =>
          exact isTerminal_of_conclusion (conclusion_of_goesOn turn stands hphase h hending).1
      | true =>
          have hterminal := isTerminal_of_stands stands hphase
          rcases fate_of_closing (closing_of_turn turn hphase) with
            ⟨_, location, hfate, -, hitem, -⟩ | ⟨-, panic, hfate, -⟩
          · cases hfate.symm.trans h
            rw [hitem]
            exact hterminal
          · cases panic <;> cases hfate.symm.trans h
  | false =>
      cases turn with
      | turnsAway panic => cases panic <;> cases h
      | rejects | breaksAtStart | breaksInSample | breaksInRetry => cases h
      | waits _ phase =>
          cases h
          simpa only [Task.Stands, phase] using stands
      | starts _ start =>
          cases h
          obtain ⟨_, _, _, rfl⟩ := Item.start_eq_ok start
          rfl
      | answers phase =>
          cases h
          simpa only [Task.Stands, phase] using stands
      | succeeds _ samples | pauses samples =>
          have hstatus := processing_of_samples samples stands
          cases h
          exact hstatus
      | rewaits _ retries | recalls _ retries =>
          have hstatus := processing_of_retries retries stands
          cases h
          exact hstatus
      | recallsAfterWait _ phase =>
          cases h
          have hstatus : task.item.status = .processing := by
            simpa only [Task.Stands, phase] using stands
          exact hstatus
      | fails | interrupts | completes =>
          cases h
          rcases Service.endingPhase_cases s _ with hphase | hphase | hphase <;>
            rw [State.ended, hphase] at hending <;> cases hending
      | closes closing =>
          cases closing with
          | finishes panic => cases panic <;> cases h
          | _ => cases h; cases hending

/-- Only a task that has a result and comes to its end asks the registry. -/
theorem registry_of_turn
    {registry : Registry}
    (turn : Turn s task move effect)
    (h : effect.registry = some registry) :
    task.phase.isEnding = false ∧
      ∃ next, effect.fate = .goesOn next ∧ next.phase.isEnding = true := by
  cases turn with
  | completes panic phase compares =>
      exact ⟨by rw [phase]; rfl, _, rfl, isEnding_endingPhase s _⟩
  | closes closing => cases closing <;> cases h
  | _ => cases h

/-- A task files its item at its end, or skips it before its start. -/
theorem filed_of_turn
    (turn : Turn s task move effect)
    (stands : task.Stands)
    (h : effect.fate = .files item) :
    (task.phase = .finishing ∧ item = task.item) ∨
      (task.item.status = .pending ∧ s.stopped = true ∧
        item = { task.item.moved .skipped s.stamp with skipReason := some s.skipReason } ∧
        effect.registry = none) := by
  cases turn with
  | turnsAway panic phase stop skip =>
      cases panic with
      | some message => cases h
      | none =>
          cases h
          have hstatus := pending_of_early phase stands
          rw [Item.skip_of_canMoveTo _ (by rw [hstatus]; rfl)] at skip
          subst skip
          exact .inr ⟨hstatus, stop, rfl, rfl⟩
  | rejects panic admits start =>
      rw [Item.start_of_canMoveTo (by rw [pending_of_admits admits stands]; rfl)] at start
      cases start
  | closes closing =>
      cases closing with
      | finishes panic phase =>
          cases panic with
          | some message => cases h
          | none =>
              cases h
              exact .inl ⟨phase, rfl⟩
      | _ => cases h
  | _ => cases h

end Turns

section Steps

variable {s t : State} {action : Action} {item : Item}

/-- A finished item was finished before, or its task has ended, or it is not started any more. -/
theorem filed_of_transition
    (h : Transition s action t)
    (standing : Standing s)
    (hitem : item ∈ t.finished) :
    item ∈ s.finished ∨ (∃ task ∈ s.tasks, task.phase = .finishing ∧ task.item = item) ∨
      (TurnedAway s item ∧ t.registry = s.registry) := by
  cases h with
  | advances | cancels | breaksInSkip | takesPermit | spawns | flushes | leaves | closes
  | closesNot => exact .inl hitem
  | @skips first rest _ _ waiting stop _ _ skip =>
      have hfirst := standing.waiting first (by simp [waiting])
      rw [Item.skip_of_canMoveTo _ (by rw [hfirst]; rfl)] at skip
      subst skip
      rcases List.mem_append.mp hitem with hold | hnew
      · exact .inl hold
      · cases List.mem_singleton.mp hnew
        have hown : first ∈ s.own := mem_own.mpr (.inr (.inr (by simp [waiting])))
        exact .inr (.inr ⟨⟨first, hown, hfirst, stop, rfl⟩, rfl⟩)
  | @turns task move effect live found turn =>
      have htask := (mem_of_task? found).1
      rcases List.mem_append.mp hitem with hold | hnew
      · exact .inl hold
      · cases hfate : effect.fate with
        | goesOn next => rw [hfate] at hnew; cases hnew
        | loses => rw [hfate] at hnew; cases hnew
        | files filed =>
            rw [hfate] at hnew
            cases List.mem_singleton.mp hnew
            rcases filed_of_turn turn (standing.tasks task htask) hfate with
              ⟨hphase, rfl⟩ | ⟨hpending, hstop, hsame, hregistry⟩
            · exact .inr (.inl ⟨task, htask, hphase, rfl⟩)
            · have hown : task.item ∈ s.own := mem_own.mpr (.inr (.inl ⟨task, htask, rfl⟩))
              exact .inr (.inr ⟨⟨task.item, hown, hpending, hstop, hsame⟩,
                by simp [Effect.apply, hregistry]⟩)

theorem standing_of_transition
    (h : Transition s action t)
    (standing : Standing s) :
    Standing t where
  waiting item hitem := standing.waiting item (waiting_of_transition h hitem)
  tasks task htask := by
    cases h with
    | advances | cancels | skips | takesPermit | flushes | leaves | closes | closesNot =>
        exact standing.tasks task htask
    | breaksInSkip => cases htask
    | @spawns first rest _ waiting =>
        rcases List.mem_append.mp htask with hold | hnew
        · exact standing.tasks task hold
        · cases List.mem_singleton.mp hnew
          exact standing.waiting first (by simp [waiting])
    | turns _ found turn =>
        rcases mem_tasks htask with hnext | ⟨hold, -⟩
        · exact stands_of_goesOn turn (standing.tasks _ (mem_of_task? found).1) hnext
        · exact standing.tasks task hold
  finished item hitem := by
    rcases filed_of_transition h standing hitem with hold | ⟨task, htask, hphase, rfl⟩ | ⟨haway, -⟩
    · exact standing.finished item hold
    · exact isTerminal_of_stands (standing.tasks task htask) (by rw [hphase]; rfl)
    · obtain ⟨before, -, -, -, rfl⟩ := haway
      simp [Item.isTerminal, Status.isTerminal]
  halts := halts_of_transition h standing.halts

/-- An item that is done was done before, apart from the place of its record, or comes to its end in
this step. -/
theorem done_of_transition
    (h : Transition s action t)
    (standing : Standing s)
    (done : Done t item) :
    (∃ before location, Done s before ∧ item = { before with location }) ∨
      ∃ registry, Comes s item registry ∧ t.registry = registry.getD s.registry := by
  have hsame : Done s item → ∃ before location, Done s before ∧ item = { before with location } :=
    fun hdone => ⟨item, item.location, hdone, rfl⟩
  rcases done with hfinished | ⟨next, hnext, hending, rfl⟩
  · rcases filed_of_transition h standing hfinished with
      hold | ⟨task, htask, hphase, hitem⟩ | ⟨haway, hregistry⟩
    · exact .inl (hsame (.inl hold))
    · exact .inl (hsame (.inr ⟨task, htask, by rw [hphase]; rfl, hitem⟩))
    · exact .inr ⟨none, .turnedAway haway, hregistry⟩
  · cases h with
    | advances | cancels | skips | takesPermit | flushes | leaves | closes | closesNot =>
        exact .inl (hsame (.inr ⟨next, hnext, hending, rfl⟩))
    | breaksInSkip => cases hnext
    | spawns =>
        rcases List.mem_append.mp hnext with hold | hnew
        · exact .inl (hsame (.inr ⟨next, hold, hending, rfl⟩))
        · cases List.mem_singleton.mp hnew
          cases hending
    | @turns task move effect live found turn =>
        have htask := (mem_of_task? found).1
        rcases mem_tasks hnext with hfate | ⟨hold, -⟩
        · cases hphase : task.phase.isEnding with
          | false =>
              have hconclusion := (conclusion_of_goesOn turn (standing.tasks task htask) hphase hfate
                hending).1
              exact .inr ⟨effect.registry, .concludes htask hconclusion, rfl⟩
          | true =>
              rcases fate_of_closing (closing_of_turn turn hphase) with
                ⟨_, location, hgoes, -, hitem, -⟩ | ⟨-, panic, hgoes, -⟩
              · cases hgoes.symm.trans hfate
                exact .inl ⟨task.item, location, .inr ⟨task, htask, hphase, rfl⟩, hitem⟩
              · cases panic <;> cases hgoes.symm.trans hfate
        · exact .inl (hsame (.inr ⟨next, hold, hending, rfl⟩))

/-- The registry stays what it is, or a task has asked it and is at its end now. -/
theorem compared_of_transition
    (h : Transition s action t)
    (standing : Standing s) :
    t.registry = s.registry ∨ ∃ task ∈ s.tasks, ∃ next ∈ t.tasks,
      next.phase = s.endingPhase next.item ∧ Conclusion s task next.item (some t.registry) := by
  cases h with
  | @turns task move effect live found turn =>
      have htask := (mem_of_task? found).1
      cases hregistry : effect.registry with
      | none => exact .inl (by simp [Effect.apply, hregistry])
      | some registry =>
          obtain ⟨early, next, hfate, hending⟩ := registry_of_turn turn hregistry
          obtain ⟨hconclusion, hphase, -⟩ := conclusion_of_goesOn turn (standing.tasks task htask)
            early hfate hending
          have hsame : (effect.apply s task.number).registry = registry := by
            simp [Effect.apply, hregistry]
          refine .inr ⟨task, htask, next, ?_, hphase, ?_⟩
          · show next ∈ effect.fate.tasks task.number s.tasks
            rw [hfate]
            exact mem_tasks_goesOn htask
          · rw [hsame, ← hregistry]
            exact hconclusion
  | _ => exact .inl rfl

/-- Without a fault, an item that is done stays what it is, apart from the place of its record. -/
theorem done_again
    (h : Transition s action t)
    (numbered : Numbered s)
    (fatal : t.fatal = none)
    (stage : t.stage ≠ .unwound)
    (done : Done s item) :
    ∃ location, Done t { item with location } := by
  have hsame : Done t item → ∃ location, Done t { item with location } :=
    fun hdone => ⟨item.location, hdone⟩
  rcases done with hfinished | ⟨task, htask, hending, rfl⟩
  · exact hsame (.inl (finished_of_transition h hfinished))
  · cases h with
    | advances | cancels | skips | takesPermit | flushes | leaves | closes | closesNot =>
        exact hsame (.inr ⟨task, htask, hending, rfl⟩)
    | breaksInSkip => exact absurd rfl stage
    | spawns => exact hsame (.inr ⟨task, List.mem_append_left _ htask, hending, rfl⟩)
    | @turns turning move effect live found turn =>
        have hturning := (mem_of_task? found).1
        by_cases hnumber : task.number = turning.number
        · cases eq_of_number numbered.distinct hturning htask hnumber
          rcases fate_of_closing (closing_of_turn turn hending) with
            ⟨next, location, hfate, hphase, hitem, -⟩ | ⟨-, panic, hfate, hfaults⟩
          · refine ⟨location, .inr ⟨next, ?_, isEnding_of_isWritten hphase, hitem⟩⟩
            show next ∈ effect.fate.tasks task.number s.tasks
            rw [hfate]
            exact mem_tasks_goesOn htask
          · have hcalm := hfaults.symm.trans (fatal_of_faulted (s := s) fatal).2
            cases panic with
            | some message => cases hcalm
            | none =>
                refine hsame (.inl (List.mem_append_right _ ?_))
                rw [hfate]
                exact List.mem_singleton.mpr rfl
        · exact hsame (.inr ⟨task, mem_tasks_of_ne effect.fate htask hnumber, hending, rfl⟩)

theorem standing_opened
    {setup : Setup} {items : List Item} {checkpoint : Checkpoint} {throttle : Throttle}
    {registry : Registry} {monitor : Monitor} {clock : Nat}
    (pending : ∀ item ∈ items, item.status = .pending) :
    Standing (.opened setup items checkpoint throttle registry monitor clock) where
  waiting item hmem := by
    rw [opened_waiting] at hmem
    exact pending item (List.mem_filter.mp hmem).1
  tasks _ htask := absurd htask List.not_mem_nil
  finished _ hmem := absurd hmem List.not_mem_nil
  halts h := by cases h

end Steps

end Run
end BatchRun
