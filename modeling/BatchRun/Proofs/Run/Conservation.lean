import BatchRun.Job.Outcome
import BatchRun.Proofs.Item.Moves
import BatchRun.Proofs.Run.Transition
import Mathlib.Data.List.Sort

/-!
# Conservation of items

**Invariant.**
As long as no fault has halted a run, the items that wait, those of the tasks, and the finished
ones together are the items that the run began with (`Conserved`); an item whose task is at its
end is terminal, and so is a finished one.  None of them counts as taken over (`Accounted`).

**Results.**
* `kept_of_transition`: each item has the origin of one that was there before the step.
* `accounted_of_reaches`: the invariant holds in every state.
* `origins_of_drained`: where nothing waits and there are no tasks, all items are taken over or
  finished.
* `returned_complete`: what a run returns is a rearrangement of its items, all of them terminal,
  with counts that add up; one item at a time, the order is that of the source.
-/

namespace BatchRun
namespace Run

/-- Items that were not taken over from an earlier run. -/
def State.own (s : State) : List Item := s.finished ++ s.tasks.map Task.item ++ s.waiting

/-- A run keeps the items that it began with in a state. -/
structure Conserved (first s : State) : Prop where
  setup : s.setup = first.setup
  restored : s.restored = first.restored
  origins : s.fatal = none → s.stage ≠ .unwound →
    (s.own.map Item.origin).Perm (first.waiting.map Item.origin)
  finished : s.fatal = none → ∀ item ∈ s.finished, item.isTerminal = true
  ending : s.fatal = none → ∀ task ∈ s.tasks, task.phase.isEnding = true →
    task.item.isTerminal = true

/-- It keeps them, and none of its own items was taken over from an earlier run. -/
structure Accounted (first s : State) : Prop extends Conserved first s where
  fresh : ∀ item ∈ s.own, item.resumed = false

theorem mem_own
    {s : State} {item : Item} :
    item ∈ s.own ↔
      item ∈ s.finished ∨ (∃ task ∈ s.tasks, task.item = item) ∨ item ∈ s.waiting := by
  simp [State.own]

section Turns

variable {s : State} {task next : Task} {item : Item} {move : Move} {effect : Effect}

theorem fatal_of_faulted
    {faults : List RunFault}
    (h : (s.faulted faults).fatal = none) :
    s.fatal = none ∧ faults = [] := by
  obtain ⟨hfatal, hfaults⟩ := Option.or_eq_none_iff.mp h
  exact ⟨hfatal, List.head?_eq_none_iff.mp hfaults⟩

/-- What a turn leaves of an item. -/
structure Kept (before after : Item) : Prop where
  origin : after.origin = before.origin
  resumed : after.resumed = before.resumed

/-- A move to a last status keeps the origin, whatever else it writes down. -/
theorem kept_of_move
    {now : Time.Timestamp} {moved : Except RejectedMove Item}
    (target : Status)
    (note : Item → Item)
    (same : ∀ item, Kept item (note item) ∧ (note item).status = item.status)
    (last : target.isTerminal = true)
    (h : (item.moveTo target now).map note = moved) :
    Kept item (settled item moved) ∧
      (moveFaults moved = [] → (settled item moved).isTerminal = true) := by
  cases moved with
  | error rejected => exact ⟨⟨rfl, rfl⟩, fun h => by cases h⟩
  | ok after =>
      obtain ⟨-, rfl⟩ := Item.map_moveTo_eq_ok h
      obtain ⟨_, _, _, hmoved⟩ := Item.moved_eq item target now
      obtain ⟨⟨horigin, hresumed⟩, hstatus⟩ := same (item.moved target now)
      refine ⟨⟨horigin.trans (Item.origin_moved target), hresumed.trans ?_⟩, fun _ => ?_⟩
      · rw [hmoved]
      · rw [settled, Item.isTerminal, hstatus, hmoved]
        exact last

theorem kept_of_skip
    {reason : SkipReason} {now : Time.Timestamp} {moved : Except RejectedMove Item}
    (h : item.skip reason now = moved) :
    Kept item (settled item moved) ∧
      (moveFaults moved = [] → (settled item moved).isTerminal = true) :=
  kept_of_move .skipped (fun item => { item with skipReason := some reason })
    (fun _ => ⟨⟨rfl, rfl⟩, rfl⟩) rfl h

theorem kept_of_fail
    {failure : ItemFailure} {now : Time.Timestamp} {moved : Except RejectedMove Item}
    (h : item.fail failure now = moved) :
    Kept item (settled item moved) ∧
      (moveFaults moved = [] → (settled item moved).isTerminal = true) :=
  kept_of_move .failed (fun item => { item with failure := some failure })
    (fun _ => ⟨⟨rfl, rfl⟩, rfl⟩) rfl h

theorem kept_of_succeed
    {result : Json} {now : Time.Timestamp} {moved : Except RejectedMove Item}
    (h : item.succeed result now = moved) :
    Kept item (settled item moved) ∧
      (moveFaults moved = [] → (settled item moved).isTerminal = true) :=
  kept_of_move .success (fun item => { item with result := some result })
    (fun _ => ⟨⟨rfl, rfl⟩, rfl⟩) rfl h

theorem kept_of_compares
    {result : Json} {registry : Option Registry} {moved : Except RejectedMove Item}
    (h : Compares s task result registry moved) :
    Kept task.item (settled task.item moved) ∧
      (moveFaults moved = [] → (settled task.item moved).isTerminal = true) := by
  cases h with
  | unchecked | first => exact kept_of_succeed rfl
  | duplicate => exact kept_of_skip rfl

theorem kept_of_attempt
    (h : task.item.start s.stamp = .ok item) :
    Kept task.item item.beginAttempt := by
  obtain ⟨_, _, _, rfl⟩ := Item.start_eq_ok h
  exact ⟨rfl, rfl⟩

/-- A task that goes on keeps the origin of its item. -/
theorem kept_of_goesOn
    (turn : Turn s task move effect)
    (h : effect.fate = .goesOn next) :
    Kept task.item next.item := by
  cases turn with
  | turnsAway panic => cases panic <;> cases h
  | rejects | breaksAtStart | breaksInSample | breaksInRetry => cases h
  | starts admits start => cases h; exact kept_of_attempt start
  | fails panic samples last fail => cases h; exact (kept_of_fail fail).1
  | interrupts stops skip => cases h; exact (kept_of_skip skip).1
  | completes panic phase compares => cases h; exact (kept_of_compares compares).1
  | closes closing =>
      cases closing with
      | finishes panic => cases panic <;> cases h
      | _ => cases h; exact ⟨rfl, rfl⟩
  | _ => cases h; exact ⟨rfl, rfl⟩

/-- A task that files its item keeps the item's origin. -/
theorem kept_of_files
    (turn : Turn s task move effect)
    (h : effect.fate = .files item) :
    Kept task.item item := by
  cases turn with
  | turnsAway panic phase stop skip =>
      cases panic <;> cases h
      exact (kept_of_skip skip).1
  | rejects => cases h; exact ⟨rfl, rfl⟩
  | closes closing =>
      cases closing with
      | finishes panic =>
          cases panic <;> cases h
          exact ⟨rfl, rfl⟩
      | _ => cases h
  | _ => cases h

/-- An item is lost only by a fault. -/
theorem faults_of_loses
    (turn : Turn s task move effect)
    (h : effect.fate = .loses) :
    effect.faults ≠ [] := by
  cases turn with
  | turnsAway panic =>
      cases panic <;> cases h
      simp
  | breaksAtStart | breaksInSample | breaksInRetry => simp
  | closes closing =>
      cases closing with
      | finishes panic =>
          cases panic <;> cases h
          simp
      | _ => cases h
  | _ => cases h

/-- Without a fault a task reaches its end with a terminal item. -/
theorem terminal_of_goesOn
    (turn : Turn s task move effect)
    (h : effect.fate = .goesOn next)
    (faults : effect.faults = [])
    (before : task.phase.isEnding = true → task.item.isTerminal = true)
    (ending : next.phase.isEnding = true) :
    next.item.isTerminal = true := by
  cases turn with
  | turnsAway panic => cases panic <;> cases h
  | rejects | breaksAtStart | breaksInSample | breaksInRetry => cases h
  | waits | starts | answers | succeeds | pauses | rewaits | recalls | recallsAfterWait =>
      cases h
      cases ending
  | fails panic samples last fail => cases h; exact (kept_of_fail fail).2 faults
  | interrupts stops skip => cases h; exact (kept_of_skip skip).2 faults
  | completes panic phase compares => cases h; exact (kept_of_compares compares).2 faults
  | closes closing =>
      have hitem := before (isEnding_of_closing closing)
      cases closing with
      | finishes panic => cases panic <;> cases h
      | persistsNot | savesNot => cases faults
      | _ => cases h; exact hitem

/-- Without a fault a task files a terminal item. -/
theorem terminal_of_files
    (turn : Turn s task move effect)
    (h : effect.fate = .files item)
    (faults : effect.faults = [])
    (before : task.phase.isEnding = true → task.item.isTerminal = true) :
    item.isTerminal = true := by
  cases turn with
  | turnsAway panic phase stop skip =>
      cases panic <;> cases h
      exact (kept_of_skip skip).2 (List.append_eq_nil_iff.mp faults).1
  | rejects => cases faults
  | closes closing =>
      have hitem := before (isEnding_of_closing closing)
      cases closing with
      | finishes panic =>
          cases panic <;> cases h
          exact hitem
      | _ => cases h
  | _ => cases h

end Turns

section Preservation

variable {first s t : State} {action : Action}

theorem own_apply_perm
    {task : Task} {move : Move} {effect : Effect}
    (distinct : (s.tasks.map Task.number).Nodup)
    (htask : task ∈ s.tasks)
    (turn : Turn s task move effect)
    (faults : effect.faults = []) :
    ((effect.apply s task.number).own.map Item.origin).Perm (s.own.map Item.origin) := by
  have htasks : (effect.apply s task.number).tasks = effect.fate.tasks task.number s.tasks := rfl
  have hfinished : (effect.apply s task.number).finished = s.finished ++ effect.fate.filed := rfl
  have hwaiting : (effect.apply s task.number).waiting = s.waiting := rfl
  unfold State.own
  rw [htasks, hfinished, hwaiting]
  cases hfate : effect.fate with
  | goesOn next =>
      have hsame := map_goesOn (f := fun other => other.item.origin) distinct htask
        (kept_of_goesOn turn hfate).origin
      simp only [List.map_append, List.map_map, Fate.filed, List.append_nil, Function.comp_def]
      rw [hsame]
  | files item =>
      have horigin := (kept_of_files turn hfate).origin
      have hperm := (perm_filter distinct htask).map (fun other => other.item.origin)
      simp only [List.map_append, List.map_map, Fate.filed, Fate.tasks, Function.comp_def,
        List.map_cons, horigin, List.append_assoc, List.cons_append,
        List.nil_append] at hperm ⊢
      exact ((hperm.symm.append_right _).append_left _)
  | loses => exact absurd faults (faults_of_loses turn hfate)

theorem conserved_of_turn
    {task : Task} {move : Move} {effect : Effect}
    (numbered : Numbered s)
    (htask : task ∈ s.tasks)
    (turn : Turn s task move effect)
    (conserved : Conserved first s) :
    Conserved first (effect.apply s task.number) where
  setup := conserved.setup
  restored := conserved.restored
  origins hfatal hstage := by
    obtain ⟨hbefore, hfaults⟩ := fatal_of_faulted (s := s) hfatal
    exact (own_apply_perm numbered.distinct htask turn hfaults).trans
      (conserved.origins hbefore hstage)
  finished hfatal item hmem := by
    obtain ⟨hbefore, hfaults⟩ := fatal_of_faulted (s := s) hfatal
    rcases List.mem_append.mp hmem with hold | hnew
    · exact conserved.finished hbefore item hold
    · cases hfate : effect.fate with
      | goesOn next => rw [hfate] at hnew; cases hnew
      | loses => rw [hfate] at hnew; cases hnew
      | files filed =>
          rw [hfate] at hnew
          rw [List.mem_singleton.mp hnew]
          exact terminal_of_files turn hfate hfaults (conserved.ending hbefore task htask)
  ending hfatal other hother hending := by
    obtain ⟨hbefore, hfaults⟩ := fatal_of_faulted (s := s) hfatal
    rcases mem_tasks hother with hnext | ⟨hold, -⟩
    · exact terminal_of_goesOn turn hnext hfaults (conserved.ending hbefore task htask) hending
    · exact conserved.ending hbefore other hold hending

/-- The invariant speaks only of some parts of a run. -/
theorem Conserved.frame
    (conserved : Conserved first s)
    (setup : t.setup = s.setup)
    (restored : t.restored = s.restored)
    (own : t.own = s.own)
    (finished : t.finished = s.finished)
    (tasks : t.tasks = s.tasks)
    (fatal : t.fatal = none → s.fatal = none)
    (stage : s.stage ≠ .unwound) :
    Conserved first t where
  setup := setup.trans conserved.setup
  restored := restored.trans conserved.restored
  origins hfatal _ := own ▸ conserved.origins (fatal hfatal) stage
  finished hfatal := finished ▸ conserved.finished (fatal hfatal)
  ending hfatal := tasks ▸ conserved.ending (fatal hfatal)

theorem conserved_of_skip
    {item : Item} {rest : List Item} {moved : Except RejectedMove Item}
    (stage : s.stage = .dispatching)
    (waiting : s.waiting = item :: rest)
    (skip : item.skip s.skipReason s.stamp = moved)
    (conserved : Conserved first s) :
    Conserved first
      { (s.faulted (moveFaults moved)).seen [.finished (settled item moved)] with
        waiting := rest
        finished := s.finished ++ [settled item moved] } where
  setup := conserved.setup
  restored := conserved.restored
  origins hfatal _ := by
    obtain ⟨hbefore, -⟩ := fatal_of_faulted (s := s) hfatal
    have hperm := conserved.origins hbefore (by simp [stage])
    refine List.Perm.trans ?_ hperm
    have horigin := (kept_of_skip skip).1.origin
    simp only [State.own, State.seen, State.faulted, waiting, List.map_append, List.map_cons,
      horigin, List.append_assoc, List.cons_append, List.nil_append]
    exact List.perm_middle.symm.append_left _
  finished hfatal other hmem := by
    obtain ⟨hbefore, hfaults⟩ := fatal_of_faulted (s := s) hfatal
    rcases List.mem_append.mp hmem with hold | hnew
    · exact conserved.finished hbefore other hold
    · rw [List.mem_singleton.mp hnew]
      exact (kept_of_skip skip).2 hfaults
  ending hfatal := conserved.ending (fatal_of_faulted (s := s) hfatal).1

theorem own_of_spawn
    {item : Item} {rest : List Item}
    (waiting : s.waiting = item :: rest) :
    State.own
      { s with
        waiting := rest
        holding := false
        tasks := s.tasks ++ [{ number := s.dispatched, item }]
        dispatched := s.dispatched + 1 } = s.own := by
  simp [State.own, waiting]

theorem conserved_of_spawn
    {item : Item} {rest : List Item}
    (stage : s.stage = .dispatching)
    (waiting : s.waiting = item :: rest)
    (conserved : Conserved first s) :
    Conserved first
      { s with
        waiting := rest
        holding := false
        tasks := s.tasks ++ [{ number := s.dispatched, item }]
        dispatched := s.dispatched + 1 } := by
  refine ⟨conserved.setup, conserved.restored, fun hfatal _ => ?_, conserved.finished,
    fun hfatal task hmem ending => ?_⟩
  · rw [own_of_spawn waiting]
    exact conserved.origins hfatal (by simp [stage])
  · rcases List.mem_append.mp hmem with hold | hnew
    · exact conserved.ending hfatal task hold ending
    · rw [List.mem_singleton.mp hnew] at ending
      cases ending

theorem conserved_of_transition
    (h : Transition s action t)
    (numbered : Numbered s)
    (conserved : Conserved first s) :
    Conserved first t := by
  have hstage := stage_ne_unwound (live_of_transition h)
  cases h with
  | turns live found turn =>
      exact conserved_of_turn numbered (mem_of_task? found).1 turn conserved
  | advances | cancels | takesPermit | flushes | leaves | closes =>
      exact conserved.frame rfl rfl rfl rfl rfl id hstage
  | closesNot =>
      exact conserved.frame rfl rfl rfl rfl rfl (fun h => (fatal_of_faulted (s := s) h).1) hstage
  | skips stage waiting stop idle empty skip => exact conserved_of_skip stage waiting skip conserved
  | breaksInSkip =>
      refine ⟨conserved.setup, conserved.restored, fun _ hwound => absurd rfl hwound,
        fun hfatal => conserved.finished (fatal_of_faulted (s := s) hfatal).1,
        fun _ _ hmem => absurd hmem (by simp)⟩
  | spawns stage waiting holds => exact conserved_of_spawn stage waiting conserved

/-- Each item has the origin of one that was there before the step. -/
theorem kept_of_transition
    {item : Item}
    (h : Transition s action t)
    (hitem : item ∈ t.own) :
    ∃ before ∈ s.own, Kept before item := by
  have hsame : item ∈ s.own → ∃ before ∈ s.own, Kept before item :=
    fun hmem => ⟨item, hmem, rfl, rfl⟩
  cases h with
  | advances | cancels | takesPermit | flushes | leaves | closes | closesNot => exact hsame hitem
  | spawns _ waiting => exact hsame (own_of_spawn waiting ▸ hitem)
  | @skips next rest _ _ waiting _ _ _ skip =>
      have hnext : next ∈ s.own := mem_own.mpr (.inr (.inr (by simp [waiting])))
      rcases mem_own.mp hitem with hfinished | htasks | hwaiting
      · rcases List.mem_append.mp hfinished with hold | hnew
        · exact hsame (mem_own.mpr (.inl hold))
        · cases List.mem_singleton.mp hnew
          exact ⟨next, hnext, (kept_of_skip skip).1⟩
      · exact hsame (mem_own.mpr (.inr (.inl htasks)))
      · exact hsame
          (mem_own.mpr (.inr (.inr (waiting ▸ List.mem_cons_of_mem next hwaiting))))
  | @breaksInSkip next rest _ _ _ waiting =>
      rcases mem_own.mp hitem with hfinished | ⟨task, htask, -⟩ | hwaiting
      · exact hsame (mem_own.mpr (.inl hfinished))
      · cases htask
      · exact hsame
          (mem_own.mpr (.inr (.inr (waiting ▸ List.mem_cons_of_mem next hwaiting))))
  | @turns task move effect live found turn =>
      have hown : task.item ∈ s.own :=
        mem_own.mpr (.inr (.inl ⟨task, (mem_of_task? found).1, rfl⟩))
      rcases mem_own.mp hitem with hfinished | ⟨other, hother, rfl⟩ | hwaiting
      · rcases List.mem_append.mp hfinished with hold | hnew
        · exact hsame (mem_own.mpr (.inl hold))
        · cases hfate : effect.fate with
          | goesOn next => rw [hfate] at hnew; cases hnew
          | loses => rw [hfate] at hnew; cases hnew
          | files filed =>
              rw [hfate] at hnew
              cases List.mem_singleton.mp hnew
              exact ⟨task.item, hown, kept_of_files turn hfate⟩
      · rcases mem_tasks hother with hfate | ⟨hold, -⟩
        · exact ⟨task.item, hown, kept_of_goesOn turn hfate⟩
        · exact hsame (mem_own.mpr (.inr (.inl ⟨other, hold, rfl⟩)))
      · exact hsame (mem_own.mpr (.inr (.inr hwaiting)))

theorem fresh_of_transition
    (h : Transition s action t)
    (fresh : ∀ item ∈ s.own, item.resumed = false) :
    ∀ item ∈ t.own, item.resumed = false := by
  intro item hitem
  obtain ⟨before, hbefore, hkept⟩ := kept_of_transition h hitem
  exact hkept.resumed.trans (fresh before hbefore)

theorem accounted_of_transition
    (h : Transition s action t)
    (numbered : Numbered s)
    (accounted : Accounted first s) :
    Accounted first t :=
  ⟨conserved_of_transition h numbered accounted.toConserved,
    fresh_of_transition h accounted.fresh⟩

end Preservation

section Opening

variable {setup : Setup} {items : List Item} {checkpoint : Checkpoint} {throttle : Throttle}
  {registry : Registry} {monitor : Monitor} {clock : Nat} {first : State}

/-- Whether an item is taken over from an earlier run. -/
def Setup.resumes (setup : Setup) (checkpoint : Checkpoint) (item : Item) : Bool :=
  setup.hasStore && checkpoint.contains item.id

theorem opened_restored :
    (State.opened setup items checkpoint throttle registry monitor clock).restored =
      (items.filter (setup.resumes checkpoint)).map
        (checkpoint.restored · (.ofMillis clock)) := by
  unfold State.opened Setup.resumes
  cases setup.hasStore <;> simp [State.log, Checkpoint.plan]

theorem stage_opened :
    (State.opened setup items checkpoint throttle registry monitor clock).stage =
      if unboundedPermits ≤ setup.settings.slots then .unwound else .dispatching :=
  rfl

theorem opened_waiting :
    (State.opened setup items checkpoint throttle registry monitor clock).waiting =
      items.filter fun item => !setup.resumes checkpoint item := by
  unfold State.opened Setup.resumes
  cases setup.hasStore <;> simp [State.log, Checkpoint.plan]

theorem initial?_eq_ok
    (h : setup.settings.fault? = none) :
    State.initial? setup items (.ok checkpoint) throttle registry monitor clock
      = .ok (.opened setup items checkpoint throttle registry monitor clock) := by
  simp [State.initial?, h]

theorem opened_of_initial?
    {saved : Except CheckpointFault Checkpoint}
    (h : State.initial? setup items saved throttle registry monitor clock = .ok first) :
    ∃ checkpoint, saved = .ok checkpoint ∧ setup.settings.fault? = none ∧
      first = State.opened setup items checkpoint throttle registry monitor clock := by
  unfold State.initial? at h
  split at h
  case h_1 => cases h
  case h_2 => cases h
  case h_3 checkpoint hsettings =>
      cases h
      exact ⟨checkpoint, rfl, hsettings, rfl⟩

/-- A restored item is terminal, and only what belongs to its new status has changed. -/
theorem restored_spec
    (checkpoint : Checkpoint)
    (item : Item)
    (now : Time.Timestamp) :
    (checkpoint.restored item now).origin = item.origin ∧
      (checkpoint.restored item now).resumed = true ∧
      (checkpoint.restored item now).isTerminal = true := by
  have hrestore : ∀ status location,
      (item.restore status location now).origin = item.origin ∧
        (item.restore status location now).resumed = true ∧
        (item.restore status location now).isTerminal = true := by
    intro status location
    refine ⟨rfl, rfl, ?_⟩
    cases status <;> rfl
  unfold Checkpoint.restored
  split
  case h_1 pointer _ => exact hrestore pointer.status pointer.location
  case h_2 => exact hrestore .skipped none

/-- Only an item that is restored as skipped gets a reason. -/
theorem skipReason_restored
    (checkpoint : Checkpoint)
    (item : Item)
    (now : Time.Timestamp) :
    (checkpoint.restored item now).skipReason =
      if (checkpoint.restored item now).status = .skipped then some .resumed
      else item.skipReason := by
  unfold Checkpoint.restored
  cases checkpoint.pointer? item.id with
  | none | some pointer => rfl

theorem numbered_opened :
    Numbered (State.opened setup items checkpoint throttle registry monitor clock) :=
  ⟨List.nodup_nil, fun _ htask => absurd htask List.not_mem_nil⟩

theorem staged_opened :
    Staged (State.opened setup items checkpoint throttle registry monitor clock) := by
  constructor
  · intro hdispatching hunwound
    rw [stage_opened] at hdispatching hunwound
    split at hdispatching
    case isTrue h => exact absurd (if_pos h) hunwound
    case isFalse => exact absurd rfl hdispatching
  · intro result hreturned
    rw [stage_opened] at hreturned
    split at hreturned <;> cases hreturned

theorem conserved_opened :
    Conserved (State.opened setup items checkpoint throttle registry monitor clock)
      (State.opened setup items checkpoint throttle registry monitor clock) where
  setup := rfl
  restored := rfl
  origins _ _ := by
    simp [State.own, State.opened, State.log]
  finished _ item hmem := absurd hmem List.not_mem_nil
  ending _ _ hmem := absurd hmem List.not_mem_nil

theorem accounted_opened
    (fresh : ∀ item ∈ items, item.resumed = false) :
    Accounted (State.opened setup items checkpoint throttle registry monitor clock)
      (State.opened setup items checkpoint throttle registry monitor clock) where
  toConserved := conserved_opened
  fresh item hmem := by
    rcases mem_own.mp hmem with hfinished | ⟨task, htask, -⟩ | hwaiting
    · cases hfinished
    · cases htask
    · rw [opened_waiting] at hwaiting
      exact fresh item (List.mem_filter.mp hwaiting).1

end Opening

section Returning

variable {setup : Setup} {items : List Item} {checkpoint : Checkpoint} {throttle : Throttle}
  {registry : Registry} {monitor : Monitor} {clock : Nat} {first last : State}
  {result : Returned}

theorem accounted_of_reaches
    (numbered : Numbered first)
    (accounted : Accounted first first)
    (run : Reaches first last) :
    Accounted first last := by
  have hboth := run.invariant (P := fun s => Numbered s ∧ Accounted first s)
    (fun h both => ⟨numbered_of_transition h both.1, accounted_of_transition h both.1 both.2⟩)
    ⟨numbered, accounted⟩
  exact hboth.2

theorem allItems_perm (s : State) : s.allItems.Perm (s.restored ++ s.finished) := by
  unfold State.allItems
  cases s.settings.mode with
  | parallel => exact .refl _
  | sequential => exact List.mergeSort_perm _ _

/-- Only one arrangement of items is in the order of their positions. -/
theorem map_origin_eq
    {a b : List Item}
    (perm : (a.map Item.origin).Perm (b.map Item.origin))
    (ha : a.Pairwise fun x y => x.position ≤ y.position)
    (hb : b.Pairwise fun x y => x.position < y.position) :
    a.map Item.origin = b.map Item.origin := by
  have hleft : (a.map Item.origin).Pairwise fun x y => x.2.1 ≤ y.2.1 :=
    List.pairwise_map.mpr ha
  have hsorted : (b.map Item.origin).Pairwise fun x y => x.2.1 < y.2.1 :=
    List.pairwise_map.mpr hb
  refine List.Perm.eq_of_pairwise (fun x y hx hy hxy hyx => ?_) hleft (hsorted.imp Nat.le_of_lt)
    perm
  have hposition : x.2.1 = y.2.1 := Nat.le_antisymm hxy hyx
  have hinjective : ((b.map Item.origin).map fun x => x.2.1).Nodup :=
    List.pairwise_map.mpr (hsorted.imp Nat.ne_of_lt)
  exact List.inj_on_of_nodup_map hinjective (perm.mem_iff.mp hx) hy hposition

theorem pairwise_allItems
    {s : State}
    (mode : s.settings.mode = .sequential) :
    s.allItems.Pairwise fun x y => x.position ≤ y.position := by
  unfold State.allItems
  rw [mode]
  let le : Item → Item → Bool := fun x y => x.position ≤ y.position
  have htrans : ∀ x y z, le x y = true → le y z = true → le x z = true := by
    intro x y z hxy hyz
    exact decide_eq_true (Nat.le_trans (of_decide_eq_true hxy) (of_decide_eq_true hyz))
  have htotal : ∀ x y, (le x y || le y x) = true := by
    intro x y
    simpa [le] using Nat.le_total x.position y.position
  exact (List.pairwise_mergeSort htrans htotal (s.restored ++ s.finished)).imp of_decide_eq_true

/-- Terminal items are those that succeeded, failed, or were skipped. -/
theorem count_terminal
    {items : List Item}
    (terminal : ∀ item ∈ items, item.isTerminal = true) :
    JobOutcome.countStatus .success items + JobOutcome.countStatus .failed items
      + JobOutcome.countStatus .skipped items = items.length := by
  unfold JobOutcome.countStatus
  induction items with
  | nil => rfl
  | cons item items ih =>
      have hitem := terminal item List.mem_cons_self
      have hitems := ih fun other hother => terminal other (List.mem_cons_of_mem item hother)
      simp only [List.countP_cons, List.length_cons]
      cases hstatus : item.status with
      | pending | processing => rw [Item.isTerminal, hstatus] at hitem; cases hitem
      | success | failed | skipped =>
          simp
          omega

/-- What the outcome of a run says of the items that it began with. -/
structure Complete (setup : Setup) (items : List Item) (checkpoint : Checkpoint)
    (outcome : JobOutcome) : Prop where
  origins : (outcome.items.map Item.origin).Perm (items.map Item.origin)
  terminal : ∀ item ∈ outcome.items, item.isTerminal = true
  counts : outcome.succeeded + outcome.failed + outcome.skipped = outcome.total
  total : outcome.total = items.length
  resumed : outcome.resumed = items.countP (setup.resumes checkpoint)
  order : setup.settings.mode = .sequential →
    (items.Pairwise fun x y => x.position < y.position) →
    outcome.items.map Item.origin = items.map Item.origin

/-- Restored and finished items of a run that has nothing left to do. -/
theorem origins_of_drained
    {s : State}
    (conserved : Conserved (.opened setup items checkpoint throttle registry monitor clock) s)
    (stage : s.stage ≠ .unwound)
    (fatal : s.fatal = none)
    (drained : s.waiting = [] ∧ s.tasks = []) :
    ((s.restored ++ s.finished).map Item.origin).Perm (items.map Item.origin) := by
  have hown : s.own = s.finished := by
    simp [State.own, drained.1, drained.2]
  have hfinished := conserved.origins fatal stage
  rw [hown, opened_waiting] at hfinished
  have hrestored : s.restored.map Item.origin =
      (items.filter (setup.resumes checkpoint)).map Item.origin := by
    rw [conserved.restored, opened_restored, List.map_map]
    exact List.map_congr_left fun item _ => (restored_spec checkpoint item _).1
  rw [List.map_append, hrestored]
  refine (hfinished.append_left _).trans ?_
  rw [← List.map_append]
  exact (List.filter_append_perm (setup.resumes checkpoint) items).map Item.origin

/-- A run that returns accounts for each of its items once. -/
theorem returned_complete
    (fresh : ∀ item ∈ items, item.resumed = false)
    (opened : State.initial? setup items (.ok checkpoint) throttle registry monitor clock
      = .ok first)
    (run : Reaches first last)
    (returned : last.stage = .returned (.ok result))
    (jobId : JobId)
    (destination : String)
    (startedAt finishedAt : Time.Timestamp) :
    Complete setup items checkpoint
      (.ofItems jobId destination result.items startedAt finishedAt) := by
  obtain ⟨_, hsaved, -, rfl⟩ := opened_of_initial? opened
  cases hsaved
  have accounted := accounted_of_reaches numbered_opened (accounted_opened fresh) run
  have staged := staged_of_reaches run staged_opened
  have hstage : last.stage ≠ .unwound := by
    simp [returned]
  have drained := staged.drained (by simp [returned]) hstage
  obtain ⟨hfatal, hitems, -, -⟩ := staged.returned result returned
  have hperm : result.items.Perm (last.restored ++ last.finished) := hitems ▸ allItems_perm last
  have horigins : (result.items.map Item.origin).Perm (items.map Item.origin) :=
    (hperm.map Item.origin).trans (origins_of_drained accounted.toConserved hstage hfatal drained)
  have hrestored : last.restored = (items.filter (setup.resumes checkpoint)).map
      (checkpoint.restored · (.ofMillis clock)) := accounted.restored.trans opened_restored
  have hterminal : ∀ item ∈ result.items, item.isTerminal = true := by
    intro item hmem
    rcases List.mem_append.mp (hperm.mem_iff.mp hmem) with hold | hnew
    · rw [hrestored] at hold
      obtain ⟨before, -, rfl⟩ := List.mem_map.mp hold
      exact (restored_spec checkpoint before _).2.2
    · exact accounted.finished hfatal item hnew
  refine ⟨horigins, hterminal, count_terminal hterminal, ?_, ?_, fun hmode hitems' => ?_⟩
  · show result.items.length = items.length
    simpa using horigins.length_eq
  · show result.items.countP Item.resumed = _
    have hnew : last.finished.countP Item.resumed = 0 := by
      refine List.countP_eq_zero.mpr fun item hmem => ?_
      simp [accounted.fresh item (mem_own.mpr (.inl hmem))]
    have hold : last.restored.countP Item.resumed = last.restored.length := by
      refine List.countP_eq_length.mpr fun item hmem => ?_
      rw [hrestored] at hmem
      obtain ⟨before, -, rfl⟩ := List.mem_map.mp hmem
      exact (restored_spec checkpoint before _).2.1
    rw [hperm.countP_eq, List.countP_append, hnew, hold, hrestored, List.length_map,
      List.countP_eq_length_filter, Nat.add_zero]
  · have hmode' : last.settings.mode = .sequential := by
      rw [State.settings, accounted.setup]
      exact hmode
    exact map_origin_eq horigins (hitems ▸ pairwise_allItems hmode') hitems'

/-- One item at a time, with a checkpoint. -/
def oneByOne : Setup where
  settings := { mode := .sequential }
  hasSink := true
  hasStore := true

/-- Two items. -/
def twoItems : List Item :=
  [{ id := "1", position := 0, payload := .null }, { id := "2", position := 1, payload := .null }]

/-- Three items. -/
def threeItems : List Item := twoItems ++ [{ id := "3", position := 2, payload := .null }]

/-- Steps that process one item and write its record. -/
def processesOne : List Action :=
  [.takePermit, .spawn, .task 0 (.resume none), .task 0 (.reply (.value .null)),
    .task 0 (.resume none), .task 0 (.resume none), .task 0 (.persist (.ok "results.jsonl:1")),
    .task 0 (.resume none), .task 0 (.resume none), .flush, .close none]

/-- The second of two items is taken over, and the outcome still lists it last. -/
theorem returned_complete_of_second_resumed :
    ∃ last result, Reaches (.opened oneByOne twoItems { completed := ["2"] } {} {} {} 0) last ∧
      last.stage = .returned (.ok result) ∧
      Complete oneByOne twoItems { completed := ["2"] }
        (.ofItems ⟨0⟩ "default" result.items (.ofMillis 0) (.ofMillis 0)) := by
  have hends : ((State.follow? (.opened oneByOne twoItems { completed := ["2"] } {} {} {} 0)
      processesOne).bind State.returned?).isSome = true := by
    decide +kernel
  obtain ⟨last, result, run, returned⟩ := returns_of_follow? hends
  exact ⟨last, result, run, returned,
    returned_complete (by simp [twoItems]) (initial?_eq_ok (by decide +kernel)) run returned
      _ _ _ _⟩

end Returning

end Run
end BatchRun
