import BatchRun.Proofs.Run.Ownership

/-!
# Originals of duplicates

The record of a duplicate holds no result: the only copy is in the record of its original, which
may be written later, or not at all.

**Types.**
The original of a duplicate is `Recorded` once its record as a success was written.
`State.unrecorded` are the items whose records were to be written and will not be: the write has
failed, or an observer has broken off the dispatcher before it ended.

**Invariant.**
The record of each owner of a result was written, is being written, or is one of those that will
not be, and only one of these (`Traced`).

**Results.**
* `traced_of_transition`: each step keeps the invariant.
* `originals_of_follow?`: the original of a duplicate that the checkpoint lists is recorded if and
  only if its record is neither being written nor one of those that will not be; in a run that
  returns, every original is recorded.
-/

namespace BatchRun
namespace Run

/-- The record of an item that has succeeded was written. -/
def Recorded (events : List (Nat × Event)) (id : String) : Prop :=
  ∃ tick item, (tick, .persisted item) ∈ events ∧ item.id = id ∧ item.status = .success

/-- The record of an item that has succeeded is being written. -/
def Recording (s : State) (id : String) : Prop :=
  ∃ task ∈ s.tasks, task.phase = .persisting ∧ task.item.id = id ∧ task.item.status = .success

/-- Where the records of the owners are, if some items were refused theirs. -/
structure Traced (s : State) (refused : List String) : Prop where
  sink : s.setup.hasSink = true
  numbered : Numbered s
  standing : Standing s
  owned : Owned s
  owners : ∀ digest owner, s.registry.owner? digest = some owner →
    Recorded s.events owner ∨ Recording s owner ∨ owner ∈ refused
  duplicates : ∀ tick item firstId, (tick, .persisted item) ∈ s.events →
    item.status = .skipped → item.skipReason = some (.duplicate firstId) →
    ∃ digest, s.registry.owner? digest = some firstId
  once : ∀ id, (s.pledged ++ refused).count id ≤ 1
  /-- Only a fault refuses a record. -/
  faults : refused = [] ∨ s.fatal ≠ none ∨ s.stage = .unwound

section Steps

variable {s t : State} {action : Action} {id : String} {refused : List String}

theorem recorded_of_transition
    (h : Transition s action t)
    (recorded : Recorded s.events id) :
    Recorded t.events id := by
  obtain ⟨new, hevents⟩ := events_of_transition h
  obtain ⟨tick, item, hmem, hid, hstatus⟩ := recorded
  exact ⟨tick, item, hevents ▸ List.mem_append_right new hmem, hid, hstatus⟩

/-- The record of a success is written, goes on being written, or will not be written. -/
theorem recording_of_transition
    (h : Transition s action t)
    (numbered : Numbered s)
    (recording : Recording s id) :
    Recorded t.events id ∨ Recording t id ∨ id ∈ s.unrecordedBy action := by
  obtain ⟨task, htask, hphase, rfl, hstatus⟩ := recording
  cases h with
  | advances | cancels | skips | takesPermit | flushes | leaves | closes | closesNot =>
      exact .inr (.inl ⟨task, htask, hphase, rfl, hstatus⟩)
  | spawns => exact .inr (.inl ⟨task, List.mem_append_left _ htask, hphase, rfl, hstatus⟩)
  | breaksInSkip =>
      refine .inr (.inr (List.mem_flatMap.mpr ⟨task, htask, ?_⟩))
      simp [Task.awaited, hphase]
  | @turns turning move effect live found turn =>
      by_cases hnumber : task.number = turning.number
      · cases eq_of_number numbered.distinct (mem_of_task? found).1 htask hnumber
        cases closing_of_turn turn (by rw [hphase]; rfl) with
        | persists location =>
            exact .inl ⟨s.clock, _, List.mem_append_left _ (List.mem_singleton.mpr rfl), rfl, hstatus⟩
        | persistsNot =>
            refine .inr (.inr ?_)
            simp [State.unrecordedBy, found, Task.unrecorded, Task.awaited, hphase]
        | passes _ other | buffers _ other | flushes _ other | saves other | savesNot _ other
        | finishes _ other => cases hphase.symm.trans other
      · exact .inr (.inl ⟨task, mem_tasks_of_ne effect.fate htask hnumber, hphase, rfl, hstatus⟩)

/-- The owners of results are traced after a step. -/
theorem traced_owner
    {digest : Text.Bytes} {owner : String}
    (h : Transition s action t)
    (traced : Traced s refused)
    (owner?_eq : t.registry.owner? digest = some owner) :
    Recorded t.events owner ∨ Recording t owner ∨ owner ∈ refused ++ s.unrecordedBy action := by
  have hstays : s.registry.owner? digest = some owner →
      Recorded t.events owner ∨ Recording t owner ∨ owner ∈ refused ++ s.unrecordedBy action := by
    intro howner
    rcases traced.owners digest owner howner with hrecorded | hrecording | hrefused
    · exact .inl (recorded_of_transition h hrecorded)
    · rcases recording_of_transition h traced.numbered hrecording with
        hrecorded | hrecording | hnew
      · exact .inl hrecorded
      · exact .inr (.inl hrecording)
      · exact .inr (.inr (List.mem_append_right _ hnew))
    · exact .inr (.inr (List.mem_append_left _ hrefused))
  rcases compared_of_transition h traced.standing with
    hsame | ⟨task, htask, next, hnext, hphase, conclusion⟩
  · exact hstays (hsame ▸ owner?_eq)
  · have hrecording : next.item.isSettled = true → next.item.status = .success →
        Recording t next.item.id := by
      intro hsettled hstatus
      refine ⟨next, hnext, ?_, rfl, hstatus⟩
      rw [hphase]
      simp [State.endingPhase, hsettled, traced.sink]
    generalize t.registry = registry at conclusion owner?_eq
    generalize next.item = item at conclusion hrecording
    cases conclusion with
    | repeats _ _ record => exact hstays ((Registry.record_eq_some record).2 ▸ owner?_eq)
    | wins _ _ record =>
        rw [Registry.owner?_record record] at owner?_eq
        split at owner?_eq
        case isTrue =>
            cases owner?_eq
            exact .inr (.inl (by simpa [Item.isSettled] using hrecording))
        case isFalse => exact hstays owner?_eq

/-- A duplicate whose record is written has an owner. -/
theorem duplicate_of_persisted
    {tick : Nat} {item : Item} {firstId : String}
    (h : Transition s action t)
    (traced : Traced s refused)
    (hmem : (tick, .persisted item) ∈ t.events)
    (status : item.status = .skipped)
    (reason : item.skipReason = some (.duplicate firstId)) :
    ∃ digest, t.registry.owner? digest = some firstId := by
  have hstays : ∀ digest, s.registry.owner? digest = some firstId →
      ∃ digest, t.registry.owner? digest = some firstId :=
    fun digest howner => ⟨digest, owner?_of_transition h traced.standing howner⟩
  rcases persisted_of_transition h hmem with
    hold | ⟨task, htask, location, hphase, -, rfl, -⟩
  · obtain ⟨digest, howner⟩ := traced.duplicates tick item firstId hold status reason
    exact hstays digest howner
  · have hdone : Done s task.item := .inr ⟨task, htask, by rw [hphase]; rfl, rfl⟩
    obtain ⟨result, -, howner⟩ := traced.owned.duplicates task.item firstId hdone status reason
    exact hstays result.digest howner

/-- Records are refused only with a fault. -/
theorem fault_of_unrecorded
    (h : Transition s action t) :
    s.unrecordedBy action = [] ∨ t.fatal ≠ none ∨ t.stage = .unwound := by
  cases h with
  | @turns task move effect live found turn =>
      cases hphase : task.phase.isEnding with
      | false =>
          refine .inl ?_
          simp only [State.unrecordedBy, found]
          exact unrecorded_of_early turn hphase
      | true =>
          cases closing_of_turn turn hphase with
          | persistsNot =>
              refine .inr (.inl fun hfatal => ?_)
              cases (fatal_of_faulted (s := s) hfatal).2
          | _ => exact .inl (by simp [State.unrecordedBy, found, Task.unrecorded])
  | breaksInSkip => exact .inr (.inr rfl)
  | _ => exact .inl rfl

theorem traced_of_transition
    (h : Transition s action t)
    (traced : Traced s refused) :
    Traced t (refused ++ s.unrecordedBy action) where
  sink := (congrArg Setup.hasSink (setup_of_transition h)).trans traced.sink
  numbered := numbered_of_transition h traced.numbered
  standing := standing_of_transition h traced.standing
  owned := owned_of_transition h traced.numbered traced.standing traced.owned
  owners _ _ := traced_owner h traced
  duplicates _ _ _ := duplicate_of_persisted h traced
  once id := by
    have hstep := count_pledged_add_le h traced.numbered id
    have honce := traced.once id
    simp only [List.count_append] at honce ⊢
    omega
  faults := by
    rcases traced.faults with hnone | hfatal | hunwound
    · rw [hnone, List.nil_append]
      exact fault_of_unrecorded h
    · exact .inr (.inl fun hnone => hfatal (fatal_of_transition h hnone))
    · exact absurd hunwound (stage_ne_unwound (live_of_transition h))

end Steps

section Runs

variable {setup : Setup} {items : List Item} {checkpoint : Checkpoint} {throttle : Throttle}
  {monitor : Monitor} {clock : Nat} {first s last : State} {actions : List Action}
  {refused : List String}

theorem traced_opened
    (sink : setup.hasSink = true)
    (store : setup.hasStore = true)
    (compares : setup.settings.deduplicate = true)
    (pending : ∀ item ∈ items, item.status = .pending)
    (distinct : (items.map Item.id).Nodup) :
    Traced (.opened setup items checkpoint throttle {} monitor clock) [] where
  sink := sink
  numbered := numbered_opened
  standing := standing_opened pending
  owned := owned_opened compares
  owners _ _ howner := by cases howner
  duplicates tick item _ hmem := by simp [State.opened, State.log] at hmem
  once id := by
    rw [List.append_nil, pledged_opened store]
    exact List.nodup_iff_count_le_one.mp
      (distinct.sublist (List.filter_sublist.map Item.id)) id
  faults := .inl rfl

theorem traced_of_follow?
    (run : s.follow? actions = some last)
    (traced : Traced s refused) :
    Traced last (refused ++ s.unrecorded actions) := by
  induction actions generalizing s refused with
  | nil =>
      cases run
      simpa [State.unrecorded] using traced
  | cons action actions ih =>
      simp only [State.follow?] at run
      split at run
      case h_1 next hstep =>
          have hnext := ih run (traced_of_transition (transition_of_step? hstep) traced)
          simpa [State.unrecorded, hstep] using hnext
      case h_2 =>
          cases run

/-- A record that was written is neither being written nor refused. -/
theorem not_of_recorded
    {id : String}
    (traced : Traced s refused)
    (recorded : Recorded s.events id) :
    (∀ task ∈ s.tasks, task.phase = .persisting → task.item.id ≠ id) ∧ id ∉ refused := by
  have honce := traced.once id
  obtain ⟨tick, item, hmem, rfl, -⟩ := recorded
  have hrecorded : item.id ∈ (recordedIn s.events).map Prod.fst :=
    List.mem_map.mpr ⟨item.checkpointEntry, mem_recordedIn.mpr ⟨tick, item, hmem, rfl⟩, rfl⟩
  have hone := List.count_pos_iff.mpr hrecorded
  simp only [State.pledged, List.count_append] at honce
  refine ⟨fun task htask hphase hid => ?_, fun hrefused => ?_⟩
  · have hpledge : item.id ∈ s.tasks.flatMap Task.pledge :=
      List.mem_flatMap.mpr ⟨task, htask, by simp [Task.pledge, hphase, Phase.isWritten, hid]⟩
    have htwo := List.count_pos_iff.mpr hpledge
    omega
  · have htwo := List.count_pos_iff.mpr hrefused
    omega

/-- What has become of the originals of duplicates after some actions. -/
structure Originals (first last : State) (actions : List Action) : Prop where
  /-- The original of a listed duplicate is recorded unless its record is still to be written, or
  will not be. -/
  listed : ∀ tick item firstId, (tick, .persisted item) ∈ last.events →
    item.status = .skipped → item.skipReason = some (.duplicate firstId) →
    last.saved.contains item.id = true →
    (Recorded last.events firstId ↔
      (∀ task ∈ last.tasks, task.phase = .persisting → task.item.id ≠ firstId) ∧
        firstId ∉ first.unrecorded actions)
  /-- A run that has returned has recorded all of them. -/
  returned : ∀ result tick item firstId, last.stage = .returned (.ok result) →
    (tick, .persisted item) ∈ last.events → item.status = .skipped →
    item.skipReason = some (.duplicate firstId) → Recorded last.events firstId

theorem originals_of_traced
    (staged : Staged last)
    (traced : Traced last (first.unrecorded actions)) :
    Originals first last actions := by
  have howner : ∀ tick item firstId, (tick, .persisted item) ∈ last.events →
      item.status = .skipped → item.skipReason = some (.duplicate firstId) →
      Recorded last.events firstId ∨ Recording last firstId ∨
        firstId ∈ first.unrecorded actions := by
    intro tick item firstId hmem hstatus hreason
    obtain ⟨digest, howned⟩ := traced.duplicates tick item firstId hmem hstatus hreason
    exact traced.owners digest firstId howned
  constructor
  case listed =>
    intro tick item firstId hmem hstatus hreason _
    refine ⟨not_of_recorded traced, fun ⟨hidle, hkept⟩ => ?_⟩
    rcases howner tick item firstId hmem hstatus hreason with
      hrecorded | ⟨task, htask, hphase, hid, -⟩ | hrefused
    · exact hrecorded
    · exact absurd hid (hidle task htask hphase)
    · exact absurd hrefused hkept
  case returned =>
    intro result tick item firstId hreturned hmem hstatus hreason
    have hunwound : last.stage ≠ .unwound := by simp [hreturned]
    have hdrained := staged.drained (by simp [hreturned]) hunwound
    rcases howner tick item firstId hmem hstatus hreason with
      hrecorded | ⟨task, htask, -⟩ | hrefused
    · exact hrecorded
    · rw [hdrained.2] at htask
      cases htask
    · rcases traced.faults with hnone | hfatal | hstage
      · rw [hnone] at hrefused
        cases hrefused
      · exact absurd (staged.returned result hreturned).1 hfatal
      · exact absurd hstage hunwound

/-- The original of a duplicate that the checkpoint lists is recorded if and only if its record is
neither being written nor one of those that will not be. -/
theorem originals_of_follow?
    (sink : setup.hasSink = true)
    (store : setup.hasStore = true)
    (compares : setup.settings.deduplicate = true)
    (pending : ∀ item ∈ items, item.status = .pending)
    (distinct : (items.map Item.id).Nodup)
    (opened : State.initial? setup items (.ok checkpoint) throttle {} monitor clock = .ok first)
    (run : first.follow? actions = some last) :
    Originals first last actions := by
  obtain ⟨_, hsaved, -, rfl⟩ := opened_of_initial? opened
  cases hsaved
  have traced := traced_of_follow? run (traced_opened sink store compares pending distinct)
  exact originals_of_traced (staged_of_reaches (reaches_of_follow? run) staged_opened) traced

/-- Several items at a time, with records and a checkpoint for every item. -/
def comparesEach : Setup where
  settings := { deduplicate := true, checkpointInterval := 1 }
  hasSink := true
  hasStore := true

/-- First state of such a run over two items. -/
def eachCompared : State :=
  .opened comparesEach twoItems {} {} {} { settings := { windowSize := 1 } } 0

/-- The first of two items owns its result, and its record is not written; the other one is its
duplicate, and is listed before. -/
def losesOriginal : List Action :=
  [.takePermit, .spawn, .takePermit, .spawn, .task 0 (.resume none), .task 1 (.resume none),
    .task 0 (.reply (.value .null)), .task 0 (.resume none), .task 0 (.resume none),
    .task 1 (.reply (.value .null)), .task 1 (.resume none), .task 1 (.resume none),
    .task 1 (.persist (.ok "results.jsonl:1")), .task 1 (.resume none), .task 1 (.save none),
    .task 0 (.persist (.error ⟨⟨"results.jsonl"⟩, .other "disk full"⟩))]

/-- The checkpoint lists the duplicate, whose original will not be recorded. -/
theorem originals_of_losesOriginal :
    ∃ last, eachCompared.follow? losesOriginal = some last ∧ last.saved.completed = ["2"] ∧
      (recordedIn last.events).map Prod.fst = ["2"] ∧
      eachCompared.unrecorded losesOriginal = ["1"] ∧
      Originals eachCompared last losesOriginal := by
  have hends : (eachCompared.follow? losesOriginal).map (fun last =>
      (last.saved.completed, (recordedIn last.events).map Prod.fst)) = some (["2"], ["2"]) := by
    decide +kernel
  obtain ⟨last, hlast, hboth⟩ := Option.map_eq_some_iff.mp hends
  obtain ⟨hlisted, hrecorded⟩ := Prod.mk.inj hboth
  exact ⟨last, hlast, hlisted, hrecorded, by decide +kernel,
    originals_of_follow? rfl rfl rfl (by decide) (by decide) (initial?_eq_ok (by decide +kernel))
      hlast⟩

end Runs

end Run
end BatchRun
