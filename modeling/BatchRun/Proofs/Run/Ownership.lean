import BatchRun.Proofs.Job.Duplicates
import BatchRun.Proofs.Run.Settlement

/-!
# Owners of results in a run

In a run that looks for duplicates every result has one owner: the item that succeeds with it.

**Types.**
An item `Got` a result if a call for it has ended with that result.

**Invariant.**
What a task compares is what its item got.  An item that succeeded owns its result, a duplicate
got a result that its first item owns, and without a fault every owner is an item of this run that
has succeeded (`Owned`).

**Results.**
* `owned_of_transition`: each step keeps the invariant.
* `deduplicated_of_reaches`: a run that returns has no two successes with the same canonical text,
  and each duplicate points at a success with its text; a registry has one winner for every text.
-/

namespace BatchRun
namespace Run

/-- A call for an item has ended with a result. -/
def Got (events : List (Nat × Event)) (id : String) (result : Json) : Prop :=
  ∃ tick item latency, (tick, .sampled item (.ok result) latency) ∈ events ∧ item.id = id

/-- An item has succeeded with a result. -/
structure Won (item : Item) (result : Json) : Prop where
  status : item.status = .success
  result : item.result = some result

/-- Every result of a run that looks for duplicates has one owner. -/
structure Owned (s : State) : Prop where
  compares : s.settings.deduplicate = true
  comparing : ∀ task ∈ s.tasks, ∀ result, task.phase = .comparing result →
    Got s.events task.item.id result
  successes : ∀ item, Done s item → item.status = .success →
    ∃ result, Won item result ∧ Got s.events item.id result ∧
      s.registry.owner? result.digest = some item.id
  duplicates : ∀ item firstId, Done s item → item.status = .skipped →
    item.skipReason = some (.duplicate firstId) →
    ∃ result, Got s.events item.id result ∧ s.registry.owner? result.digest = some firstId
  owners : s.fatal = none → s.stage ≠ .unwound → ∀ digest owner,
    s.registry.owner? digest = some owner →
    ∃ item result, Done s item ∧ item.id = owner ∧ Won item result ∧ result.digest = digest

section Turns

variable {s : State} {task next : Task} {move : Move} {effect : Effect} {result : Json}

/-- A task that is to compare a result has it from its last call. -/
theorem sampled_of_goesOn
    (turn : Turn s task move effect)
    (h : effect.fate = .goesOn next)
    (phase : next.phase = .comparing result) :
    ∃ latency, .sampled task.item (.ok result) latency ∈ effect.events := by
  cases turn with
  | turnsAway panic => cases panic <;> cases h
  | rejects | breaksAtStart | breaksInSample | breaksInRetry => cases h
  | succeeds =>
      cases h
      cases phase
      exact ⟨_, List.mem_singleton.mpr rfl⟩
  | fails | interrupts | completes =>
      cases h
      rcases Service.endingPhase_cases s _ with hphase | hphase | hphase <;>
        cases hphase.symm.trans phase
  | closes closing =>
      cases closing with
      | finishes panic => cases panic <;> cases h
      | _ => cases h; cases phase
  | _ => cases h; cases phase

end Turns

section Steps

variable {s t : State} {action : Action} {item : Item} {id owner : String} {result : Json}

theorem got_of_transition
    (h : Transition s action t)
    (got : Got s.events id result) :
    Got t.events id result := by
  obtain ⟨new, hevents⟩ := events_of_transition h
  obtain ⟨tick, sampled, latency, hmem, hid⟩ := got
  exact ⟨tick, sampled, latency, hevents ▸ List.mem_append_right new hmem, hid⟩

/-- Owners are never replaced. -/
theorem owner?_of_transition
    {digest : Text.Bytes}
    (h : Transition s action t)
    (standing : Standing s)
    (owned : s.registry.owner? digest = some owner) :
    t.registry.owner? digest = some owner := by
  rcases compared_of_transition h standing with hsame | ⟨task, -, next, -, -, conclusion⟩
  · rw [hsame]
    exact owned
  · generalize t.registry = registry at conclusion ⊢
    generalize next.item = item at conclusion
    cases conclusion with
    | wins _ _ record => exact Registry.owner?_record_of_some record owned
    | repeats _ _ record => exact Registry.owner?_record_of_some record owned

theorem comparing_of_transition
    (h : Transition s action t)
    (comparing : ∀ task ∈ s.tasks, ∀ result, task.phase = .comparing result →
      Got s.events task.item.id result) :
    ∀ task ∈ t.tasks, ∀ result, task.phase = .comparing result →
      Got t.events task.item.id result := by
  intro task htask result hphase
  rcases mem_tasks_of_transition h htask with
    hold | hspawned | ⟨before, -, move, effect, hturn, hfate, hevents⟩
  · exact got_of_transition h (comparing task hold result hphase)
  · cases hspawned.symm.trans hphase
  · obtain ⟨latency, hsampled⟩ := sampled_of_goesOn hturn hfate hphase
    refine ⟨s.clock, before.item, latency, ?_,
      (Item.id_of_origin (kept_of_goesOn hturn hfate).origin).symm⟩
    rw [hevents]
    exact List.mem_append_left _ (List.mem_map_of_mem (List.mem_reverse.mpr hsampled))

/-- An item that succeeds now owns its result. -/
theorem success_of_comes
    {registry : Option Registry}
    (owned : Owned s)
    (comes : Comes s item registry)
    (status : item.status = .success) :
    ∃ result, Won item result ∧ Got s.events item.id result ∧
      (registry.getD s.registry).owner? result.digest = some item.id := by
  cases comes with
  | turnedAway away =>
      obtain ⟨before, -, -, -, rfl⟩ := away
      simp at status
  | @concludes task _ _ htask conclusion =>
      cases conclusion with
      | fails | interrupted | repeats => simp at status
      | succeeds _ off => cases off.symm.trans owned.compares
      | @wins result _ phase _ record =>
          refine ⟨result, ⟨by simp, rfl⟩, ?_, ?_⟩
          · simpa using owned.comparing task htask result phase
          · simpa using Registry.owner?_recorded record

/-- An item that turns out to be a duplicate got a result that another one owns. -/
theorem duplicate_of_comes
    {registry : Option Registry} {firstId : String}
    (owned : Owned s)
    (comes : Comes s item registry)
    (reason : item.skipReason = some (.duplicate firstId))
    (status : item.status = .skipped) :
    ∃ result, Got s.events item.id result ∧
      (registry.getD s.registry).owner? result.digest = some firstId := by
  cases comes with
  | turnedAway away =>
      obtain ⟨before, -, -, -, rfl⟩ := away
      unfold State.skipReason at reason
      split at reason <;> cases reason
  | @concludes task _ _ htask conclusion =>
      cases conclusion with
      | fails | succeeds | wins => simp at status
      | interrupted => cases reason
      | @repeats result _ _ phase _ record =>
          cases reason
          refine ⟨result, ?_, ?_⟩
          · simpa using owned.comparing task htask result phase
          · simpa using Registry.owner?_recorded record

/-- Without a fault the owners are items that have succeeded. -/
theorem owners_of_transition
    {digest : Text.Bytes}
    (h : Transition s action t)
    (numbered : Numbered s)
    (standing : Standing s)
    (owned : Owned s)
    (fatal : t.fatal = none)
    (stage : t.stage ≠ .unwound)
    (owner?_eq : t.registry.owner? digest = some owner) :
    ∃ item result, Done t item ∧ item.id = owner ∧ Won item result ∧ result.digest = digest := by
  have hstays : s.registry.owner? digest = some owner →
      ∃ item result, Done t item ∧ item.id = owner ∧ Won item result ∧
        result.digest = digest := by
    intro howner
    obtain ⟨item, result, hdone, hid, hwon, hdigest⟩ :=
      owned.owners (fatal_of_transition h fatal) (stage_ne_unwound (live_of_transition h)) digest
        owner howner
    obtain ⟨location, hagain⟩ := done_again h numbered fatal stage hdone
    exact ⟨_, result, hagain, hid, ⟨hwon.status, hwon.result⟩, hdigest⟩
  rcases compared_of_transition h standing with
    hsame | ⟨task, htask, next, hnext, hphase, conclusion⟩
  · exact hstays (hsame ▸ owner?_eq)
  · have hdone : Done t next.item :=
      .inr ⟨next, hnext, by rw [hphase]; exact isEnding_endingPhase s next.item, rfl⟩
    generalize t.registry = registry at conclusion owner?_eq
    generalize next.item = item at conclusion hdone
    cases conclusion with
    | repeats _ _ record => exact hstays ((Registry.record_eq_some record).2 ▸ owner?_eq)
    | @wins result _ _ _ record =>
        rw [Registry.owner?_record record] at owner?_eq
        split at owner?_eq
        case isTrue hdigest =>
            cases owner?_eq
            exact ⟨_, result, hdone, by simp, ⟨by simp, rfl⟩, hdigest⟩
        case isFalse => exact hstays owner?_eq

theorem owned_of_transition
    (h : Transition s action t)
    (numbered : Numbered s)
    (standing : Standing s)
    (owned : Owned s) :
    Owned t where
  compares := by
    rw [State.settings, setup_of_transition h]
    exact owned.compares
  comparing := comparing_of_transition h owned.comparing
  successes item hdone hstatus := by
    rcases done_of_transition h standing hdone with
      ⟨before, location, hbefore, rfl⟩ | ⟨registry, hcomes, hregistry⟩
    · obtain ⟨result, hwon, hgot, howner⟩ := owned.successes before hbefore hstatus
      exact ⟨result, ⟨hwon.status, hwon.result⟩, got_of_transition h hgot,
        owner?_of_transition h standing howner⟩
    · obtain ⟨result, hwon, hgot, howner⟩ := success_of_comes owned hcomes hstatus
      exact ⟨result, hwon, got_of_transition h hgot, hregistry ▸ howner⟩
  duplicates item firstId hdone hstatus hreason := by
    rcases done_of_transition h standing hdone with
      ⟨before, location, hbefore, rfl⟩ | ⟨registry, hcomes, hregistry⟩
    · obtain ⟨result, hgot, howner⟩ := owned.duplicates before firstId hbefore hstatus hreason
      exact ⟨result, got_of_transition h hgot, owner?_of_transition h standing howner⟩
    · obtain ⟨result, hgot, howner⟩ := duplicate_of_comes owned hcomes hreason hstatus
      exact ⟨result, got_of_transition h hgot, hregistry ▸ howner⟩
  owners fatal stage _ _ := owners_of_transition h numbered standing owned fatal stage

end Steps

/-- Items that have succeeded with results of one digest are the same. -/
theorem id_of_digest
    {s : State} {a b : Item} {x y : Json}
    (owned : Owned s)
    (ha : Done s a)
    (hb : Done s b)
    (hx : Won a x)
    (hy : Won b y)
    (digest : x.digest = y.digest) :
    a.id = b.id := by
  obtain ⟨first, hfirst, -, hfirstOwner⟩ := owned.successes a ha hx.status
  obtain ⟨second, hsecond, -, hsecondOwner⟩ := owned.successes b hb hy.status
  cases Option.some.inj (hfirst.result.symm.trans hx.result)
  cases Option.some.inj (hsecond.result.symm.trans hy.result)
  rw [digest, hsecondOwner] at hfirstOwner
  exact (Option.some.inj hfirstOwner).symm

section Runs

variable {setup : Setup} {items : List Item} {checkpoint : Checkpoint} {throttle : Throttle}
  {monitor : Monitor} {clock : Nat} {first s : State} {result : Returned}

theorem owned_opened
    (compares : setup.settings.deduplicate = true) :
    Owned (.opened setup items checkpoint throttle {} monitor clock) where
  compares := compares
  comparing _ htask := absurd htask List.not_mem_nil
  successes item hdone := by
    rcases hdone with hfinished | ⟨task, htask, -⟩
    · cases hfinished
    · cases htask
  duplicates item firstId hdone := by
    rcases hdone with hfinished | ⟨task, htask, -⟩
    · cases hfinished
    · cases htask
  owners _ _ digest owner howner := by cases howner

theorem owned_of_reaches
    (pending : ∀ item ∈ items, item.status = .pending)
    (compares : setup.settings.deduplicate = true)
    (run : Reaches (.opened setup items checkpoint throttle {} monitor clock) s) :
    Orderly (.opened setup items checkpoint throttle {} monitor clock) s ∧ Owned s :=
  run.invariant
    (P := fun s => Orderly (.opened setup items checkpoint throttle {} monitor clock) s ∧ Owned s)
    (fun h both => ⟨orderly_of_transition h both.1,
      owned_of_transition h both.1.numbered both.1.standing both.2⟩)
    ⟨orderly_opened pending, owned_opened compares⟩

/-- What a run says of duplicates that has returned some items. -/
structure Deduplicated (s : State) (items : List Item) : Prop where
  /-- An item that succeeded in this run has a result, -/
  results : ∀ item ∈ items, item.status = .success → item.resumed = false →
    ∃ result, item.result = some result
  /-- whose canonical text no other item has. -/
  distinct : ((items.filter fun item => item.status == .success && !item.resumed).map fun item =>
    item.result.map Json.canonical).Nodup
  /-- The first item of a duplicate is another one, which has succeeded with the text that the
  duplicate got. -/
  duplicates : ∀ item ∈ items, ∀ firstId, item.status = .skipped →
    item.skipReason = some (.duplicate firstId) →
    ∃ first ∈ items, first ∈ s.finished ∧ first.id = firstId ∧ first.id ≠ item.id ∧
      first.status = .success ∧
      ∃ got result, Got s.events item.id got ∧ first.result = some result ∧
        got.canonical = result.canonical

/-- Items of a run that were not taken over from an earlier one were finished. -/
theorem finished_of_returned
    {item : Item}
    (orderly : Orderly (.opened setup items checkpoint throttle {} monitor clock) s)
    (returned : s.stage = .returned (.ok result))
    (hitem : item ∈ result.items)
    (own : item.resumed = false ∨ ∃ firstId, item.status = .skipped ∧
      item.skipReason = some (.duplicate firstId)) :
    item ∈ s.finished := by
  rcases (mem_returned orderly returned).mp hitem with hrestored | hfinished
  · rw [orderly.conserved.restored, opened_restored] at hrestored
    obtain ⟨before, -, rfl⟩ := List.mem_map.mp hrestored
    rcases own with hnew | ⟨firstId, hstatus, hreason⟩
    · rw [(restored_spec checkpoint before _).2.1] at hnew
      cases hnew
    · rw [skipReason_restored, if_pos hstatus] at hreason
      cases hreason
  · exact hfinished

/-- The first item of a duplicate has succeeded with the digest of the result that the duplicate
got. -/
theorem original_of_duplicate
    {item : Item} {firstId : String}
    (orderly : Orderly (.opened setup items checkpoint throttle {} monitor clock) s)
    (owned : Owned s)
    (returned : s.stage = .returned (.ok result))
    (hitem : item ∈ s.finished)
    (status : item.status = .skipped)
    (reason : item.skipReason = some (.duplicate firstId)) :
    ∃ first ∈ s.finished, first.id = firstId ∧
      ∃ got result, Got s.events item.id got ∧ Got s.events first.id result ∧ Won first result ∧
        got.digest = result.digest := by
  obtain ⟨-, htasks, hfatal, -, hunwound⟩ := drained_of_returned orderly returned
  obtain ⟨got, hgot, howner⟩ := owned.duplicates item firstId (.inl hitem) status reason
  obtain ⟨first, result, hdone, hid, hwon, hdigest⟩ :=
    owned.owners hfatal hunwound got.digest firstId howner
  have hfirst : first ∈ s.finished := by
    rcases hdone with hdone | ⟨task, htask, -⟩
    · exact hdone
    · rw [htasks] at htask
      cases htask
  obtain ⟨same, hsame, hfirstGot, -⟩ := owned.successes first hdone hwon.status
  cases Option.some.inj (hsame.result.symm.trans hwon.result)
  exact ⟨first, hfirst, hid, got, _, hgot, hfirstGot, hwon, hdigest.symm⟩

theorem deduplicated_of_returned
    (distinct : (items.map Item.id).Nodup)
    (orderly : Orderly (.opened setup items checkpoint throttle {} monitor clock) s)
    (owned : Owned s)
    (returned : s.stage = .returned (.ok result))
    (apart : ∀ a b x y, Got s.events a x → Got s.events b y → x.digest = y.digest →
      x.canonical = y.canonical) :
    Deduplicated s result.items := by
  have hids : (result.items.map Item.id).Nodup := by
    have hperm := (origins_of_returned orderly returned).map Prod.fst
    rw [List.map_map, List.map_map] at hperm
    exact hperm.nodup_iff.mpr distinct
  have hsuccess : ∀ item ∈ result.items, item.status = .success → item.resumed = false →
      Done s item ∧ ∃ result, Won item result := by
    intro item hitem hstatus hnew
    have hdone : Done s item := .inl (finished_of_returned orderly returned hitem (.inl hnew))
    obtain ⟨result, hwon, -⟩ := owned.successes item hdone hstatus
    exact ⟨hdone, result, hwon⟩
  constructor
  case results =>
    intro item hitem hstatus hnew
    obtain ⟨-, result, hwon⟩ := hsuccess item hitem hstatus hnew
    exact ⟨result, hwon.result⟩
  case distinct =>
    refine (hids.of_map.filter _).map_on fun a ha b hb hsame => ?_
    obtain ⟨haitems, hanew⟩ := List.mem_filter.mp ha
    obtain ⟨hbitems, hbnew⟩ := List.mem_filter.mp hb
    simp only [Bool.and_eq_true, beq_iff_eq, Bool.not_eq_true'] at hanew hbnew
    obtain ⟨hadone, x, hx⟩ := hsuccess a haitems hanew.1 hanew.2
    obtain ⟨hbdone, y, hy⟩ := hsuccess b hbitems hbnew.1 hbnew.2
    -- Equal texts have equal digests.
    have htext : x.canonical = y.canonical := by simpa [hx.result, hy.result] using hsame
    have hdigest : x.digest = y.digest := by
      unfold Json.digest
      rw [htext]
    exact List.inj_on_of_nodup_map hids haitems hbitems
      (id_of_digest owned hadone hbdone hx hy hdigest)
  case duplicates =>
    intro item hitem firstId hstatus hreason
    have hfinished := finished_of_returned orderly returned hitem
      (.inr ⟨firstId, hstatus, hreason⟩)
    obtain ⟨first, hfirst, hid, got, result', hgot, hfirstGot, hwon, hdigest⟩ :=
      original_of_duplicate orderly owned returned hfinished hstatus hreason
    have hmem := (mem_returned orderly returned).mpr (.inr hfirst)
    refine ⟨first, hmem, hfirst, hid, fun hsame => ?_, hwon.status, got, result', hgot,
      hwon.result, apart _ _ got result' hgot hfirstGot hdigest⟩
    -- A success is no duplicate.
    rw [← List.inj_on_of_nodup_map hids hmem hitem hsame, hwon.status] at hstatus
    cases hstatus

/-- Of all items with one text that a run gets, one succeeds, and the others are its duplicates; a
registry that is asked in any order lets one claimant of each text win. -/
theorem deduplicated_of_reaches
    (pending : ∀ item ∈ items, item.status = .pending)
    (distinct : (items.map Item.id).Nodup)
    (compares : setup.settings.deduplicate = true)
    (opened : State.initial? setup items (.ok checkpoint) throttle {} monitor clock = .ok first)
    (run : Reaches first s)
    (returned : s.stage = .returned (.ok result))
    (apart : ∀ a b x y, Got s.events a x → Got s.events b y → x.digest = y.digest →
      x.canonical = y.canonical) :
    Deduplicated s result.items ∧
      ∀ claimants, Registry.Apart claimants → ∀ claimant ∈ claimants,
        Registry.Contest (Registry.asked {} claimants) claimant.result.canonical := by
  obtain ⟨_, hsaved, -, rfl⟩ := opened_of_initial? opened
  cases hsaved
  obtain ⟨orderly, owned⟩ := owned_of_reaches pending compares run
  exact ⟨deduplicated_of_returned distinct orderly owned returned apart,
    fun claimants hapart claimant hclaimant => Registry.contest_of_asked hapart hclaimant⟩

/-- Several items at a time, without records and checkpoints. -/
def comparesAll : Setup where
  settings := { deduplicate := true }

/-- First state of such a run over two items. -/
def comparedTwo : State :=
  .opened comparesAll twoItems {} {} {} { settings := { windowSize := 1 } } 0

/-- Steps of a started task to its end. -/
def endsEmpty (number : Nat) : List Action :=
  .task number (.reply (.value .null)) :: List.replicate 4 (.task number (.resume none))

/-- The second of two items with the same result is the first to get it. -/
def secondWins : List Action :=
  [.takePermit, .spawn, .takePermit, .spawn, .task 0 (.resume none), .task 1 (.resume none)]
    ++ endsEmpty 1 ++ endsEmpty 0 ++ [.flush, .close none]

/-- Whether an event tells of no other result than an empty one. -/
def Event.isEmpty : Event → Bool
  | sampled _ (.ok result) _ => result.canonical == "null"
  | _ => true

/-- The first item is a duplicate of the second one. -/
theorem deduplicated_of_secondWins :
    ∃ last result, comparedTwo.follow? secondWins = some last ∧
      last.stage = .returned (.ok result) ∧
      result.items.map (fun item => (item.id, item.skipReason)) =
        [("2", none), ("1", some (.duplicate "2"))] ∧
      Deduplicated last result.items := by
  have hends : ((comparedTwo.follow? secondWins).bind fun last =>
      last.returned?.map fun result =>
        (last.events.all fun event => event.2.isEmpty,
          result.items.map fun item => (item.id, item.skipReason))) =
      some (true, [("2", none), ("1", some (.duplicate "2"))]) := by
    decide +kernel
  obtain ⟨last, hlast, hrest⟩ := Option.bind_eq_some_iff.mp hends
  obtain ⟨result, hreturned, hboth⟩ := Option.map_eq_some_iff.mp hrest
  obtain ⟨hempty, hitems⟩ := Prod.mk.inj hboth
  have hgot : ∀ id x, Got last.events id x → x.canonical = "null" := by
    rintro id x ⟨tick, item, latency, hmem, -⟩
    simpa [Event.isEmpty] using List.all_eq_true.mp hempty _ hmem
  have happart : ∀ a b x y, Got last.events a x → Got last.events b y → x.digest = y.digest →
      x.canonical = y.canonical :=
    fun a b x y hx hy _ => (hgot a x hx).trans (hgot b y hy).symm
  exact ⟨last, result, hlast, stage_of_returned? hreturned, hitems,
    (deduplicated_of_reaches (by decide) (by decide) rfl (initial?_eq_ok (by decide +kernel))
      (reaches_of_follow? hlast) (stage_of_returned? hreturned) happart).1⟩

end Runs

end Run
end BatchRun
