import BatchRun.Proofs.Run.Calling
import BatchRun.Proofs.Run.Relay

/-!
# Reruns

A run that has returned leaves a file with which another run over the same items does what is left
of them, and nothing else.

**Types.**
A `Start` is what a run begins with apart from its items and its checkpoint.  `Follows` relates a
run with its file to all that can come of both while nobody else writes the file.  A `Rerun` is
what another run does that begins with what a returned run has left.

**Invariant.**
The file holds what the run knows to be listed, and the run keeps its checkpoint (`Filed`).

**Results.**
* `taken_of_filed`: the file tells of each item of a returned run whether it was left, and
  otherwise how it ended and where its record is.
* `rerun_of_follows`: another run begins with the file, and is a `Rerun`.
-/

namespace BatchRun

namespace Checkpoint

/-- Place of the record of an item that is taken over. -/
def locationOf (checkpoint : Checkpoint) (id : String) : Option String :=
  (checkpoint.pointer? id).bind ResultPointer.location

variable {checkpoint : Checkpoint} {item : Item} {now : Time.Timestamp}

theorem location_restored :
    (checkpoint.restored item now).location = checkpoint.locationOf item.id := by
  unfold restored locationOf
  cases checkpoint.pointer? item.id with
  | none | some pointer => rfl

/-- An item that was taken over is not left for another run. -/
theorem isLeft_restored :
    (checkpoint.restored item now).isLeft = false := by
  unfold Item.isLeft
  rw [Run.skipReason_restored]
  cases hstatus : (checkpoint.restored item now).status with
  | pending | processing | success | failed | skipped => simp

end Checkpoint

namespace Run

open Storage
open Time

/-- What a run begins with, apart from its items and its checkpoint. -/
structure Start where
  setup : Setup
  throttle : Throttle := {}
  registry : Registry := {}
  monitor : Monitor := {}
  clock : Nat := 0

namespace Start

/-- First state of a run over items with a checkpoint. -/
def first (start : Start) (items : List Item) (checkpoint : Checkpoint) : State :=
  .opened start.setup items checkpoint start.throttle start.registry start.monitor start.clock

/-- Begins a run with what its store loads. -/
def begin? (start : Start) (items : List Item) (store : CheckpointStore) (tree : Tree) :
    Option Relay :=
  match store.load tree with
  | (store, saved) =>
    match State.initial? start.setup items saved start.throttle start.registry start.monitor
        start.clock with
    | .ok run => some { tree, store, run, past := [] }
    | .error _ => none

theorem begin?_eq_some
    {start : Start} {items : List Item} {store : CheckpointStore} {tree : Tree} {relay : Relay}
    (h : start.begin? items store tree = some relay) :
    ∃ checkpoint, Checkpoint.read store.path tree = .ok checkpoint ∧
      relay = ⟨tree, store.remember checkpoint, start.first items checkpoint, []⟩ := by
  unfold begin? at h
  cases hload : store.load tree with
  | mk loaded saved =>
      simp only [hload] at h
      split at h
      case h_1 run hrun =>
          obtain ⟨checkpoint, hread, rfl, rfl⟩ := Relay.initial?_of_load hload hrun
          cases h
          exact ⟨checkpoint, hread, rfl⟩
      case h_2 => cases h

theorem begin?_of_read
    {start : Start} {store : CheckpointStore} {tree : Tree} {checkpoint : Checkpoint}
    (items : List Item)
    (valid : start.setup.settings.fault? = none)
    (read : Checkpoint.read store.path tree = .ok checkpoint) :
    start.begin? items store tree =
      some ⟨tree, store.remember checkpoint, start.first items checkpoint, []⟩ := by
  unfold begin? CheckpointStore.load
  simp only [read, initial?_eq_ok valid]
  rfl

end Start

/-- A run with its file after any number of steps, while nobody else writes the file. -/
inductive Follows (path : Path) (first : Relay) : Relay → Prop
  | here : Follows path first first
  | acts
      {r next : Relay} {action : Action} {now : Timestamp}
      (before : Follows path first r)
      (civil : now.Civil)
      (h : r.act? now action = some next) :
      Follows path first next
  /-- Other files change. -/
  | changes
      {r : Relay} {tree : Tree}
      (before : Follows path first r)
      (kept : tree.read path = r.tree.read path) :
      Follows path first { r with tree }

/-- What is known of a run with its file. -/
structure Filed (path : Path) (checkpoint : Checkpoint) (first : State) (r : Relay) : Prop where
  path : r.store.path = path
  tracks : ∃ savedAt, CheckpointStore.Solo.Tracks ⟨r.tree, r.store⟩ { r.run.saved with savedAt }
  keeping : Keeping checkpoint first r.run

theorem filed_of_follows
    {path : Path} {checkpoint : Checkpoint} {first : State} {begun r : Relay}
    (follows : Follows path begun r)
    (filed : Filed path checkpoint first begun) :
    Filed path checkpoint first r := by
  induction follows with
  | here => exact filed
  | acts before civil h ih =>
      obtain ⟨savedAt, tracks⟩ := ih.tracks
      obtain ⟨hpath, htracks⟩ := Relay.tracks_of_act? tracks civil h
      obtain ⟨run, store, tree, hstep, -, rfl⟩ := Relay.act?_eq_some h
      exact ⟨hpath.trans ih.path, htracks,
        keeping_of_transition (transition_of_step? hstep) ih.keeping⟩
  | @changes r tree before kept ih =>
      obtain ⟨savedAt, tracks⟩ := ih.tracks
      exact ⟨ih.path, ⟨savedAt, Relay.tracks_of_kept (r := r) tracks ih.path kept⟩, ih.keeping⟩

section Files

variable {start : Start} {items : List Item} {checkpoint : Checkpoint} {path : Path} {r : Relay}
  {result : Returned} {item : Item}

/-- Items that were taken over were listed when the run began, and the finished ones were not. -/
theorem origin_of_returned
    {s : State}
    (orderly : Orderly (start.first items checkpoint) s)
    (store : start.setup.hasStore = true)
    (distinct : (items.map Item.id).Nodup)
    (returned : s.stage = .returned (.ok result)) :
    (∀ item ∈ s.restored, ∃ before ∈ items, checkpoint.contains before.id = true ∧
        item = checkpoint.restored before (.ofMillis start.clock)) ∧
      ∀ item ∈ s.finished, ∃ before ∈ items, checkpoint.contains before.id = false ∧
        item.origin = before.origin := by
  constructor
  · intro item hitem
    rw [orderly.conserved.restored] at hitem
    unfold Start.first at hitem
    rw [opened_restored] at hitem
    obtain ⟨before, hbefore, rfl⟩ := List.mem_map.mp hitem
    obtain ⟨hmem, hresumes⟩ := List.mem_filter.mp hbefore
    refine ⟨before, hmem, ?_, rfl⟩
    simpa only [Setup.resumes, store, Bool.true_and] using hresumes
  · intro item hitem
    have hperm := (finished_distinct orderly (waiting_distinct distinct) returned).1
    obtain ⟨before, hbefore, horigin⟩ :=
      List.mem_map.mp (hperm.mem_iff.mp (List.mem_map_of_mem hitem))
    unfold Start.first at hbefore
    rw [opened_waiting] at hbefore
    obtain ⟨hmem, hresumes⟩ := List.mem_filter.mp hbefore
    refine ⟨before, hmem, ?_, horigin.symm⟩
    simpa only [Setup.resumes, store, Bool.true_and, Bool.not_eq_true'] using hresumes

/-- The file tells of each item whether it was left, and otherwise how it ended. -/
structure Taken (saved : Checkpoint) (item : Item) : Prop where
  listed : saved.contains item.id = !item.isLeft
  status : item.isLeft = false → saved.statusOf item.id = item.status
  location : item.isLeft = false → saved.locationOf item.id = item.location

/-- The file tells of an item that the run has finished. -/
theorem taken_of_finished
    (filed : Filed path checkpoint (start.first items checkpoint) r)
    (store : start.setup.hasStore = true)
    (distinct : (items.map Item.id).Nodup)
    (returned : r.run.stage = .returned (.ok result))
    (hitem : item ∈ r.run.finished) :
    Taken r.run.saved item := by
  have keeping := filed.keeping
  obtain ⟨hlisted, hpointer⟩ :=
    listed_iff_of_returned keeping (waiting_distinct distinct) returned hitem
  obtain ⟨before, -, hnew, horigin⟩ :=
    (origin_of_returned keeping.toOrderly store distinct returned).2 item hitem
  have hnew : item.id ∉ checkpoint.completed := by
    rw [Item.id_of_origin horigin]
    simpa [Checkpoint.contains] using hnew
  have hcontains : r.run.saved.contains item.id = item.isSettled := by
    rw [Bool.eq_iff_iff, ← hlisted]
    simp [Checkpoint.contains, keeping.booked.completed item.id, hnew]
  have hsettled : item.isSettled = !item.isLeft := by
    rcases keeping.disposed.done item (.inl hitem) with hsettled | ⟨-, hleft⟩
    · rw [hsettled, Item.isLeft_of_isSettled hsettled]
      rfl
    · rw [hleft]
      cases hsettled : item.isSettled with
      | false => rfl
      | true => cases (Item.isLeft_of_isSettled hsettled).symm.trans hleft
  have hfinds : item.isLeft = false →
      r.run.saved.pointer? item.id = some ⟨item.status, item.location⟩ :=
    fun hkept => hpointer (by rw [hsettled, hkept]; rfl)
  have hterminal : item.status.isTerminal = true := keeping.standing.finished item hitem
  refine ⟨hcontains.trans hsettled, fun hkept => ?_, fun hkept => ?_⟩
  · simp [Checkpoint.statusOf, hfinds hkept, hterminal]
  · simp [Checkpoint.locationOf, hfinds hkept]

/-- The file goes on telling of an item that the run has taken over. -/
theorem taken_of_restored
    (filed : Filed path checkpoint (start.first items checkpoint) r)
    (store : start.setup.hasStore = true)
    (distinct : (items.map Item.id).Nodup)
    (returned : r.run.stage = .returned (.ok result))
    (hitem : item ∈ r.run.restored) :
    Taken r.run.saved item := by
  have keeping := filed.keeping
  obtain ⟨hrestored, hfinished⟩ := origin_of_returned keeping.toOrderly store distinct returned
  obtain ⟨before, hbefore, hcontains, rfl⟩ := hrestored item hitem
  have hid : (checkpoint.restored before (.ofMillis start.clock)).id = before.id :=
    Item.id_of_origin (restored_spec checkpoint before _).1
  have hunlisted : before.id ∉ (listedIn r.run.events).map Prod.fst := by
    intro hmem
    obtain ⟨entry, hentry, hsame⟩ := List.mem_map.mp hmem
    obtain ⟨other, hother, -, rfl⟩ := settled_of_listed keeping returned hentry
    obtain ⟨source, -, hnew, horigin⟩ := hfinished other hother
    have hsource : source.id = before.id := (Item.id_of_origin horigin).symm.trans hsame
    rw [hsource, hcontains] at hnew
    cases hnew
  have hpointer := keeping.untouched before.id hunlisted
  have hstays : r.run.saved.contains before.id = true := by
    have hmem : before.id ∈ checkpoint.completed := by
      simpa [Checkpoint.contains] using hcontains
    simp [Checkpoint.contains, (keeping.booked.completed before.id).mpr (.inl hmem)]
  refine ⟨?_, fun _ => ?_, fun _ => ?_⟩
  · rw [hid, hstays, Checkpoint.isLeft_restored]
    rfl
  · rw [hid, Checkpoint.status_restored, Checkpoint.statusOf, hpointer]
    rfl
  · rw [hid, Checkpoint.location_restored, Checkpoint.locationOf, hpointer]
    rfl

theorem taken_of_filed
    (filed : Filed path checkpoint (start.first items checkpoint) r)
    (store : start.setup.hasStore = true)
    (distinct : (items.map Item.id).Nodup)
    (returned : r.run.stage = .returned (.ok result)) :
    ∀ item ∈ result.items, Taken r.run.saved item := by
  intro item hitem
  rcases (mem_returned filed.keeping.toOrderly returned).mp hitem with hrestored | hfinished
  · exact taken_of_restored filed store distinct returned hrestored
  · exact taken_of_finished filed store distinct returned hfinished

/-- A run that was neither cancelled nor aborted leaves no item. -/
theorem isLeft_of_returned
    (filed : Filed path checkpoint (start.first items checkpoint) r)
    (store : start.setup.hasStore = true)
    (distinct : (items.map Item.id).Nodup)
    (returned : r.run.stage = .returned (.ok result))
    (uncancelled : result.cancelled = false)
    (unaborted : result.aborted = false) :
    ∀ item ∈ result.items, item.isLeft = false := by
  intro item hitem
  have orderly := filed.keeping.toOrderly
  rcases (mem_returned orderly returned).mp hitem with hrestored | hfinished
  · obtain ⟨before, -, -, rfl⟩ :=
      (origin_of_returned orderly store distinct returned).1 item hrestored
    exact Checkpoint.isLeft_restored
  · rcases orderly.disposed.done item (.inl hfinished) with hsettled | ⟨hstop, -⟩
    · exact Item.isLeft_of_isSettled hsettled
    · rw [running_of_returned orderly returned uncancelled unaborted] at hstop
      cases hstop

end Files

/-- The item `again` is taken over from the input `before` as an earlier run has returned it in
`item`. -/
structure TakesOver (before item again : Item) : Prop where
  input : before.origin = item.origin
  origin : again.origin = item.origin
  status : again.status = item.status
  location : again.location = item.location
  resumed : again.resumed = true
  /-- One that was not skipped keeps the reason of the input, which an item that waits has only if
  it was made with one. -/
  skipReason : again.skipReason =
    if again.status = .skipped then some .resumed else before.skipReason
  /-- So the reason tells the skipped ones apart, unless the input already came with it: such an
  input waits and yet says that an earlier run has finished it, as no item of a source does. -/
  reason : before.skipReason ≠ some .resumed →
    (again.skipReason = some .resumed ↔ again.status = .skipped)

/-- What a run does that begins in a state with the file of an earlier one over the same items. -/
structure Rerun (items : List Item) (result : Returned) (second : State) : Prop where
  /-- It calls only for items that were left. -/
  called : ∀ s id, Reaches second s → 0 < callsIn s.events id →
    ∃ item ∈ result.items, item.id = id ∧ item.isLeft = true
  /-- Unless it is cancelled or aborted, it calls for all of them. -/
  calls : ∀ s other, Reaches second s → s.stage = .returned (.ok other) →
    other.cancelled = false → other.aborted = false →
    ∀ item ∈ result.items, item.isLeft = true → 0 < callsIn s.events item.id
  /-- It takes over the others. -/
  restores : ∀ s other, Reaches second s → s.stage = .returned (.ok other) →
    ∀ item ∈ result.items, item.isLeft = false →
      ∃ before ∈ items, ∃ again ∈ other.items, TakesOver before item again
  /-- After a run that was neither cancelled nor aborted it makes no call, -/
  mute : result.cancelled = false → result.aborted = false →
    ∀ s id, Reaches second s → callsIn s.events id = 0
  /-- counts the same, and takes over all items, -/
  counts : result.cancelled = false → result.aborted = false →
    ∀ s other, Reaches second s → s.stage = .returned (.ok other) →
      (∀ status, JobOutcome.countStatus status other.items =
        JobOutcome.countStatus status result.items) ∧
        other.items.countP Item.resumed = other.items.length
  /-- and can return. -/
  returns : result.cancelled = false → result.aborted = false →
    second.stage = .dispatching → second.monitor.Roomy farFuture →
    ∃ s other, Reaches second s ∧ s.stage = .returned (.ok other)

section Second

variable {start : Start} {items : List Item} {checkpoint : Checkpoint} {result other : Returned}
  {s : State} {item : Item}

theorem orderly_of_reaches
    (pending : ∀ item ∈ items, item.status = .pending)
    (run : Reaches (start.first items checkpoint) s) :
    Orderly (start.first items checkpoint) s ∧ Calling (start.first items checkpoint) s :=
  run.invariant
    (P := fun s => Orderly (start.first items checkpoint) s ∧
      Calling (start.first items checkpoint) s)
    (fun h both => ⟨orderly_of_transition h both.1,
      calling_of_transition h both.1.standing both.2⟩)
    ⟨orderly_opened pending, calling_opened⟩

/-- Items that wait are those that the checkpoint does not list. -/
theorem mem_waiting
    (store : start.setup.hasStore = true) :
    item ∈ (start.first items checkpoint).waiting ↔
      item ∈ items ∧ checkpoint.contains item.id = false := by
  unfold Start.first
  rw [opened_waiting]
  simp [Setup.resumes, store]

/-- An item that the checkpoint lists is taken over. -/
theorem mem_restored
    (store : start.setup.hasStore = true)
    (hitem : item ∈ items)
    (listed : checkpoint.contains item.id = true) :
    checkpoint.restored item (.ofMillis start.clock) ∈
      (start.first items checkpoint).restored := by
  unfold Start.first
  rw [opened_restored]
  refine List.mem_map_of_mem (List.mem_filter.mpr ⟨hitem, ?_⟩)
  simp [Setup.resumes, store, listed]

theorem takesOver_restored
    (taken : Taken checkpoint item)
    (kept : item.isLeft = false)
    {before : Item}
    (origin : before.origin = item.origin)
    (now : Timestamp) :
    TakesOver before item (checkpoint.restored before now) where
  input := origin
  origin := (restored_spec checkpoint before now).1.trans origin
  status := by
    rw [Checkpoint.status_restored, Item.id_of_origin origin]
    exact taken.status kept
  location := by
    rw [Checkpoint.location_restored, Item.id_of_origin origin]
    exact taken.location kept
  resumed := (restored_spec checkpoint before now).2.1
  skipReason := skipReason_restored checkpoint before now
  reason unmarked := by
    rw [skipReason_restored]
    split
    case isTrue hskipped => simp [hskipped]
    case isFalse hother => simp [hother, unmarked]

/-- A run that takes over all items has nothing to wait for. -/
theorem waiting_of_complete
    (store : start.setup.hasStore = true)
    (listed : ∀ item ∈ items, checkpoint.contains item.id = true) :
    (start.first items checkpoint).waiting = [] := by
  refine List.eq_nil_iff_forall_not_mem.mpr fun item hitem => ?_
  obtain ⟨hmem, hunlisted⟩ := (mem_waiting store).mp hitem
  rw [listed item hmem] at hunlisted
  cases hunlisted

/-- A run with nothing to do can return. -/
theorem returns_of_idle
    {first : State}
    (stage : first.stage = .dispatching)
    (waiting : first.waiting = [])
    (tasks : first.tasks = [])
    (unflushed : first.unflushed = [])
    (fatal : first.fatal = none)
    (roomy : first.monitor.Roomy farFuture) :
    ∃ s other, Reaches first s ∧ s.stage = .returned (.ok other) := by
  let flushing : State := { first with unflushed := [], stage := .flushing [] }
  have hflush : first.step? .flush = some flushing := by
    simp [State.step?, State.dispatch?, stage, waiting, tasks, unflushed, flushing]
  have hclose : flushing.step? (.close none) = some flushing.leave := rfl
  obtain ⟨last, ends, hleave⟩ := leave_eq flushing
  obtain ⟨other, rfl⟩ := stage_of_ends (s := flushing) roomy fatal ends
  exact ⟨flushing.leave, other, ((Reaches.here first).step hflush).step hclose, by rw [hleave]⟩

/-- All items are taken over, and with the statuses that they had. -/
theorem statuses_of_complete
    (store : start.setup.hasStore = true)
    (origins : (result.items.map Item.origin).Perm (items.map Item.origin))
    (taken : ∀ item ∈ result.items, Taken checkpoint item)
    (complete : ∀ item ∈ result.items, item.isLeft = false)
    (listed : ∀ item ∈ items, checkpoint.contains item.id = true) :
    ((start.first items checkpoint).restored.map fun item => (item.origin, item.status)).Perm
      (result.items.map fun item => (item.origin, item.status)) := by
  let recorded : String × Nat × Json × Metadata → (String × Nat × Json × Metadata) × Status :=
    fun origin => (origin, checkpoint.statusOf origin.1)
  have hall : items.filter (start.setup.resumes checkpoint) = items :=
    List.filter_eq_self.mpr fun item hitem => by simp [Setup.resumes, store, listed item hitem]
  have hrestored : (start.first items checkpoint).restored.map
      (fun item => (item.origin, item.status)) = (items.map Item.origin).map recorded := by
    unfold Start.first
    rw [opened_restored, hall, List.map_map, List.map_map]
    refine List.map_congr_left fun item _ => ?_
    simp only [Function.comp_apply, (restored_spec checkpoint item _).1,
      Checkpoint.status_restored]
    rfl
  have hreturned : result.items.map (fun item => (item.origin, item.status)) =
      (result.items.map Item.origin).map recorded := by
    rw [List.map_map]
    refine List.map_congr_left fun item hitem => ?_
    exact congrArg (Prod.mk item.origin)
      ((taken item hitem).status (complete item hitem)).symm
  rw [hrestored, hreturned]
  exact (origins.map recorded).symm

theorem contains_of_taken
    {before : Item}
    (taken : Taken checkpoint item)
    (origin : item.origin = before.origin) :
    checkpoint.contains before.id = !item.isLeft := by
  rw [← Item.id_of_origin origin, taken.listed]

/-- The run calls only for items that were left. -/
theorem left_of_call
    {id : String}
    (pending : ∀ item ∈ items, item.status = .pending)
    (store : start.setup.hasStore = true)
    (origins : (result.items.map Item.origin).Perm (items.map Item.origin))
    (taken : ∀ item ∈ result.items, Taken checkpoint item)
    (run : Reaches (start.first items checkpoint) s)
    (call : 0 < callsIn s.events id) :
    ∃ item ∈ result.items, item.id = id ∧ item.isLeft = true := by
  obtain ⟨before, hbefore, rfl⟩ :=
    List.mem_map.mp ((orderly_of_reaches pending run).2.callers id call)
  obtain ⟨hmem, hunlisted⟩ := (mem_waiting store).mp hbefore
  obtain ⟨item, hitem, horigin⟩ :=
    List.mem_map.mp (origins.mem_iff.mpr (List.mem_map_of_mem hmem))
  refine ⟨item, hitem, Item.id_of_origin horigin, ?_⟩
  rw [contains_of_taken (taken item hitem) horigin] at hunlisted
  simpa using hunlisted

/-- A run that takes over all items returns nothing else. -/
theorem items_of_complete
    (pending : ∀ item ∈ items, item.status = .pending)
    (distinct : (items.map Item.id).Nodup)
    (store : start.setup.hasStore = true)
    (listed : ∀ item ∈ items, checkpoint.contains item.id = true)
    (run : Reaches (start.first items checkpoint) s)
    (returned : s.stage = .returned (.ok other)) :
    other.items.Perm (start.first items checkpoint).restored := by
  obtain ⟨orderly, -⟩ := orderly_of_reaches pending run
  have hfinished : s.finished = [] := by
    have hperm := (finished_distinct orderly (waiting_distinct distinct) returned).1
    rw [waiting_of_complete store listed] at hperm
    exact List.map_eq_nil_iff.mp hperm.eq_nil
  rw [(orderly.staged.returned other returned).2.1, ← orderly.conserved.restored]
  exact (allItems_perm s).trans (by rw [hfinished, List.append_nil])

theorem resumed_restored :
    ∀ again ∈ (start.first items checkpoint).restored, again.resumed = true := by
  intro again hagain
  unfold Start.first at hagain
  rw [opened_restored] at hagain
  obtain ⟨before, -, rfl⟩ := List.mem_map.mp hagain
  exact (restored_spec checkpoint before _).2.1

/-- A run that begins with what is told of the items of an earlier one is its rerun. -/
theorem rerun_of_taken
    (pending : ∀ item ∈ items, item.status = .pending)
    (distinct : (items.map Item.id).Nodup)
    (store : start.setup.hasStore = true)
    (origins : (result.items.map Item.origin).Perm (items.map Item.origin))
    (taken : ∀ item ∈ result.items, Taken checkpoint item)
    (complete : result.cancelled = false → result.aborted = false →
      ∀ item ∈ result.items, item.isLeft = false) :
    Rerun items result (start.first items checkpoint) := by
  have hsource : ∀ item ∈ result.items, ∃ before ∈ items, before.origin = item.origin :=
    fun item hitem => List.mem_map.mp (origins.mem_iff.mp (List.mem_map_of_mem hitem))
  have hlisted : result.cancelled = false → result.aborted = false →
      ∀ before ∈ items, checkpoint.contains before.id = true := by
    intro huncancelled hunaborted before hbefore
    obtain ⟨item, hitem, horigin⟩ :=
      List.mem_map.mp (origins.mem_iff.mpr (List.mem_map_of_mem hbefore))
    rw [contains_of_taken (taken item hitem) horigin,
      complete huncancelled hunaborted item hitem]
    rfl
  constructor
  case called => exact fun s id run call => left_of_call pending store origins taken run call
  case calls =>
    intro s other run returned huncancelled hunaborted item hitem hleft
    obtain ⟨orderly, calling⟩ := orderly_of_reaches pending run
    obtain ⟨before, hbefore, horigin⟩ := hsource item hitem
    rw [← Item.id_of_origin horigin]
    refine called_of_returned orderly calling (waiting_distinct distinct) returned huncancelled
      hunaborted before ((mem_waiting store).mpr ⟨hbefore, ?_⟩)
    rw [contains_of_taken (taken item hitem) horigin.symm, hleft]
    rfl
  case restores =>
    intro s other run returned item hitem hkept
    obtain ⟨orderly, -⟩ := orderly_of_reaches pending run
    obtain ⟨before, hbefore, horigin⟩ := hsource item hitem
    have hcontains : checkpoint.contains before.id = true := by
      rw [contains_of_taken (taken item hitem) horigin.symm, hkept]
      rfl
    have hmem := mem_restored store hbefore hcontains
    rw [← orderly.conserved.restored] at hmem
    exact ⟨before, hbefore, _, (mem_returned orderly returned).mpr (.inl hmem),
      takesOver_restored (taken item hitem) hkept horigin _⟩
  case mute =>
    intro huncancelled hunaborted s id run
    by_contra hsome
    obtain ⟨item, hitem, -, hleft⟩ :=
      left_of_call pending store origins taken run (Nat.pos_of_ne_zero hsome)
    rw [complete huncancelled hunaborted item hitem] at hleft
    cases hleft
  case counts =>
    intro huncancelled hunaborted s other run returned
    have hall := hlisted huncancelled hunaborted
    have hitems := items_of_complete pending distinct store hall run returned
    constructor
    · refine Workload.countStatus_of_perm ((hitems.map _).trans ?_)
      exact statuses_of_complete store origins taken (complete huncancelled hunaborted) hall
    · exact List.countP_eq_length.mpr fun again hagain =>
        resumed_restored again (hitems.mem_iff.mp hagain)
  case returns =>
    intro huncancelled hunaborted stage roomy
    exact returns_of_idle stage (waiting_of_complete store (hlisted huncancelled hunaborted)) rfl
      rfl rfl roomy

end Second

section Both

variable {items : List Item} {start : Start} {store : CheckpointStore} {tree : Tree}
  {path : Path} {begun r last : Relay} {result : Returned}

theorem filed_of_begin?
    (pending : ∀ item ∈ items, item.status = .pending)
    (hasStore : start.setup.hasStore = true)
    (interval : start.setup.settings.checkpointInterval ≠ 0)
    (h : start.begin? items store tree = some begun) :
    ∃ checkpoint, Filed store.path checkpoint (start.first items checkpoint) begun := by
  obtain ⟨checkpoint, hread, rfl⟩ := Start.begin?_eq_some h
  refine ⟨checkpoint, rfl, ⟨checkpoint.savedAt, hread, ?_⟩,
    keeping_opened hasStore interval pending⟩
  rintro known ⟨⟩
  rfl

/-- Once a run has returned, another run over the same items begins with the file.  It calls for
the items that were left, and takes over the others. -/
theorem rerun_of_follows
    (pending : ∀ item ∈ items, item.status = .pending)
    (distinct : (items.map Item.id).Nodup)
    (hasStore : start.setup.hasStore = true)
    (interval : start.setup.settings.checkpointInterval ≠ 0)
    (begins : start.begin? items store tree = some begun)
    (run : Follows store.path begun last)
    (returned : last.run.stage = .returned (.ok result))
    (again : Start)
    (other : CheckpointStore)
    (hasAgain : again.setup.hasStore = true)
    (valid : again.setup.settings.fault? = none)
    (same : other.path = store.path) :
    ∃ second, again.begin? items other last.tree = some second ∧
      Rerun items result second.run := by
  obtain ⟨checkpoint, hbegun⟩ := filed_of_begin? pending hasStore interval begins
  have filed := filed_of_follows run hbegun
  have orderly := filed.keeping.toOrderly
  obtain ⟨savedAt, tracks⟩ := filed.tracks
  have hread : Checkpoint.read other.path last.tree = .ok { last.run.saved with savedAt } := by
    rw [same, ← filed.path]
    exact tracks.file
  refine ⟨_, Start.begin?_of_read items valid hread, ?_⟩
  have htaken : ∀ item ∈ result.items, Taken { last.run.saved with savedAt } item :=
    fun item hitem =>
      have taken := taken_of_filed filed hasStore distinct returned item hitem
      ⟨taken.listed, taken.status, taken.location⟩
  exact rerun_of_taken pending distinct hasAgain (origins_of_returned orderly returned) htaken
    (isLeft_of_returned filed hasStore distinct returned)

/-- A run with its file after some actions, all at the same time. -/
def Relay.follow? (now : Timestamp) (r : Relay) : List Action → Option Relay
  | [] => some r
  | action :: rest =>
    match r.act? now action with
    | some next => next.follow? now rest
    | none => none

theorem follows_of_follow?
    {now : Timestamp} {actions : List Action}
    (civil : now.Civil)
    (before : Follows path begun r)
    (h : r.follow? now actions = some last) :
    Follows path begun last := by
  induction actions generalizing r with
  | nil =>
      cases h
      exact before
  | cons action actions ih =>
      rw [Relay.follow?] at h
      split at h
      case h_1 next hnext => exact ih (before.acts civil hnext) h
      case h_2 => cases h

/-- One item at a time, without records, and with a checkpoint at the end. -/
def atTheEnd : Start where
  setup :=
    { settings := { mode := .sequential, deduplicate := true, checkpointInterval := 1000 }
      hasStore := true }
  monitor := { settings := { windowSize := 1 } }

/-- Steps that process an item whose result is empty. -/
def processesNumber (number : Nat) : List Action :=
  [.takePermit, .spawn, .task number (.resume none), .task number (.reply (.value .null))]
    ++ List.replicate 4 (.task number (.resume none))

/-- Of three items the first succeeds, the second is its duplicate, and the third is left. -/
def leavesThird : List Action :=
  processesNumber 0 ++ processesNumber 1 ++ [.cancel, .skipNext none, .flush, .close none]

/-- Another run takes over the first two and calls only for the third. -/
theorem rerun_of_leavesThird :
    ∃ begun last result second,
      atTheEnd.begin? threeItems { path := ⟨"checkpoint.json"⟩ } {} = some begun ∧
      Follows ⟨"checkpoint.json"⟩ begun last ∧ last.run.stage = .returned (.ok result) ∧
      atTheEnd.begin? threeItems { path := ⟨"checkpoint.json"⟩ } last.tree = some second ∧
      second.run.restored.map (fun item => (item.id, item.status)) =
        [("1", .success), ("2", .skipped)] ∧
      Rerun threeItems result second.run := by
  have hends : ((atTheEnd.begin? threeItems { path := ⟨"checkpoint.json"⟩ } {}).bind fun begun =>
      (begun.follow? ⟨0, 0⟩ leavesThird).bind fun last =>
        last.run.returned?.bind fun _ =>
          (atTheEnd.begin? threeItems { path := ⟨"checkpoint.json"⟩ } last.tree).map fun second =>
            second.run.restored.map fun item => (item.id, item.status)) =
      some [("1", .success), ("2", .skipped)] := by
    decide +kernel
  obtain ⟨begun, hbegun, hrest⟩ := Option.bind_eq_some_iff.mp hends
  obtain ⟨last, hlast, hrest⟩ := Option.bind_eq_some_iff.mp hrest
  obtain ⟨result, hreturned, hrest⟩ := Option.bind_eq_some_iff.mp hrest
  obtain ⟨second, hsecond, hrestored⟩ := Option.map_eq_some_iff.mp hrest
  have hfollows : Follows ⟨"checkpoint.json"⟩ begun last :=
    follows_of_follow? ⟨by decide, .inl (by decide)⟩ .here hlast
  obtain ⟨other, hother, hrerun⟩ := rerun_of_follows (by decide) (by decide) rfl (by decide) hbegun
    hfollows (stage_of_returned? hreturned) atTheEnd ⟨⟨"checkpoint.json"⟩, none⟩ rfl
    (by decide +kernel) rfl
  cases hother.symm.trans hsecond
  exact ⟨begun, last, result, second, hbegun, hfollows, stage_of_returned? hreturned, hsecond,
    hrestored, hrerun⟩

end Both

end Run
end BatchRun
