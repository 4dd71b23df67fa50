import BatchRun.Proofs.Checkpoint.History
import BatchRun.Proofs.Run.Progress
import BatchRun.Proofs.Run.Resumption
import Mathlib.Data.List.ReduceOption

/-!
# Relays of runs

Runs over the same items take over from one another what their checkpoint file lists.

**Types.**
A `Workload` is what all the runs have in common, an `Opening` what each of them begins with.  A
`Relay` is a run with the file it writes to and the events of the runs before it.  Another run may
begin at any point: after the one before has returned, cancelled or not, or has been given up.

**Invariant.**
The file holds what the run knows to be listed, and its checkpoint leads every item to the status
to which the first checkpoint led it (`Sound`).

**Results.**
* `sound_of_next`: each step of a relay keeps the invariant.
* `calls_of_next`: no step calls for an item that the file lists.
* `statuses_of_sound`: a run that was not cancelled returns the outcomes of the first checkpoint.
* `resumed_of_leads`: what a relay of any number of runs comes to.
-/

namespace BatchRun
namespace Run

open Storage
open Time

/-- Items, the file of their checkpoint, and the executor. -/
structure Workload where
  items : List Item
  path : Path
  service : Service
  pending : ∀ item ∈ items, item.status = .pending
  distinct : (items.map Item.id).Nodup

/-- What a run begins with, apart from its items and its checkpoint. -/
structure Opening (service : Service) where
  setup : Setup
  throttle : Throttle := {}
  registry : Registry := {}
  monitor : Monitor := {}
  clock : Nat := 0
  suits : service.Suits setup
  sink : setup.hasSink = true
  store : setup.hasStore = true
  interval : setup.settings.checkpointInterval ≠ 0

namespace Opening

variable {service : Service}

/-- First state of a run over items with a checkpoint. -/
def first (opening : Opening service) (items : List Item) (checkpoint : Checkpoint) : State :=
  .opened opening.setup items checkpoint opening.throttle opening.registry opening.monitor
    opening.clock

/-- A run can go on from its first state up to its end. -/
structure Feasible (opening : Opening service) : Prop where
  valid : opening.setup.settings.fault? = none
  slots : opening.setup.settings.slots < unboundedPermits
  roomy : opening.monitor.Roomy farFuture

end Opening

/-- A run, the file it writes to, and what was seen before it began. -/
structure Relay where
  tree : Tree
  store : CheckpointStore
  run : State
  past : List (Nat × Event)

namespace Relay

/-- All events, the last one first. -/
def events (r : Relay) : List (Nat × Event) := r.run.events ++ r.past

/-- Number of calls for an item so far. -/
def calls (r : Relay) (id : String) : Nat := callsIn r.events id

/-- The run has returned without having been cancelled. -/
def Completes (r : Relay) (result : Returned) : Prop :=
  r.run.stage = .returned (.ok result) ∧ result.cancelled = false

/-- The relay after an action of its run that lists its entries in the file. -/
def act? (r : Relay) (now : Timestamp) (action : Action) : Option Relay :=
  match r.run.step? action, r.store.appendAll r.tree (r.run.listing action) now with
  | some run, (store, tree, none) => some { r with run, store, tree }
  | _, _ => none

variable {r next : Relay} {path : Path} {tree : Tree} {checkpoint : Checkpoint}

theorem act?_eq_some
    {now : Timestamp} {action : Action}
    (h : r.act? now action = some next) :
    ∃ run store tree, r.run.step? action = some run ∧
      r.store.appendAll r.tree (r.run.listing action) now = (store, tree, none) ∧
      next = { r with run, store, tree } := by
  unfold Relay.act? at h
  split at h
  case h_1 run store tree hstep hwritten =>
      cases h
      exact ⟨run, store, tree, hstep, hwritten, rfl⟩
  case h_2 => cases h

/-- A run begins with what its store loads. -/
theorem initial?_of_load
    {setup : Setup} {items : List Item} {throttle : Throttle} {registry : Registry}
    {monitor : Monitor} {clock : Nat} {run : State} {store loaded : CheckpointStore}
    {saved : Except CheckpointFault Checkpoint}
    (hload : store.load tree = (loaded, saved))
    (h : State.initial? setup items saved throttle registry monitor clock = .ok run) :
    ∃ checkpoint, Checkpoint.read store.path tree = .ok checkpoint ∧
      loaded = store.remember checkpoint ∧
      run = .opened setup items checkpoint throttle registry monitor clock := by
  obtain ⟨checkpoint, rfl, -, rfl⟩ := opened_of_initial? h
  obtain ⟨hread, rfl⟩ := CheckpointStore.load_eq_ok hload
  exact ⟨checkpoint, hread, rfl, rfl⟩

/-- After a step the file holds what the run knows to be listed, if it did so before. -/
theorem tracks_of_act?
    {now : Timestamp} {action : Action} {savedAt : Option Timestamp}
    (tracks : CheckpointStore.Solo.Tracks ⟨r.tree, r.store⟩ { r.run.saved with savedAt })
    (civil : now.Civil)
    (h : r.act? now action = some next) :
    next.store.path = r.store.path ∧ ∃ savedAt,
      CheckpointStore.Solo.Tracks ⟨next.tree, next.store⟩ { next.run.saved with savedAt } := by
  obtain ⟨run, store, tree, hstep, hwritten, rfl⟩ := act?_eq_some h
  refine ⟨CheckpointStore.path_of_appendAll hwritten, ?_⟩
  rw [saved_of_transition (transition_of_step? hstep)]
  exact CheckpointStore.Solo.tracks_of_appendAll tracks civil hwritten

/-- A change of other files does not matter. -/
theorem tracks_of_kept
    (tracks : CheckpointStore.Solo.Tracks ⟨r.tree, r.store⟩ checkpoint)
    (hpath : r.store.path = path)
    (kept : tree.read path = r.tree.read path) :
    CheckpointStore.Solo.Tracks ⟨tree, r.store⟩ checkpoint := by
  refine ⟨?_, tracks.remembered⟩
  have hfile := tracks.file
  unfold Checkpoint.read at hfile ⊢
  simp only [hpath] at hfile ⊢
  rw [kept]
  exact hfile

end Relay

/-- Whether the files that a run writes answer without a fault. -/
def Action.isWritten : Action → Bool
  | task _ (.persist (.error _)) => false
  | task _ (.save (some _)) => false
  | close (some _) => false
  | _ => true

/-- Whether an action is such that calls give an empty result and files answer without a fault. -/
def Action.isPlain : Action → Bool
  | task _ (.reply (.value .null)) => true
  | task _ (.reply _) => false
  | task _ .expire => false
  | action => action.isWritten

namespace Workload

/-- Status to which the executor leads an item. -/
def final (w : Workload) (id : String) : Status :=
  w.service.status id (((w.items.find? fun item => item.id == id).map Item.attempts).getD 0 + 1)

/-- What the executor and the files allow. -/
structure Grants (w : Workload) (s : State) (action : Action) : Prop where
  serves : w.service.Serves s action
  written : action.isWritten = true

/-- Begins a run with what its store loads. -/
def begin? (w : Workload) (store : CheckpointStore) (tree : Tree) (opening : Opening w.service)
    (past : List (Nat × Event)) : Option Relay :=
  match store.load tree with
  | (store, saved) =>
    match State.initial? opening.setup w.items saved opening.throttle opening.registry
        opening.monitor opening.clock with
    | .ok run => some { tree, store, run, past }
    | .error _ => none

/-- The file lists an item. -/
def Lists (w : Workload) (r : Relay) (id : String) : Prop :=
  ∃ checkpoint, Checkpoint.read w.path r.tree = .ok checkpoint ∧ checkpoint.contains id = true

/-- A step of a relay. -/
inductive Next (w : Workload) (r : Relay) : Relay → Prop
  | acts
      {next : Relay} {action : Action} {now : Timestamp}
      (grants : w.Grants r.run action)
      (civil : now.Civil)
      (h : r.act? now action = some next) :
      Next w r next
  /-- Other files change. -/
  | changes
      {tree : Tree}
      (kept : tree.read w.path = r.tree.read w.path) :
      Next w r { r with tree }
  /-- Another run begins, whatever its store remembers. -/
  | restarts
      {next : Relay} {store : CheckpointStore} {opening : Opening w.service}
      (path : store.path = w.path)
      (h : w.begin? store r.tree opening r.events = some next) :
      Next w r next

/-- Any number of steps of a relay. -/
inductive Leads (w : Workload) (first : Relay) : Relay → Prop
  | here : Leads w first first
  | step {r next : Relay} (before : Leads w first r) (h : w.Next r next) : Leads w first next

section Items

variable {w : Workload} {item : Item}

theorem isTerminal_final
    (w : Workload)
    (id : String) :
    (w.final id).isTerminal = true := by
  unfold final Service.status
  rcases Service.verdict_isSettled (w.service.reply id) _ _ with h | h <;> rw [h] <;> rfl

/-- The attempts for an item lead to its final status from the first one on. -/
theorem expects_of_mem
    (h : item ∈ w.items) :
    w.service.Expects w.final item .pending (item.attempts + 1) := by
  refine ⟨w.pending item h, ?_⟩
  unfold final
  cases hfind : w.items.find? (fun other => other.id == item.id) with
  | none =>
      have hnone := List.find?_eq_none.mp hfind item h
      simp at hnone
  | some other =>
      have hid : other.id = item.id := by simpa using List.find?_some hfind
      have hsame : other = item :=
        List.inj_on_of_nodup_map w.distinct (List.mem_of_find?_eq_some hfind) h hid
      rw [hsame]
      rfl

end Items

/-- What is known of a relay over a file that held a checkpoint at first. -/
structure Sound (w : Workload) (initial : Checkpoint) (r : Relay) : Prop where
  path : r.store.path = w.path
  tracks : ∃ savedAt, CheckpointStore.Solo.Tracks ⟨r.tree, r.store⟩ { r.run.saved with savedAt }
  resumes : ∃ (opening : Opening w.service) (checkpoint : Checkpoint),
    Resumes w.service w.final checkpoint (opening.first w.items checkpoint) r.run ∧
      ∀ id, checkpoint.outcome w.final id = initial.outcome w.final id

section Steps

variable {w : Workload} {initial : Checkpoint} {r next : Relay} {id : String}

/-- A run begins with what is in the file. -/
theorem begin?_eq_some
    {store : CheckpointStore} {tree : Tree} {opening : Opening w.service}
    {past : List (Nat × Event)}
    (h : w.begin? store tree opening past = some next) :
    ∃ checkpoint, Checkpoint.read store.path tree = .ok checkpoint ∧
      next = ⟨tree, store.remember checkpoint, opening.first w.items checkpoint, past⟩ := by
  unfold begin? at h
  cases hload : store.load tree with
  | mk loaded saved =>
      simp only [hload] at h
      split at h
      case h_1 run hrun =>
          obtain ⟨checkpoint, hread, rfl, rfl⟩ := Relay.initial?_of_load hload hrun
          cases h
          exact ⟨checkpoint, hread, rfl⟩
      case h_2 => cases h

/-- A run whose checkpoint leads to the right outcomes begins a sound relay. -/
theorem sound_of_begin?
    {store : CheckpointStore} {tree : Tree} {opening : Opening w.service}
    {past : List (Nat × Event)}
    (path : store.path = w.path)
    (outcome : ∀ checkpoint, Checkpoint.read w.path tree = .ok checkpoint →
      ∀ id, checkpoint.outcome w.final id = initial.outcome w.final id)
    (h : w.begin? store tree opening past = some next) :
    Sound w initial next := by
  obtain ⟨checkpoint, hread, rfl⟩ := begin?_eq_some h
  refine ⟨path, ⟨checkpoint.savedAt, hread, ?_⟩, opening, checkpoint, ?_, ?_⟩
  · rintro known ⟨⟩
    rfl
  · exact resumes_opened opening.suits opening.sink opening.store opening.interval w.distinct
      fun item hitem => expects_of_mem hitem
  · exact outcome checkpoint (path ▸ hread)

/-- The file of a sound relay leads to the outcomes of the first checkpoint. -/
theorem outcome_of_read
    {checkpoint : Checkpoint}
    (sound : Sound w initial r)
    (h : Checkpoint.read w.path r.tree = .ok checkpoint) :
    checkpoint.outcome w.final id = initial.outcome w.final id := by
  obtain ⟨savedAt, tracks⟩ := sound.tracks
  obtain ⟨_, before, resumes, houtcome⟩ := sound.resumes
  have hfile := tracks.file
  rw [sound.path, h] at hfile
  cases hfile
  exact (resumes.steady id).trans (houtcome id)

theorem lists_iff
    (sound : Sound w initial r) :
    w.Lists r id ↔ r.run.saved.contains id = true := by
  obtain ⟨savedAt, tracks⟩ := sound.tracks
  have hfile := tracks.file
  rw [sound.path] at hfile
  constructor
  · rintro ⟨checkpoint, hread, hcontains⟩
    rw [hfile] at hread
    cases hread
    exact hcontains
  · exact fun hcontains => ⟨_, hfile, hcontains⟩

/-- Each step keeps the invariant. -/
theorem sound_of_next
    (sound : Sound w initial r)
    (h : w.Next r next) :
    Sound w initial next := by
  cases h with
  | acts grants civil h =>
      obtain ⟨savedAt, tracks⟩ := sound.tracks
      obtain ⟨opening, checkpoint, resumes, houtcome⟩ := sound.resumes
      obtain ⟨hpath, htracks⟩ := Relay.tracks_of_act? tracks civil h
      obtain ⟨run, store, tree, hstep, -, rfl⟩ := Relay.act?_eq_some h
      have hresumes := resumes_of_transition (transition_of_step? hstep) w.isTerminal_final
        grants.serves resumes
      exact ⟨hpath.trans sound.path, htracks, opening, checkpoint, hresumes, houtcome⟩
  | changes kept =>
      obtain ⟨savedAt, tracks⟩ := sound.tracks
      exact ⟨sound.path, ⟨savedAt, Relay.tracks_of_kept (r := r) tracks sound.path kept⟩, sound.resumes⟩
  | restarts path h =>
      -- A run that begins reads the file, whatever its store remembers.
      exact sound_of_begin? path (fun _ hread _ => outcome_of_read sound hread) h

/-- No step calls for an item that the file lists, and the file goes on listing it. -/
theorem calls_of_next
    (sound : Sound w initial r)
    (lists : w.Lists r id)
    (h : w.Next r next) :
    w.Lists next id ∧ next.calls id = r.calls id := by
  have hsound := sound_of_next sound h
  rw [lists_iff sound] at lists
  cases h with
  | acts grants civil h =>
      obtain ⟨run, store, tree, hstep, hwritten, rfl⟩ := Relay.act?_eq_some h
      obtain ⟨_, _, resumes, -⟩ := sound.resumes
      obtain ⟨lost, solvent⟩ := resumes.solvent
      have transition := transition_of_step? hstep
      refine ⟨(lists_iff hsound).mpr ?_, ?_⟩
      · rw [saved_of_transition transition, Checkpoint.contains_recordAll]
        exact .inl lists
      · have hcalls := calls_of_transition transition solvent lists
        unfold callsIn at hcalls
        simp only [Relay.calls, Relay.events, callsIn, List.countP_append, hcalls]
  | changes kept => exact ⟨(lists_iff hsound).mpr lists, rfl⟩
  | @restarts _ _ opening path h =>
      obtain ⟨checkpoint, hread, rfl⟩ := begin?_eq_some h
      -- A new run has only told that it begins.
      have hmute : ∀ event ∈ (opening.first w.items checkpoint).events,
          event.2.isCallFor id = false := List.forall_mem_singleton.mpr rfl
      obtain ⟨before, hbefore, hcontains⟩ := (lists_iff sound).mpr lists
      exact ⟨⟨before, hbefore, hcontains⟩, callsIn_eq hmute⟩

end Steps

section Relays

variable {w : Workload} {initial : Checkpoint} {first r last : Relay} {id : String}

theorem sound_of_leads
    (sound : Sound w initial first)
    (leads : w.Leads first last) :
    Sound w initial last := by
  induction leads with
  | here => exact sound
  | step _ h ih => exact sound_of_next ih h

theorem calls_of_leads
    (sound : Sound w initial first)
    (lists : w.Lists first id)
    (leads : w.Leads first last) :
    w.Lists last id ∧ last.calls id = first.calls id := by
  induction leads with
  | here => exact ⟨lists, rfl⟩
  | step before h ih =>
      obtain ⟨hlists, hcalls⟩ := ih
      obtain ⟨hnext, hsame⟩ := calls_of_next (sound_of_leads sound before) hlists h
      exact ⟨hnext, hsame.trans hcalls⟩

/-- A run that was not cancelled returns the outcomes of the first checkpoint. -/
theorem statuses_of_sound
    {result : Returned}
    (sound : Sound w initial last)
    (completes : last.Completes result) :
    (result.items.map fun item => (item.origin, item.status)).Perm
      (w.items.map fun item => (item.origin, initial.outcome w.final item.id)) := by
  obtain ⟨opening, checkpoint, resumes, houtcome⟩ := sound.resumes
  have hperm := statuses_of_returned opening.store resumes completes.1 completes.2
  simpa only [houtcome] using hperm

/-- A run can begin at any point of a sound relay, and it returns. -/
theorem returns_of_sound
    (sound : Sound w initial last)
    (opening : Opening w.service)
    (feasible : opening.Feasible) :
    ∃ next, w.begin? { path := w.path } last.tree opening last.events = some next ∧
      w.service.Returns next.run := by
  obtain ⟨savedAt, tracks⟩ := sound.tracks
  have hfile := tracks.file
  rw [sound.path] at hfile
  refine ⟨⟨last.tree, { path := w.path, remembered := some { last.run.saved with savedAt } },
    opening.first w.items { last.run.saved with savedAt }, last.events⟩, ?_, ?_⟩
  · unfold begin? CheckpointStore.load
    simp only [hfile, initial?_eq_ok feasible.valid]
    rfl
  · exact returns_of_flowing (flowing_opened opening.suits (fun item hitem => expects_of_mem hitem)
      feasible.valid feasible.slots feasible.roomy)

/-- What a relay has come to that began with a tree. -/
structure Resumed (w : Workload) (tree : Tree) (last : Relay) : Prop where
  /-- A run that was not cancelled takes over what was listed at first, and the replies of the
  executor decide the rest. -/
  statuses : ∀ initial result, Checkpoint.read w.path tree = .ok initial → last.Completes result →
    (result.items.map fun item => (item.origin, item.status)).Perm
      (w.items.map fun item => (item.origin, initial.outcome w.final item.id))
  /-- Runs that were not cancelled return the same, however many others went before. -/
  agrees : ∀ opening start single result other,
    w.begin? { path := w.path } tree opening [] = some start → w.Leads start single →
    single.Completes other → last.Completes result →
    (result.items.map fun item => (item.origin, item.status)).Perm
        (other.items.map fun item => (item.origin, item.status)) ∧
      ∀ status, JobOutcome.countStatus status result.items =
        JobOutcome.countStatus status other.items
  /-- There is no call for an item that the file lists. -/
  calls : ∀ id later, w.Lists last id → w.Leads last later → later.calls id = last.calls id
  /-- A run can take over, and it returns. -/
  returns : ∀ opening : Opening w.service, opening.Feasible →
    ∃ next, w.begin? { path := w.path } last.tree opening last.events = some next ∧
      w.service.Returns next.run

theorem countStatus_of_perm
    {items others : List Item}
    (h : (items.map fun item => (item.origin, item.status)).Perm
      (others.map fun item => (item.origin, item.status)))
    (status : Status) :
    JobOutcome.countStatus status items = JobOutcome.countStatus status others := by
  have hcount := h.countP_eq fun pair => pair.2 == status
  rwa [List.countP_map, List.countP_map] at hcount

theorem sound_of_start
    {tree : Tree} {opening : Opening w.service}
    (found : Checkpoint.read w.path tree = .ok initial)
    (begun : w.begin? { path := w.path } tree opening [] = some first) :
    Sound w initial first := by
  refine sound_of_begin? rfl (fun checkpoint hread id => ?_) begun
  rw [found] at hread
  cases hread
  rfl

/-- However many runs are cancelled or given up before, the last one returns what a single one
returns, and nothing that the file lists is called for again. -/
theorem resumed_of_leads
    {tree : Tree} {opening : Opening w.service}
    (begun : w.begin? { path := w.path } tree opening [] = some first)
    (leads : w.Leads first last) :
    Resumed w tree last := by
  obtain ⟨initial, hread, -⟩ := begin?_eq_some begun
  have hsound := sound_of_leads (sound_of_start hread begun) leads
  refine ⟨?_, ?_, fun id later hlists hlater => (calls_of_leads hsound hlists hlater).2,
    returns_of_sound hsound⟩
  · intro checkpoint result hfound hresult
    have hsame := sound_of_leads (sound_of_start hfound begun) leads
    exact statuses_of_sound hsame hresult
  · intro opening start single result other hstart hsingle hother hresult
    have hsame := sound_of_leads (sound_of_start hread hstart) hsingle
    have hstatuses := statuses_of_sound hsame hother
    have hperm := (statuses_of_sound hsound hresult).trans hstatuses.symm
    exact ⟨hperm, countStatus_of_perm hperm⟩

/-- The relay after some actions, and after another run has begun in the place of each `none`. -/
def follow? (w : Workload) (opening : Opening w.service) (now : Timestamp) (r : Relay) :
    List (Option Action) → Option Relay
  | [] => some r
  | some action :: rest =>
    match r.act? now action with
    | some next => w.follow? opening now next rest
    | none => none
  | none :: rest =>
    match w.begin? { path := w.path } r.tree opening r.events with
    | some next => w.follow? opening now next rest
    | none => none

theorem leads_of_follow?
    {opening : Opening w.service} {now : Timestamp} {steps : List (Option Action)}
    (civil : now.Civil)
    (grants : ∀ action, some action ∈ steps → ∀ s, w.Grants s action)
    (before : w.Leads first r)
    (h : w.follow? opening now r steps = some last) :
    w.Leads first last := by
  induction steps generalizing r with
  | nil =>
      cases h
      exact before
  | cons step rest ih =>
      have hrest : ∀ action, some action ∈ rest → ∀ s, w.Grants s action := fun action haction =>
        grants action (List.mem_cons_of_mem step haction)
      cases step with
      | some action =>
          rw [follow?] at h
          split at h
          case h_1 next hnext =>
              have hgrants := grants action List.mem_cons_self r.run
              exact ih hrest (before.step (.acts hgrants civil hnext)) h
          case h_2 => cases h
      | none =>
          rw [follow?] at h
          split at h
          case h_1 next hnext => exact ih hrest (before.step (.restarts rfl hnext)) h
          case h_2 => cases h

theorem grants_of_isPlain
    {s : State} {action : Action}
    (replies : ∀ id attempt, w.service.reply id attempt = .value .null)
    (plain : action.isPlain = true) :
    w.Grants s action := by
  cases action with
  | task number move =>
      cases move with
      | reply reply =>
          cases reply with
          | value result =>
              cases result with
              | null => exact ⟨fun _ _ => (replies _ _).symm, rfl⟩
              | _ => cases plain
          | _ => cases plain
      | expire => cases plain
      | _ => exact ⟨trivial, plain⟩
  | _ => exact ⟨trivial, plain⟩

/-- Two items, for which every call gives the same result. -/
def twoCalls : Workload where
  items := twoItems
  path := ⟨"checkpoint.json"⟩
  service := ⟨fun _ _ => .value .null, 3⟩
  pending := by decide
  distinct := by decide

/-- A run over them, one at a time. -/
def oneCall : Opening twoCalls.service where
  setup := oneByOne
  suits := ⟨rfl, rfl, rfl⟩
  sink := rfl
  store := rfl
  interval := by decide

/-- A run is cancelled after its first item, and another one begins. -/
def takesOver : List (Option Action) :=
  (processesOne.take 9).map some
    ++ [some .cancel, some (.skipNext none), some .flush, some (.close none), none]
    ++ processesOne.map some

/-- The second run processes what the first one left, and returns. -/
theorem resumed_of_takesOver :
    ∃ first last result, twoCalls.begin? { path := twoCalls.path } {} oneCall [] = some first ∧
      twoCalls.Leads first last ∧ last.Completes result ∧
      last.calls "1" = 1 ∧ last.calls "2" = 1 ∧ Resumed twoCalls {} last := by
  have hplain : ∀ action ∈ takesOver.reduceOption, action.isPlain = true := by decide
  have hgrants : ∀ action, some action ∈ takesOver → ∀ s, twoCalls.Grants s action :=
    fun action haction s => grants_of_isPlain (fun _ _ => rfl)
      (hplain action (List.reduceOption_mem_iff.mpr haction))
  have hends : ((twoCalls.begin? { path := twoCalls.path } {} oneCall []).bind fun first =>
      (twoCalls.follow? oneCall ⟨0, 0⟩ first takesOver).bind fun last =>
        last.run.returned?.map fun result =>
          (result.cancelled, last.calls "1", last.calls "2")) = some (false, 1, 1) := by
    decide +kernel
  obtain ⟨first, hfirst, hrest⟩ := Option.bind_eq_some_iff.mp hends
  obtain ⟨last, hlast, hresult⟩ := Option.bind_eq_some_iff.mp hrest
  obtain ⟨result, hreturned, hcalls⟩ := Option.map_eq_some_iff.mp hresult
  obtain ⟨huncancelled, hone, htwo⟩ : result.cancelled = false ∧ last.calls "1" = 1 ∧
      last.calls "2" = 1 := by simpa using hcalls
  have hleads := leads_of_follow? ⟨by decide, .inl (by decide)⟩ hgrants .here hlast
  exact ⟨first, last, result, hfirst, hleads, ⟨stage_of_returned? hreturned, huncancelled⟩, hone,
    htwo, resumed_of_leads hfirst hleads⟩

end Relays

end Workload
end Run
end BatchRun
