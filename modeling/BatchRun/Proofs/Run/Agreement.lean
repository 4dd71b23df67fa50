import BatchRun.Proofs.Run.Relay
import BatchRun.Proofs.Run.Upshots
import Mathlib.Data.List.Perm.Basic

/-!
# Agreement of runs

Two runs over the same items do the same to them, one at a time or several at a time, in whatever
order their tasks go on, and whatever they wait for.  Only which one of several items with the same
result succeeds is left to the order.

**Types.**
A `Performance` is a run over items that returns, with all that it began with; nothing of that has
to be the same in another one but the number of attempts and whether results are compared.
`Fulfills` is what such a run makes of its items.  Two runs are in `Agreement` if their items differ
in nothing but the winners of results.

**Results.**
* `fulfills_of_performance`: every item is answered, and every result has one winner.
* `perm_of_paired`: what is the same for each item is the same for all, up to their order.
* `agreement_of_performances`: any two runs are in agreement.
-/

namespace BatchRun

/-- Digest of the result with which an item has succeeded. -/
def Item.digest? (item : Item) : Option Text.Bytes :=
  if item.status = .success then item.result.map Json.digest else none

namespace Run

/-- A run over items that returns, in the hands of an executor and without a checkpoint. -/
structure Performance (service : Service) (deduplicate : Bool) (items : List Item) where
  setup : Setup
  checkpoint : Checkpoint := {}
  throttle : Throttle := {}
  registry : Registry := {}
  monitor : Monitor := {}
  clock : Nat := 0
  first : State
  last : State
  result : Returned
  goesOn : setup.settings.continueOnError = true
  compares : setup.settings.deduplicate = deduplicate
  limit : setup.settings.retry.maxAttempts = service.limit
  storeless : setup.hasStore = false
  fresh : deduplicate = true → registry = {}
  opened : State.initial? setup items (.ok checkpoint) throttle registry monitor clock = .ok first
  run : service.Reaches first last
  returned : last.stage = .returned (.ok result)
  uncancelled : result.cancelled = false

/-- Items that a run returned have come to their upshots. -/
structure Fulfills (service : Service) (deduplicate : Bool) (items returned : List Item) :
    Prop where
  origins : (returned.map Item.origin).Perm (items.map Item.origin)
  answered : ∀ item ∈ returned, ∃ before ∈ items, Answered service deduplicate before item
  /-- Every result has a winner, -/
  winners : deduplicate = true → ∀ before ∈ items, ∀ result,
    (service.answer before).outcome = .ok result →
    ∃ item ∈ returned, ∃ other, Won item other ∧ other.digest = result.digest
  /-- and only one. -/
  single : deduplicate = true → ∀ a ∈ returned, ∀ b ∈ returned, ∀ x y, Won a x → Won b y →
    x.digest = y.digest → a.id = b.id

/-- Canonical texts of the results with which items have succeeded. -/
def wonTexts (items : List Item) : Set String :=
  {text | ∃ item ∈ items, ∃ result, Won item result ∧ result.canonical = text}

/-- Results of an executor for some items have different digests if their texts are different. -/
def Service.Apart (service : Service) (items : List Item) : Prop :=
  ∀ a ∈ items, ∀ b ∈ items, ∀ x y, (service.answer a).outcome = .ok x →
    (service.answer b).outcome = .ok y → x.digest = y.digest → x.canonical = y.canonical

/-- Two runs over the same items have done the same. -/
structure Agreement (service : Service) (deduplicate : Bool) (items a b : List Item) : Prop where
  origins : (a.map Item.origin).Perm (b.map Item.origin)
  attempts : ∀ x ∈ a, ∀ y ∈ b, x.id = y.id → x.attempts = y.attempts
  /-- Where results are not compared, every item ends in one way. -/
  ends : deduplicate = false → ∀ x ∈ a, ∀ y ∈ b, x.id = y.id →
    x.status = y.status ∧ x.result = y.result ∧ x.failure = y.failure
  counts : ∀ status, JobOutcome.countStatus status a = JobOutcome.countStatus status b
  failures : ∀ x ∈ a, ∀ y ∈ b, x.id = y.id →
    (x.status = .failed ↔ y.status = .failed) ∧ (x.status = .failed → x.failure = y.failure)
  /-- Whichever items win them, the results are the same, -/
  digests : (a.filterMap Item.digest?).Perm (b.filterMap Item.digest?)
  /-- and so are their texts, unless two of them have one digest. -/
  texts : service.Apart items → wonTexts a = wonTexts b

section Items

variable {service : Service} {deduplicate : Bool} {items returned a b : List Item}
  {before item x y : Item} {result : Json}

theorem digest?_eq_some
    {digest : Text.Bytes} :
    item.digest? = some digest ↔ ∃ result, Won item result ∧ result.digest = digest := by
  unfold Item.digest?
  constructor
  · intro h
    split at h
    case isTrue hstatus =>
        obtain ⟨result, hresult, hdigest⟩ := Option.map_eq_some_iff.mp h
        exact ⟨result, ⟨hstatus, hresult⟩, hdigest⟩
    case isFalse => cases h
  · rintro ⟨result, hwon, rfl⟩
    rw [if_pos hwon.status, hwon.result]
    rfl

theorem Settles.isTerminal
    {outcome : Except AttemptFailure Json}
    (settles : Settles deduplicate before item outcome) :
    item.isTerminal = true := by
  cases settles with
  | fails status | succeeds status | repeats _ status => rw [Item.isTerminal, status]; rfl

/-- The result of an item that has succeeded is its last outcome. -/
theorem outcome_of_won
    {outcome : Except AttemptFailure Json}
    (settles : Settles deduplicate before item outcome)
    (won : Won item result) :
    outcome = .ok result := by
  cases settles with
  | fails status | repeats _ status => cases won.status.symm.trans status
  | succeeds _ noted => rw [Option.some.inj (noted.symm.trans won.result)]

/-- Where duplicates do not matter, an upshot leaves one end. -/
theorem ends_of_settles
    {outcome : Except AttemptFailure Json}
    (hx : Settles false before x outcome)
    (hy : Settles false before y outcome) :
    x.status = y.status ∧ x.result = y.result ∧ x.failure = y.failure := by
  cases hx with
  | fails status result noted =>
      cases hy with
      | fails status' result' noted' =>
          exact ⟨status.trans status'.symm, result.trans result'.symm, noted.trans noted'.symm⟩
  | succeeds status noted failure =>
      cases hy with
      | succeeds status' noted' failure' =>
          exact ⟨status.trans status'.symm, noted.trans noted'.symm, failure.trans failure'.symm⟩
      | repeats on => cases on
  | repeats on => cases on

/-- Failures are the same in any case. -/
theorem failures_of_settles
    {outcome : Except AttemptFailure Json}
    (hx : Settles deduplicate before x outcome)
    (hy : Settles deduplicate before y outcome) :
    (x.status = .failed ↔ y.status = .failed) ∧ (x.status = .failed → x.failure = y.failure) := by
  cases hx with
  | fails status _ noted =>
      cases hy with
      | fails status' _ noted' => simp [status, status', noted, noted']
  | succeeds status | repeats _ status =>
      cases hy with
      | succeeds status' | repeats _ status' => simp [status, status']

/-- An item that has succeeded has a result. -/
theorem isSome_digest?
    {outcome : Except AttemptFailure Json}
    (settles : Settles deduplicate before item outcome) :
    item.digest?.isSome = (item.status == .success) := by
  cases settles with
  | fails status | repeats _ status => simp [Item.digest?, status]
  | succeeds status noted => simp [Item.digest?, status, noted]

/-- Two items with one id have come to one upshot. -/
theorem paired_of_fulfills
    (distinct : (items.map Item.id).Nodup)
    (ha : Fulfills service deduplicate items a)
    (hb : Fulfills service deduplicate items b)
    (hx : x ∈ a)
    (hy : y ∈ b)
    (id : x.id = y.id) :
    ∃ before, Answered service deduplicate before x ∧ Answered service deduplicate before y := by
  obtain ⟨before, hbefore, hanswered⟩ := ha.answered x hx
  obtain ⟨other, hother, hanswered'⟩ := hb.answered y hy
  have hid : before.id = other.id := by
    rw [← Item.id_of_origin hanswered.origin, id, Item.id_of_origin hanswered'.origin]
  cases List.inj_on_of_nodup_map distinct hbefore hother hid
  exact ⟨before, hanswered, hanswered'⟩

theorem distinct_of_fulfills
    (distinct : (items.map Item.id).Nodup)
    (h : Fulfills service deduplicate items returned) :
    (returned.map Item.id).Nodup := by
  have hperm := h.origins.map Prod.fst
  rw [List.map_map, List.map_map] at hperm
  exact hperm.nodup_iff.mpr distinct

/-- What is the same for each item is the same for all of them, up to their order. -/
theorem perm_of_paired
    {β : Type} {f : Item → β}
    (distinct : (a.map Item.id).Nodup)
    (origins : (a.map Item.origin).Perm (b.map Item.origin))
    (same : ∀ x ∈ a, ∀ y ∈ b, x.id = y.id → f x = f y) :
    (a.map f).Perm (b.map f) := by
  have hnodup : (a.map fun x => (x.id, f x)).Nodup := by
    refine .of_map Prod.fst ?_
    rwa [List.map_map]
  have hsub : (a.map fun x => (x.id, f x)) ⊆ b.map fun y => (y.id, f y) := by
    intro pair hpair
    obtain ⟨x, hx, rfl⟩ := List.mem_map.mp hpair
    obtain ⟨y, hy, horigin⟩ := List.mem_map.mp (origins.mem_iff.mp (List.mem_map_of_mem hx))
    have hid := Item.id_of_origin horigin
    refine List.mem_map.mpr ⟨y, hy, ?_⟩
    rw [hid, same x hx y hy hid.symm]
  have hlength : b.length ≤ a.length := by
    simpa using origins.length_eq.ge
  have hperm := (List.subperm_of_subset hnodup hsub).perm_of_length_le (by simpa using hlength)
  have hmap := hperm.map Prod.snd
  rwa [List.map_map, List.map_map] at hmap

/-- The digests of won results are those of all results that there were. -/
theorem won_iff
    (h : Fulfills service true items returned)
    (digest : Text.Bytes) :
    (∃ item ∈ returned, item.digest? = some digest) ↔
      ∃ before ∈ items, ∃ result, (service.answer before).outcome = .ok result ∧
        result.digest = digest := by
  constructor
  · rintro ⟨item, hitem, hdigest⟩
    obtain ⟨result, hwon, rfl⟩ := digest?_eq_some.mp hdigest
    obtain ⟨before, hbefore, hanswered⟩ := h.answered item hitem
    exact ⟨before, hbefore, result, outcome_of_won hanswered.settles hwon, rfl⟩
  · rintro ⟨before, hbefore, result, houtcome, rfl⟩
    obtain ⟨item, hitem, other, hwon, hdigest⟩ := h.winners rfl before hbefore result houtcome
    exact ⟨item, hitem, digest?_eq_some.mpr ⟨other, hwon, hdigest⟩⟩

theorem nodup_digests
    (distinct : (items.map Item.id).Nodup)
    (h : Fulfills service true items returned) :
    (returned.filterMap Item.digest?).Nodup := by
  refine List.pairwise_filterMap.mpr ?_
  refine (List.pairwise_map.mp (distinct_of_fulfills distinct h)).imp_of_mem ?_
  rintro x y hx hy hid digest hdigest _ hother rfl
  obtain ⟨result, hwon, hresult⟩ := digest?_eq_some.mp hdigest
  obtain ⟨other, hother, hsame⟩ := digest?_eq_some.mp hother
  exact hid (h.single rfl x hx y hy result other hwon hother (hresult.trans hsame.symm))

end Items

section Agreeing

variable {service : Service} {deduplicate : Bool} {items a b : List Item}

theorem ends_of_fulfills
    (distinct : (items.map Item.id).Nodup)
    (ha : Fulfills service false items a)
    (hb : Fulfills service false items b) :
    ∀ x ∈ a, ∀ y ∈ b, x.id = y.id →
      x.status = y.status ∧ x.result = y.result ∧ x.failure = y.failure := by
  intro x hx y hy hid
  obtain ⟨before, hanswered, hother⟩ := paired_of_fulfills distinct ha hb hx hy hid
  exact ends_of_settles hanswered.settles hother.settles

theorem failures_of_fulfills
    (distinct : (items.map Item.id).Nodup)
    (ha : Fulfills service deduplicate items a)
    (hb : Fulfills service deduplicate items b) :
    ∀ x ∈ a, ∀ y ∈ b, x.id = y.id →
      (x.status = .failed ↔ y.status = .failed) ∧
        (x.status = .failed → x.failure = y.failure) := by
  intro x hx y hy hid
  obtain ⟨before, hanswered, hother⟩ := paired_of_fulfills distinct ha hb hx hy hid
  exact failures_of_settles hanswered.settles hother.settles

/-- Which items win is left to the order, but not which results are won. -/
theorem digests_of_fulfills
    (distinct : (items.map Item.id).Nodup)
    (ha : Fulfills service deduplicate items a)
    (hb : Fulfills service deduplicate items b) :
    (a.filterMap Item.digest?).Perm (b.filterMap Item.digest?) := by
  cases deduplicate with
  | true =>
      refine (List.perm_ext_iff_of_nodup (nodup_digests distinct ha)
        (nodup_digests distinct hb)).mpr fun digest => ?_
      rw [List.mem_filterMap, List.mem_filterMap, won_iff ha, won_iff hb]
  | false =>
      have hperm := perm_of_paired (f := Item.digest?) (distinct_of_fulfills distinct ha)
        (ha.origins.trans hb.origins.symm) fun x hx y hy hid => by
          obtain ⟨hstatus, hresult, -⟩ := ends_of_fulfills distinct ha hb x hx y hy hid
          rw [Item.digest?, Item.digest?, hstatus, hresult]
      have hsome := hperm.filterMap id
      rwa [List.filterMap_map, List.filterMap_map] at hsome

/-- Every item that has succeeded counts with its digest. -/
theorem length_digests
    (h : Fulfills service deduplicate items a) :
    (a.filterMap Item.digest?).length = JobOutcome.countStatus .success a := by
  rw [List.length_filterMap_eq_countP, JobOutcome.countStatus]
  refine List.countP_congr fun item hitem => ?_
  obtain ⟨before, -, hanswered⟩ := h.answered item hitem
  rw [isSome_digest? hanswered.settles]

theorem isTerminal_of_fulfills
    (h : Fulfills service deduplicate items a) :
    ∀ item ∈ a, item.isTerminal = true := by
  intro item hitem
  obtain ⟨before, -, hanswered⟩ := h.answered item hitem
  exact hanswered.settles.isTerminal

theorem countStatus_eq_zero
    {status : Status}
    (terminal : ∀ item ∈ a, item.isTerminal = true)
    (h : status.isTerminal = false) :
    JobOutcome.countStatus status a = 0 := by
  refine List.countP_eq_zero.mpr fun item hitem hstatus => ?_
  have hterminal := terminal item hitem
  rw [Item.isTerminal, beq_iff_eq.mp hstatus, h] at hterminal
  cases hterminal

theorem counts_of_fulfills
    (distinct : (items.map Item.id).Nodup)
    (ha : Fulfills service deduplicate items a)
    (hb : Fulfills service deduplicate items b)
    (status : Status) :
    JobOutcome.countStatus status a = JobOutcome.countStatus status b := by
  have hterminal := isTerminal_of_fulfills ha
  have hterminal' := isTerminal_of_fulfills hb
  have hsuccess : JobOutcome.countStatus .success a = JobOutcome.countStatus .success b := by
    rw [← length_digests ha, ← length_digests hb]
    exact (digests_of_fulfills distinct ha hb).length_eq
  have hfailed : JobOutcome.countStatus .failed a = JobOutcome.countStatus .failed b := by
    have hperm := perm_of_paired (f := fun item => item.status == .failed)
      (distinct_of_fulfills distinct ha) (ha.origins.trans hb.origins.symm)
      fun x hx y hy hid => by
        have hiff := (failures_of_fulfills distinct ha hb x hx y hy hid).1
        rw [Bool.eq_iff_iff, beq_iff_eq, beq_iff_eq, hiff]
    have hcount := hperm.countP_eq id
    rwa [List.countP_map, List.countP_map] at hcount
  cases status with
  | pending | processing =>
      rw [countStatus_eq_zero hterminal rfl, countStatus_eq_zero hterminal' rfl]
  | success => exact hsuccess
  | failed => exact hfailed
  | skipped =>
      have hsum := count_terminal hterminal
      have hsum' := count_terminal hterminal'
      have hlength : a.length = b.length := by
        simpa using (ha.origins.trans hb.origins.symm).length_eq
      omega

theorem wonTexts_subset
    (apart : service.Apart items)
    (ha : Fulfills service deduplicate items a)
    (hb : Fulfills service deduplicate items b)
    (digests : (a.filterMap Item.digest?).Perm (b.filterMap Item.digest?)) :
    wonTexts a ⊆ wonTexts b := by
  rintro _ ⟨x, hx, result, hwon, rfl⟩
  -- Some item of the other run has won a result with the same digest.
  have hmem : result.digest ∈ a.filterMap Item.digest? :=
    List.mem_filterMap.mpr ⟨x, hx, digest?_eq_some.mpr ⟨result, hwon, rfl⟩⟩
  obtain ⟨y, hy, hdigest⟩ := List.mem_filterMap.mp (digests.mem_iff.mp hmem)
  obtain ⟨other, hother, hsame⟩ := digest?_eq_some.mp hdigest
  obtain ⟨before, hbefore, hanswered⟩ := ha.answered x hx
  obtain ⟨before', hbefore', hanswered'⟩ := hb.answered y hy
  refine ⟨y, hy, other, hother, ?_⟩
  exact apart before' hbefore' before hbefore other result
    (outcome_of_won hanswered'.settles hother) (outcome_of_won hanswered.settles hwon) hsame

theorem agreement_of_fulfills
    (distinct : (items.map Item.id).Nodup)
    (ha : Fulfills service deduplicate items a)
    (hb : Fulfills service deduplicate items b) :
    Agreement service deduplicate items a b where
  origins := ha.origins.trans hb.origins.symm
  attempts x hx y hy hid := by
    obtain ⟨before, hanswered, hother⟩ := paired_of_fulfills distinct ha hb hx hy hid
    rw [hanswered.attempts, hother.attempts]
  ends off := by
    subst off
    exact ends_of_fulfills distinct ha hb
  counts := counts_of_fulfills distinct ha hb
  failures := failures_of_fulfills distinct ha hb
  digests := digests_of_fulfills distinct ha hb
  texts apart :=
    (wonTexts_subset apart ha hb (digests_of_fulfills distinct ha hb)).antisymm
      (wonTexts_subset apart hb ha (digests_of_fulfills distinct hb ha))

end Agreeing

section Performances

variable {service : Service} {deduplicate : Bool} {items : List Item}

/-- Without a store a run takes nothing over. -/
theorem opened_of_storeless
    {setup : Setup} {checkpoint : Checkpoint} {throttle : Throttle} {registry : Registry}
    {monitor : Monitor} {clock : Nat}
    (storeless : setup.hasStore = false) :
    (State.opened setup items checkpoint throttle registry monitor clock).waiting = items ∧
      (State.opened setup items checkpoint throttle registry monitor clock).restored = [] := by
  simp [State.opened, State.log, storeless]

/-- A run that has returned has answered every item, and every result has one winner. -/
theorem fulfills_of_returned
    {first s : State} {result : Returned}
    (distinct : (items.map Item.id).Nodup)
    (waiting : first.waiting = items)
    (restored : s.restored = [])
    (orderly : Orderly first s)
    (answering : Answering service first s)
    (owned : s.settings.deduplicate = true → Owned s)
    (returned : s.stage = .returned (.ok result))
    (uncancelled : result.cancelled = false) :
    Fulfills service s.settings.deduplicate items result.items := by
  subst waiting
  obtain ⟨-, htasks, hfatal, -, hunwound⟩ := drained_of_returned orderly returned
  have hfinished : ∀ item, item ∈ result.items ↔ item ∈ s.finished := by
    intro item
    rw [mem_returned orderly returned, restored]
    simp
  have hdone : ∀ item, Done s item → item ∈ result.items := by
    rintro item (hitem | ⟨task, htask, -⟩)
    · exact (hfinished item).mpr hitem
    · rw [htasks] at htask
      cases htask
  have horigins : (result.items.map Item.origin).Perm (first.waiting.map Item.origin) := by
    rw [(orderly.staged.returned result returned).2.1]
    refine ((allItems_perm s).map Item.origin).trans ?_
    rw [restored]
    exact (finished_distinct orderly distinct returned).1
  have hconcluded : ∀ item ∈ result.items, Concluded service first s item := fun item hitem =>
    concluded_of_returned orderly answering returned uncancelled ((hfinished item).mp hitem)
  constructor
  case origins => exact horigins
  case answered =>
      intro item hitem
      obtain ⟨before, hbefore, hanswer, -⟩ := hconcluded item hitem
      exact ⟨before, hbefore, hanswer⟩
  case winners =>
      intro on before hbefore result houtcome
      obtain ⟨item, hitem, horigin⟩ :=
        List.mem_map.mp (horigins.mem_iff.mpr (List.mem_map_of_mem hbefore))
      obtain ⟨other, hother, hanswer, hknows⟩ := hconcluded item hitem
      have hsame : other.origin = before.origin := hanswer.origin.symm.trans horigin
      cases List.inj_on_of_nodup_map distinct hother hbefore (Item.id_of_origin hsame)
      obtain ⟨owner, howner⟩ := hknows on result houtcome
      obtain ⟨winner, won, hwinner, -, hwon, hdigest⟩ :=
        (owned on).owners hfatal hunwound result.digest owner howner
      exact ⟨winner, hdone winner hwinner, won, hwon, hdigest⟩
  case single =>
      intro on a ha b hb x y hx hy hdigest
      exact id_of_digest (owned on) (.inl ((hfinished a).mp ha)) (.inl ((hfinished b).mp hb)) hx hy
        hdigest

theorem fulfills_of_performance
    (pending : ∀ item ∈ items, item.status = .pending)
    (distinct : (items.map Item.id).Nodup)
    (p : Performance service deduplicate items) :
    Fulfills service deduplicate items p.result.items := by
  obtain ⟨setup, checkpoint, throttle, registry, monitor, clock, first, last, result, goesOn,
    compares, limit, storeless, fresh, opened, run, returned, uncancelled⟩ := p
  subst compares
  obtain ⟨_, hsaved, -, rfl⟩ := opened_of_initial? opened
  cases hsaved
  obtain ⟨orderly, answering⟩ :=
    answering_of_reaches run (orderly_opened pending) (answering_opened goesOn limit)
  have hsettings : last.settings = setup.settings := congrArg Setup.settings orderly.conserved.setup
  have howned : last.settings.deduplicate = true → Owned last := by
    intro on
    rw [hsettings] at on
    cases fresh on
    exact (owned_of_reaches pending on run.reaches).2
  have h := fulfills_of_returned distinct (opened_of_storeless storeless).1
    (orderly.conserved.restored.trans (opened_of_storeless storeless).2) orderly answering howned
    returned uncancelled
  rwa [hsettings] at h

/-- Any two runs over the same items are in agreement. -/
theorem agreement_of_performances
    (pending : ∀ item ∈ items, item.status = .pending)
    (distinct : (items.map Item.id).Nodup)
    (p q : Performance service deduplicate items) :
    Agreement service deduplicate items p.result.items q.result.items :=
  agreement_of_fulfills distinct (fulfills_of_performance pending distinct p)
    (fulfills_of_performance pending distinct q)

/-- An action, with the reply of the executor if it is one. -/
def Service.served (service : Service) (s : State) : Action → Action
  | .task number (.reply reply) =>
    match s.task? number with
    | some task => .task number (.reply (service.reply task.item.id task.item.attempts))
    | none => .task number (.reply reply)
  | .task number .expire => .task number .giveUp
  | action => action

theorem serves_served
    (s : State)
    (action : Action) :
    service.Serves s (service.served s action) := by
  cases action with
  | task number move =>
      cases move with
      | reply reply =>
          cases hfound : s.task? number with
          | some task =>
              simp only [Service.served, hfound]
              intro other hother
              cases hfound.symm.trans hother
              rfl
          | none =>
              simp only [Service.served, hfound]
              intro other hother
              cases hfound.symm.trans hother
      | _ => trivial
  | _ => trivial

/-- State after a list of actions, in which the executor replies for itself. -/
def Service.follow? (service : Service) (s : State) : List Action → Option State
  | [] => some s
  | action :: rest =>
    match s.step? (service.served s action) with
    | some next => service.follow? next rest
    | none => none

theorem reaches_of_follows?
    {first s t : State} {actions : List Action}
    (before : service.Reaches first s)
    (h : service.follow? s actions = some t) :
    service.Reaches first t := by
  induction actions generalizing s with
  | nil =>
      cases h
      exact before
  | cons action rest ih =>
      rw [Service.follow?] at h
      split at h
      case h_1 next hnext => exact ih (before.step (serves_served s action) hnext) h
      case h_2 => cases h

/-- The first attempt for the first item fails, and all others give an empty result. -/
def busyOnce : Service where
  reply id attempt :=
    if id = "1" ∧ attempt = 1 then .failure (.transient "busy") else .value .null
  limit := 3

/-- Looks for duplicates, and makes no pauses. -/
def comparesAtOnce (mode : Mode) : Setup where
  settings := { mode, deduplicate := true, retry := { baseDelay := 0 } }

/-- First state of such a run over two items. -/
def comparedAtOnce (mode : Mode) : State :=
  .opened (comparesAtOnce mode) twoItems {} {} {} { settings := { windowSize := 1 } } 0

/-- Steps of the first item up to its second attempt. -/
def triesAgain : List Action :=
  [.task 0 (.resume none), .task 0 (.reply (.value .null)), .task 0 (.resume none)]

/-- One item after the other. -/
def firstToLast : List Action :=
  [.takePermit, .spawn] ++ triesAgain ++ endsEmpty 0 ++
    [.takePermit, .spawn, .task 1 (.resume none)] ++ endsEmpty 1 ++ [.flush, .close none]

/-- The second item overtakes the first one. -/
def secondFirst : List Action :=
  [.takePermit, .spawn, .takePermit, .spawn, .task 1 (.resume none)] ++ triesAgain ++
    endsEmpty 1 ++ endsEmpty 0 ++ [.flush, .close none]

/-- Ids of finished items with their statuses and attempts. -/
def finishedView (s : State) : List (String × Status × Nat) :=
  s.finished.map fun item => (item.id, item.status, item.attempts)

/-- Such a run from its first state to its return. -/
theorem performance_of_follow?
    {mode : Mode} {view : List (String × Status × Nat)}
    (actions : List Action)
    (h : ((busyOnce.follow? (comparedAtOnce mode) actions).bind fun last =>
      last.returned?.map fun result => (result.cancelled, finishedView last)) =
      some (false, view)) :
    ∃ p : Performance busyOnce true twoItems, p.setup = comparesAtOnce mode ∧
      finishedView p.last = view := by
  obtain ⟨last, hlast, hrest⟩ := Option.bind_eq_some_iff.mp h
  obtain ⟨result, hreturned, hview⟩ := Option.map_eq_some_iff.mp hrest
  obtain ⟨huncancelled, hfinished⟩ := Prod.mk.inj hview
  have hvalid : (comparesAtOnce mode).settings.fault? = none := by
    cases mode with
    | parallel | sequential => decide +kernel
  refine ⟨{
    setup := comparesAtOnce mode
    monitor := { settings := { windowSize := 1 } }
    first := comparedAtOnce mode
    last
    result
    goesOn := rfl
    compares := rfl
    limit := rfl
    storeless := rfl
    fresh := fun _ => rfl
    opened := initial?_eq_ok hvalid
    run := reaches_of_follows? (.here _) hlast
    returned := stage_of_returned? hreturned
    uncancelled := huncancelled }, rfl, hfinished⟩

/-- Another item wins the common result, but the runs are in agreement. -/
theorem agreement_of_orders :
    ∃ p q : Performance busyOnce true twoItems,
      p.setup.settings.mode = .sequential ∧ q.setup.settings.mode = .parallel ∧
      finishedView p.last = [("1", .success, 2), ("2", .skipped, 1)] ∧
      finishedView q.last = [("2", .success, 1), ("1", .skipped, 2)] ∧
      Agreement busyOnce true twoItems p.result.items q.result.items := by
  obtain ⟨p, hp, hpview⟩ : ∃ p : Performance busyOnce true twoItems,
      p.setup = comparesAtOnce .sequential ∧
        finishedView p.last = [("1", .success, 2), ("2", .skipped, 1)] := by
    apply performance_of_follow? firstToLast
    decide +kernel
  obtain ⟨q, hq, hqview⟩ : ∃ q : Performance busyOnce true twoItems,
      q.setup = comparesAtOnce .parallel ∧
        finishedView q.last = [("2", .success, 1), ("1", .skipped, 2)] := by
    apply performance_of_follow? secondFirst
    decide +kernel
  exact ⟨p, q, by rw [hp]; rfl, by rw [hq]; rfl, hpview, hqview,
    agreement_of_performances (by decide) (by decide) p q⟩

end Performances

end Run
end BatchRun
