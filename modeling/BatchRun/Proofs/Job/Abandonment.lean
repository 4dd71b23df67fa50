import BatchRun.Proofs.Job.Throttle
import Mathlib.Data.List.Forall2

/-!
# Requests that were abandoned

A request withdraws its token before it waits, and nobody gives the token back.  To a bucket a request
that was abandoned is one more request, and what it costs those behind it is the time of one token.

**Types.**
An `Entry` is a call of a sequence, or one that is inserted into it: a further request, or a look at the
balance.  `Entry.own` is the sequence, `Entry.extra` the number of further requests.

**Invariant.**
At any time, the bucket that has served the inserted calls too lacks no more tokens than there were
further requests (`Bucket.Trails`).  This survives where only one of the two buckets has a token for a
request that does not wait: the bucket without a token keeps what it has, and the other one has had a
token more.

**Results.**
* `refill_refill`: tokens that accrue in several steps are those that accrue in one.
* `trails_withdraw`, `trails_tryTake`, `trails_insert`: each call keeps the invariant.
* `delayed_of_inserted`: further requests lower balances by their number, and delay every other request
  by that many gaps.
-/

namespace BatchRun

open Quantity

/-- Whether a demand is a request that withdraws a token in any case. -/
def Demand.withdraws : Demand → Bool
  | .acquire => true
  | _ => false

/-- Whether a demand only looks at the balance. -/
def Demand.looks : Demand → Bool
  | .available => true
  | _ => false

/-- A call of a sequence, or one that is inserted into it. -/
structure Entry where
  call : Call
  inserted : Bool := false

namespace Entry

/-- The sequence without what is inserted. -/
def own (entries : List Entry) : List Entry := entries.filter fun entry => !entry.inserted

/-- Number of requests that are inserted. -/
def extra (entries : List Entry) : Nat :=
  entries.countP fun entry => entry.inserted && entry.call.demand.withdraws

/-- Only requests for a destination and looks at its balance are inserted. -/
def Inserted (key : String) (entries : List Entry) : Prop :=
  ∀ entry ∈ entries, entry.inserted = true →
    entry.call.key = key ∧ (entry.call.demand.withdraws || entry.call.demand.looks) = true

theorem own_cons
    (entry : Entry)
    (entries : List Entry) :
    own (entry :: entries) =
      if entry.inserted then own entries else entry :: own entries := by
  unfold own
  rw [List.filter_cons]
  cases entry.inserted <;> rfl

theorem extra_cons
    (entry : Entry)
    (entries : List Entry) :
    extra (entry :: entries) =
      extra entries
        + if entry.inserted then (if entry.call.demand.withdraws then 1 else 0) else 0 := by
  unfold extra
  rw [List.countP_cons]
  cases entry.inserted <;> rfl

end Entry

namespace Bucket

variable {limit : RateLimit ℚ} {bucket own all : Bucket ℚ} {earlier now : Nat} {extra : Nat}

theorem tokens_refill
    (keeps : bucket.Keeps limit)
    (later : bucket.refilledAt ≤ now) :
    (bucket.refill now).tokens =
      min (bucket.tokens + (secondsAt now - secondsAt bucket.refilledAt) * limit.rate)
        limit.burst := by
  simp only [refill, exact_add, exact_mul, exact_least, keeps.rate, keeps.capacity,
    seconds_sub later]

/-- What accrues in several steps accrues in one. -/
theorem refill_refill
    (keeps : bucket.Keeps limit)
    (rate : 0 < limit.rate)
    (before : bucket.refilledAt ≤ earlier)
    (later : earlier ≤ now) :
    (bucket.refill earlier).refill now = bucket.refill now := by
  have hspan : 0 ≤ (secondsAt now - secondsAt earlier) * limit.rate :=
    mul_nonneg (sub_nonneg.mpr (secondsAt_mono later)) (le_of_lt rate)
  have htokens : ((bucket.refill earlier).refill now).tokens = (bucket.refill now).tokens := by
    rw [tokens_refill (keeps_refill keeps) later, tokens_refill keeps before,
      tokens_refill keeps (le_trans before later)]
    have htime : (bucket.refill earlier).refilledAt = earlier := rfl
    have hsum : bucket.tokens + (secondsAt earlier - secondsAt bucket.refilledAt) * limit.rate
        + (secondsAt now - secondsAt earlier) * limit.rate =
          bucket.tokens + (secondsAt now - secondsAt bucket.refilledAt) * limit.rate := by
      ring
    rw [htime, min_add, hsum, min_assoc, min_eq_right (le_add_of_nonneg_right hspan)]
  exact congrArg (fun tokens => (⟨bucket.rate, bucket.capacity, tokens, now⟩ : Bucket ℚ)) htokens

/-- Seconds that a request has to wait. -/
def waitAt (bucket : Bucket ℚ) (now : Nat) : ℚ := (bucket.reserve now).2.getD 0

/-- A request waits for what its bucket lacks of one token. -/
theorem waitAt_eq
    (keeps : bucket.Keeps limit)
    (rate : 0 < limit.rate) :
    bucket.waitAt now = max 0 ((1 - (bucket.refill now).tokens) / limit.rate) := by
  have htokens : (bucket.withdraw now).tokens = (bucket.refill now).tokens - 1 := by
    simp [withdraw]
  have hrate : (bucket.withdraw now).rate = limit.rate := keeps.rate
  unfold waitAt reserve
  by_cases h : (bucket.withdraw now).isOverdrawn = true
  · have hlacks : 0 ≤ 1 - (bucket.refill now).tokens := by
      have hnegative : (bucket.withdraw now).tokens < 0 := by
        simpa [isOverdrawn] using h
      linarith
    simp only [h, if_true, Option.getD_some, deficit, exact_div, exact_neg, htokens, hrate]
    rw [max_eq_right (div_nonneg hlacks (le_of_lt rate)), neg_sub]
  · have hlacks : 1 - (bucket.refill now).tokens ≤ 0 := by
      have hnonnegative : 0 ≤ (bucket.withdraw now).tokens := by
        simpa [isOverdrawn] using h
      linarith
    simp only [h, Bool.false_eq_true, if_false, Option.getD_none]
    rw [max_eq_left (div_nonpos_of_nonpos_of_nonneg hlacks (le_of_lt rate))]

/-- At a time, a bucket that has served further requests lacks no more tokens than there were of
them. -/
structure Trails (limit : RateLimit ℚ) (now extra : Nat) (own all : Bucket ℚ) : Prop where
  keepsOwn : own.Keeps limit
  keepsAll : all.Keeps limit
  refilledOwn : own.refilledAt ≤ now
  refilledAll : all.refilledAt ≤ now
  short : (own.refill now).tokens - extra ≤ (all.refill now).tokens
  /-- Without further requests nothing is lacking, however often the balance was looked at. -/
  same : extra = 0 → (all.refill now).tokens = (own.refill now).tokens

theorem trails_self
    (keeps : bucket.Keeps limit)
    (refilled : bucket.refilledAt ≤ now) :
    Trails limit now 0 bucket bucket :=
  ⟨keeps, keeps, refilled, refilled, by simp, fun _ => rfl⟩

/-- Tokens that accrue do not make a lack greater. -/
theorem trails_later
    (rate : 0 < limit.rate)
    (trails : Trails limit earlier extra own all)
    (later : earlier ≤ now) :
    Trails limit now extra own all := by
  obtain ⟨keepsOwn, keepsAll, refilledOwn, refilledAll, short, same⟩ := trails
  have hown : (own.refill now).tokens =
      min ((own.refill earlier).tokens + (secondsAt now - secondsAt earlier) * limit.rate)
        limit.burst := by
    rw [← refill_refill keepsOwn rate refilledOwn later]
    exact tokens_refill (keeps_refill keepsOwn) later
  have hall : (all.refill now).tokens =
      min ((all.refill earlier).tokens + (secondsAt now - secondsAt earlier) * limit.rate)
        limit.burst := by
    rw [← refill_refill keepsAll rate refilledAll later]
    exact tokens_refill (keeps_refill keepsAll) later
  refine ⟨keepsOwn, keepsAll, le_trans refilledOwn later, le_trans refilledAll later, ?_,
    fun none => ?_⟩
  · rw [hown, hall]
    have hextra : (0 : ℚ) ≤ extra := Nat.cast_nonneg extra
    refine le_min ?_ ?_
    · have hleft := min_le_left
        ((own.refill earlier).tokens + (secondsAt now - secondsAt earlier) * limit.rate)
        (limit.burst : ℚ)
      linarith
    · have hright := min_le_right
        ((own.refill earlier).tokens + (secondsAt now - secondsAt earlier) * limit.rate)
        (limit.burst : ℚ)
      linarith
  · rw [hown, hall, same none]

/-- A bucket that has just been refilled. -/
structure Fresh (limit : RateLimit ℚ) (now : Nat) (bucket : Bucket ℚ) : Prop where
  keeps : bucket.Keeps limit
  time : bucket.refilledAt = now
  full : bucket.tokens ≤ limit.burst

theorem tokens_of_fresh
    (fresh : Fresh limit now bucket) :
    (bucket.refill now).tokens = bucket.tokens := by
  rw [tokens_refill fresh.keeps (le_of_eq fresh.time), fresh.time, sub_self, zero_mul, add_zero,
    min_eq_left fresh.full]

theorem fresh_refill
    (keeps : bucket.Keeps limit)
    (later : bucket.refilledAt ≤ now) :
    Fresh limit now (bucket.refill now) :=
  ⟨keeps_refill keeps, rfl, by rw [tokens_refill keeps later]; exact min_le_right _ _⟩

theorem tokens_withdraw
    (bucket : Bucket ℚ)
    (now : Nat) :
    (bucket.withdraw now).tokens = (bucket.refill now).tokens - 1 := by
  simp [withdraw]

theorem fresh_withdraw
    (keeps : bucket.Keeps limit)
    (later : bucket.refilledAt ≤ now) :
    Fresh limit now (bucket.withdraw now) := by
  refine ⟨keeps_withdraw keeps, rfl, ?_⟩
  have hfull := (fresh_refill keeps later).full
  rw [tokens_withdraw]
  linarith

theorem trails_of_fresh
    (freshOwn : Fresh limit now own)
    (freshAll : Fresh limit now all)
    (short : own.tokens - extra ≤ all.tokens)
    (same : extra = 0 → all.tokens = own.tokens) :
    Trails limit now extra own all where
  keepsOwn := freshOwn.keeps
  keepsAll := freshAll.keeps
  refilledOwn := le_of_eq freshOwn.time
  refilledAll := le_of_eq freshAll.time
  short := by
    rw [tokens_of_fresh freshOwn, tokens_of_fresh freshAll]
    exact short
  same none := by
    rw [tokens_of_fresh freshOwn, tokens_of_fresh freshAll]
    exact same none

section Steps

variable (trails : Trails limit now extra own all)

include trails

theorem trails_refill :
    Trails limit now extra (own.refill now) (all.refill now) :=
  trails_of_fresh (fresh_refill trails.keepsOwn trails.refilledOwn)
    (fresh_refill trails.keepsAll trails.refilledAll) trails.short trails.same

theorem trails_withdraw :
    Trails limit now extra (own.withdraw now) (all.withdraw now) := by
  have hshort := trails.short
  refine trails_of_fresh (fresh_withdraw trails.keepsOwn trails.refilledOwn)
    (fresh_withdraw trails.keepsAll trails.refilledAll) ?_ fun none => ?_
  · rw [tokens_withdraw, tokens_withdraw]
    linarith
  · rw [tokens_withdraw, tokens_withdraw, trails.same none]

/-- A request that does not wait may have a token in one of the buckets only. -/
theorem trails_tryTake :
    Trails limit now extra (own.tryTake now).1 (all.tryTake now).1 := by
  have hown : (own.tryTake now).1 =
      if 1 ≤ (own.refill now).tokens then own.withdraw now else own.refill now := by
    simp only [tryTake, exact_le, exact_ofNat, Nat.cast_one, decide_eq_true_eq]
    split <;> simp [withdraw]
  have hall : (all.tryTake now).1 =
      if 1 ≤ (all.refill now).tokens then all.withdraw now else all.refill now := by
    simp only [tryTake, exact_le, exact_ofNat, Nat.cast_one, decide_eq_true_eq]
    split <;> simp [withdraw]
  have hshort := trails.short
  rw [hown, hall]
  split
  case isTrue hasOwn =>
      split
      case isTrue => exact trails_withdraw trails
      case isFalse hasNot =>
          refine trails_of_fresh (fresh_withdraw trails.keepsOwn trails.refilledOwn)
            (fresh_refill trails.keepsAll trails.refilledAll) ?_ fun none => ?_
          · rw [tokens_withdraw]
            linarith
          · rw [trails.same none] at hasNot
            exact absurd hasOwn hasNot
  case isFalse hasNot =>
      split
      case isTrue hasAll =>
          refine trails_of_fresh (fresh_refill trails.keepsOwn trails.refilledOwn)
            (fresh_withdraw trails.keepsAll trails.refilledAll) ?_ fun none => ?_
          · -- Only further requests make the buckets differ, so that there was one at least.
            have hsome : extra ≠ 0 := fun none => hasNot (trails.same none ▸ hasAll)
            have hone : (1 : ℚ) ≤ extra := by
              exact_mod_cast Nat.one_le_iff_ne_zero.mpr hsome
            rw [tokens_withdraw]
            linarith
          · rw [trails.same none] at hasAll
            exact absurd hasAll hasNot
      case isFalse => exact trails_refill trails

/-- A request that is inserted makes the lack greater by one token. -/
theorem trails_insert :
    Trails limit now (extra + 1) own (all.withdraw now) where
  keepsOwn := trails.keepsOwn
  keepsAll := keeps_withdraw trails.keepsAll
  refilledOwn := trails.refilledOwn
  refilledAll := le_refl _
  short := by
    have hshort := trails.short
    rw [tokens_of_fresh (fresh_withdraw trails.keepsAll trails.refilledAll), tokens_withdraw]
    push_cast
    linarith
  same none := absurd none (Nat.succ_ne_zero extra)

/-- A look at the balance changes nothing. -/
theorem trails_look :
    Trails limit now extra own (all.refill now) where
  keepsOwn := trails.keepsOwn
  keepsAll := keeps_refill trails.keepsAll
  refilledOwn := trails.refilledOwn
  refilledAll := le_refl _
  short := by
    rw [tokens_of_fresh (fresh_refill trails.keepsAll trails.refilledAll)]
    exact trails.short
  same none := by
    rw [tokens_of_fresh (fresh_refill trails.keepsAll trails.refilledAll)]
    exact trails.same none

/-- A request waits no longer than the tokens that are lacking take. -/
theorem waitAt_of_trails
    (rate : 0 < limit.rate) :
    all.waitAt now ≤ own.waitAt now + extra / limit.rate := by
  have hextra : (0 : ℚ) ≤ extra / limit.rate := div_nonneg (Nat.cast_nonneg extra) (le_of_lt rate)
  have hlack : (1 - (all.refill now).tokens) / limit.rate
      ≤ (1 - (own.refill now).tokens) / limit.rate + extra / limit.rate := by
    have hshort := trails.short
    rw [← add_div]
    exact div_le_div_of_nonneg_right (by linarith) (le_of_lt rate)
  rw [waitAt_eq trails.keepsAll rate, waitAt_eq trails.keepsOwn rate]
  refine max_le (add_nonneg (le_max_left _ _) hextra) (le_trans hlack ?_)
  linarith [le_max_right 0 ((1 - (own.refill now).tokens) / limit.rate)]

end Steps

end Bucket

namespace Throttle

/-- Throttle after the calls of a sequence. -/
def after (throttle : Throttle ℚ) (entries : List Entry) : Throttle ℚ :=
  entries.foldl (fun throttle entry => (throttle.serve entry.call).1) throttle

/-- Seconds that a request for a destination has to wait. -/
def waitAt (throttle : Throttle ℚ) (key : String) (now : Nat) : ℚ :=
  (throttle.reserve key now).2.getD 0

/-- Waits of the requests for a destination that were not inserted. -/
def waits (key : String) : Throttle ℚ → List Entry → List ℚ
  | _, [] => []
  | throttle, entry :: entries =>
    (if entry.call.key = key ∧ entry.call.demand.withdraws = true ∧ entry.inserted = false then
        [throttle.waitAt key entry.call.time]
      else [])
      ++ waits key (throttle.serve entry.call).1 entries

/-- What requests that are inserted into a sequence cost its other requests. -/
structure Delayed (limit : RateLimit ℚ) (key : String) (start : Nat) (throttle : Throttle ℚ)
    (entries : List Entry) : Prop where
  /-- At every later time, the balance is lower by the number of the inserted requests at most. -/
  balance : ∀ now, (∀ time ∈ start :: entries.map (·.call.time), time ≤ now) →
    ∃ own all, ((throttle.after (Entry.own entries)).available key now).2 = some own ∧
      ((throttle.after entries).available key now).2 = some all ∧
      own - Entry.extra entries ≤ all ∧ (Entry.extra entries = 0 → all = own)
  /-- At every later time, a request waits longer by that many gaps at most. -/
  wait : ∀ now, (∀ time ∈ start :: entries.map (·.call.time), time ≤ now) →
    (throttle.after entries).waitAt key now
      ≤ (throttle.after (Entry.own entries)).waitAt key now + Entry.extra entries / limit.rate
  /-- So did each request of the sequence. -/
  waits : List.Forall₂ (fun own all => all ≤ own + Entry.extra entries / limit.rate)
    (throttle.waits key (Entry.own entries)) (throttle.waits key entries)
  /-- The balance is the same whether the bucket is refilled in between or not. -/
  refills : ∀ earlier now, (∀ time ∈ start :: entries.map (·.call.time), time ≤ earlier) →
    earlier ≤ now →
    (((throttle.after entries).available key earlier).1.available key now).2 =
      ((throttle.after entries).available key now).2

/-- At a time, the bucket of a destination that has served further requests trails the other one. -/
def Trails (limit : RateLimit ℚ) (key : String) (now extra : Nat) (own all : Throttle ℚ) : Prop :=
  ∃ first second, own.find? key = some first ∧ all.find? key = some second ∧
    Bucket.Trails limit now extra first second

section Calls

variable {limit : RateLimit ℚ} {key : String} {bucket : Bucket ℚ} {throttle own all : Throttle ℚ}
  {earlier now start extra : Nat} {call : Call} {entries : List Entry}

/-- A call serves the bucket of its destination alone. -/
theorem find?_serve
    (keeps : bucket.Keeps limit)
    (found : throttle.find? call.key = some bucket)
    (same : ∀ other, call.demand = .configure other → other = limit) :
    (throttle.serve call).1.find? call.key =
      some (match call.demand with
        | .configure _ => bucket
        | .acquire => bucket.withdraw call.time
        | .tryAcquire => (bucket.tryTake call.time).1
        | .available => bucket.refill call.time) := by
  unfold serve
  cases hdemand : call.demand with
  | configure other =>
      cases same other hdemand
      simp [configure, found, hasLimit_iff.mpr keeps]
  | acquire => simp [reserve, found, Bucket.reserve, find?_put_self]
  | tryAcquire => simp [tryAcquire, found, find?_put_self]
  | available => simp [available, found, find?_put_self]

theorem trails_of_later
    (rate : 0 < limit.rate)
    (trails : Trails limit key earlier extra own all)
    (later : earlier ≤ now) :
    Trails limit key now extra own all := by
  obtain ⟨first, second, hown, hall, htrails⟩ := trails
  exact ⟨first, second, hown, hall, Bucket.trails_later rate htrails later⟩

/-- A call of the sequence keeps the lack. -/
theorem trails_of_serve
    (trails : Trails limit key call.time extra own all)
    (same : call.key = key → ∀ other, call.demand = .configure other → other = limit) :
    Trails limit key call.time extra (own.serve call).1 (all.serve call).1 := by
  obtain ⟨first, second, hown, hall, htrails⟩ := trails
  by_cases hkey : call.key = key
  · subst hkey
    have hfirst := find?_serve htrails.keepsOwn hown (same rfl)
    have hsecond := find?_serve htrails.keepsAll hall (same rfl)
    refine ⟨_, _, hfirst, hsecond, ?_⟩
    cases call.demand with
    | configure => exact htrails
    | acquire => exact Bucket.trails_withdraw htrails
    | tryAcquire => exact Bucket.trails_tryTake htrails
    | available => exact Bucket.trails_refill htrails
  · refine ⟨first, second, ?_, ?_, htrails⟩
    · rw [find?_serve_of_ne (Ne.symm hkey), hown]
    · rw [find?_serve_of_ne (Ne.symm hkey), hall]

/-- An inserted call lacks the token that it withdraws. -/
theorem trails_of_inserted
    (trails : Trails limit call.key call.time extra own all)
    (only : (call.demand.withdraws || call.demand.looks) = true) :
    Trails limit call.key call.time (extra + if call.demand.withdraws then 1 else 0) own
      (all.serve call).1 := by
  obtain ⟨first, second, hown, hall, htrails⟩ := trails
  have hsecond := find?_serve htrails.keepsAll hall fun other hdemand => by
    rw [hdemand] at only
    cases only
  refine ⟨first, _, hown, hsecond, ?_⟩
  cases hdemand : call.demand with
  | configure | tryAcquire => rw [hdemand] at only; cases only
  | acquire => exact Bucket.trails_insert htrails
  | available => exact Bucket.trails_look htrails

theorem waitAt_of_find?
    (found : throttle.find? key = some bucket) :
    throttle.waitAt key now = bucket.waitAt now := by
  simp [waitAt, reserve, found, Bucket.waitAt]

theorem available_of_find?
    (found : throttle.find? key = some bucket) :
    throttle.available key now =
      (throttle.put key (bucket.refill now), some (bucket.refill now).tokens) := by
  simp [available, found]

/-- A request waits no longer than the inserted requests before it take. -/
theorem wait_of_trails
    (rate : 0 < limit.rate)
    (trails : Trails limit key now extra own all) :
    all.waitAt key now ≤ own.waitAt key now + extra / limit.rate := by
  obtain ⟨first, second, hown, hall, htrails⟩ := trails
  rw [waitAt_of_find? hown, waitAt_of_find? hall]
  exact Bucket.waitAt_of_trails htrails rate

/-- Calls at times that do not go back, from a first time on. -/
theorem steady_cons
    {call : Call} {calls : List Call}
    (steady : Steady limit key start (call :: calls)) :
    start ≤ call.time ∧ Steady limit key call.time calls ∧
      (call.key = key → ∀ other, call.demand = .configure other → other = limit) := by
  obtain ⟨hstart, htimes⟩ := List.pairwise_cons.mp steady.times
  exact ⟨hstart call.time List.mem_cons_self,
    ⟨htimes, fun other hother => steady.same other (List.mem_cons_of_mem call hother)⟩,
    steady.same call List.mem_cons_self⟩

/-- Two runs, one with the inserted calls and one without them, stay close to each other. -/
theorem trails_of_entries
    (rate : 0 < limit.rate)
    (steady : Steady limit key start (entries.map Entry.call))
    (inserted : Entry.Inserted key entries)
    (trails : Trails limit key start extra own all)
    (later : ∀ time ∈ start :: entries.map (·.call.time), time ≤ now) :
    Trails limit key now (extra + Entry.extra entries) (own.after (Entry.own entries))
      (all.after entries) := by
  induction entries generalizing own all start extra with
  | nil => exact trails_of_later rate trails (later start List.mem_cons_self)
  | cons entry entries ih =>
      obtain ⟨hstart, hsteady, hsame⟩ := steady_cons steady
      have hinserted : Entry.Inserted key entries := fun other hother =>
        inserted other (List.mem_cons_of_mem entry hother)
      have hlater : ∀ time ∈ entry.call.time :: entries.map (·.call.time), time ≤ now :=
        fun time htime => later time (List.mem_cons_of_mem start htime)
      have htrails := trails_of_later rate trails hstart
      rw [Entry.own_cons, Entry.extra_cons]
      cases hentry : entry.inserted with
      | false => exact ih hsteady hinserted (trails_of_serve htrails hsame) hlater
      | true =>
          obtain ⟨rfl, only⟩ := inserted entry List.mem_cons_self hentry
          have hnext := ih hsteady hinserted (trails_of_inserted htrails only) hlater
          rw [if_pos rfl, if_pos rfl, Nat.add_comm (Entry.extra entries), ← Nat.add_assoc]
          exact hnext

/-- No request of a sequence waits longer than all inserted requests take. -/
theorem waits_of_entries
    (rate : 0 < limit.rate)
    (steady : Steady limit key start (entries.map Entry.call))
    (inserted : Entry.Inserted key entries)
    (trails : Trails limit key start extra own all)
    {total : Nat}
    (bound : extra + Entry.extra entries ≤ total) :
    List.Forall₂ (fun wait longer => longer ≤ wait + total / limit.rate)
      (own.waits key (Entry.own entries)) (all.waits key entries) := by
  induction entries generalizing own all start extra with
  | nil => exact .nil
  | cons entry entries ih =>
      obtain ⟨hstart, hsteady, hsame⟩ := steady_cons steady
      have hinserted : Entry.Inserted key entries := fun other hother =>
        inserted other (List.mem_cons_of_mem entry hother)
      have htrails := trails_of_later rate trails hstart
      rw [Entry.own_cons]
      rw [Entry.extra_cons] at bound
      cases hentry : entry.inserted with
      | true =>
          obtain ⟨rfl, only⟩ := inserted entry List.mem_cons_self hentry
          rw [hentry, if_pos rfl] at bound
          have hrest := ih hsteady hinserted (trails_of_inserted htrails only)
            (by omega)
          simpa [waits, hentry] using hrest
      | false =>
          rw [hentry] at bound
          have hrest := ih hsteady hinserted (trails_of_serve htrails hsame) (by simpa using bound)
          have hextra : (extra : ℚ) / limit.rate ≤ total / limit.rate :=
            div_le_div_of_nonneg_right (Nat.cast_le.mpr (by omega)) (le_of_lt rate)
          rw [if_neg Bool.false_ne_true, waits, waits]
          split
          case isTrue asks =>
              have hkey := asks.1
              subst hkey
              refine .cons ?_ hrest
              exact le_trans (wait_of_trails rate htrails) (add_le_add_right hextra _)
          case isFalse => exact hrest

/-- Further requests for a destination, whoever still waits for them, lower its balance by their number
at most, and no other request waits longer than they take. -/
theorem delayed_of_inserted
    (rate : 0 < limit.rate)
    (governs : throttle.Governs limit key start bucket)
    (steady : Steady limit key start (entries.map Entry.call))
    (inserted : Entry.Inserted key entries) :
    Delayed limit key start throttle entries := by
  have hself : Trails limit key start 0 throttle throttle :=
    ⟨bucket, bucket, governs.found, governs.found,
      Bucket.trails_self governs.keeps governs.refilled⟩
  have htrails : ∀ now, (∀ time ∈ start :: entries.map (·.call.time), time ≤ now) →
      Trails limit key now (Entry.extra entries) (throttle.after (Entry.own entries))
        (throttle.after entries) := by
    intro now later
    have h := trails_of_entries rate steady inserted hself later
    rwa [Nat.zero_add] at h
  refine ⟨fun now later => ?_, fun now later => wait_of_trails rate (htrails now later),
    waits_of_entries rate steady inserted hself (by rw [Nat.zero_add]), fun earlier now before later =>
      ?_⟩
  · obtain ⟨first, second, hown, hall, h⟩ := htrails now later
    refine ⟨(first.refill now).tokens, (second.refill now).tokens, ?_, ?_, h.short, h.same⟩
    · rw [available_of_find? hown]
    · rw [available_of_find? hall]
  · obtain ⟨first, second, -, hall, h⟩ := htrails earlier before
    rw [available_of_find? hall, available_of_find? hall,
      available_of_find? (find?_put_self _ _ _),
      Bucket.refill_refill h.keepsAll rate h.refilledAll later]

/-- Calls for a bucket of two tokens that gets two a second.  The first inserted request takes the token
that the second request would have had, and the other one delays those behind it. -/
def overtakenCalls : List Entry :=
  [{ call := ⟨0, "a", .acquire⟩ }, { call := ⟨0, "a", .acquire⟩, inserted := true },
    { call := ⟨0, "a", .tryAcquire⟩ }, { call := ⟨100000000, "a", .acquire⟩, inserted := true },
    { call := ⟨150000000, "a", .available⟩, inserted := true },
    { call := ⟨200000000, "a", .acquire⟩ }, { call := ⟨300000000, "b", .acquire⟩ },
    { call := ⟨300000000, "a", .acquire⟩ }]

theorem delayed_of_overtakenCalls :
    (Throttle.configure {} "a" twoPerSecond.exact 0).waits "a" (Entry.own overtakenCalls)
        = [0, 3 / 10, 7 / 10] ∧
      (Throttle.configure {} "a" twoPerSecond.exact 0).waits "a" overtakenCalls
        = [0, 4 / 5, 6 / 5] ∧
      Delayed twoPerSecond.exact "a" 0 (Throttle.configure {} "a" twoPerSecond.exact 0)
        overtakenCalls := by
  obtain ⟨bucket, governs⟩ : ∃ bucket, (Throttle.configure {} "a" twoPerSecond.exact 0).Governs
      twoPerSecond.exact "a" 0 bucket := governs_configure nofun
  have hdemands : ∀ entry ∈ overtakenCalls,
      entry.call.demand = .acquire ∨ entry.call.demand = .tryAcquire ∨
        entry.call.demand = .available := by
    simp [overtakenCalls]
  refine ⟨by decide +kernel, by decide +kernel, delayed_of_inserted (by decide +kernel) governs
    ⟨by decide, fun call hcall _ other hother => ?_⟩ ?_⟩
  · obtain ⟨entry, hentry, rfl⟩ := List.mem_map.mp hcall
    rcases hdemands entry hentry with h | h | h <;> cases h.symm.trans hother
  · simp [Entry.Inserted, overtakenCalls, Demand.withdraws, Demand.looks]

end Calls

end Throttle
end BatchRun
