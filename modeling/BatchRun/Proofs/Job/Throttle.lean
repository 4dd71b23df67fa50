import BatchRun.Job.Settings
import BatchRun.Proofs.Keyed
import Mathlib.Algebra.Order.Field.Basic
import Mathlib.Algebra.Order.Field.Rat
import Mathlib.Algebra.Order.Group.MinMax
import Mathlib.Tactic.FieldSimp
import Mathlib.Tactic.Linarith
import Mathlib.Tactic.Ring

/-!
# Releases of a throttle

With exact numbers, a limit bounds the requests that are released in any span of time.

**Types.**
A `Call` asks a throttle something about a destination, at a time.  `Throttle.releases` are the times
at which the requests for a destination have their tokens: at once, or after the wait of their
reservation.

**Invariant.**
The *zero* of a bucket is the time at which its balance is nought, be it past or to come.  Tokens that
accrue leave it where it is, a full bucket holds it back by no more than the time in which it fills, and
a withdrawal moves it on by the gap between two tokens.  `Paces` says of a list of releases that it
comes about like that.

**Results.**
* `zero_refill`, `zero_withdraw`, `due_eq_max`: a bucket is its zero and the time of its last refill.
* `paces_of_serve`: each call keeps the pace of its destination.
* `pairwise_of_paces`, `countWithin_of_paces`: releases at a pace are in order, and few in any span.
* `released_of_calls`: both hold of all histories of calls.
-/

namespace BatchRun

open Number

/-- Exact value of a finite number. -/
def Number.Binary64.exact (x : Binary64) : ℚ := x.units / unitsPerOne

/-- The same limit with an exact rate. -/
def RateLimit.exact (limit : RateLimit Binary64) : RateLimit ℚ := ⟨limit.rate.exact, limit.burst⟩

/-- Exact numbers; a second has a thousand million nanoseconds. -/
instance : Quantity ℚ where
  ofNat n := n
  add := (· + ·)
  sub := (· - ·)
  mul := (· * ·)
  div := (· / ·)
  neg := Neg.neg
  least := min
  le x y := decide (x ≤ y)
  seconds nanos := nanos / 1000000000

namespace Quantity

variable (n : Nat) (x y : ℚ)

@[simp] theorem exact_ofNat : (ofNat n : ℚ) = n :=
  rfl

@[simp] theorem exact_add : add x y = x + y :=
  rfl

@[simp] theorem exact_sub : sub x y = x - y :=
  rfl

@[simp] theorem exact_mul : mul x y = x * y :=
  rfl

@[simp] theorem exact_div : div x y = x / y :=
  rfl

@[simp] theorem exact_neg : neg x = -x :=
  rfl

@[simp] theorem exact_least : least x y = min x y :=
  rfl

@[simp] theorem exact_le : le x y = decide (x ≤ y) :=
  rfl

theorem exact_seconds : (seconds n : ℚ) = n / 1000000000 :=
  rfl

end Quantity

open Quantity

/-- Time of a clock in seconds. -/
def secondsAt (now : Nat) : ℚ := seconds now

theorem secondsAt_mono
    {now later : Nat}
    (h : now ≤ later) :
    secondsAt now ≤ secondsAt later := by
  have hcast : (now : ℚ) ≤ later := Nat.cast_le.mpr h
  simp only [secondsAt, exact_seconds]
  linarith

theorem seconds_sub
    {now later : Nat}
    (h : now ≤ later) :
    (seconds (later - now) : ℚ) = secondsAt later - secondsAt now := by
  simp only [secondsAt, exact_seconds, Nat.cast_sub h]
  ring

namespace RateLimit

/-- Time in which a token accrues. -/
def gap (limit : RateLimit ℚ) : ℚ := 1 / limit.rate

/-- Time in which an empty bucket fills. -/
def fill (limit : RateLimit ℚ) : ℚ := limit.burst / limit.rate

end RateLimit

namespace Bucket

variable {limit : RateLimit ℚ} {bucket : Bucket ℚ} {now : Nat}

/-- A bucket for a limit. -/
structure Keeps (limit : RateLimit ℚ) (bucket : Bucket ℚ) : Prop where
  rate : bucket.rate = limit.rate
  capacity : bucket.capacity = limit.burst

/-- Time at which the balance is nought. -/
def zero (bucket : Bucket ℚ) : ℚ := secondsAt bucket.refilledAt - bucket.tokens / bucket.rate

/-- Time at which a request has its token, after the seconds that it has to wait. -/
def due (now : Nat) : Option ℚ → ℚ
  | none => secondsAt now
  | some wait => secondsAt now + wait

theorem keeps_full
    (limit : RateLimit ℚ)
    (now : Nat) :
    (full limit now).Keeps limit :=
  ⟨rfl, rfl⟩

theorem keeps_refill
    (keeps : bucket.Keeps limit) :
    (bucket.refill now).Keeps limit :=
  ⟨keeps.rate, keeps.capacity⟩

theorem keeps_withdraw
    (keeps : bucket.Keeps limit) :
    (bucket.withdraw now).Keeps limit :=
  ⟨keeps.rate, keeps.capacity⟩

/-- Tokens that accrue leave the zero where it is, unless the bucket is full. -/
theorem zero_refill
    (keeps : bucket.Keeps limit)
    (rate : 0 < limit.rate)
    (later : bucket.refilledAt ≤ now) :
    (bucket.refill now).zero = max bucket.zero (secondsAt now - limit.fill) := by
  have haccrued : (bucket.tokens + (secondsAt now - secondsAt bucket.refilledAt) * limit.rate)
      / limit.rate
        = bucket.tokens / limit.rate + (secondsAt now - secondsAt bucket.refilledAt) := by
    field_simp
  have hzero : secondsAt now
      - (bucket.tokens / limit.rate + (secondsAt now - secondsAt bucket.refilledAt))
        = secondsAt bucket.refilledAt - bucket.tokens / limit.rate := by
    ring
  simp only [zero, refill, exact_add, exact_mul, exact_least, keeps.rate, keeps.capacity,
    seconds_sub later]
  rw [← min_div_div_right (le_of_lt rate), haccrued, ← max_sub_sub_left, hzero, RateLimit.fill]

/-- A withdrawal moves the zero on by the time of one token. -/
theorem zero_withdraw
    (keeps : bucket.Keeps limit) :
    (bucket.withdraw now).zero = (bucket.refill now).zero + limit.gap := by
  simp only [zero, withdraw, refill, exact_sub, exact_ofNat, keeps.rate, RateLimit.gap,
    Nat.cast_one]
  ring

/-- A bucket is overdrawn up to its zero. -/
theorem overdrawn_iff
    (keeps : bucket.Keeps limit)
    (rate : 0 < limit.rate) :
    bucket.isOverdrawn = true ↔ secondsAt bucket.refilledAt < bucket.zero := by
  have hsign : bucket.tokens < 0 ↔ bucket.tokens / limit.rate < 0 := by
    rw [div_neg_iff]
    constructor
    · exact fun h => .inr ⟨h, rate⟩
    · rintro (⟨-, h⟩ | ⟨h, -⟩)
      · linarith
      · exact h
  simp only [isOverdrawn, zero, keeps.rate, exact_le, exact_ofNat, Nat.cast_zero,
    Bool.not_eq_true', decide_eq_false_iff_not, not_le]
  rw [hsign]
  constructor <;> intro h <;> linarith

/-- A request has its token at the zero behind its withdrawal, or at once. -/
theorem due_eq_max
    (keeps : bucket.Keeps limit)
    (rate : 0 < limit.rate) :
    due now (bucket.reserve now).2 = max (secondsAt now) (bucket.withdraw now).zero := by
  have hkeeps : (bucket.withdraw now).Keeps limit := keeps_withdraw keeps
  have htime : (bucket.withdraw now).refilledAt = now := rfl
  have hover := overdrawn_iff hkeeps rate
  rw [htime] at hover
  unfold reserve
  by_cases h : (bucket.withdraw now).isOverdrawn = true
  · rw [max_eq_right (le_of_lt (hover.mp h))]
    simp only [h, if_true, due, deficit, zero, htime, exact_div, exact_neg]
    ring
  · rw [max_eq_left (not_lt.mp (hover.not.mp h))]
    simp [h, due]

/-- A token is taken at once exactly where the request would not have to wait for it. -/
theorem tryTake_eq
    (keeps : bucket.Keeps limit)
    (rate : 0 < limit.rate) :
    bucket.tryTake now =
      if (bucket.withdraw now).zero ≤ secondsAt now then (bucket.withdraw now, true)
      else (bucket.refill now, false) := by
  have hkeeps : (bucket.withdraw now).Keeps limit := keeps_withdraw keeps
  have hover := overdrawn_iff hkeeps rate
  have htokens : (bucket.withdraw now).tokens = (bucket.refill now).tokens - 1 := by
    simp [withdraw]
  have hshort : (bucket.refill now).tokens < 1 ↔ secondsAt now < (bucket.withdraw now).zero := by
    refine Iff.trans ?_ hover
    simp only [isOverdrawn, htokens, exact_le, exact_ofNat, Nat.cast_zero, Bool.not_eq_true',
      decide_eq_false_iff_not, not_le, sub_neg]
  have hone : (1 : ℚ) ≤ (bucket.refill now).tokens ↔
      (bucket.withdraw now).zero ≤ secondsAt now := by
    simpa only [not_lt] using not_congr hshort
  unfold tryTake
  simp only [exact_le, exact_ofNat, Nat.cast_one, decide_eq_true_eq]
  by_cases h : (1 : ℚ) ≤ (bucket.refill now).tokens
  · rw [if_pos h, if_pos (hone.mp h)]
    simp [withdraw]
  · rw [if_neg h, if_neg (hone.not.mp h)]

end Bucket

/-- Releases behind a time, from a bucket with a zero. -/
inductive Paces (limit : RateLimit ℚ) : (now zero : ℚ) → List ℚ → Prop
  | done {now zero : ℚ} : Paces limit now zero []
  /-- Time passes, and a full bucket stays full. -/
  | waits {now later zero next : ℚ} {releases : List ℚ} (time : now ≤ later) (moves : zero ≤ next)
      (rest : Paces limit later next releases) : Paces limit now zero releases
  /-- A token is withdrawn from a bucket that is not more than full. -/
  | releases {now zero : ℚ} {releases : List ℚ} (full : now - limit.fill ≤ zero)
      (rest : Paces limit now (zero + limit.gap) releases) :
      Paces limit now zero (max now (zero + limit.gap) :: releases)

section Paces

variable {limit : RateLimit ℚ} {now zero : ℚ} {releases : List ℚ}

/-- No release comes before its time or before the zero behind its withdrawal. -/
theorem le_of_paces
    (paces : Paces limit now zero releases)
    (rate : 0 < limit.rate) :
    ∀ release ∈ releases, now ≤ release ∧ zero + limit.gap ≤ release := by
  have hgap : 0 < limit.gap := one_div_pos.mpr rate
  induction paces with
  | done => simp
  | waits time moves rest ih =>
      intro release hrelease
      obtain ⟨hnow, hzero⟩ := ih release hrelease
      exact ⟨le_trans time hnow, by linarith⟩
  | releases full rest ih =>
      intro release hrelease
      rcases List.mem_cons.mp hrelease with rfl | hrest
      · exact ⟨le_max_left _ _, le_max_right _ _⟩
      · obtain ⟨hnow, hzero⟩ := ih release hrest
        exact ⟨hnow, by linarith⟩

/-- Releases come in the order of the calls. -/
theorem pairwise_of_paces
    (paces : Paces limit now zero releases)
    (rate : 0 < limit.rate) :
    releases.Pairwise (· ≤ ·) := by
  have hgap : 0 < limit.gap := one_div_pos.mpr rate
  induction paces with
  | done => exact .nil
  | waits _ _ _ ih => exact ih
  | releases full rest ih =>
      refine .cons (fun release hrelease => ?_) ih
      obtain ⟨hnow, hzero⟩ := le_of_paces rest rate release hrelease
      exact max_le hnow (by linarith)

/-- Number of releases before a time. -/
def countBefore (stop : ℚ) (releases : List ℚ) : Nat :=
  releases.countP fun release => release < stop

/-- Number of releases in a span of time. -/
def countWithin (start stop : ℚ) (releases : List ℚ) : Nat :=
  releases.countP fun release => start ≤ release ∧ release < stop

/-- Every release before a time has moved the zero on by a gap. -/
theorem countBefore_of_paces
    (paces : Paces limit now zero releases)
    (rate : 0 < limit.rate)
    (stop : ℚ)
    (some : countBefore stop releases ≠ 0) :
    zero + countBefore stop releases * limit.gap < stop := by
  have hgap : 0 < limit.gap := one_div_pos.mpr rate
  induction paces with
  | done => exact absurd rfl some
  | waits _ hzero _ ih =>
      have hrest := ih some
      linarith
  | @releases now zero rest full paces ih =>
      have hcount : countBefore stop (max now (zero + limit.gap) :: rest) =
          countBefore stop rest + if max now (zero + limit.gap) < stop then 1 else 0 := by
        simp [countBefore, List.countP_cons]
      rw [hcount] at some ⊢
      by_cases hlater : countBefore stop rest = 0
      · -- It is the last one of them, and it does not come before the zero behind it.
        have hfirst : max now (zero + limit.gap) < stop := by
          by_contra hnot
          simp [hlater, hnot] at some
        have hzero := lt_of_le_of_lt (le_max_right now (zero + limit.gap)) hfirst
        simpa [hlater, hfirst] using hzero
      · have hrest := ih hlater
        have hone : (if max now (zero + limit.gap) < stop then 1 else 0 : ℚ) ≤ 1 := by
          split <;> norm_num
        have hmul := mul_le_mul_of_nonneg_right hone (le_of_lt hgap)
        push_cast
        linarith

theorem fill_mul_rate
    (rate : 0 < limit.rate) :
    limit.fill * limit.rate = limit.burst :=
  div_mul_cancel₀ _ (ne_of_gt rate)

theorem gap_mul_rate
    (rate : 0 < limit.rate) :
    limit.gap * limit.rate = 1 :=
  div_mul_cancel₀ _ (ne_of_gt rate)

/-- A bucket holds one token at least. -/
theorem gap_le_fill
    (rate : 0 < limit.rate)
    (burst : 1 ≤ limit.burst) :
    limit.gap ≤ limit.fill := by
  have hcast : (1 : ℚ) ≤ limit.burst := by
    exact_mod_cast burst
  exact div_le_div_of_nonneg_right hcast (le_of_lt rate)

/-- What fits behind a full bucket in a span of time. -/
theorem le_of_mul_gap_le
    (rate : 0 < limit.rate)
    {count span : ℚ}
    (h : count * limit.gap ≤ limit.fill + span) :
    count ≤ limit.burst + limit.rate * span :=
  calc
    count = count * limit.gap * limit.rate := by rw [mul_assoc, gap_mul_rate rate, mul_one]
    _ ≤ (limit.fill + span) * limit.rate := mul_le_mul_of_nonneg_right h (le_of_lt rate)
    _ = limit.burst + limit.rate * span := by rw [add_mul, fill_mul_rate rate, mul_comm span]

theorem countWithin_le_countBefore
    (start stop : ℚ)
    (releases : List ℚ) :
    countWithin start stop releases ≤ countBefore stop releases := by
  refine List.countP_mono_left fun release _ h => ?_
  simp only [decide_eq_true_eq] at h ⊢
  exact h.2

/-- A span of time sees no more releases than a full bucket and what accrues in the span. -/
theorem countWithin_of_paces
    (paces : Paces limit now zero releases)
    (rate : 0 < limit.rate)
    (burst : 1 ≤ limit.burst)
    {start span : ℚ}
    (positive : 0 < span) :
    (countWithin start (start + span) releases : ℚ) ≤ limit.burst + limit.rate * span := by
  have hbound : (0 : ℚ) ≤ limit.burst + limit.rate * span :=
    add_nonneg (Nat.cast_nonneg _) (le_of_lt (mul_pos rate positive))
  induction paces with
  | done => simpa [countWithin] using hbound
  | waits _ _ _ ih => exact ih
  | @releases now zero rest full paces ih =>
      by_cases hstart : start ≤ max now (zero + limit.gap)
      · -- The zero is at most a full bucket behind the start of the span, and each of the releases
        -- before its end moves it on.
        have hzero : start - limit.fill ≤ zero := by
          rcases le_max_iff.mp hstart with hnow | hgap
          · linarith
          · have hfill := gap_le_fill rate burst
            linarith
        have hcount := countWithin_le_countBefore start (start + span)
          (max now (zero + limit.gap) :: rest)
        refine le_trans (Nat.cast_le.mpr hcount) ?_
        by_cases hnone : countBefore (start + span) (max now (zero + limit.gap) :: rest) = 0
        · rw [hnone, Nat.cast_zero]
          exact hbound
        · have hbefore := countBefore_of_paces (.releases full paces) rate (start + span) hnone
          exact le_of_mul_gap_le rate (by linarith)
      · have hskip : countWithin start (start + span) (max now (zero + limit.gap) :: rest)
            = countWithin start (start + span) rest := by
          simp [countWithin, hstart]
        rw [hskip]
        exact ih

end Paces

namespace Bucket

variable {limit : RateLimit ℚ} {bucket : Bucket ℚ} {now : Nat} {releases : List ℚ}

/-- Releases from a bucket come at its pace. -/
def Paced (limit : RateLimit ℚ) (bucket : Bucket ℚ) (releases : List ℚ) : Prop :=
  Paces limit (secondsAt bucket.refilledAt) bucket.zero releases

theorem paced_of_refill
    (keeps : bucket.Keeps limit)
    (rate : 0 < limit.rate)
    (later : bucket.refilledAt ≤ now)
    (rest : (bucket.refill now).Paced limit releases) :
    bucket.Paced limit releases :=
  .waits (secondsAt_mono later) (by rw [zero_refill keeps rate later]; exact le_max_left _ _) rest

theorem paced_of_withdraw
    (keeps : bucket.Keeps limit)
    (rate : 0 < limit.rate)
    (later : bucket.refilledAt ≤ now)
    (rest : (bucket.withdraw now).Paced limit releases) :
    bucket.Paced limit (max (secondsAt now) (bucket.withdraw now).zero :: releases) := by
  have hfull : secondsAt now - limit.fill ≤ (bucket.refill now).zero := by
    rw [zero_refill keeps rate later]
    exact le_max_right _ _
  unfold Paced at rest
  rw [zero_withdraw keeps] at rest ⊢
  exact paced_of_refill keeps rate later (.releases hfull rest)

end Bucket

/-- What a throttle is asked about a destination. -/
inductive Demand where
  | configure (limit : RateLimit ℚ)
  | acquire
  | tryAcquire
  | available

/-- A demand for a destination at a time of the clock, in nanoseconds. -/
structure Call where
  time : Nat
  key : String
  demand : Demand

namespace Throttle

/-- Throttle after a call, and the time at which the request has its token, if it gets one. -/
def serve (throttle : Throttle ℚ) (call : Call) : Throttle ℚ × Option ℚ :=
  match call.demand with
  | .configure limit => (throttle.configure call.key limit call.time, none)
  | .acquire =>
    let (throttle, wait) := throttle.reserve call.key call.time
    (throttle, some (Bucket.due call.time wait))
  | .tryAcquire =>
    let (throttle, taken) := throttle.tryAcquire call.key call.time
    (throttle, if taken then some (secondsAt call.time) else none)
  | .available => ((throttle.available call.key call.time).1, none)

/-- Times at which the requests for a destination have their tokens, in the order of the calls. -/
def releases (key : String) : Throttle ℚ → List Call → List ℚ
  | _, [] => []
  | throttle, call :: calls =>
    (if call.key = key then (throttle.serve call).2.toList else [])
      ++ releases key (throttle.serve call).1 calls

variable {limit : RateLimit ℚ} {throttle : Throttle ℚ} {key : String} {bucket : Bucket ℚ}
  {call : Call}

theorem find?_put_self
    (throttle : Throttle ℚ)
    (key : String)
    (bucket : Bucket ℚ) :
    (throttle.put key bucket).find? key = some bucket :=
  Keyed.find?_insert_self key bucket throttle.buckets

theorem find?_put_ne
    {other : String}
    (h : key ≠ other) :
    (throttle.put other bucket).find? key = throttle.find? key :=
  Keyed.find?_insert_ne h

/-- A call leaves the buckets of other destinations alone. -/
theorem find?_serve_of_ne
    (h : key ≠ call.key) :
    (throttle.serve call).1.find? key = throttle.find? key := by
  unfold serve
  cases call.demand with
  | configure other =>
      simp only [configure]
      split
      case h_1 =>
          split
          case isTrue => rfl
          case isFalse => exact find?_put_ne h
      case h_2 => exact find?_put_ne h
  | acquire =>
      simp only [reserve]
      split
      case h_1 => rfl
      case h_2 => exact find?_put_ne h
  | tryAcquire =>
      simp only [tryAcquire]
      split
      case h_1 => rfl
      case h_2 => exact find?_put_ne h
  | available =>
      simp only [available]
      split
      case h_1 => rfl
      case h_2 => exact find?_put_ne h

theorem hasLimit_iff
    {other : RateLimit ℚ} :
    bucket.hasLimit other = true ↔ bucket.Keeps other := by
  simp only [Bucket.hasLimit, exact_le, exact_ofNat, Bool.and_eq_true, decide_eq_true_eq]
  constructor
  · rintro ⟨⟨⟨h, h'⟩, hcapacity⟩, hcapacity'⟩
    exact ⟨le_antisymm h h', le_antisymm hcapacity hcapacity'⟩
  · rintro ⟨hrate, hcapacity⟩
    exact ⟨⟨⟨le_of_eq hrate, le_of_eq hrate.symm⟩, le_of_eq hcapacity⟩, le_of_eq hcapacity.symm⟩

/-- A destination has a bucket for a limit, refilled no later than a time. -/
structure Governs (limit : RateLimit ℚ) (key : String) (now : Nat) (bucket : Bucket ℚ)
    (throttle : Throttle ℚ) : Prop where
  found : throttle.find? key = some bucket
  keeps : bucket.Keeps limit
  refilled : bucket.refilledAt ≤ now

/-- A call for a destination leaves it a bucket for the limit, and the release comes at the pace of the
bucket before. -/
theorem paces_of_serve
    (rate : 0 < limit.rate)
    (governs : throttle.Governs limit call.key call.time bucket)
    (same : ∀ other, call.demand = .configure other → other = limit) :
    ∃ next, (throttle.serve call).1.Governs limit call.key call.time next ∧
      ∀ rest, next.Paced limit rest →
        bucket.Paced limit ((throttle.serve call).2.toList ++ rest) := by
  obtain ⟨found, keeps, refilled⟩ := governs
  unfold serve
  cases hdemand : call.demand with
  | configure other =>
      cases same other hdemand
      have hkept : throttle.configure call.key limit call.time = throttle := by
        simp [configure, found, hasLimit_iff.mpr keeps]
      exact ⟨bucket, ⟨by simp [hkept, found], keeps, refilled⟩, fun rest hrest => hrest⟩
  | acquire =>
      have hreserve : throttle.reserve call.key call.time =
          (throttle.put call.key (bucket.withdraw call.time), (bucket.reserve call.time).2) := by
        simp [reserve, found, Bucket.reserve]
      refine ⟨bucket.withdraw call.time, ⟨?_, Bucket.keeps_withdraw keeps, le_refl _⟩,
        fun rest hrest => ?_⟩
      · simp only [hreserve, find?_put_self]
      · simp only [hreserve, Bucket.due_eq_max keeps rate]
        exact Bucket.paced_of_withdraw keeps rate refilled hrest
  | tryAcquire =>
      have htry : throttle.tryAcquire call.key call.time =
          (throttle.put call.key (bucket.tryTake call.time).1, (bucket.tryTake call.time).2) := by
        simp [tryAcquire, found]
      simp only [htry, Bucket.tryTake_eq keeps rate]
      split
      case isTrue hzero =>
          refine ⟨bucket.withdraw call.time,
            ⟨find?_put_self _ _ _, Bucket.keeps_withdraw keeps, le_refl _⟩, fun rest hrest => ?_⟩
          have hpaced := Bucket.paced_of_withdraw keeps rate refilled hrest
          rw [max_eq_left hzero] at hpaced
          exact hpaced
      case isFalse =>
          exact ⟨bucket.refill call.time,
            ⟨find?_put_self _ _ _, Bucket.keeps_refill keeps, le_refl _⟩, fun rest hrest =>
              Bucket.paced_of_refill keeps rate refilled hrest⟩
  | available =>
      have havailable : (throttle.available call.key call.time).1 =
          throttle.put call.key (bucket.refill call.time) := by
        simp [available, found]
      refine ⟨bucket.refill call.time, ⟨?_, Bucket.keeps_refill keeps, le_refl _⟩,
        fun rest hrest => Bucket.paced_of_refill keeps rate refilled hrest⟩
      rw [havailable, find?_put_self]

/-- Calls at times that do not go back, none of which gives a destination another limit. -/
structure Steady (limit : RateLimit ℚ) (key : String) (start : Nat) (calls : List Call) : Prop where
  times : (start :: calls.map Call.time).Pairwise (· ≤ ·)
  same : ∀ call ∈ calls, call.key = key → ∀ other, call.demand = .configure other → other = limit

/-- All releases come at the pace of the bucket. -/
theorem paced_of_calls
    {calls : List Call} {start : Nat}
    (rate : 0 < limit.rate)
    (steady : Steady limit key start calls)
    (governs : throttle.Governs limit key start bucket) :
    bucket.Paced limit (throttle.releases key calls) := by
  induction calls generalizing throttle bucket start with
  | nil => exact .done
  | cons call calls ih =>
      obtain ⟨hstart, htimes⟩ := List.pairwise_cons.mp steady.times
      have hsteady : Steady limit key call.time calls :=
        ⟨htimes, fun other hother => steady.same other (List.mem_cons_of_mem call hother)⟩
      have hcome : start ≤ call.time := hstart call.time List.mem_cons_self
      have hlater : throttle.Governs limit key call.time bucket :=
        ⟨governs.found, governs.keeps, le_trans governs.refilled hcome⟩
      by_cases hkey : call.key = key
      · subst hkey
        obtain ⟨next, hnext, hpaces⟩ :=
          paces_of_serve rate hlater (steady.same call List.mem_cons_self rfl)
        simp only [releases, if_true]
        exact hpaces _ (ih hsteady hnext)
      · have hfound : (throttle.serve call).1.find? key = some bucket := by
          rw [find?_serve_of_ne (Ne.symm hkey), governs.found]
        simp only [releases, if_neg hkey, List.nil_append]
        exact ih hsteady ⟨hfound, hlater.keeps, hlater.refilled⟩

end Throttle

/-- Releases keep to a limit: they are in the order of their requests, and no span of time sees more of
them than a burst and what accrues in the span. -/
structure Released (limit : RateLimit ℚ) (releases : List ℚ) : Prop where
  order : releases.Pairwise (· ≤ ·)
  bounded : ∀ start span, 0 < span →
    (countWithin start (start + span) releases : ℚ) ≤ limit.burst + limit.rate * span

section Limits

variable {limit : RateLimit Binary64}

theorem unitsOfRank_pos
    {rank : Nat}
    (h : 0 < rank) :
    0 < unitsOfRank rank := by
  unfold unitsOfRank
  split
  case isTrue => exact h
  case isFalse =>
      have hsize : 0 < binadeSize := by decide
      exact Nat.mul_pos (by omega) (Nat.pow_pos Nat.two_pos)

theorem exact_pos
    {x : Binary64}
    (h : 0 < x.place) :
    0 < x.exact := by
  have hunits : 0 < x.units := by
    cases x with
    | nan => cases h
    | signed negative rank =>
        cases negative with
        | false => exact Int.natCast_pos.mpr (unitsOfRank_pos (Int.natCast_pos.mp h))
        | true =>
            simp only [Binary64.place] at h
            omega
  have hone : 0 < unitsPerOne := by decide +kernel
  exact div_pos (Int.cast_pos.mpr hunits) (Nat.cast_pos.mpr hone)

/-- Accepted limits release something, and something at once. -/
theorem positive_of_accepted
    (accepted : limit.fault? = none) :
    0 < limit.exact.rate ∧ 1 ≤ limit.exact.burst := by
  have hleast : leastRate.isNaN = false ∧ 0 < leastRate.place := by decide +kernel
  unfold RateLimit.fault? at accepted
  split at accepted
  case isTrue => cases accepted
  case isFalse hrate =>
      split at accepted
      case isTrue => cases accepted
      case isFalse hburst =>
          simp only [Bool.or_eq_true, Bool.not_eq_true', not_or, Bool.not_eq_false,
            Bool.not_eq_true] at hrate
          obtain ⟨hfinite, hlow⟩ := hrate
          have hnumber : limit.rate.isNaN = false := by
            cases hvalue : limit.rate with
            | nan => rw [hvalue] at hfinite; cases hfinite
            | signed _ _ => rfl
          have hplace : leastRate.place ≤ limit.rate.place := by
            simpa [Binary64.lt, hnumber, hleast.1] using hlow
          exact ⟨exact_pos (lt_of_lt_of_le hleast.2 hplace), Nat.pos_of_ne_zero hburst⟩

/-- A destination that was given a limit has a bucket for it. -/
theorem governs_configure
    {limit : RateLimit ℚ} {throttle : Throttle ℚ} {key : String} {start : Nat}
    (refilled : ∀ bucket, throttle.find? key = some bucket → bucket.refilledAt ≤ start) :
    ∃ bucket, (throttle.configure key limit start).Governs limit key start bucket := by
  have hfull : (throttle.put key (.full limit start)).Governs limit key start
      (.full limit start) :=
    ⟨Throttle.find?_put_self _ _ _, Bucket.keeps_full _ _, le_refl _⟩
  unfold Throttle.configure
  split
  case h_1 bucket found =>
      split
      case isTrue same => exact ⟨bucket, found, Throttle.hasLimit_iff.mp same, refilled bucket found⟩
      case isFalse => exact ⟨_, hfull⟩
  case h_2 => exact ⟨_, hfull⟩

/-- With exact numbers, the releases of a destination keep to the limit that it was given, whatever it is
asked, and whatever other destinations are asked. -/
theorem released_of_calls
    {throttle : Throttle ℚ} {key : String} {start : Nat} {calls : List Call}
    (accepted : limit.fault? = none)
    (refilled : ∀ bucket, throttle.find? key = some bucket → bucket.refilledAt ≤ start)
    (steady : Throttle.Steady limit.exact key start calls) :
    Released limit.exact ((throttle.configure key limit.exact start).releases key calls) := by
  obtain ⟨rate, burst⟩ := positive_of_accepted accepted
  obtain ⟨bucket, governs⟩ :
      ∃ bucket, (throttle.configure key limit.exact start).Governs limit.exact key start bucket :=
    governs_configure refilled
  have paces := Throttle.paced_of_calls rate steady governs
  exact ⟨pairwise_of_paces paces rate, fun _ _ positive => countWithin_of_paces paces rate burst
    positive⟩

/-- Two requests a second, and two back to back. -/
def twoPerSecond : RateLimit Binary64 := ⟨2, 2⟩

/-- Calls for two destinations; the last request of the first one finds a token again. -/
def mixedCalls : List Call :=
  [⟨0, "a", .acquire⟩, ⟨0, "b", .acquire⟩, ⟨0, "a", .acquire⟩, ⟨0, "a", .acquire⟩,
    ⟨200000000, "a", .tryAcquire⟩, ⟨300000000, "a", .configure twoPerSecond.exact⟩,
    ⟨300000000, "b", .configure ⟨1, 1⟩⟩, ⟨500000000, "a", .available⟩, ⟨700000000, "a", .acquire⟩,
    ⟨1600000000, "a", .tryAcquire⟩]

/-- Five requests for a destination, two of which have to wait. -/
theorem released_of_mixedCalls :
    ((Throttle.configure {} "a" twoPerSecond.exact 0).releases "a" mixedCalls) =
        [0, 0, 1 / 2, 1, 8 / 5] ∧
      Released twoPerSecond.exact
        ((Throttle.configure {} "a" twoPerSecond.exact 0).releases "a" mixedCalls) := by
  refine ⟨by decide +kernel, released_of_calls (by decide +kernel) (fun bucket found => ?_) ?_⟩
  · cases found
  · refine ⟨by decide, fun call hcall hkey other hother => ?_⟩
    simp only [mixedCalls, List.mem_cons, List.not_mem_nil, or_false] at hcall
    rcases hcall with rfl | rfl | rfl | rfl | rfl | rfl | rfl | rfl | rfl | rfl <;>
      first
      | exact (Demand.configure.inj hother).symm
      | exact absurd hother Demand.noConfusion
      | exact absurd hkey (by decide)

end Limits

end BatchRun
