import BatchRun.Keyed
import BatchRun.Number.Binary64

/-!
# Throttles

**Types.**
A `RateLimit` is a number of requests a second and a burst.  A `Bucket` holds the tokens of one
destination: they accrue at the rate up to the burst, and every request withdraws one.  A
request that finds none reserves a future token: the balance becomes negative, and the request
waits for its own deficit.  A `Throttle` has one bucket for each destination with a limit.

**Quantities.**
Balances are computed in any type of quantities.  The running program uses floating point;
exact numbers show what the rules amount to without rounding.
-/

namespace BatchRun

open Number

/-- Numbers in which balances are computed. -/
class Quantity (α : Type) where
  ofNat : Nat → α
  add : α → α → α
  sub : α → α → α
  mul : α → α → α
  div : α → α → α
  neg : α → α
  least : α → α → α
  le : α → α → Bool
  /-- Seconds in a number of nanoseconds. -/
  seconds : Nat → α

/-- Floating point: whole seconds and the rest are converted apart. -/
instance : Quantity Binary64 where
  ofNat := Binary64.ofNat
  add := (· + ·)
  sub := (· - ·)
  mul := (· * ·)
  div := (· / ·)
  neg := Neg.neg
  least := Binary64.min
  le := Binary64.le
  seconds nanos :=
    Binary64.ofNat (nanos / 1000000000)
      + Binary64.ofNat (nanos % 1000000000) / Binary64.ofNat 1000000000

/-- Throughput allowed toward a destination. -/
structure RateLimit (α : Type) where
  /-- Requests a second. -/
  rate : α
  /-- Number of requests that may go out back to back. -/
  burst : Nat := 1
deriving DecidableEq

/-- Tokens of one destination. -/
structure Bucket (α : Type) where
  rate : α
  capacity : α
  /-- Balance; negative while reserved tokens are outstanding. -/
  tokens : α
  /-- Time of the last refill, in nanoseconds. -/
  refilledAt : Nat
deriving DecidableEq

namespace Bucket

variable {α : Type} [Quantity α]

open Quantity

/-- A full bucket. -/
def full (limit : RateLimit α) (now : Nat) : Bucket α :=
  ⟨limit.rate, ofNat limit.burst, ofNat limit.burst, now⟩

/-- The bucket with the tokens that accrued since the last refill. -/
def refill (bucket : Bucket α) (now : Nat) : Bucket α :=
  { bucket with
    tokens := least (add bucket.tokens (mul (seconds (now - bucket.refilledAt)) bucket.rate))
      bucket.capacity
    refilledAt := now }

/-- Whether a request has to wait after its withdrawal. -/
def isOverdrawn (bucket : Bucket α) : Bool := !(le (ofNat 0) bucket.tokens)

/-- Withdraws a token, which may have to be reserved. -/
def withdraw (bucket : Bucket α) (now : Nat) : Bucket α :=
  let bucket := bucket.refill now
  { bucket with tokens := sub bucket.tokens (ofNat 1) }

/-- Seconds until the deficit of a bucket is made up. -/
def deficit (bucket : Bucket α) : α := div (neg bucket.tokens) bucket.rate

/-- Withdraws a token; also gives the seconds that the request has to wait, if it has to. -/
def reserve (bucket : Bucket α) (now : Nat) : Bucket α × Option α :=
  let bucket := bucket.withdraw now
  (bucket, if bucket.isOverdrawn then some bucket.deficit else none)

/-- Withdraws a token only if there is one. -/
def tryTake (bucket : Bucket α) (now : Nat) : Bucket α × Bool :=
  let bucket := bucket.refill now
  if le (ofNat 1) bucket.tokens then
    ({ bucket with tokens := sub bucket.tokens (ofNat 1) }, true)
  else (bucket, false)

/-- Whether a limit is the one of the bucket. -/
def hasLimit (bucket : Bucket α) (limit : RateLimit α) : Bool :=
  le bucket.rate limit.rate && le limit.rate bucket.rate
    && le bucket.capacity (ofNat limit.burst) && le (ofNat limit.burst) bucket.capacity

end Bucket

/-- Nanoseconds in a number of seconds, to the nearest one; `none` for what is negative, no
number, or too long for 64 bits of seconds. -/
def nanosOfSeconds (seconds : Binary64) : Option Nat :=
  match seconds with
  | .nan => none
  | .signed negative rank =>
    if rank.val = 0 then some 0
    else if negative || rank.val = infiniteRank then none
    else
      let nanos := divNearestEven (unitsOfRank rank.val * 1000000000) unitsPerOne
      if nanos < Nat.pow 2 64 * 1000000000 then some nanos else none

/-- A wait of a request. -/
inductive Wait where
  | none
  /-- Some nanoseconds. -/
  | nanos (count : Nat)
  /-- Longer than any clock runs. -/
  | endless
deriving DecidableEq

/-- Wait for a deficit in seconds. -/
def Wait.ofSeconds (seconds : Binary64) : Wait :=
  match nanosOfSeconds seconds with
  | some 0 => .none
  | some count => .nanos count
  | Option.none => .endless

/-- Buckets of the destinations that have a limit; those of the running program use floating
point. -/
structure Throttle (α : Type := Binary64) where
  buckets : List (String × Bucket α) := []

namespace Throttle

variable {α : Type}

/-- Bucket of a destination that has a limit. -/
def find? (throttle : Throttle α) (key : String) : Option (Bucket α) :=
  Keyed.find? throttle.buckets key

/-- Throttle with another bucket for a destination. -/
def put (throttle : Throttle α) (key : String) (bucket : Bucket α) : Throttle α :=
  ⟨Keyed.insert key bucket throttle.buckets⟩

variable [Quantity α]

/-- Sets the limit of a destination.  The limit it already has keeps its bucket; another one gets
a full bucket. -/
def configure (throttle : Throttle α) (key : String) (limit : RateLimit α) (now : Nat) :
    Throttle α :=
  match throttle.find? key with
  | some bucket => if bucket.hasLimit limit then throttle else throttle.put key (.full limit now)
  | none => throttle.put key (.full limit now)

/-- Withdraws a token of a destination; also gives the seconds that the request has to wait, if it
has to. -/
def reserve (throttle : Throttle α) (key : String) (now : Nat) : Throttle α × Option α :=
  match throttle.find? key with
  | none => (throttle, none)
  | some bucket =>
    let (bucket, deficit) := bucket.reserve now
    (throttle.put key bucket, deficit)

/-- Withdraws a token of a destination and gives the wait for it. -/
def acquire (throttle : Throttle) (key : String) (now : Nat) : Throttle × Wait :=
  let (throttle, deficit) := throttle.reserve key now
  (throttle,
    match deficit with
    | none => .none
    | some seconds => .ofSeconds seconds)

/-- Withdraws a token of a destination only if there is one. -/
def tryAcquire (throttle : Throttle α) (key : String) (now : Nat) : Throttle α × Bool :=
  match throttle.find? key with
  | none => (throttle, true)
  | some bucket =>
    let (bucket, taken) := bucket.tryTake now
    (throttle.put key bucket, taken)

/-- Refills the bucket of a destination and gives its balance. -/
def available (throttle : Throttle α) (key : String) (now : Nat) : Throttle α × Option α :=
  match throttle.find? key with
  | none => (throttle, none)
  | some bucket =>
    let bucket := bucket.refill now
    (throttle.put key bucket, some bucket.tokens)

end Throttle

end BatchRun
