import BatchRun.Number.Binary64
import BatchRun.Time.Timestamp

/-!
# Retries

**Type.**
A `RetryPolicy` bounds the number of attempts and gives the pauses between them.

**Pauses.**
The pause behind an attempt is the base pause times a power of the multiplier, which grows by
one factor an attempt, and at most the greatest pause.  All of it is floating point; the number
of the attempt passes through a signed word of 32 bits.
-/

namespace BatchRun

open Number
open Time

/-- How often an item is attempted, and the pauses in milliseconds. -/
structure RetryPolicy where
  /-- Number of attempts, the first one included. -/
  maxAttempts : Nat := 3
  baseDelay : Nat := 1000
  multiplier : Binary64 := 2
  maxDelay : Nat := 30000
deriving DecidableEq

namespace RetryPolicy

/-- Number of multiplications behind an attempt, as a signed word of 32 bits. -/
def exponentAfter (attempt : Nat) : Int := Int.bmod ((attempt - 1 : Nat) : Int) (Nat.pow 2 32)

/-- Pause behind an attempt, in milliseconds. -/
def delayAfter (policy : RetryPolicy) (attempt : Nat) : Nat :=
  let raw := Binary64.ofNat policy.baseDelay * policy.multiplier.powInt (exponentAfter attempt)
  ((raw.min (Binary64.ofNat policy.maxDelay)).max 0).floorWithin (Nat.pow 2 64 - 1)

/-- Pause behind an attempt that failed, in nanoseconds; it is no shorter than the one that the
destination has asked for. -/
def pauseAfter (policy : RetryPolicy) (attempt : Nat) (asked : Option Nat) : Nat :=
  max (asked.getD 0) (policy.delayAfter attempt * nanosPerMilli)

end RetryPolicy

end BatchRun
