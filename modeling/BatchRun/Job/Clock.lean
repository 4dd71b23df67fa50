import BatchRun.Job.Throttle
import BatchRun.Time.Timestamp

/-!
# The clock of a run

**Type.**
Ticks are whole milliseconds, and waits are in nanoseconds.  A wait ends at the first tick at or
after its end, and after thirty years at the latest.

**Results.**
`Throttle.acquireAt` and its variants give the ticks at which requests for tokens are served.
-/

namespace BatchRun

open Time

/-- Number of nanoseconds in a tick. -/
def nanosPerTick : Nat := nanosPerMilli

/-- Thirty years, in ticks. -/
def farFuture : Nat := 86400 * 365 * 30 * 1000

/-- Tick at which a wait of some nanoseconds ends. -/
def tickAfter (now nanos : Nat) : Nat :=
  now + min ((nanos + (nanosPerTick - 1)) / nanosPerTick) farFuture

/-- First number of seconds that the clock cannot count. -/
def uncountableSeconds : Nat := Nat.pow 2 63 - 1

/-- Nanoseconds up to a deadline; one that the clock cannot count is thirty years away. -/
def nanosToDeadline (limit : Nat) : Nat :=
  if limit / nanosPerSecond < uncountableSeconds then limit else farFuture * nanosPerTick

/-- Tick at which the wait of a request ends. -/
def Wait.tick (now : Nat) : Wait → Nat
  | none => now
  | nanos count => tickAfter now count
  | endless => now + farFuture

namespace Throttle

/-- Withdraws a token at a tick and gives the tick at which the request is served. -/
def acquireAt (throttle : Throttle) (key : String) (now : Nat) : Throttle × Nat :=
  let (throttle, wait) := throttle.acquire key (now * nanosPerTick)
  (throttle, wait.tick now)

/-- Withdraws several tokens at a tick and gives the ticks at which the requests are served. -/
def acquireMany (throttle : Throttle) (key : String) (now : Nat) :
    (count : Nat) → Throttle × List Nat
  | 0 => (throttle, [])
  | count + 1 =>
    let (throttle, tick) := throttle.acquireAt key now
    let (throttle, ticks) := throttle.acquireMany key now count
    (throttle, tick :: ticks)

/-- Withdraws a token for a request that waits at most some nanoseconds; gives the tick at which
it ends and whether it was served.  A token that was reserved stays withdrawn. -/
def acquireWithin (throttle : Throttle) (key : String) (now limit : Nat) :
    Throttle × Nat × Bool :=
  let (throttle, tick) := throttle.acquireAt key now
  let last := tickAfter now limit
  (throttle, if tick ≤ last then (tick, true) else (last, false))

end Throttle

end BatchRun
