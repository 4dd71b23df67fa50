import BatchRun.Job.Retry
import BatchRun.Job.Throttle
import BatchRun.Number.Layout

/-!
# Settings of a job

**Type.**
`Settings` are the choices for one run.  `Settings.fault?` tells the first one that no run can
work with.
-/

namespace BatchRun

open Number
open Time

/-- How items are dispatched. -/
inductive Mode where
  /-- Several at a time. -/
  | parallel
  /-- One at a time, in the order of the source. -/
  | sequential
deriving DecidableEq, Inhabited

/-- Choices for one run; times are in nanoseconds. -/
structure Settings where
  /-- Key of the throttle and of the health monitor. -/
  destination : String := "default"
  concurrency : Nat := 4
  mode : Mode := .parallel
  retry : RetryPolicy := {}
  /-- Without it no item is dispatched after the first one that failed. -/
  continueOnError : Bool := true
  rateLimit : Option (RateLimit Binary64) := none
  deduplicate : Bool := false
  /-- Number of finished items after which the checkpoint is written; zero turns it off. -/
  checkpointInterval : Nat := 10
  /-- Time for one attempt. -/
  itemTimeout : Nat := 60 * nanosPerSecond
  /-- Time that attempts may still take after a cancellation. -/
  cancelGrace : Nat := 5 * nanosPerSecond

/-- Why settings are rejected. -/
inductive SettingsFault where
  | noConcurrency
  | noAttempts
  | badMultiplier (value : Binary64)
  | badRate (value : Binary64)
  | noBurst
  | noTimeout
deriving DecidableEq

/-- Least rate: one request in a million seconds. -/
def leastRate : Binary64 := .ofRatio 1 1000000

/-- Wording of a fault. -/
def SettingsFault.message : SettingsFault → String
  | noConcurrency => "concurrency must be at least 1"
  | noAttempts => "max_attempts must be at least 1"
  | badMultiplier value =>
    "backoff multiplier must be a finite number >= 1, got " ++ value.text .message
  | badRate value =>
    "requests_per_second must be a finite number >= " ++ leastRate.text .message ++ ", got "
      ++ value.text .message
  | noBurst => "burst must be at least 1"
  | noTimeout => "item_timeout must be positive"

/-- The first fault of a limit. -/
def RateLimit.fault? (limit : RateLimit Binary64) : Option SettingsFault :=
  if !limit.rate.isFinite || limit.rate.lt leastRate then some (.badRate limit.rate)
  else if limit.burst = 0 then some .noBurst
  else none

namespace Settings

/-- The first fault of settings. -/
def fault? (settings : Settings) : Option SettingsFault :=
  if settings.concurrency = 0 then some .noConcurrency
  else if settings.retry.maxAttempts = 0 then some .noAttempts
  else if !settings.retry.multiplier.isFinite || settings.retry.multiplier.lt 1 then
    some (.badMultiplier settings.retry.multiplier)
  else
    match settings.rateLimit.bind RateLimit.fault? with
    | some fault => some fault
    | none => if settings.itemTimeout = 0 then some .noTimeout else none

/-- Number of items that are processed at a time. -/
def slots (settings : Settings) : Nat :=
  match settings.mode with
  | .parallel => settings.concurrency
  | .sequential => 1

end Settings

end BatchRun
