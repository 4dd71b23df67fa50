import BatchRun.Keyed
import BatchRun.Number.Binary64

/-!
# Health of destinations

**Types.**
A `Monitor` keeps, for every destination, a window of the latest outcomes.  `HealthSettings` say
how long windows are and how a rate of successes is judged.

**Results.**
`Monitor.record` adds an outcome; `Monitor.summary?` judges the window of a destination.  The
latencies of a window are added in 64 bits, and a sum that does not fit breaks off the caller, who
makes none of the calls that were to follow (`Monitor.recordAll`).  The monitor stays for others.
-/

namespace BatchRun

open Number

/-- Judgement of a destination. -/
inductive Verdict where
  | healthy
  | degraded
  | unhealthy
deriving DecidableEq, Inhabited

/-- Name of a verdict, in documents and in messages. -/
def Verdict.name : Verdict → String
  | healthy => "healthy"
  | degraded => "degraded"
  | unhealthy => "unhealthy"

/-- Verdicts with their names. -/
def Verdict.cases : List (String × Verdict) :=
  [healthy, degraded, unhealthy].map (fun verdict => (verdict.name, verdict))

/-- Length of windows and bounds of verdicts. -/
structure HealthSettings where
  windowSize : Nat := 50
  /-- With fewer samples a destination counts as healthy. -/
  minSamples : Nat := 5
  /-- Least rate of successes of a healthy destination. -/
  healthyThreshold : Binary64 := .ofRatio 9 10
  /-- Least rate of successes of a degraded destination. -/
  degradedThreshold : Binary64 := .ofRatio 5 10
deriving DecidableEq

/-- Verdict on a rate of successes. -/
def HealthSettings.judge (settings : HealthSettings) (samples : Nat) (rate : Binary64) :
    Verdict :=
  if samples < settings.minSamples || settings.healthyThreshold.le rate then .healthy
  else if settings.degradedThreshold.le rate then .degraded
  else .unhealthy

/-- Outcome of an attempt. -/
structure Sample where
  succeeded : Bool
  /-- Time of the attempt in milliseconds. -/
  latency : Nat
deriving DecidableEq

/-- View of one destination. -/
structure Summary where
  verdict : Verdict
  samples : Nat
  successRate : Binary64
  meanLatency : Nat
  /-- Latency that 95 of 100 samples do not exceed. -/
  highLatency : Nat
deriving DecidableEq

/-- Why a window cannot be kept. -/
inductive HealthFault where
  /-- The latencies do not fit in 64 bits together. -/
  | latencyOverflow
  /-- No memory can hold the window. -/
  | windowTooLarge
deriving DecidableEq

/-- Wording of a fault. -/
def HealthFault.message : HealthFault → String
  | latencyOverflow => "attempt to add with overflow"
  | windowTooLarge => "capacity overflow"

namespace HealthSettings

/-- Number of samples that a window keeps. -/
def capacity (settings : HealthSettings) : Nat := max settings.windowSize 1

/-- First length of windows that no memory can hold. -/
def unallocatable : Nat := Nat.pow 2 59

end HealthSettings

/-- Place of the 95th percentile among so many samples in ascending order, counted from one. -/
def highRank (samples : Nat) : Nat :=
  let rank := (Binary64.ofNat samples * Binary64.ofRatio 95 100).ceilWithin (Nat.pow 2 64 - 1)
  min samples (max 1 rank)

/-- View of a window. -/
def summarize (settings : HealthSettings) (window : List Sample) :
    Except HealthFault Summary :=
  let samples := window.length
  let latencies := (window.map Sample.latency).mergeSort
  let total := latencies.foldr (· + ·) 0
  let rate :=
    if samples = 0 then 1
    else Binary64.ofNat (window.countP Sample.succeeded) / Binary64.ofNat samples
  if Nat.pow 2 64 ≤ total then .error .latencyOverflow
  else
    .ok {
      verdict := settings.judge samples rate
      samples
      successRate := rate
      meanLatency := total / samples
      highLatency := latencies.getD (highRank samples - 1) 0 }

/-- Windows of all destinations, each with its oldest sample first. -/
structure Monitor where
  settings : HealthSettings := {}
  windows : List (String × List Sample) := []

namespace Monitor

/-- Makes sure that a destination has a window. -/
def opened (monitor : Monitor) (key : String) : Except HealthFault Monitor :=
  match Keyed.find? monitor.windows key with
  | some _ => .ok monitor
  | none =>
    if HealthSettings.unallocatable ≤ monitor.settings.windowSize then .error .windowTooLarge
    else .ok { monitor with windows := Keyed.insert key [] monitor.windows }

/-- Window with another sample; a full one loses its oldest sample. -/
def slide (settings : HealthSettings) (window : List Sample) (sample : Sample) : List Sample :=
  (if window.length = settings.capacity then window.drop 1 else window) ++ [sample]

/-- Adds a sample to the window of a destination. -/
def push (monitor : Monitor) (key : String) (sample : Sample) : Monitor :=
  let window := (Keyed.find? monitor.windows key).getD []
  { monitor with
    windows := Keyed.insert key (slide monitor.settings window sample) monitor.windows }

/-- View of a destination, if anything was recorded for it. -/
def summary? (monitor : Monitor) (key : String) : Except HealthFault (Option Summary) :=
  match Keyed.find? monitor.windows key with
  | none => .ok none
  | some window => (summarize monitor.settings window).map some

/-- Records a sample and judges the destination.  The sample stays recorded when the judgement
fails. -/
def record (monitor : Monitor) (key : String) (sample : Sample) :
    Monitor × Except HealthFault Unit :=
  match monitor.opened key with
  | .error fault => (monitor, .error fault)
  | .ok monitor =>
    let monitor := monitor.push key sample
    (monitor, (monitor.summary? key).map fun _ => ())

/-- Records samples, one call after the other.  A call that fails breaks off the caller. -/
def recordAll (monitor : Monitor) :
    (calls : List (String × Sample)) → Monitor × Except HealthFault Unit
  | [] => (monitor, .ok ())
  | (key, sample) :: calls =>
    match monitor.record key sample with
    | (monitor, .ok ()) => monitor.recordAll calls
    | (monitor, .error fault) => (monitor, .error fault)

/-- Verdict on a destination; an unknown one counts as healthy. -/
def verdict (monitor : Monitor) (key : String) : Except HealthFault Verdict :=
  (monitor.summary? key).map fun summary => (summary.map Summary.verdict).getD .healthy

/-- Views of all destinations. -/
def snapshot (monitor : Monitor) : Except HealthFault (List (String × Summary)) :=
  monitor.windows.mapM fun (key, window) =>
    (summarize monitor.settings window).map fun summary => (key, summary)

end Monitor

end BatchRun
