import BatchRun.Config.Basic
import BatchRun.Toml.Parser
import BatchRun.Toml.Record

/-!
# Configuration files

**Input.**
A TOML document.  Its fields have the names and the order that the readers below list; all but the
rate of a limit may be missing.

**Results.**
`Config.ofText?` reads a document, and `Config.load` the file with one.  The file of the default
name may be missing; one that was asked for may not.
-/

namespace BatchRun

open Storage
open Text
open Toml

/-- Bound of the counts that have 32 bits. -/
def shortBound : Nat := Nat.pow 2 32

/-- Bound of the counts that have 64 bits. -/
def longBound : Nat := Nat.pow 2 64

/-- Limit in a document. -/
def RateLimit.ofToml? (value : Toml) : Option (RateLimit Number.Binary64) := do
  let parts ← value.parts?
  let rate ← (parts.find? "requests_per_second" 0).bind real?
  let burst ← parts.read "burst" 1 (natBelow? shortBound) 1
  pure { rate, burst }

/-- Windows and bounds of health in a document. -/
def HealthSettings.ofToml? (value : Toml) : Option HealthSettings := do
  let parts ← value.parts?
  let default : HealthSettings := {}
  pure
    { windowSize := ← parts.read "window_size" 0 (natBelow? longBound) default.windowSize
      minSamples := ← parts.read "min_samples" 1 (natBelow? longBound) default.minSamples
      healthyThreshold := ← parts.read "healthy_threshold" 2 real? default.healthyThreshold
      degradedThreshold := ← parts.read "degraded_threshold" 3 real? default.degradedThreshold }

/-- Names of fields in a document. -/
def Input.Options.ofToml? (value : Toml) : Option Input.Options := do
  let parts ← value.parts?
  let default : Input.Options := {}
  pure
    { idField := ← parts.read "id_field" 0 text? default.idField
      payloadField := ← parts.read "payload_field" 1 text? default.payloadField
      metadataField := ← parts.read "metadata_field" 2 text? default.metadataField
      commentMark := ← parts.read "comment_prefix" 3 text? default.commentMark }

namespace Config

/-- Configuration with given fields. -/
def ofFields? (fields : Fields) : Option Config := do
  let read {α : Type} (name : String) (meaning : Toml → Option α) (default : α) : Option α :=
    (Parts.named fields).read name 0 meaning default
  let default : Config := {}
  pure
    { endpoint := ← read "endpoint" text? default.endpoint
      queryParam := ← read "query_param" text? default.queryParam
      outputDir := ← read "output_dir" (fun value => value.text?.map Path.mk) default.outputDir
      concurrency := ← read "concurrency" (natBelow? longBound) default.concurrency
      sequential := ← read "sequential" bool? default.sequential
      maxAttempts := ← read "max_attempts" (natBelow? shortBound) default.maxAttempts
      baseDelay := ← read "base_delay_ms" (natBelow? longBound) default.baseDelay
      backoffMultiplier := ← read "backoff_multiplier" real? default.backoffMultiplier
      maxDelay := ← read "max_delay_ms" (natBelow? longBound) default.maxDelay
      continueOnError := ← read "continue_on_error" bool? default.continueOnError
      deduplicate := ← read "deduplicate" bool? default.deduplicate
      checkpointInterval :=
        ← read "checkpoint_interval" (natBelow? longBound) default.checkpointInterval
      itemTimeout := ← read "item_timeout_secs" (natBelow? longBound) default.itemTimeout
      cancelGrace := ← read "cancel_grace_secs" (natBelow? longBound) default.cancelGrace
      rateLimit :=
        ← read "rate_limit" (fun value => (RateLimit.ofToml? value).map some) default.rateLimit
      health := ← read "health" HealthSettings.ofToml? default.health
      input := ← read "input" Input.Options.ofToml? default.input }

/-- Configuration in the text of a document. -/
def ofText? (text : String) : Option Config := (Toml.parse? text).bind ofFields?

/-- Name of the file that is read when none is asked for. -/
def defaultName : String := "fanout.toml"

end Config

/-- Why a configuration was not read. -/
inductive ConfigFault where
  | unreadable (path : Path) (fault : Storage.Fault)
  | malformed (path : Path)
deriving DecidableEq

namespace ConfigFault

/-- Wording of a fault. -/
def message : ConfigFault → String
  | unreadable path _ => "failed to read config " ++ path.text
  | malformed path => "invalid config " ++ path.text

/-- The fault behind one of reading. -/
def cause? : ConfigFault → Option Storage.Fault
  | unreadable _ fault => some fault
  | malformed _ => none

end ConfigFault

namespace Config

/-- Configuration in the file at a path. -/
def ofFile (path : Path) (contents : Except Storage.Fault Bytes) : Except ConfigFault Config :=
  match contents with
  | .error fault => .error (.unreadable path fault)
  | .ok bytes =>
    match textOf? bytes with
    | none => .error (.unreadable path .notText)
    | some text =>
      match ofText? text with
      | none => .error (.malformed path)
      | some config => .ok config

/-- Configuration in the file that was asked for, or else in the one with the default name if
there is one; `read` gives the contents of a file. -/
def load (asked : Option Path) (read : Path → Except Storage.Fault Bytes) :
    Except ConfigFault Config :=
  match asked with
  | some path => ofFile path (read path)
  | none =>
    match read ⟨defaultName⟩ with
    | .error .notFound => .ok {}
    | contents => ofFile ⟨defaultName⟩ contents

end Config

end BatchRun
