import BatchRun.Item.Document
import BatchRun.Job.Health
import BatchRun.Json.Reader

/-!
# Documents of health reports

**Results.**
`Summary.document` and `Summary.reader` write and read the view of one destination;
`snapshotDocument` and `snapshotReader` do so for the views of all destinations by their names.
-/

namespace BatchRun

open Json
open Json.Reader
open Number

namespace Summary

/-- Document of a view. -/
def document (summary : Summary) : Json :=
  .object
    [("status", .string summary.verdict.name), ("samples", .nat summary.samples),
      ("success_rate", .real summary.successRate), ("avg_latency_ms", .nat summary.meanLatency),
      ("p95_latency_ms", .nat summary.highLatency)]

/-- Fields of a view that were read so far. -/
structure Fields where
  verdict : Option Verdict := none
  samples : Option Nat := none
  successRate : Option Binary64 := none
  meanLatency : Option Nat := none
  highLatency : Option Nat := none

/-- Reads the value behind a key. -/
def member (depth : Nat) (key : String) (fields : Fields) : Reader Fields := do
  if key = "status" then
    pure { fields with
      verdict := some (← fill key fields.verdict (unitCase depth Verdict.cases)) }
  else if key = "samples" then
    pure { fields with samples := some (← fill key fields.samples count) }
  else if key = "success_rate" then
    pure { fields with successRate := some (← fill key fields.successRate Reader.real) }
  else if key = "avg_latency_ms" then
    pure { fields with meanLatency := some (← fill key fields.meanLatency word64) }
  else if key = "p95_latency_ms" then
    pure { fields with highLatency := some (← fill key fields.highLatency word64) }
  else ignore fields

/-- Reader of views. -/
def reader (depth : Nat) : Reader Summary :=
  record "DestinationHealth" depth
    (fun depth => do
      let fields ← members (member depth) {}
      let verdict ← required "status" fields.verdict
      let samples ← required "samples" fields.samples
      let successRate ← required "success_rate" fields.successRate
      let meanLatency ← required "avg_latency_ms" fields.meanLatency
      let highLatency ← required "p95_latency_ms" fields.highLatency
      pure ⟨verdict, samples, successRate, meanLatency, highLatency⟩)
    (fun depth => do
      let expected := "struct DestinationHealth with 5 elements"
      let verdict ← element 0 expected (unitCase depth Verdict.cases)
      let samples ← element 1 expected count
      let successRate ← element 2 expected Reader.real
      let meanLatency ← element 3 expected word64
      let highLatency ← element 4 expected word64
      pure ⟨verdict, samples, successRate, meanLatency, highLatency⟩)

end Summary

/-- Views of all destinations, ascending by name. -/
abbrev Snapshot := List (String × Summary)

/-- Document of the views of all destinations. -/
def snapshotDocument (snapshot : Snapshot) : Json :=
  .object (snapshot.map fun (key, summary) => (key, summary.document))

/-- Reader of the views of all destinations. -/
def snapshotReader (depth : Nat) : Reader Snapshot := map depth Summary.reader

end BatchRun
