import BatchRun.Checkpoint.Basic
import BatchRun.Item.Document
import BatchRun.Item.Reader

/-!
# Documents of checkpoints

**Results.**
`Checkpoint.document` gives the JSON value of a checkpoint and `Checkpoint.reader` reads one.  The
place of a record and the time of writing may be missing; so may the pointers when a document is
read.
-/

namespace BatchRun

open Json
open Json.Reader
open Text
open Time

/-- Document of a pointer. -/
def ResultPointer.document (pointer : ResultPointer) : Json :=
  .object
    (("status", .string pointer.status.name)
      :: optionalField "location" (pointer.location.map Json.string))

namespace ResultPointer

/-- Fields of a pointer that were read so far. -/
structure Fields where
  status : Option Status := none
  location : Option (Option String) := none

/-- Reads the value behind a key. -/
def member (depth : Nat) (key : String) (fields : Fields) : Reader Fields := do
  if key = "status" then
    pure { fields with status := some (← fill key fields.status (Status.reader depth)) }
  else if key = "location" then
    pure { fields with location := some (← fill key fields.location (optional text)) }
  else ignore fields

/-- Reader of pointers. -/
def reader (depth : Nat) : Reader ResultPointer :=
  record "ResultPointer" depth
    (fun depth => do
      let fields ← members (member depth) {}
      pure ⟨← required "status" fields.status, fields.location.join⟩)
    (fun depth => do
      let status ← element 0 "struct ResultPointer with 2 elements" (Status.reader depth)
      let location ← element? false (optional text)
      pure ⟨status, location.join⟩)

end ResultPointer

namespace Checkpoint

/-- Document of a checkpoint. -/
def document (checkpoint : Checkpoint) : Json :=
  .object
    ([("version", .nat checkpoint.version),
        ("completed_ids", .array (checkpoint.completed.map Json.string)),
        ("result_pointers",
          .object (checkpoint.pointers.map fun (id, pointer) => (id, pointer.document)))]
      ++ optionalField "saved_at" (checkpoint.savedAt.map Timestamp.document))

/-- Fields of a checkpoint that were read so far. -/
structure Fields where
  version : Option Nat := none
  completed : Option (List String) := none
  pointers : Option (List (String × ResultPointer)) := none
  savedAt : Option (Option Timestamp) := none

/-- Reader of ids, in ascending order. -/
def idsReader (depth : Nat) : Reader (List String) :=
  (fun ids => ids.foldl (fun sorted id => Keyed.insertKey id sorted) [])
    <$> Reader.list depth (fun _ => text)

/-- Reader of pointers by id. -/
def pointersReader (depth : Nat) : Reader (List (String × ResultPointer)) :=
  map depth ResultPointer.reader

/-- Reads the value behind a key. -/
def member (depth : Nat) (key : String) (fields : Fields) : Reader Fields := do
  if key = "version" then
    pure { fields with version := some (← fill key fields.version word32) }
  else if key = "completed_ids" then
    pure { fields with completed := some (← fill key fields.completed (idsReader depth)) }
  else if key = "result_pointers" then
    pure { fields with pointers := some (← fill key fields.pointers (pointersReader depth)) }
  else if key = "saved_at" then
    pure { fields with savedAt := some (← fill key fields.savedAt (optional Timestamp.reader)) }
  else ignore fields

/-- Reader of checkpoints. -/
def reader (depth : Nat) : Reader Checkpoint :=
  Reader.record "Checkpoint" depth
    (fun depth => do
      let fields ← members (member depth) {}
      let version ← required "version" fields.version
      let completed ← required "completed_ids" fields.completed
      pure ⟨version, completed, fields.pointers.getD [], fields.savedAt.join⟩)
    (fun depth => do
      let expected := "struct Checkpoint with 4 elements"
      let version ← element 0 expected word32
      let completed ← element 1 expected (idsReader depth)
      let pointers ← element? false (pointersReader depth)
      let savedAt ← element? false (optional Timestamp.reader)
      pure ⟨version, completed, pointers.getD [], savedAt.join⟩)

/-- Checkpoint of a whole text. -/
def parse? (text : Bytes) : Except Fault Checkpoint := whole (reader maxDepth) text

/-- Text of a checkpoint. -/
def text (checkpoint : Checkpoint) : Bytes := bytesOf checkpoint.document.pretty

end Checkpoint

end BatchRun
