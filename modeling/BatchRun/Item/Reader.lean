import BatchRun.Item.Basic
import BatchRun.Json.Reader

/-!
# Reading work items

**Input.**
The bytes that are left of a text, at the start of an item or of a part of one.

**Results.**
Readers for failures, reasons of skips, points in time and whole items.  The reason of a skip
names its case in the field `reason`, at any place of the object; its other fields are read when
the object has ended, and so a fault in them has no place of its own.
-/

namespace BatchRun

open Json
open Json.Reader
open Time

/-- Reader of statuses. -/
def Status.reader (depth : Nat) : Reader Status := unitCase depth Status.cases

/-- Reader of kinds of failures. -/
def FailureKind.reader (depth : Nat) : Reader FailureKind := unitCase depth FailureKind.cases

/-- Reader of points in time. -/
def Time.Timestamp.reader : Reader Timestamp :=
  textWith "an RFC 3339 formatted date and time string" fun text =>
    match Timestamp.parse? text with
    | .ok t => .ok t
    | .error error => .error (.custom error.message)

namespace ItemFailure

/-- Fields of a failure that were read so far. -/
structure Fields where
  kind : Option FailureKind := none
  message : Option String := none

/-- Reads the value behind a key. -/
def member (depth : Nat) (key : String) (fields : Fields) : Reader Fields := do
  if key = "kind" then
    pure { fields with kind := some (← fill key fields.kind (FailureKind.reader depth)) }
  else if key = "message" then
    pure { fields with message := some (← fill key fields.message text) }
  else ignore fields

/-- Reader of failures kept on items. -/
def reader (depth : Nat) : Reader ItemFailure :=
  record "ItemError" depth
    (fun depth => do
      let fields ← members (member depth) {}
      pure ⟨← required "kind" fields.kind, ← required "message" fields.message⟩)
    (fun depth => do
      let expected := "struct ItemError with 2 elements"
      let kind ← element 0 expected (FailureKind.reader depth)
      let message ← element 1 expected text
      pure ⟨kind, message⟩)

end ItemFailure

namespace SkipReason

/-- Name of a case of `SkipReason`. -/
inductive Tag where
  | duplicate
  | aborted
  | cancelled
  | resumed

/-- Tags with their names. -/
def tags : List (String × Tag) :=
  [("duplicate", .duplicate), ("aborted", .aborted), ("cancelled", .cancelled),
    ("resumed", .resumed)]

/-- Object of a reason: the tag, once it was read, and the other fields in reverse. -/
structure Fields where
  tag : Option Tag := none
  others : List (String × Json) := []

/-- Reads the value behind a key. -/
def member (depth : Nat) (key : String) (fields : Fields) : Reader Fields := do
  if key = "reason" then
    pure { fields with tag := some (← fill key fields.tag (variant tags)) }
  else
    colon
    pure { fields with others := (key, ← value depth) :: fields.others }

/-- Description of a value that was found. -/
def found : Json → String
  | .null => "null"
  | .bool b => if b then "boolean `true`" else "boolean `false`"
  | .number n => foundNumber n
  | .string s => "string " ++ Text.debugQuoted s
  | .array _ => "sequence"
  | .object _ => "map"

/-- A text among the fields that were kept. -/
def keptText : Json → Reader String
  | .string text => pure text
  | other => raise (.invalidType (found other) "a string")

/-- The reason with a tag and the fields of an object. -/
def ofFields (tag : Tag) (others : List (String × Json)) : Reader SkipReason :=
  match tag with
  | .aborted => pure .aborted
  | .cancelled => pure .cancelled
  | .resumed => pure .resumed
  | .duplicate =>
    match others.filter (fun field => field.1 == "first_id") with
    | [] => raise (.missingField "first_id")
    | [(_, value)] => .duplicate <$> keptText value
    | (_, value) :: _ => do
      let _ ← keptText value
      raise (.duplicateField "first_id")

/-- The reason with a tag and the elements of a list. -/
def ofElements (tag : Tag) (others : List Json) : Reader SkipReason :=
  let noMore (count : Nat) (rest : List Json) (reason : SkipReason) : Reader SkipReason :=
    if rest.isEmpty then pure reason
    else
      raise (.invalidLength (count + rest.length)
        (if count = 1 then "1 element in sequence"
          else Number.natText count ++ " elements in sequence"))
  match tag with
  | .aborted => noMore 0 others .aborted
  | .cancelled => noMore 0 others .cancelled
  | .resumed => noMore 0 others .resumed
  | .duplicate =>
    match others with
    | [] => raise (.invalidLength 0 "struct variant SkipReason::Duplicate with 1 element")
    | value :: rest => do
      let firstId ← keptText value
      noMore 1 rest (.duplicate firstId)

/-- Elements behind the first one, up to the closing bracket. -/
def otherElements (depth : Nat) : Reader (List Json) := fun rest =>
  elementsLoop (value depth) (rest.length + 1) false [] rest

/-- Reader of reasons of skips.  What is read of an object or a list is kept until the case is
known, and a fault found then is placed by the value around it. -/
def reader (depth : Nat) : Reader SkipReason := do
  let expected := "internally tagged enum SkipReason"
  let inside (close : Text.Bytes → Text.Bytes × Option Fault)
      (reader : Nat → Reader (Reader SkipReason)) : Reader SkipReason := fun rest =>
    match rest with
    | [] => mismatch expected []
    | _ :: tail =>
      match depth with
      | 0 => .error (.placed .recursionLimit tail.length)
      | depth + 1 =>
        match enclosed close (reader depth) tail with
        | .error fault => .error fault
        | .ok (rest, after) => rest after
  atValue fun rest =>
    if rest.head? = some (code '\x7b') then
      inside closeObject
        (fun depth => do
          let fields ← members (member depth) {}
          let tag ← required "reason" fields.tag
          pure (ofFields tag fields.others.reverse))
        rest
    else if rest.head? = some (code '[') then
      inside closeList
        (fun depth => do
          match ← element? true (variant tags) with
          | none => raise (.missingField "reason")
          | some tag => pure (ofElements tag (← otherElements depth)))
        rest
    else mismatch expected rest

end SkipReason

namespace Item

/-- Fields of an item that were read so far.  The outer option tells whether the field was
there. -/
structure Fields where
  id : Option String := none
  position : Option Nat := none
  payload : Option Json := none
  metadata : Option Metadata := none
  status : Option Status := none
  attempts : Option Nat := none
  result : Option (Option Json) := none
  failure : Option (Option ItemFailure) := none
  skipReason : Option (Option SkipReason) := none
  location : Option (Option String) := none
  resumed : Option Bool := none
  startedAt : Option (Option Timestamp) := none
  finishedAt : Option (Option Timestamp) := none
  durationMillis : Option Nat := none

/-- Reader of annotations. -/
def metadataReader (depth : Nat) : Reader Metadata := map depth value

/-- Reads the value behind a key. -/
def member (depth : Nat) (key : String) (fields : Fields) : Reader Fields := do
  if key = "id" then
    pure { fields with id := some (← fill key fields.id text) }
  else if key = "position" then
    pure { fields with position := some (← fill key fields.position count) }
  else if key = "payload" then
    pure { fields with payload := some (← fill key fields.payload (value depth)) }
  else if key = "metadata" then
    pure { fields with metadata := some (← fill key fields.metadata (metadataReader depth)) }
  else if key = "status" then
    pure { fields with status := some (← fill key fields.status (Status.reader depth)) }
  else if key = "attempts" then
    pure { fields with attempts := some (← fill key fields.attempts word32) }
  else if key = "result" then
    pure { fields with result := some (← fill key fields.result (optional (value depth))) }
  else if key = "error" then
    pure { fields with
      failure := some (← fill key fields.failure (optional (ItemFailure.reader depth))) }
  else if key = "skip_reason" then
    pure { fields with
      skipReason := some (← fill key fields.skipReason (optional (SkipReason.reader depth))) }
  else if key = "result_location" then
    pure { fields with location := some (← fill key fields.location (optional text)) }
  else if key = "resumed" then
    pure { fields with resumed := some (← fill key fields.resumed flag) }
  else if key = "started_at" then
    pure { fields with
      startedAt := some (← fill key fields.startedAt (optional Timestamp.reader)) }
  else if key = "finished_at" then
    pure { fields with
      finishedAt := some (← fill key fields.finishedAt (optional Timestamp.reader)) }
  else if key = "duration_ms" then
    pure { fields with durationMillis := some (← fill key fields.durationMillis word64) }
  else ignore fields

/-- The item with the fields of an object. -/
def ofFields (fields : Fields) : Reader Item := do
  let id ← required "id" fields.id
  let position ← required "position" fields.position
  let payload ← required "payload" fields.payload
  let status ← required "status" fields.status
  let attempts ← required "attempts" fields.attempts
  let durationMillis ← required "duration_ms" fields.durationMillis
  pure {
    id, position, payload, status, attempts, durationMillis
    metadata := fields.metadata.getD []
    result := fields.result.join
    failure := fields.failure.join
    skipReason := fields.skipReason.join
    location := fields.location.join
    resumed := fields.resumed.getD false
    startedAt := fields.startedAt.join
    finishedAt := fields.finishedAt.join }

/-- The item with the elements of a list. -/
def ofList (depth : Nat) : Reader Item := do
  let expected := "struct WorkItem with 14 elements"
  let id ← element 0 expected text
  let position ← element 1 expected count
  let payload ← element 2 expected (value depth)
  let metadata ← element? false (metadataReader depth)
  let status ← element 4 expected (Status.reader depth)
  let attempts ← element 5 expected word32
  let result ← element? false (optional (value depth))
  let failure ← element? false (optional (ItemFailure.reader depth))
  let skipReason ← element? false (optional (SkipReason.reader depth))
  let location ← element? false (optional text)
  let resumed ← element? false flag
  let startedAt ← element? false (optional Timestamp.reader)
  let finishedAt ← element? false (optional Timestamp.reader)
  let durationMillis ← element 13 expected word64
  pure {
    id, position, payload, status, attempts, durationMillis
    metadata := metadata.getD []
    result := result.join
    failure := failure.join
    skipReason := skipReason.join
    location := location.join
    resumed := resumed.getD false
    startedAt := startedAt.join
    finishedAt := finishedAt.join }

/-- Reader of items. -/
def reader (depth : Nat) : Reader Item :=
  record "WorkItem" depth (fun depth => members (member depth) {} >>= ofFields) ofList

/-- Item of a whole text. -/
def parse? (text : Text.Bytes) : Except Fault Item := whole (reader maxDepth) text

end Item

end BatchRun
