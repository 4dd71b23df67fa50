import BatchRun.Item.Basic
import BatchRun.Json.Printer

/-!
# Documents of work items

**Input.**
An item or a part of one.

**Result.**
The JSON value that stands for it.  Fields follow the order of the type; what is empty or absent
is left out.
-/

namespace BatchRun

open Number
open Time

namespace Json

/-- A whole number. -/
def nat (n : Nat) : Json := .number (.whole n)

/-- A floating-point number. -/
def real (x : Binary64) : Json := .number (.real x)

/-- A field that is written only when there is a value. -/
def optionalField (key : String) (value : Option Json) : List (String × Json) :=
  match value with
  | some value => [(key, value)]
  | none => []

end Json

/-- Document of a failure kept on an item. -/
def ItemFailure.document (failure : ItemFailure) : Json :=
  .object [("kind", .string failure.kind.name), ("message", .string failure.message)]

/-- Document of the reason of a skip: the case is told by a field of its own. -/
def SkipReason.document : SkipReason → Json
  | duplicate firstId => .object [("reason", .string "duplicate"), ("first_id", .string firstId)]
  | aborted => .object [("reason", .string "aborted")]
  | cancelled => .object [("reason", .string "cancelled")]
  | resumed => .object [("reason", .string "resumed")]

/-- Document of a point in time. -/
def Time.Timestamp.document (t : Timestamp) : Json := .string t.text

namespace Item

/-- Document of an item. -/
def document (item : Item) : Json :=
  .object
    ([("id", .string item.id), ("position", .nat item.position), ("payload", item.payload)]
      ++ (if item.metadata.isEmpty then [] else [("metadata", .object item.metadata)])
      ++ [("status", .string item.status.name), ("attempts", .nat item.attempts)]
      ++ Json.optionalField "result" item.result
      ++ Json.optionalField "error" (item.failure.map ItemFailure.document)
      ++ Json.optionalField "skip_reason" (item.skipReason.map SkipReason.document)
      ++ Json.optionalField "result_location" (item.location.map Json.string)
      ++ (if item.resumed then [("resumed", .bool true)] else [])
      ++ Json.optionalField "started_at" (item.startedAt.map Timestamp.document)
      ++ Json.optionalField "finished_at" (item.finishedAt.map Timestamp.document)
      ++ [("duration_ms", .nat item.durationMillis)])

end Item

end BatchRun
