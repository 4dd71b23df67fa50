import BatchRun.Input.Csv
import BatchRun.Input.Record

/-!
# Items from tables

**Input.**
A text of separated cells whose first row names the columns.

**Result.**
`tableItems` makes one item of each further row: the payload and the id are cells, the cells of
the other columns are annotations.  A row without a payload is an error, a row without an id
takes its place counted from one.  A fault in the bytes of a cell is counted from the first byte
that is no white space; in the header, from the first byte.
-/

namespace BatchRun
namespace Input

open Number
open Text

/-- Length of the longest valid beginning of a list of bytes, looked for from some length
downward. -/
def validLength (bytes : Bytes) : (length : Nat) → Nat
  | 0 => 0
  | length + 1 =>
    if (textOf? (bytes.take (length + 1))).isSome then length + 1 else validLength bytes length

/-- Where a row begins. -/
def placeOf (text : Bytes) (index : Nat) (row : Row) : RowPlace :=
  let read := text.take (text.length - row.left)
  ⟨index, read.count 10 + 1, read.length⟩

/-- Trimmed texts of cells; `cell` is the number of the first one. -/
def cellTexts (place : RowPlace) : (cell : Nat) → List Bytes → Except InputError (List String)
  | _, [] => .ok []
  | cell, bytes :: others =>
    match textOf? bytes with
    | none => .error (.malformedTable (.notText place cell (validLength bytes bytes.length)))
    | some text =>
      match cellTexts place (cell + 1) others with
      | .error error => .error error
      | .ok texts => .ok (trimText text :: texts)

/-- Columns with a meaning: the payload, and the id if there is one. -/
structure Columns where
  names : List String
  payload : Nat
  id : Option Nat

/-- Columns that a header names. -/
def columnsOf (options : Options) (names : List String) : Except InputError Columns :=
  match names.findIdx? (fun name => name == options.payloadField) with
  | none => .error (.missingColumn options.payloadField)
  | some payload =>
    .ok ⟨names, payload, names.findIdx? (fun name => name == options.idField)⟩

/-- Annotations of a row: the cells of the columns without a meaning. -/
def rowMetadata (columns : Columns) (cells : List String) : Metadata :=
  let named := (columns.names.zip cells).zipIdx
  let kept := named.filter fun (_, column) =>
    !(column == columns.payload) && !(some column == columns.id)
  Keyed.sort (kept.map fun ((name, cell), _) => (name, Json.string cell))

/-- Item of a row. -/
def rowItem (options : Options) (text : Bytes) (columns : Columns) (index : Nat)
    (taken : List String) (row : Row) : Except InputError (Item × List String) := do
  let place := placeOf text (index + 1) row
  if row.cells.length ≠ columns.names.length then
    .error (.malformedTable (.width place row.cells.length columns.names.length))
  else
    let cells ← cellTexts place 0 (row.cells.map (·.dropWhile isBlankByte))
    let payload := cells.getD columns.payload ""
    if payload.isEmpty then .error (.missingField index options.payloadField)
    else
      let explicit := (columns.id.bind (fun column => cells[column]?)).filter
        (fun cell => !cell.isEmpty)
      let (id, taken) ← assignId taken explicit index
      pure (
        { id, position := index, payload := .string payload
          metadata := rowMetadata columns cells },
        taken)

/-- Items of a table. -/
def tableItems (options : Options) (separator : UInt8) (source : String) :
    Except InputError (List Item) := do
  let text := bytesOf source
  match rows separator text with
  | [] => .error (.missingColumn options.payloadField)
  | header :: others =>
    let names ← cellTexts (placeOf text 0 header) 0 header.cells
    let columns ← columnsOf options names
    itemsFrom (rowItem options text columns) 0 [] others

end Input
end BatchRun
