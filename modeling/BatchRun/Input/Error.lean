import BatchRun.Json.Fault
import BatchRun.Json.Value
import BatchRun.Number.Layout
import BatchRun.Storage.Fault

/-!
# Errors in sources of items

**Type.**
`InputError` says why a source could not be turned into items.  Records are counted from zero:
the elements of a list, the lines of a text, the rows below a header.
-/

namespace BatchRun
namespace Input

open Json
open Number
open Storage

/-- What is wrong with a record. -/
inductive RecordProblem where
  /-- The source is no list of records. -/
  | notList
  /-- The record is neither an object nor a text. -/
  | notRecord (shape : String)
  /-- The id is neither a filled text nor a whole number. -/
  | badId (field shape : String)
  /-- The annotations are no object. -/
  | badMetadata (field shape : String)
deriving DecidableEq

/-- Wording of a problem. -/
def RecordProblem.message : RecordProblem → String
  | notList => "expected a JSON array of records"
  | notRecord shape => "expected an object or a string, found " ++ shape
  | badId field shape =>
    inAccents field ++ " must be a non-empty string or an integer, found " ++ shape
  | badMetadata field shape => inAccents field ++ " must be an object, found " ++ shape

/-- Where a table is malformed: the number of the row, the header being row zero, and the line
and the byte at which the reader stood before it. -/
structure RowPlace where
  row : Nat
  line : Nat
  byte : Nat
deriving DecidableEq

/-- What is wrong with a table. -/
inductive TableProblem where
  /-- A row has another number of cells than the header. -/
  | width (place : RowPlace) (found expected : Nat)
  /-- A cell is no text; the bytes up to some place are valid. -/
  | notText (place : RowPlace) (cell valid : Nat)
deriving DecidableEq

/-- Wording of a problem. -/
def TableProblem.message : TableProblem → String
  | width place found expected =>
    "CSV error: record " ++ natText place.row ++ " (line: " ++ natText place.line ++ ", byte: "
      ++ natText place.byte ++ "): found record with " ++ natText found
      ++ " fields, but the previous record has " ++ natText expected ++ " fields"
  | notText place cell valid =>
    "CSV parse error: record " ++ natText place.row ++ " (line " ++ natText place.line
      ++ ", field: " ++ natText cell ++ ", byte: " ++ natText place.byte
      ++ "): invalid utf-8: invalid UTF-8 in field " ++ natText cell ++ " near byte index "
      ++ natText valid

/-- Why a source yields no items. -/
inductive InputError where
  | missingField (index : Nat) (field : String)
  | invalidRecord (index : Nat) (problem : RecordProblem)
  | duplicateId (id : String) (index : Nat)
  | missingColumn (name : String)
  | malformedJson (index : Nat) (description : String)
  | malformedTable (problem : TableProblem)
  | unreadable (fault : Storage.Fault)
deriving DecidableEq

namespace InputError

/-- Index of the record that an error is about. -/
def index? : InputError → Option Nat
  | missingField index _ => some index
  | invalidRecord index _ => some index
  | duplicateId _ index => some index
  | malformedJson index _ => some index
  | _ => none

/-- Start of the messages about a record. -/
def aboutRecord (index : Nat) : String := "record " ++ natText index ++ ": "

/-- Message of an error. -/
def message : InputError → String
  | missingField index field =>
    aboutRecord index ++ "missing required field " ++ inAccents field
  | invalidRecord index problem => aboutRecord index ++ problem.message
  | duplicateId id index => aboutRecord index ++ "duplicate item id " ++ inAccents id
  | missingColumn name => "tabular header has no " ++ inAccents name ++ " column"
  | malformedJson index description => aboutRecord index ++ "malformed JSON: " ++ description
  | malformedTable problem => "malformed tabular input: " ++ problem.message
  | unreadable fault => "failed to read input: " ++ fault.message

/-- Message of what caused an error, if it lies outside of the records. -/
def cause? : InputError → Option String
  | malformedJson _ description => some description
  | malformedTable problem => some problem.message
  | unreadable fault => some fault.message
  | _ => none

end InputError

end Input
end BatchRun
