import BatchRun.Input.Table
import BatchRun.Json.Parser
import BatchRun.Storage.Path

/-!
# Sources of items

**Input.**
A text, its format, and the names of the fields that matter.

**Result.**
`items` turns the text into pending items in the order of the source: all of them, or the first
error.  A line-oriented text gives one item a line; lists of records, lines of records and
tables give one item a record.
-/

namespace BatchRun
namespace Input

open Json
open Number
open Storage
open Text

/-- Shape of a source. -/
inductive Format where
  /-- One payload a line. -/
  | lines
  /-- A JSON array of records. -/
  | records
  /-- One JSON record a line. -/
  | jsonLines
  /-- Rows of separated cells below a header. -/
  | table (separator : UInt8)
deriving DecidableEq

namespace Format

/-- Cells separated by commas. -/
def commas : Format := .table 44

/-- Cells separated by tabulators. -/
def tabs : Format := .table 9

/-- Format that the extension of a file suggests; without one, lines. -/
def ofPath (path : Path) : Format :=
  match path.extension?.map String.toLower with
  | some "json" => .records
  | some "jsonl" => .jsonLines
  | some "ndjson" => .jsonLines
  | some "csv" => commas
  | some "tsv" => tabs
  | some "tab" => tabs
  | _ => .lines

end Format

/-- Item of a line. -/
def lineItem (index : Nat) (line : List Char) : Item :=
  { id := natText (index + 1), position := index, payload := .string (String.ofList line) }

/-- Lines that are payloads: neither empty nor comments. -/
def payloadLines (options : Options) (source : String) : List (List Char) :=
  let mark := options.commentMark.toList
  (filledLines source).filter fun line => mark.isEmpty || !mark.isPrefixOf line

/-- Items of a line-oriented text. -/
def lineItems (options : Options) (source : String) : List Item :=
  (payloadLines options source).zipIdx.map fun (line, index) => lineItem index line

/-- Item of a line that holds a record. -/
def jsonLineItem (options : Options) (index : Nat) (taken : List String) (line : List Char) :
    Except InputError (Item × List String) :=
  let text := bytesOf (String.ofList line)
  match parse? text with
  | .error fault => .error (.malformedJson index (fault.describe text))
  | .ok record => recordItem options index taken record

/-- Items of a text with one record a line. -/
def jsonLineItems (options : Options) (source : String) : Except InputError (List Item) :=
  itemsFrom (jsonLineItem options) 0 [] (filledLines source)

/-- Items of a text that is a list of records. -/
def listItems (options : Options) (source : String) : Except InputError (List Item) :=
  let text := bytesOf source
  match parse? text with
  | .error fault => .error (.malformedJson 0 (fault.describe text))
  | .ok (.array records) => recordItems options records
  | .ok _ => .error (.invalidRecord 0 .notList)

/-- Items of a source. -/
def items (options : Options) (format : Format) (source : String) :
    Except InputError (List Item) :=
  match format with
  | .lines => .ok (lineItems options source)
  | .records => listItems options source
  | .jsonLines => jsonLineItems options source
  | .table separator => tableItems options separator source

/-- Items of a file that was read, in a given format or in the one that its path suggests. -/
def fileItems (options : Options) (format : Option Format) (path : Path)
    (contents : Except Storage.Fault Bytes) : Except InputError (List Item) :=
  match contents with
  | .error fault => .error (.unreadable fault)
  | .ok bytes =>
    match textOf? bytes with
    | none => .error (.unreadable .notText)
    | some source => items options (format.getD (.ofPath path)) source

end Input
end BatchRun
