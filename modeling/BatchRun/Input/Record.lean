import BatchRun.Input.Error
import BatchRun.Item.Basic
import BatchRun.Keyed
import BatchRun.Text.Blank

/-!
# Items from records

**Input.**
A list of records, each an object or a bare text, and the names of the fields that matter.

**Result.**
`itemsFrom` makes one item of each record in turn, threading the ids that were given out: an
explicit id, or the place of the record counted from one.  The first record that is wrong, or
whose id is taken, is the error.  Fields without a meaning of their own become annotations, and
the explicit annotations win over them.
-/

namespace BatchRun
namespace Input

open Number
open Text

/-- Names of fields and the mark of comments. -/
structure Options where
  idField : String := "id"
  payloadField : String := "payload"
  metadataField : String := "metadata"
  /-- Lines that begin with it are left out; an empty mark leaves out none. -/
  commentMark : String := "#"
deriving DecidableEq

/-- Gives out an id: the explicit one, or else the place counted from one. -/
def assignId (taken : List String) (explicit : Option String) (index : Nat) :
    Except InputError (String × List String) :=
  let id := explicit.getD (natText (index + 1))
  if taken.contains id then .error (.duplicateId id index) else .ok (id, id :: taken)

/-- Makes one item of each record in turn; `index` and `taken` belong to the next one. -/
def itemsFrom (make : (index : Nat) → (taken : List String) → α →
      Except InputError (Item × List String)) :
    (index : Nat) → (taken : List String) → List α → Except InputError (List Item)
  | _, _, [] => .ok []
  | index, taken, record :: records =>
    match make index taken record with
    | .error error => .error error
    | .ok (item, taken) =>
      match itemsFrom make (index + 1) taken records with
      | .error error => .error error
      | .ok items => .ok (item :: items)

/-- Payload among the fields of a record. -/
def payloadOf (options : Options) (index : Nat) (fields : List (String × Json)) :
    Except InputError Json :=
  match Keyed.find? fields options.payloadField with
  | none => .error (.missingField index options.payloadField)
  | some .null => .error (.missingField index options.payloadField)
  | some payload => .ok payload

/-- Explicit id among the fields of a record. -/
def explicitIdOf (options : Options) (index : Nat) (fields : List (String × Json)) :
    Except InputError (Option String) :=
  let bad (value : Json) : Except InputError (Option String) :=
    .error (.invalidRecord index (.badId options.idField value.shape))
  match Keyed.find? fields options.idField with
  | none => .ok none
  | some .null => .ok none
  | some (.string text) =>
    if trim text.toList = [] then bad (.string text) else .ok (some (trimText text))
  | some (.number (.whole n)) => .ok (some (intText n))
  | some other => bad other

/-- Explicit annotations among the fields of a record. -/
def explicitMetadataOf (options : Options) (index : Nat) (fields : List (String × Json)) :
    Except InputError Metadata :=
  match Keyed.find? fields options.metadataField with
  | none => .ok []
  | some .null => .ok []
  | some (.object map) => .ok map
  | some other =>
    .error (.invalidRecord index (.badMetadata options.metadataField other.shape))

/-- Item of a record. -/
def recordItem (options : Options) (index : Nat) (taken : List String) :
    Json → Except InputError (Item × List String)
  | .string payload => do
    let (id, taken) ← assignId taken none index
    pure ({ id, position := index, payload := .string payload }, taken)
  | .object fields => do
    let payload ← payloadOf options index fields
    let fields := Keyed.erase options.payloadField fields
    let explicit ← explicitIdOf options index fields
    let fields := Keyed.erase options.idField fields
    let explicitMetadata ← explicitMetadataOf options index fields
    let fields := Keyed.erase options.metadataField fields
    let metadata :=
      explicitMetadata.foldl (fun all field => Keyed.insert field.1 field.2 all) fields
    let (id, taken) ← assignId taken explicit index
    pure ({ id, position := index, payload, metadata }, taken)
  | other => .error (.invalidRecord index (.notRecord other.shape))

/-- Items of a list of records. -/
def recordItems (options : Options) (records : List Json) : Except InputError (List Item) :=
  itemsFrom (recordItem options) 0 [] records

end Input
end BatchRun
