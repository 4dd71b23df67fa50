import BatchRun.Keyed
import BatchRun.Number.Binary64

/-!
# TOML documents

**Type.**
`Toml` is the tree of a document.  A table remembers how it was introduced, because that decides
how it may be extended.

**Results.**
`Toml.putAt` puts a value behind dotted keys, and `Toml.openTable` and `Toml.addTable` open the
table of a header.  All of them refuse to define anything twice: a value, a table behind its own
header, or a table by dotted keys that has a header of its own.
-/

namespace BatchRun

open Number

/-- How a table was introduced. -/
inductive TableOrigin where
  /-- Written on one line, in braces. -/
  | inlined
  /-- Opened by a header of its own. -/
  | headed
  /-- On the way to the table of a header. -/
  | passed
  /-- On the way to a value, by dotted keys. -/
  | dotted
deriving DecidableEq

/-- A value of a document. -/
inductive Toml where
  | string (text : String)
  | integer (value : Int)
  | real (value : Binary64)
  | bool (value : Bool)
  /-- A date, a time of day, or both. -/
  | moment
  | array (elements : List Toml)
  | table (origin : TableOrigin) (fields : List (String × Toml))
  /-- Tables that share a header. -/
  | tables (all : List (List (String × Toml)))

instance : Inhabited Toml := ⟨.moment⟩

namespace Toml

/-- Fields of a table. -/
abbrev Fields := List (String × Toml)

/-- Puts a value behind dotted keys.  The last table on the way has to be a dotted one. -/
def putAt (fields : Fields) (path : List String) (key : String) (value : Toml) : Option Fields :=
  match path with
  | [] =>
    match Keyed.find? fields key with
    | some _ => none
    | none => some (Keyed.insert key value fields)
  | name :: path =>
    match Keyed.find? fields name with
    | none =>
      (putAt [] path key value).map fun inner => Keyed.insert name (.table .dotted inner) fields
    | some (.table .dotted inner) =>
      (putAt inner path key value).map fun inner => Keyed.insert name (.table .dotted inner) fields
    | some (.table .passed inner) =>
      if path.isEmpty then none
      else
        (putAt inner path key value).map fun inner =>
          Keyed.insert name (.table .passed inner) fields
    | some (.tables all) =>
      if path.isEmpty then none
      else
        match all.getLast? with
        | none => none
        | some inner =>
          (putAt inner path key value).map fun inner =>
            Keyed.insert name (.tables (all.dropLast ++ [inner])) fields
    | some _ => none

/-- Changes the table at the end of a path of headers; of tables that share a header the last one
is meant. -/
def changeAt (fields : Fields) (path : List String) (change : Fields → Option Fields) :
    Option Fields :=
  match path with
  | [] => change fields
  | name :: path =>
    match Keyed.find? fields name with
    | none =>
      (changeAt [] path change).map fun inner => Keyed.insert name (.table .passed inner) fields
    | some (.table origin inner) =>
      if origin = .inlined then none
      else
        (changeAt inner path change).map fun inner =>
          Keyed.insert name (.table origin inner) fields
    | some (.tables all) =>
      match all.getLast? with
      | none => none
      | some inner =>
        (changeAt inner path change).map fun inner =>
          Keyed.insert name (.tables (all.dropLast ++ [inner])) fields
    | some _ => none

/-- Opens a table by its header. -/
def openTable (fields : Fields) (path : List String) (key : String) : Option Fields :=
  changeAt fields path fun fields =>
    match Keyed.find? fields key with
    | none => some (Keyed.insert key (.table .headed []) fields)
    | some (.table .passed inner) => some (Keyed.insert key (.table .headed inner) fields)
    | some _ => none

/-- Adds a table to those that share a header. -/
def addTable (fields : Fields) (path : List String) (key : String) : Option Fields :=
  changeAt fields path fun fields =>
    match Keyed.find? fields key with
    | none => some (Keyed.insert key (.tables [[]]) fields)
    | some (.tables all) => some (Keyed.insert key (.tables (all ++ [[]])) fields)
    | some _ => none

end Toml
end BatchRun
