import BatchRun.Toml.Value

/-!
# Records in TOML

**Input.**
A value of a document that stands for a record: a table, whose fields are found by name, or an
array, whose elements are the fields in their order.  A point in time counts as a table without
known fields.

**Results.**
`Toml.parts?` gives access to the fields, and `Parts.read` reads one of them with a default for
one that is missing.  Fields without a meaning are left alone.
-/

namespace BatchRun
namespace Toml

open Number

/-- Fields of a record, found by name or by place. -/
inductive Parts where
  | named (fields : Fields)
  | placed (elements : List Toml)

/-- Fields of a value that may stand for a record. -/
def parts? : Toml → Option Parts
  | .table _ fields => some (.named fields)
  | .moment => some (.named [])
  | .array elements => some (.placed elements)
  | .tables all => some (.placed (all.map (.table .headed)))
  | _ => none

namespace Parts

/-- Field with a name and a place. -/
def find? (parts : Parts) (name : String) (place : Nat) : Option Toml :=
  match parts with
  | named fields => Keyed.find? fields name
  | placed elements => elements[place]?

/-- Reads a field; a missing one has the default. -/
def read (parts : Parts) (name : String) (place : Nat) (meaning : Toml → Option α)
    (default : α) : Option α :=
  match parts.find? name place with
  | none => some default
  | some value => meaning value

end Parts

/-- Text of a value. -/
def text? : Toml → Option String
  | .string text => some text
  | _ => none

/-- Truth of a value. -/
def bool? : Toml → Option Bool
  | .bool value => some value
  | _ => none

/-- Natural number of a value, if it is below a bound. -/
def natBelow? (bound : Nat) : Toml → Option Nat
  | .integer value => if 0 ≤ value ∧ value.toNat < bound then some value.toNat else none
  | _ => none

/-- Number of a value; a whole one stands for the nearest float. -/
def real? : Toml → Option Binary64
  | .real value => some value
  | .integer value =>
    some (if value < 0 then -(Binary64.ofNat value.natAbs) else Binary64.ofNat value.natAbs)
  | _ => none

end Toml
end BatchRun
