import BatchRun.Number.Binary64

/-!
# JSON values

**Type.**
`Json` is the tree of a JSON document.  An object is the list of its fields, in the order in
which they are written.

**Invariant.**
Values that are read from a text keep the fields of every object strictly ascending by key, so
that two values of the same structure are equal; `Keyed.insert` keeps this order.
-/

namespace BatchRun

open Number

/-- Number of a document: whole numbers of 64 bits are kept exactly. -/
inductive Numeral where
  | whole (value : Int)
  | real (value : Binary64)
deriving DecidableEq

/-- A JSON value. -/
inductive Json where
  | null
  | bool (value : Bool)
  | number (value : Numeral)
  | string (text : String)
  | array (elements : List Json)
  | object (fields : List (String × Json))

instance : Inhabited Json := ⟨.null⟩

namespace Json

/-- Whether a whole number is kept as one: it has a sign bit or fits in 64 bits. -/
def fitsWhole (value : Int) : Bool := -(Nat.pow 2 63 : Int) ≤ value && value < Nat.pow 2 64

/-- Name of the shape of a value, with its article. -/
def shape : Json → String
  | null => "null"
  | bool _ => "a boolean"
  | number _ => "a number"
  | string _ => "a string"
  | array _ => "an array"
  | object _ => "an object"

mutual

/-- Greatest number of containers around a part of the value, itself included. -/
def depth : Json → Nat
  | array elements => depthOfElements elements + 1
  | object fields => depthOfFields fields + 1
  | _ => 0

/-- Greatest depth of an element. -/
def depthOfElements : List Json → Nat
  | [] => 0
  | element :: elements => max element.depth (depthOfElements elements)

/-- Greatest depth of a field's value. -/
def depthOfFields : List (String × Json) → Nat
  | [] => 0
  | field :: fields => max (depthOfField field) (depthOfFields fields)

/-- Depth of a field's value. -/
def depthOfField : String × Json → Nat
  | (_, value) => value.depth

end

end Json
end BatchRun
