import BatchRun.Json.Printer
import BatchRun.Keyed

/-!
# Canonical texts of JSON values

**Input.**
A JSON value.

**Result.**
`Json.canonical` writes the value without white space and with the fields of every object in
ascending order of their keys, so that the order in which fields were written does not show.
-/

namespace BatchRun
namespace Json

mutual

/-- A value with the fields of all objects sorted. -/
def canonicalChars : Json → List Char
  | null => compactChars null
  | bool value => compactChars (bool value)
  | number value => compactChars (number value)
  | string text => compactChars (string text)
  | array elements => '[' :: (separated [','] (canonicalElements elements) ++ [']'])
  | object fields =>
    '{' :: (separated [',']
      ((Keyed.sort (canonicalFields fields)).map (fun field => quoted field.1 ++ ':' :: field.2))
      ++ ['}'])

/-- Elements with the fields of all objects sorted. -/
def canonicalElements : List Json → List (List Char)
  | [] => []
  | element :: elements => element.canonicalChars :: canonicalElements elements

/-- Keys with their written values. -/
def canonicalFields : List (String × Json) → List (String × List Char)
  | [] => []
  | field :: fields => canonicalField field :: canonicalFields fields

/-- A key with its written value. -/
def canonicalField : String × Json → String × List Char
  | (key, value) => (key, value.canonicalChars)

end

/-- Canonical text of a value. -/
def canonical (value : Json) : String := String.ofList value.canonicalChars

end Json
end BatchRun
