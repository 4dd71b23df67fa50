import BatchRun.Toml.Token

/-!
# Reading TOML

**Input.**
The text of a document.

**Result.**
`Toml.parse?` gives the fields of the document, or nothing if the text is no document.  Values may
be nested less than 80 levels deep.
-/

namespace BatchRun
namespace Toml

/-- Values of an array, up to its closing bracket; `fuel` bounds their number. -/
def elements (value : Scanner Toml) : (fuel : Nat) → Scanner (List Toml)
  | 0 => failure
  | fuel + 1 => do
    skipLines fuel
    if ← ahead (mark ']') then pure []
    else
      let first ← value
      skipLines fuel
      match ← optional (mark ',') with
      | some () => (first :: ·) <$> elements value fuel
      | none => pure [first]

/-- A field of a table: keys, an equals sign and a value, with blanks around each. -/
def field (value : Scanner Toml) : Scanner (List String × String × Toml) := do
  let (path, key) ← dottedKey
  mark '='
  skipBlanks
  let value ← value
  skipBlanks
  pure (path, key, value)

/-- Fields of a table in braces, each added to those before it; `fuel` bounds their number. -/
def fields (value : Scanner Toml) : (fuel : Nat) → Fields → Scanner Fields
  | 0, _ => failure
  | fuel + 1, before => do
    let (path, key, value') ← field value
    let after ← (putAt before path key value' : Option Fields)
    match ← optional (mark ',') with
    | some () => fields value fuel after
    | none => pure after

/-- A value within `depth` more levels. -/
def value : (depth : Nat) → Scanner Toml
  | 0 => fun rest => scalar rest
  | depth + 1 => fun rest =>
    match rest with
    | '[' :: rest =>
      (do
        let elements ← elements (value depth) (rest.length + 1)
        mark ']'
        pure (.array elements) : Scanner Toml) rest
    | '{' :: rest =>
      (do
        skipBlanks
        let fields ←
          if ← ahead (mark '\x7d') then pure [] else fields (value depth) (rest.length + 1) []
        mark '\x7d'
        pure (.table .inlined fields) : Scanner Toml) rest
    | rest => scalar rest
where
  /-- A value without parts. -/
  scalar : Scanner Toml :=
    (do return .string (← anyString))
      <|> (do word "true"; pure (.bool true))
      <|> (do word "false"; pure (.bool false))
      <|> numeral

/-- A document under construction: all fields, and the path of the table that is open. -/
structure Draft where
  fields : Fields := []
  path : List String := []

/-- A header, or a field of the open table. -/
def expression (draft : Draft) : Scanner Draft := do
  match ← optional (word "[[") with
  | some () =>
    let (path, key) ← dottedKey
    word "]]"
    let fields ← (addTable draft.fields path key : Option Fields)
    pure ⟨fields, path ++ [key]⟩
  | none =>
    match ← optional (mark '[') with
    | some () =>
      let (path, key) ← dottedKey
      mark ']'
      let fields ← (openTable draft.fields path key : Option Fields)
      pure ⟨fields, path ++ [key]⟩
    | none =>
      let (path, key, value) ← field (value (depthLimit - 1))
      let fields ←
        (changeAt draft.fields draft.path (putAt · path key value) : Option Fields)
      pure { draft with fields }

/-- Lines of a document, each with an expression or without one; `fuel` bounds their number. -/
def lines : (fuel : Nat) → Draft → List Char → Option Draft
  | 0, _, _ => none
  | _ + 1, draft, [] => some draft
  | fuel + 1, draft, rest => do
    let ((), rest) ← skipBlanks rest
    match lineEnding rest with
    | some ((), rest) => lines fuel draft rest
    | none =>
      let (draft, rest) ← expression draft rest
      let ((), rest) ← lineEnding rest
      lines fuel draft rest

/-- Fields of a document.  A byte order mark in front of it is dropped. -/
def parse? (text : String) : Option Fields :=
  let cs := match text.toList with
    | '\ufeff' :: rest => rest
    | rest => rest
  (lines (cs.length + 1) {} cs).map Draft.fields

end Toml
end BatchRun
