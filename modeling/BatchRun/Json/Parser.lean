import BatchRun.Json.Token
import BatchRun.Keyed

/-!
# JSON texts as values

**Input.**
The bytes of a text.

**Results.**
`parse?` reads a whole text as one value.  Containers may be nested `maxDepth` levels deep.  The
loops over elements and fields are shared with the typed readers, which differ only in what they
do with a part.
-/

namespace BatchRun
namespace Json

open Text

/-- Number of levels of containers that are read. -/
def maxDepth : Nat := 127

/-- Whether another element follows, and the bytes at its start or at the closing bracket. -/
def nextElement (first : Bool) : Reader Bool := fun rest =>
  match skipSpace rest with
  | [] => .error (.placed .endOfList 0)
  | byte :: rest =>
    if byte = code ']' then .ok (false, byte :: rest)
    else if first then .ok (true, byte :: rest)
    else if byte = code ',' then
      match skipSpace rest with
      | [] => .error (.placed .endOfValue 0)
      | next :: rest =>
        if next = code ']' then .error (.placed .trailingComma rest.length)
        else .ok (true, next :: rest)
    else .error (.placed .expectedListEnd rest.length)

/-- Key of the next field, or nothing at the closing brace. -/
def nextKey (first : Bool) : Reader (Option String) := fun rest =>
  match skipSpace rest with
  | [] => .error (.placed .endOfObject 0)
  | byte :: rest =>
    if byte = code '\x7d' then .ok (none, byte :: rest)
    else if first then
      if byte = code '"' then key rest else .error (.placed .keyNotString rest.length)
    else if byte = code ',' then
      match skipSpace rest with
      | [] => .error (.placed .endOfValue 0)
      | next :: rest =>
        if next = code '"' then key rest
        else if next = code '\x7d' then .error (.placed .trailingComma rest.length)
        else .error (.placed .keyNotString rest.length)
    else .error (.placed .expectedObjectEnd rest.length)
where
  /-- A key behind its quotation mark. -/
  key : Reader (Option String) := some <$> stringTail

/-- The colon between a key and its value. -/
def colon : Reader Unit := fun rest =>
  match skipSpace rest with
  | [] => .error (.placed .endOfObject 0)
  | byte :: rest =>
    if byte = code ':' then .ok ((), rest) else .error (.placed .expectedColon rest.length)

/-- Elements up to the closing bracket, each read by `element`; `read` holds those that are
done, in reverse.  The fuel exceeds the number of bytes. -/
def elementsLoop (element : Reader α) : (fuel : Nat) → (first : Bool) → (read : List α) →
    Reader (List α)
  | 0, _, read => pure read.reverse
  | fuel + 1, first, read => do
    if ← nextElement first then
      let value ← element
      elementsLoop element fuel false (value :: read)
    else pure read.reverse

/-- Elements of a list up to its closing bracket. -/
def elements (element : Reader α) : Reader (List α) := fun rest =>
  elementsLoop element (rest.length + 1) true [] rest

/-- Fields up to the closing brace: `member` reads the colon and the value behind a key into the
state.  The fuel exceeds the number of bytes. -/
def membersLoop (member : String → σ → Reader σ) : (fuel : Nat) → (first : Bool) → σ → Reader σ
  | 0, _, state => pure state
  | fuel + 1, first, state => do
    match ← nextKey first with
    | none => pure state
    | some key => membersLoop member fuel false (← member key state)

/-- Fields of an object up to its closing brace. -/
def members (member : String → σ → Reader σ) (state : σ) : Reader σ := fun rest =>
  membersLoop member (rest.length + 1) true state rest

/-- Reads the closing bracket.  Also gives the bytes at which reading stopped. -/
def closeList (rest : Bytes) : Bytes × Option Fault :=
  match skipSpace rest with
  | [] => ([], some (.placed .endOfList 0))
  | byte :: rest =>
    if byte = code ']' then (rest, none)
    else if byte = code ',' then
      let after := skipSpace rest
      let reason := if after.head? = some (code ']') then .trailingComma else .trailingCharacters
      (after, some (.placed reason (after.length - 1)))
    else (byte :: rest, some (.placed .trailingCharacters rest.length))

/-- Reads the closing brace.  Also gives the bytes at which reading stopped. -/
def closeObject (rest : Bytes) : Bytes × Option Fault :=
  match skipSpace rest with
  | [] => ([], some (.placed .endOfObject 0))
  | byte :: rest =>
    if byte = code '\x7d' then (rest, none)
    else if byte = code ',' then (byte :: rest, some (.placed .trailingComma rest.length))
    else (byte :: rest, some (.placed .trailingCharacters rest.length))

/-- Reads the inside of a container and then its end.  An open fault of the inside is placed
where the attempt to read the end stops. -/
def enclosed (close : Bytes → Bytes × Option Fault) (inside : Reader α) : Reader α := fun rest =>
  match inside rest with
  | .error (.unplaced reason rest) => .error (.placed reason (close rest).1.length)
  | .error fault => .error fault
  | .ok (value, rest) =>
    match close rest with
    | (rest, none) => .ok (value, rest)
    | (_, some fault) => .error fault

/-- A value that allows `depth` more levels of containers. -/
def value (depth : Nat) : Reader Json := fun rest =>
  match skipSpace rest with
  | [] => .error (.placed .endOfValue 0)
  | byte :: rest =>
    if byte = code 'n' then ((fun _ => null) <$> literal ['u', 'l', 'l']) rest
    else if byte = code 't' then ((fun _ => bool true) <$> literal ['r', 'u', 'e']) rest
    else if byte = code 'f' then ((fun _ => bool false) <$> literal ['a', 'l', 's', 'e']) rest
    else if byte = code '-' then (number <$> numeral false) rest
    else if isDigit byte then (number <$> numeral true) (byte :: rest)
    else if byte = code '"' then (string <$> stringTail) rest
    else if byte = code '[' then
      match depth with
      | 0 => .error (.placed .recursionLimit rest.length)
      | depth + 1 => (array <$> enclosed closeList (elements (value depth))) rest
    else if byte = code '\x7b' then
      match depth with
      | 0 => .error (.placed .recursionLimit rest.length)
      | depth + 1 =>
        (object <$> enclosed closeObject
          (members
            (fun key fields => do
              colon
              let field ← value depth
              pure (Keyed.insert key field fields))
            [])) rest
    else .error (.placed .expectedValue rest.length)

/-- Reads a whole text: nothing but white space may follow. -/
def whole (reader : Reader α) (text : Bytes) : Except Fault α :=
  match reader text with
  | .error fault => .error fault
  | .ok (answer, rest) =>
    match skipSpace rest with
    | [] => .ok answer
    | _ :: rest => .error (.placed .trailingCharacters rest.length)

/-- Value of a whole text. -/
def parse? (text : Bytes) : Except Fault Json := whole (value maxDepth) text

end Json
end BatchRun
