import BatchRun.Json.Parser
import BatchRun.Number.Layout
import BatchRun.Text.Quoted

/-!
# Typed readers

**Input.**
The bytes that are left of a text, at the start of a value.

**Results.**
One reader for each kind of value that a document may hold: words, flags, texts, lists, maps,
names of cases, and records.  A value of another kind is a fault that tells what was found and
what was expected.

**Records.**
A record is read from an object, whose unknown fields are skipped and whose missing fields may
have a default, or from a list of its fields in their order.  The state of a record under
construction is a record of options.
-/

namespace BatchRun
namespace Json

open Number
open Text

/-- Description of a number that was found. -/
def foundNumber : Numeral → String
  | .whole value => "integer " ++ inAccents (intText value)
  | .real value => "floating point " ++ inAccents (value.text .document)

/-- Fault for a value of the wrong kind, placed behind what was read of it. -/
def mismatch (expected : String) : Reader α := fun rest =>
  let found (description : String) (rest : Bytes) : Except Fault (α × Bytes) :=
    .error (.placed (.invalidType description expected) rest.length)
  match rest with
  | [] => .error (.placed .expectedValue 0)
  | byte :: rest =>
    if byte = code 'n' then
      match literal ['u', 'l', 'l'] rest with
      | .ok (_, rest) => found "null" rest
      | .error fault => .error fault
    else if byte = code 't' then
      match literal ['r', 'u', 'e'] rest with
      | .ok (_, rest) => found "boolean `true`" rest
      | .error fault => .error fault
    else if byte = code 'f' then
      match literal ['a', 'l', 's', 'e'] rest with
      | .ok (_, rest) => found "boolean `false`" rest
      | .error fault => .error fault
    else if byte = code '-' then
      match numeral false rest with
      | .ok (value, rest) => found (foundNumber value) rest
      | .error fault => .error fault
    else if isDigit byte then
      match numeral true (byte :: rest) with
      | .ok (value, rest) => found (foundNumber value) rest
      | .error fault => .error fault
    else if byte = code '"' then
      match stringTail rest with
      | .ok (text, rest) => found ("string " ++ debugQuoted text) rest
      | .error fault => .error fault
    else if byte = code '[' then found "sequence" (byte :: rest)
    else if byte = code '\x7b' then found "map" (byte :: rest)
    else .error (.placed .expectedValue rest.length)

namespace Reader

/-- Skips white space; a text that ends here lacks a value. -/
def atValue (reader : Reader α) : Reader α := fun rest =>
  match skipSpace rest with
  | [] => .error (.placed .endOfValue 0)
  | rest => reader rest

/-- A number, given to `accept`, which may reject it. -/
def numberWith (expected : String) (accept : Numeral → Except Reason α) : Reader α :=
  let checked (answer : Except Fault (Numeral × Bytes)) : Except Fault (α × Bytes) :=
    match answer with
    | .error fault => .error fault
    | .ok (value, rest) =>
      match accept value with
      | .ok value => .ok (value, rest)
      | .error reason => .error (.placed reason rest.length)
  atValue fun rest =>
    match rest with
    | [] => mismatch expected []
    | byte :: tail =>
      if byte = code '-' then checked (numeral false tail)
      else if isDigit byte then checked (numeral true rest)
      else mismatch expected rest

/-- A natural number below a bound, with the name of its type. -/
def word (bound : Nat) (name : String) : Reader Nat :=
  numberWith name fun value =>
    match value with
    | .whole n =>
      if 0 ≤ n ∧ n < bound then .ok n.toNat
      else .error (.invalidValue (foundNumber value) name)
    | .real _ => .error (.invalidType (foundNumber value) name)

/-- A natural number of 32 bits. -/
def word32 : Reader Nat := word (Nat.pow 2 32) "u32"

/-- A natural number of 64 bits. -/
def word64 : Reader Nat := word (Nat.pow 2 64) "u64"

/-- A count of 64 bits. -/
def count : Reader Nat := word (Nat.pow 2 64) "usize"

/-- A floating-point number; whole numbers are rounded to one. -/
def real : Reader Binary64 :=
  numberWith "f64" fun value =>
    match value with
    | .whole n => .ok (if n < 0 then -(Binary64.ofNat n.natAbs) else Binary64.ofNat n.natAbs)
    | .real x => .ok x

/-- A text, given to `accept`, which may reject it. -/
def textWith (expected : String) (accept : String → Except Reason α) : Reader α :=
  atValue fun rest =>
    match rest with
    | [] => mismatch expected []
    | byte :: tail =>
      if byte = code '"' then
        match stringTail tail with
        | .error fault => .error fault
        | .ok (text, rest) =>
          match accept text with
          | .ok value => .ok (value, rest)
          | .error reason => .error (.placed reason rest.length)
      else mismatch expected rest

/-- A text. -/
def text : Reader String := textWith "a string" .ok

/-- A truth value. -/
def flag : Reader Bool :=
  atValue fun rest =>
    match rest with
    | [] => mismatch "a boolean" []
    | byte :: tail =>
      if byte = code 't' then ((fun _ => true) <$> literal ['r', 'u', 'e']) tail
      else if byte = code 'f' then ((fun _ => false) <$> literal ['a', 'l', 's', 'e']) tail
      else mismatch "a boolean" rest

/-- Nothing, for `null`, or a value. -/
def optional (reader : Reader α) : Reader (Option α) := fun rest =>
  match skipSpace rest with
  | [] => (some <$> reader) []
  | byte :: tail =>
    if byte = code 'n' then ((fun _ => none) <$> literal ['u', 'l', 'l']) tail
    else (some <$> reader) (byte :: tail)

/-- The inside of a list, read by `inside` with one level less. -/
def inList (expected : String) (depth : Nat) (inside : (depth : Nat) → Reader α) : Reader α :=
  atValue fun rest =>
    match rest with
    | [] => mismatch expected []
    | byte :: tail =>
      if byte = code '[' then
        match depth with
        | 0 => .error (.placed .recursionLimit tail.length)
        | depth + 1 => enclosed closeList (inside depth) tail
      else mismatch expected rest

/-- The inside of an object, read by `inside` with one level less. -/
def inObject (expected : String) (depth : Nat) (inside : (depth : Nat) → Reader α) : Reader α :=
  atValue fun rest =>
    match rest with
    | [] => mismatch expected []
    | byte :: tail =>
      if byte = code '\x7b' then
        match depth with
        | 0 => .error (.placed .recursionLimit tail.length)
        | depth + 1 => enclosed closeObject (inside depth) tail
      else mismatch expected rest

/-- A list of values. -/
def list (depth : Nat) (element : (depth : Nat) → Reader α) : Reader (List α) :=
  inList "a sequence" depth fun depth => elements (element depth)

/-- A map from texts to values, sorted by key; the last value of a key stays. -/
def map (depth : Nat) (element : (depth : Nat) → Reader α) : Reader (List (String × α)) :=
  inObject "a map" depth fun depth =>
    members
      (fun key fields => do
        colon
        let field ← element depth
        pure (Keyed.insert key field fields))
      []

/-- The case of a type with a given name. -/
def variant (cases : List (String × α)) : Reader α :=
  textWith "variant identifier" fun name =>
    match Keyed.find? cases name with
    | some value => .ok value
    | none => .error (.unknownVariant name (cases.map Prod.fst))

/-- A value that has to be `null`. -/
def unit : Reader Unit :=
  atValue fun rest =>
    match rest with
    | [] => mismatch "unit" []
    | byte :: tail =>
      if byte = code 'n' then literal ['u', 'l', 'l'] tail else mismatch "unit" rest

/-- A case without contents: its name, or an object of the name and `null`. -/
def unitCase (depth : Nat) (cases : List (String × α)) : Reader α := fun rest =>
  match skipSpace rest with
  | [] => .error (.placed .endOfValue 0)
  | byte :: tail =>
    if byte = code '\x7b' then
      match depth with
      | 0 => .error (.placed .recursionLimit tail.length)
      | _ + 1 =>
        match (do let value ← variant cases; colon; unit; pure value : Reader α) tail with
        | .error fault => .error fault
        | .ok (value, rest) =>
          match skipSpace rest with
          | [] => .error (.placed .endOfObject 0)
          | byte :: rest =>
            if byte = code '\x7d' then .ok (value, rest)
            else .error (.placed .expectedValue (rest.length + 1))
    else if byte = code '"' then variant cases (byte :: tail)
    else .error (.placed .expectedValue tail.length)

/-- Skips a string behind its quotation mark. -/
def skipString : Bytes → Except Fault (Unit × Bytes)
  | [] => .error (.placed .endOfString 0)
  | byte :: rest =>
    if byte = 34 then .ok ((), rest)
    else if byte = 92 then
      match rest with
      | [] => .error (.placed .endOfString 0)
      | letter :: rest =>
        if letter = code 'u' then
          match rest with
          | a :: b :: c :: d :: rest =>
            if (hexWord? a b c d).isSome then skipString rest
            else .error (.placed .invalidEscape rest.length)
          | _ => .error (.placed .endOfString 0)
        else if (simpleEscape? letter).isSome then skipString rest
        else .error (.placed .invalidEscape rest.length)
    else if byte < 32 then .error (.placed .controlCharacter (rest.length + 1))
    else skipString rest

/-- Skips the digits of an exponent behind its letter. -/
def skipExponent : Reader Unit := fun rest =>
  let rest := match rest with
    | [] => []
    | byte :: tail => if byte = code '+' || byte = code '-' then tail else byte :: tail
  match rest with
  | [] => .error (.placed .invalidNumber 0)
  | byte :: rest =>
    if isDigit byte then .ok ((), rest.dropWhile isDigit)
    else .error (.placed .invalidNumber rest.length)

/-- Skips a fraction and an exponent, if there are any. -/
def skipFraction : Reader Unit := fun rest =>
  match rest with
  | [] => .ok ((), [])
  | byte :: tail =>
    if byte = code '.' then
      let after := tail.dropWhile isDigit
      if after.length = tail.length then .error (.placed .invalidNumber (tail.length - 1))
      else if startsExponent after then skipExponent after.tail
      else .ok ((), after)
    else if startsExponent rest then skipExponent tail
    else .ok ((), rest)

/-- Skips a number behind its sign. -/
def skipNumber : Reader Unit := fun rest =>
  match rest with
  | [] => .error (.placed .invalidNumber 0)
  | byte :: rest =>
    if byte = code '0' then
      match rest with
      | [] => .ok ((), [])
      | next :: tail =>
        if isDigit next then .error (.placed .invalidNumber tail.length)
        else skipFraction (next :: tail)
    else if isDigit byte then skipFraction (rest.dropWhile isDigit)
    else .error (.placed .invalidNumber rest.length)

/-- Skips a key with its colon inside an object. -/
def skipKey : Reader Unit := fun rest =>
  match skipSpace rest with
  | [] => .error (.placed .endOfObject 0)
  | byte :: rest =>
    if byte = code '"' then
      match skipString rest with
      | .error fault => .error fault
      | .ok (_, rest) => colon rest
    else .error (.placed .keyNotString rest.length)

/-- What follows a skipped value inside its containers: `true` stands for an object.  The answer
is the open containers once another value is due, or nothing when all are closed. -/
def skipClosings : (fuel : Nat) → (afterValue : Bool) → List Bool →
    Reader (Option (List Bool))
  | 0, _, _ => pure none
  | _ + 1, _, [] => pure none
  | fuel + 1, afterValue, inObject :: outer => fun rest =>
    match skipSpace rest with
    | [] => .error (.placed (if inObject then .endOfObject else .endOfList) 0)
    | byte :: rest =>
      if byte = code ',' && afterValue then .ok (some (inObject :: outer), rest)
      else if byte = (if inObject then code '\x7d' else code ']') then
        skipClosings fuel true outer rest
      else if afterValue then
        .error (.placed (if inObject then .expectedObjectEnd else .expectedListEnd) rest.length)
      else .ok (some (inObject :: outer), byte :: rest)

/-- Skips a value; `containers` are the containers around it. -/
def skipLoop : (fuel : Nat) → (containers : List Bool) → Reader Unit
  | 0, _ => pure ()
  | fuel + 1, containers => fun rest =>
    match skipSpace rest with
    | [] => .error (.placed .endOfValue 0)
    | byte :: rest =>
      let opened : Except Fault (Option Bool × Bytes) :=
        if byte = code '[' then .ok (some false, rest)
        else if byte = code '\x7b' then .ok (some true, rest)
        else
          let answer : Except Fault (Unit × Bytes) :=
            if byte = code 'n' then literal ['u', 'l', 'l'] rest
            else if byte = code 't' then literal ['r', 'u', 'e'] rest
            else if byte = code 'f' then literal ['a', 'l', 's', 'e'] rest
            else if byte = code '-' then skipNumber rest
            else if isDigit byte then skipNumber (byte :: rest)
            else if byte = code '"' then skipString rest
            else .error (.placed .expectedValue rest.length)
          answer.map (fun (_, rest) => (none, rest))
      match opened with
      | .error fault => .error fault
      | .ok (container, rest) =>
        match skipClosings (rest.length + 1) container.isNone (container.toList ++ containers)
          rest with
        | .error fault => .error fault
        | .ok (none, rest) => .ok ((), rest)
        | .ok (some [], rest) => .ok ((), rest)
        | .ok (some (inObject :: outer), rest) =>
          if inObject then
            match skipKey rest with
            | .error fault => .error fault
            | .ok (_, rest) => skipLoop fuel (inObject :: outer) rest
          else skipLoop fuel (inObject :: outer) rest

/-- Skips a value without a limit on its depth. -/
def skip : Reader Unit := fun rest => skipLoop (rest.length + 1) [] rest

/-- Fills an empty place of a record under construction with the value behind a key. -/
def fill (name : String) (old : Option α) (reader : Reader α) : Reader α := do
  if old.isSome then raise (.duplicateField name)
  else
    colon
    reader

/-- Skips the value behind an unknown key. -/
def ignore (state : σ) : Reader σ := do
  colon
  skip
  pure state

/-- A field that has to be there. -/
def required (name : String) : Option α → Reader α
  | some value => pure value
  | none => raise (.missingField name)

/-- The next element of a list of fields, if there is one. -/
def element? (first : Bool) (reader : Reader α) : Reader (Option α) := do
  if ← nextElement first then some <$> reader else pure none

/-- The next element of a list of fields; without it the list has the wrong length. -/
def element (index : Nat) (expected : String) (reader : Reader α) : Reader α := do
  match ← element? (index == 0) reader with
  | some value => pure value
  | none => raise (.invalidLength index expected)

/-- A record: from an object, or from a list of its fields. -/
def record (name : String) (depth : Nat) (fromObject fromList : (depth : Nat) → Reader α) :
    Reader α :=
  atValue fun rest =>
    match rest with
    | [] => mismatch ("struct " ++ name) []
    | byte :: tail =>
      if byte = code '[' then
        match depth with
        | 0 => .error (.placed .recursionLimit tail.length)
        | depth + 1 => enclosed closeList (fromList depth) tail
      else if byte = code '\x7b' then
        match depth with
        | 0 => .error (.placed .recursionLimit tail.length)
        | depth + 1 => enclosed closeObject (fromObject depth) tail
      else mismatch ("struct " ++ name) rest

end Reader

end Json
end BatchRun
