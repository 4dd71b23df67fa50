import BatchRun.Number.Decimal
import BatchRun.Toml.Value

/-!
# Tokens of TOML

**Input.**
The characters that are left of a document.

**Results.**
Scanners for white space, comments, keys, strings, numbers and points in time.  A scanner gives
what it read together with the rest, or nothing.
-/

namespace BatchRun
namespace Toml

open Number

/-- Reads something from the start of a text and leaves the rest. -/
abbrev Scanner := StateT (List Char) Option

/-- The next character, if it satisfies a condition. -/
def charWhere (condition : Char → Bool) : Scanner Char := fun rest =>
  match rest with
  | [] => none
  | c :: rest => if condition c then some (c, rest) else none

/-- A given character. -/
def mark (c : Char) : Scanner Unit := discard (charWhere (· == c))

/-- A given text. -/
def word (text : String) : Scanner Unit := fun rest =>
  if text.toList.isPrefixOf rest then some ((), rest.drop text.length) else none

/-- Whether a scanner succeeds here; nothing is read. -/
def ahead (scanner : Scanner α) : Scanner Bool := fun rest => some ((scanner rest).isSome, rest)

/-- Reads something if it is there. -/
def optional (scanner : Scanner α) : Scanner (Option α) := fun rest =>
  match scanner rest with
  | some (value, rest) => some (some value, rest)
  | none => some (none, rest)

/-- The longest run of characters that satisfy a condition. -/
def run (condition : Char → Bool) : Scanner (List Char) := fun rest =>
  some (rest.takeWhile condition, rest.dropWhile condition)

/-- Blanks and tabulators. -/
def skipBlanks : Scanner Unit := discard (run (fun c => c == ' ' || c == '\t'))

/-- Whether a character may stand in a comment. -/
def isCommentChar (c : Char) : Bool := c == '\t' || (32 ≤ c.toNat && c.toNat != 127)

/-- A comment, if there is one. -/
def skipComment : Scanner Unit := do
  match ← optional (mark '#') with
  | some () => discard (run isCommentChar)
  | none => pure ()

/-- The end of a line. -/
def lineBreak : Scanner Unit := fun rest =>
  match rest with
  | '\n' :: rest => some ((), rest)
  | '\r' :: '\n' :: rest => some ((), rest)
  | _ => none

/-- What may stand behind an expression: blanks, a comment, and the end of the line or of the
document. -/
def lineEnding : Scanner Unit := do
  skipBlanks
  skipComment
  fun rest => if rest.isEmpty then some ((), []) else lineBreak rest

/-- Blanks, comments and line breaks; `fuel` bounds the number of lines. -/
def skipLines : (fuel : Nat) → Scanner Unit
  | 0 => pure ()
  | fuel + 1 => do
    skipBlanks
    skipComment
    match ← optional lineBreak with
    | some () => skipLines fuel
    | none => pure ()

/-- Value of a digit in a base. -/
def digit? (base : Nat) (c : Char) : Option Nat :=
  let value? : Option Nat :=
    if '0' ≤ c && c ≤ '9' then some (c.toNat - 48)
    else if 'a' ≤ c && c ≤ 'f' then some (c.toNat - 87)
    else if 'A' ≤ c && c ≤ 'F' then some (c.toNat - 55)
    else none
  value?.filter (· < base)

/-- Whether a character is a digit in a base. -/
def isDigitIn (base : Nat) (c : Char) : Bool := (digit? base c).isSome

/-- Value of digits in a base. -/
def valueIn (base : Nat) (digits : List Char) : Nat :=
  digits.foldl (fun value c => value * base + (digit? base c).getD 0) 0

/-- Digits in which single underscores may separate others. -/
def digitsTail (base : Nat) : List Char → List Char × List Char
  | '_' :: c :: rest =>
    if isDigitIn base c then
      let (digits, rest) := digitsTail base rest
      (c :: digits, rest)
    else ([], '_' :: c :: rest)
  | c :: rest =>
    if isDigitIn base c then
      let (digits, rest) := digitsTail base rest
      (c :: digits, rest)
    else ([], c :: rest)
  | [] => ([], [])

/-- At least one digit, with single underscores between digits. -/
def digits (base : Nat) : Scanner (List Char) := do
  let first ← charWhere (isDigitIn base)
  fun rest =>
    let (more, rest) := digitsTail base rest
    some (first :: more, rest)

/-- A sign, if there is one; `true` for a minus. -/
def sign : Scanner (Option Bool) := fun rest =>
  match rest with
  | '+' :: rest => some (some false, rest)
  | '-' :: rest => some (some true, rest)
  | rest => some (none, rest)

/-- Decimal digits without leading zeros. -/
def decimalDigits : Scanner (List Char) := fun rest =>
  match rest with
  | '0' :: rest => some (['0'], rest)
  | rest => digits 10 rest

/-- A whole number of 64 bits, with its sign bit. -/
def inRange (value : Int) : Option Toml :=
  if -(Nat.pow 2 63 : Int) ≤ value ∧ value < Nat.pow 2 63 then some (.integer value) else none

/-- A whole number with the base told in front of it. -/
def based (lead : String) (base : Nat) : Scanner Toml := do
  word lead
  let digits ← digits base
  inRange (valueIn base digits)

/-- A decimal whole number. -/
def decimal : Scanner Toml := do
  let negative := (← sign).getD false
  let value : Int := valueIn 10 (← decimalDigits)
  inRange (if negative then -value else value)

/-- A number with its sign. -/
def signed (negative : Bool) (value : Binary64) : Binary64 := if negative then -value else value

/-- A number with a fraction or an exponent.  One that is too large is no number, but one that is
too small stands for negative infinity. -/
def fractional : Scanner Toml := do
  let negative := (← sign).getD false
  let whole ← decimalDigits
  let fraction ← optional (mark '.' *> digits 10)
  let exponent ← optional do
    discard (charWhere (fun c => c == 'e' || c == 'E'))
    let negative := (← sign).getD false
    let value : Int := valueIn 10 (← digits 10)
    pure (if negative then -value else value)
  if fraction.isNone && exponent.isNone then failure
  else
    let fraction := fraction.getD []
    let value := signed negative
      (.ofDecimal (valueIn 10 (whole ++ fraction)) (exponent.getD 0 - fraction.length))
    if value = .infinity then failure else pure (.real value)

/-- Infinity, or what is no number. -/
def special : Scanner Toml := do
  let negative := (← sign).getD false
  (do word "inf"; pure (.real (signed negative .infinity))) <|> (do word "nan"; pure (.real .nan))

/-- A number of so many decimal digits, within bounds. -/
def fixedDigits (count least greatest : Nat) : Scanner Nat := fun rest =>
  let digits := rest.take count
  let value := valueIn 10 digits
  if digits.length = count ∧ digits.all (isDigitIn 10) ∧ least ≤ value ∧ value ≤ greatest then
    some (value, rest.drop count)
  else none

/-- Number of days in a month. -/
def daysInMonth (year month : Nat) : Nat :=
  if month = 2 then
    if (year % 4 = 0 ∧ year % 100 ≠ 0) ∨ year % 400 = 0 then 29 else 28
  else if month = 4 ∨ month = 6 ∨ month = 9 ∨ month = 11 then 30
  else 31

/-- A date. -/
def date : Scanner Unit := do
  let year ← fixedDigits 4 0 9999
  mark '-'
  let month ← fixedDigits 2 1 12
  mark '-'
  discard (fixedDigits 2 1 (daysInMonth year month))

/-- A time of day. -/
def timeOfDay : Scanner Unit := do
  discard (fixedDigits 2 0 23)
  mark ':'
  discard (fixedDigits 2 0 59)
  mark ':'
  discard (fixedDigits 2 0 60)
  discard (optional (do
    mark '.'
    discard (charWhere (isDigitIn 10))
    run (isDigitIn 10)))

/-- An offset from UTC. -/
def offset : Scanner Unit :=
  discard (charWhere (fun c => c == 'Z' || c == 'z')) <|> do
    discard (charWhere (fun c => c == '+' || c == '-'))
    discard (fixedDigits 2 0 23)
    mark ':'
    discard (fixedDigits 2 0 59)

/-- A point in time: a date, a time of day, or both with or without an offset. -/
def pointInTime : Scanner Toml :=
  (do
    date
    discard (optional do
      discard (charWhere (fun c => c == 'T' || c == 't' || c == ' '))
      timeOfDay
      discard (optional offset))
    pure .moment)
    <|> (do timeOfDay; pure .moment)

/-- A number or a point in time. -/
def numeral : Scanner Toml :=
  pointInTime <|> fractional <|> special <|> based "0x" 16 <|> based "0o" 8 <|> based "0b" 2
    <|> decimal

/-- Whether a character may stand in a string as it is. -/
def isPlain (c : Char) : Bool := c == '\t' || (32 ≤ c.toNat && c.toNat != 127)

/-- Character with a code, given by so many hexadecimal digits. -/
def codePoint (count : Nat) (rest : List Char) : Option (Char × List Char) :=
  let digits := rest.take count
  let value := valueIn 16 digits
  if digits.length = count ∧ digits.all (isDigitIn 16) ∧ value.isValidChar then
    some (Char.ofNat value, rest.drop count)
  else none

/-- A character behind a backslash. -/
def escaped : List Char → Option (Char × List Char)
  | 'b' :: rest => some ('\x08', rest)
  | 't' :: rest => some ('\t', rest)
  | 'n' :: rest => some ('\n', rest)
  | 'f' :: rest => some ('\x0c', rest)
  | 'r' :: rest => some ('\r', rest)
  | '"' :: rest => some ('"', rest)
  | '\\' :: rest => some ('\\', rest)
  | 'u' :: rest => codePoint 4 rest
  | 'U' :: rest => codePoint 8 rest
  | _ => none

/-- The rest of a string on one line, behind its opening mark; `fuel` bounds the number of
characters. -/
def basicTail : (fuel : Nat) → List Char → Option (List Char × List Char)
  | 0, _ => none
  | _ + 1, [] => none
  | fuel + 1, c :: rest =>
    if c = '"' then some ([], rest)
    else if c = '\\' then do
      let (c, rest) ← escaped rest
      let (cs, rest) ← basicTail fuel rest
      some (c :: cs, rest)
    else if isPlain c then do
      let (cs, rest) ← basicTail fuel rest
      some (c :: cs, rest)
    else none

/-- The rest of a literal string on one line, behind its opening mark. -/
def literalTail (rest : List Char) : Option (List Char × List Char) :=
  let inside (c : Char) : Bool := c != '\'' && isPlain c
  match rest.dropWhile inside with
  | '\'' :: after => some (rest.takeWhile inside, after)
  | _ => none

/-- White space over line breaks. -/
def isSpace (c : Char) : Bool := c == ' ' || c == '\t' || c == '\n' || c == '\r'

/-- Marks at the end of a string of several lines: three close it, and up to two more in front of
them belong to it. -/
def closing (quote : Char) (rest : List Char) : Option (List Char × List Char) :=
  let count := (rest.takeWhile (· == quote)).length
  if 3 ≤ count then
    let inside := min (count - 3) 2
    some (List.replicate inside quote, rest.drop (inside + 3))
  else none

/-- What follows a backslash at the end of a line: all white space up to the next character; there
has to be a line break in it. -/
def continuation (rest : List Char) : Option (List Char) :=
  match rest.dropWhile (fun c => c == ' ' || c == '\t') with
  | '\n' :: rest => some (rest.dropWhile isSpace)
  | '\r' :: '\n' :: rest => some (rest.dropWhile isSpace)
  | _ => none

/-- The rest of a string of several lines, behind its opening marks. -/
def longBasicTail : (fuel : Nat) → List Char → Option (List Char × List Char)
  | 0, _ => none
  | _ + 1, [] => none
  | fuel + 1, c :: rest =>
    match closing '"' (c :: rest) with
    | some found => some found
    | none =>
      if c = '\\' then
        match continuation rest with
        | some rest => longBasicTail fuel rest
        | none => do
          let (c, rest) ← escaped rest
          let (cs, rest) ← longBasicTail fuel rest
          some (c :: cs, rest)
      else if isPlain c || c = '\n' then do
        let (cs, rest) ← longBasicTail fuel rest
        some (c :: cs, rest)
      else if c = '\r' && rest.head? = some '\n' then longBasicTail fuel rest
      else none

/-- The rest of a literal string of several lines, behind its opening marks. -/
def longLiteralTail : List Char → Option (List Char × List Char)
  | [] => none
  | c :: rest =>
    match closing '\'' (c :: rest) with
    | some found => some found
    | none =>
      if isPlain c || c = '\n' then do
        let (cs, rest) ← longLiteralTail rest
        some (c :: cs, rest)
      else if c = '\r' && rest.head? = some '\n' then longLiteralTail rest
      else none

/-- Characters without a line break at their start. -/
def dropLineBreak : List Char → List Char
  | '\n' :: rest => rest
  | '\r' :: '\n' :: rest => rest
  | rest => rest

/-- A string on one line. -/
def shortString : Scanner String := fun rest =>
  let ended (found : Option (List Char × List Char)) : Option (String × List Char) :=
    found.map fun (cs, rest) => (String.ofList cs, rest)
  match rest with
  | '"' :: rest => ended (basicTail (rest.length + 1) rest)
  | '\'' :: rest => ended (literalTail rest)
  | _ => none

/-- A string. -/
def anyString : Scanner String := fun rest =>
  let ended (found : Option (List Char × List Char)) : Option (String × List Char) :=
    found.map fun (cs, rest) => (String.ofList cs, rest)
  match rest with
  | '"' :: '"' :: '"' :: rest =>
    let rest := dropLineBreak rest
    ended (longBasicTail (rest.length + 1) rest)
  | '\'' :: '\'' :: '\'' :: rest => ended (longLiteralTail (dropLineBreak rest))
  | rest => shortString rest

/-- Whether a character may stand in a key without marks. -/
def isKeyChar (c : Char) : Bool :=
  ('a' ≤ c && c ≤ 'z') || ('A' ≤ c && c ≤ 'Z') || ('0' ≤ c && c ≤ '9') || c == '_' || c == '-'

/-- One key. -/
def simpleKey : Scanner String :=
  shortString <|> do
    let first ← charWhere isKeyChar
    let more ← run isKeyChar
    pure (String.ofList (first :: more))

/-- Number of nested values and of dotted keys that is too great. -/
def depthLimit : Nat := 80

/-- Keys behind dots; `fuel` bounds their number. -/
def moreKeys : (fuel : Nat) → Scanner (List String)
  | 0 => failure
  | fuel + 1 => do
    skipBlanks
    match ← optional (mark '.') with
    | none => pure []
    | some () =>
      skipBlanks
      let key ← simpleKey
      let keys ← moreKeys fuel
      pure (key :: keys)

/-- Dotted keys with blanks around them: those on the way, and the last one. -/
def dottedKey : Scanner (List String × String) := do
  skipBlanks
  let first ← simpleKey
  let keys := first :: (← moreKeys (depthLimit - 1))
  match keys.getLast? with
  | some last => pure (keys.dropLast, last)
  | none => failure

end Toml
end BatchRun
