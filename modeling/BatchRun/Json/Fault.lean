import BatchRun.Text.Utf8

/-!
# Faults in JSON texts

**Causes.**
`Reason` lists what can be wrong with a text: its grammar, or a value that does not fit the type
that is read.

**Places.**
A fault of the grammar knows at once how many bytes follow the place it is reported at.  A fault
of a type is raised without a place; the value around it fixes the place when it has been read
to its end.  `Fault.describe` turns either into a message with line and column, both counted
from one, columns in bytes.
-/

namespace BatchRun
namespace Json

open Text

/-- What is wrong with a text. -/
inductive Reason where
  | endOfValue
  | endOfList
  | endOfObject
  | endOfString
  | expectedValue
  | expectedIdent
  | expectedColon
  | expectedListEnd
  | expectedObjectEnd
  | keyNotString
  | trailingComma
  | trailingCharacters
  | invalidEscape
  | invalidNumber
  | numberOutOfRange
  | controlCharacter
  | loneSurrogate
  | endOfHexEscape
  | invalidCodePoint
  | recursionLimit
  | missingField (name : String)
  | duplicateField (name : String)
  | unknownVariant (name : String) (known : List String)
  | invalidType (found expected : String)
  | invalidValue (found expected : String)
  | invalidLength (length : Nat) (expected : String)
  | custom (message : String)
deriving DecidableEq

/-- A word between grave accents. -/
def inAccents (word : String) : String := "`" ++ word ++ "`"

/-- Wording of a reason. -/
def Reason.message : Reason → String
  | endOfValue => "EOF while parsing a value"
  | endOfList => "EOF while parsing a list"
  | endOfObject => "EOF while parsing an object"
  | endOfString => "EOF while parsing a string"
  | expectedValue => "expected value"
  | expectedIdent => "expected ident"
  | expectedColon => "expected `:`"
  | expectedListEnd => "expected `,` or `]`"
  | expectedObjectEnd => "expected `,` or `\x7d`"
  | keyNotString => "key must be a string"
  | trailingComma => "trailing comma"
  | trailingCharacters => "trailing characters"
  | invalidEscape => "invalid escape"
  | invalidNumber => "invalid number"
  | numberOutOfRange => "number out of range"
  | controlCharacter => "control character (\\u0000-\\u001F) found while parsing a string"
  | loneSurrogate => "lone leading surrogate in hex escape"
  | endOfHexEscape => "unexpected end of hex escape"
  | invalidCodePoint => "invalid unicode code point"
  | recursionLimit => "recursion limit exceeded"
  | missingField name => "missing field " ++ inAccents name
  | duplicateField name => "duplicate field " ++ inAccents name
  | unknownVariant name known =>
    "unknown variant " ++ inAccents name ++ ", expected one of "
      ++ ", ".intercalate (known.map inAccents)
  | invalidType found expected => "invalid type: " ++ found ++ ", expected " ++ expected
  | invalidValue found expected => "invalid value: " ++ found ++ ", expected " ++ expected
  | invalidLength length expected =>
    "invalid length " ++ Nat.repr length ++ ", expected " ++ expected
  | custom message => message

/-- A fault, either with the number of bytes after its place or with the bytes that are left
while its place is still open. -/
inductive Fault where
  | placed (reason : Reason) (left : Nat)
  | unplaced (reason : Reason) (rest : Bytes)
deriving DecidableEq

/-- Line and column after the first bytes of a text: lines count line feeds, columns the bytes
since the last one. -/
def positionAfter (read : Bytes) : Nat × Nat :=
  (read.count 10 + 1, (read.reverse.takeWhile (fun byte => byte != 10)).length)

namespace Fault

/-- What is wrong. -/
def reason : Fault → Reason
  | placed reason _ => reason
  | unplaced reason _ => reason

/-- Number of bytes after the place of the fault. -/
def left : Fault → Nat
  | placed _ left => left
  | unplaced _ rest => rest.length

/-- Message of a fault in a text, with its line and column. -/
def describe (text : Bytes) (fault : Fault) : String :=
  let (line, column) := positionAfter (text.take (text.length - fault.left))
  fault.reason.message ++ " at line " ++ Nat.repr line ++ " column " ++ Nat.repr column

end Fault

end Json
end BatchRun
