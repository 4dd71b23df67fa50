import BatchRun.Json.Value
import BatchRun.Number.Layout

/-!
# Texts of JSON values

**Input.**
A JSON value.

**Results.**
`Json.compact` writes a value without any white space and `Json.pretty` with one field or
element a line, two blanks for each level.  Fields are written in the order of the value.  In
strings only the quotation mark, the backslash and the control characters below the blank are
escaped.
-/

namespace BatchRun

open Number

namespace Json

/-- Lower-case hexadecimal digit. -/
def hexDigit (n : Nat) : Char :=
  if n < 10 then Char.ofNat (48 + n) else Char.ofNat (87 + n)

/-- A character inside a quoted string. -/
def escapeChar (c : Char) : List Char :=
  if c = '"' then ['\\', '"']
  else if c = '\\' then ['\\', '\\']
  else if c = '\x08' then ['\\', 'b']
  else if c = '\x0c' then ['\\', 'f']
  else if c = '\n' then ['\\', 'n']
  else if c = '\r' then ['\\', 'r']
  else if c = '\t' then ['\\', 't']
  else if c.toNat < 32 then
    ['\\', 'u', '0', '0', hexDigit (c.toNat / 16), hexDigit (c.toNat % 16)]
  else [c]

/-- A quoted string. -/
def quoted (text : String) : List Char :=
  '"' :: (text.toList.flatMap escapeChar ++ ['"'])

/-- A number. -/
def numeralText : Numeral → String
  | .whole value => intText value
  | .real value => value.text .document

/-- Lists with a separator between them. -/
def separated (separator : List Char) : List (List Char) → List Char
  | [] => []
  | [part] => part
  | part :: parts => part ++ separator ++ separated separator parts

mutual

/-- A value without white space. -/
def compactChars : Json → List Char
  | null => ['n', 'u', 'l', 'l']
  | bool true => ['t', 'r', 'u', 'e']
  | bool false => ['f', 'a', 'l', 's', 'e']
  | number value => (numeralText value).toList
  | string text => quoted text
  | array elements => '[' :: (separated [','] (compactElements elements) ++ [']'])
  | object fields => '{' :: (separated [','] (compactFields fields) ++ ['}'])

/-- Elements without white space. -/
def compactElements : List Json → List (List Char)
  | [] => []
  | element :: elements => element.compactChars :: compactElements elements

/-- Fields without white space. -/
def compactFields : List (String × Json) → List (List Char)
  | [] => []
  | field :: fields => compactField field :: compactFields fields

/-- A field without white space. -/
def compactField : String × Json → List Char
  | (key, value) => quoted key ++ ':' :: value.compactChars

end

/-- Text of a value without white space. -/
def compact (value : Json) : String := String.ofList value.compactChars

/-- Line break followed by the indentation of a level. -/
def lineBreak (level : Nat) : List Char := '\n' :: List.replicate (2 * level) ' '

/-- A container with one part a line, closed on a line of its own; an empty one stays on its
line. -/
def block (opening closing : Char) (level : Nat) (parts : List (List Char)) : List Char :=
  if parts.isEmpty then [opening, closing]
  else
    opening :: (lineBreak (level + 1)
      ++ separated (',' :: lineBreak (level + 1)) parts
      ++ lineBreak level ++ [closing])

mutual

/-- A value with one part a line, at some level. -/
def prettyChars (level : Nat) : Json → List Char
  | array elements => block '[' ']' level (prettyElements (level + 1) elements)
  | object fields => block '{' '}' level (prettyFields (level + 1) fields)
  | null => compactChars null
  | bool value => compactChars (bool value)
  | number value => compactChars (number value)
  | string text => compactChars (string text)

/-- Elements at some level. -/
def prettyElements (level : Nat) : List Json → List (List Char)
  | [] => []
  | element :: elements => element.prettyChars level :: prettyElements level elements

/-- Fields at some level. -/
def prettyFields (level : Nat) : List (String × Json) → List (List Char)
  | [] => []
  | field :: fields => prettyField level field :: prettyFields level fields

/-- A field at some level. -/
def prettyField (level : Nat) : String × Json → List Char
  | (key, value) => quoted key ++ ':' :: ' ' :: value.prettyChars level

end

/-- Text of a value with one part a line. -/
def pretty (value : Json) : String := String.ofList (value.prettyChars 0)

end Json
end BatchRun
