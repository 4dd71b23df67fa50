import BatchRun.Text.Unseen

/-!
# Quoted texts in messages

**Input.**
A text of any characters.

**Result.**
`debugQuoted` puts the text between quotation marks and writes quotation marks, backslashes and
characters that cannot be seen as escapes.
-/

namespace BatchRun
namespace Text

/-- Lower-case hexadecimal digits of a number, without leading zeros. -/
def hexDigits (n : Nat) : List Char := Nat.toDigits 16 n

/-- A character between quotation marks. -/
def debugChar (c : Char) : List Char :=
  if c = '"' then ['\\', '"']
  else if c = '\\' then ['\\', '\\']
  else if c = '\n' then ['\\', 'n']
  else if c = '\r' then ['\\', 'r']
  else if c = '\t' then ['\\', 't']
  else if c = '\x00' then ['\\', '0']
  else if isUnseen c then ['\\', 'u', '\x7b'] ++ hexDigits c.toNat ++ ['\x7d']
  else [c]

/-- A text between quotation marks. -/
def debugQuoted (text : String) : String :=
  String.ofList ('"' :: (text.toList.flatMap debugChar ++ ['"']))

end Text
end BatchRun
