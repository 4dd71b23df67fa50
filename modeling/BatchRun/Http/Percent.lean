import BatchRun.Text.Utf8

/-!
# Percent encoding

**Input.**
A text, and a condition on its bytes.

**Results.**
`percentEncode` writes the bytes that do not satisfy the condition as a percent sign with two
hexadecimal digits, and `percentDecode` undoes it.  `formField` writes a field of a form, in which
a plus sign stands for a blank.
-/

namespace BatchRun
namespace Http

open Text

/-- An upper-case hexadecimal digit. -/
def upperDigit (n : Nat) : Char := if n < 10 then Char.ofNat (48 + n) else Char.ofNat (55 + n)

/-- A byte as a percent sign with two digits. -/
def percentByte (byte : UInt8) : List Char :=
  ['%', upperDigit (byte.toNat / 16), upperDigit (byte.toNat % 16)]

/-- A byte that stands for itself if it satisfies a condition. -/
def encodeByte (kept : UInt8 → Bool) (byte : UInt8) : List Char :=
  if kept byte then [Char.ofNat byte.toNat] else percentByte byte

/-- Characters with their bytes encoded as far as they do not satisfy a condition. -/
def percentEncode (kept : UInt8 → Bool) (text : List Char) : List Char :=
  (bytesOf (String.ofList text)).flatMap (encodeByte kept)

/-- Value of a hexadecimal digit. -/
def digitOf? (byte : UInt8) : Option UInt8 :=
  if 48 ≤ byte && byte ≤ 57 then some (byte - 48)
  else if 97 ≤ byte && byte ≤ 102 then some (byte - 87)
  else if 65 ≤ byte && byte ≤ 70 then some (byte - 55)
  else none

/-- Bytes with those decoded that are written as a percent sign with two digits. -/
def percentDecode : Bytes → Bytes
  | [] => []
  | 37 :: a :: b :: rest =>
    match digitOf? a, digitOf? b with
    | some high, some low => (high * 16 + low) :: percentDecode rest
    | _, _ => 37 :: percentDecode (a :: b :: rest)
  | byte :: rest => byte :: percentDecode rest

/-- Whether a byte is a printable ASCII character, blanks left out, and not one of a list. -/
def isPrintableBut (excluded : List Char) (byte : UInt8) : Bool :=
  32 < byte && byte < 127 && !excluded.contains (Char.ofNat byte.toNat)

/-- Bytes that stand for themselves in a fragment. -/
def isFragmentByte : UInt8 → Bool := isPrintableBut ['"', '<', '>', '`']

/-- Bytes that stand for themselves in a path. -/
def isPathByte : UInt8 → Bool :=
  isPrintableBut ['"', '<', '>', '`', '#', '?', '\x7b', '\x7d', '^']

/-- Bytes that stand for themselves in a query. -/
def isQueryByte (special : Bool) : UInt8 → Bool :=
  isPrintableBut (['"', '<', '>', '#'] ++ if special then ['\''] else [])

/-- Bytes that stand for themselves where only control characters are encoded. -/
def isVisibleByte (byte : UInt8) : Bool := 32 ≤ byte && byte < 127

/-- Bytes that stand for themselves in a form. -/
def isFormByte (byte : UInt8) : Bool :=
  (48 ≤ byte && byte ≤ 57) || (65 ≤ byte && byte ≤ 90) || (97 ≤ byte && byte ≤ 122)
    || byte == 42 || byte == 45 || byte == 46 || byte == 95

/-- A byte in a form. -/
def formByte (byte : UInt8) : List Char :=
  if byte = 32 then ['+'] else encodeByte isFormByte byte

/-- A text in a form. -/
def formEncode (text : String) : List Char := (bytesOf text).flatMap formByte

/-- A field of a form. -/
def formField (name value : String) : String :=
  String.ofList (formEncode name ++ '=' :: formEncode value)

end Http
end BatchRun
