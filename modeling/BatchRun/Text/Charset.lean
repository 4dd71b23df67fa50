import BatchRun.Text.Alphabet
import BatchRun.Text.Utf8

/-!
# Character sets

**Input.**
Bytes, and the label of a character set.

**Results.**
`Charset.named?` is the character set with a label, and `decode` reads bytes of any content: what
is no character becomes the replacement character.  A byte order mark counts more than the label,
and does not belong to the text.
-/

namespace BatchRun
namespace Text

/-- Stands for what is no character. -/
def replacement : Char := '\ufffd'

/-- How a sequence of bytes goes on: the number of further bytes, and the bounds of the first of
them. -/
structure Continuation where
  count : Nat
  least : UInt8 := 0x80
  greatest : UInt8 := 0xBF

/-- How the sequence goes on that a byte starts, if it starts one of several bytes. -/
def Continuation.after (lead : UInt8) : Option Continuation :=
  if 0xC2 ≤ lead && lead ≤ 0xDF then some { count := 1 }
  else if lead = 0xE0 then some { count := 2, least := 0xA0 }
  else if lead = 0xED then some { count := 2, greatest := 0x9F }
  else if 0xE1 ≤ lead && lead ≤ 0xEF then some { count := 2 }
  else if lead = 0xF0 then some { count := 3, least := 0x90 }
  else if lead = 0xF4 then some { count := 3, greatest := 0x8F }
  else if 0xF1 ≤ lead && lead ≤ 0xF3 then some { count := 3 }
  else none

/-- Bytes that continue a sequence, as far as they are right. -/
def Continuation.accepted (continuation : Continuation) (rest : Bytes) : Bytes :=
  match rest with
  | [] => []
  | byte :: rest =>
    if continuation.least ≤ byte && byte ≤ continuation.greatest then
      byte :: (rest.take (continuation.count - 1)).takeWhile fun byte => 0x80 ≤ byte && byte ≤ 0xBF
    else []

/-- Character of a complete sequence. -/
def sequenceChar (lead : UInt8) (more : Bytes) : Char :=
  let start := lead.toNat % Nat.pow 2 (6 - more.length)
  Char.ofNat (more.foldl (fun code byte => code * 64 + byte.toNat % 64) start)

/-- Characters of UTF-8; each longest part of a sequence that is broken off is replaced. -/
def decodeUtf8 : Bytes → List Char
  | [] => []
  | lead :: rest =>
    if lead < 0x80 then Char.ofNat lead.toNat :: decodeUtf8 rest
    else
      match Continuation.after lead with
      | none => replacement :: decodeUtf8 rest
      | some continuation =>
        let more := continuation.accepted rest
        let c := if more.length = continuation.count then sequenceChar lead more else replacement
        c :: decodeUtf8 (rest.drop more.length)
termination_by bytes => bytes.length

/-- Units of two bytes; a byte that is left has none. -/
def unitsOf (bigEndian : Bool) : Bytes → List (Option Nat)
  | [] => []
  | [_] => [none]
  | a :: b :: rest =>
    some (if bigEndian then a.toNat * 256 + b.toNat else b.toNat * 256 + a.toNat)
      :: unitsOf bigEndian rest

/-- Characters of units of two bytes.  What is broken off at the end is replaced once. -/
def decodeUnits : List (Option Nat) → List Char
  | [] => []
  | [some unit, none] =>
    if 0xD800 ≤ unit ∧ unit < 0xDC00 then [replacement] else [unitChar unit, replacement]
  | some high :: some low :: rest =>
    if 0xD800 ≤ high ∧ high < 0xDC00 then
      if 0xDC00 ≤ low ∧ low < 0xE000 then
        Char.ofNat (0x10000 + (high - 0xD800) * 0x400 + (low - 0xDC00)) :: decodeUnits rest
      else replacement :: decodeUnits (some low :: rest)
    else unitChar high :: decodeUnits (some low :: rest)
  | some unit :: rest => unitChar unit :: decodeUnits rest
  | none :: rest => replacement :: decodeUnits rest
where
  /-- Character of one unit. -/
  unitChar (unit : Nat) : Char :=
    if unit.isValidChar then Char.ofNat unit else replacement

/-- A character set. -/
inductive Charset where
  | utf8
  | utf16 (bigEndian : Bool)
  | bytewise (alphabet : Alphabet)
  /-- One that is known and must not be used. -/
  | refused

namespace Charset

/-- Labels of the character sets in which a character has two bytes or more. -/
def labels : List (String × Charset) :=
  (["unicode-1-1-utf-8", "unicode11utf8", "unicode20utf8", "utf-8", "utf8",
      "x-unicode20utf8"].map (·, utf8))
    ++ (["csunicode", "iso-10646-ucs-2", "ucs-2", "unicode", "unicodefeff", "utf-16",
      "utf-16le"].map (·, utf16 false))
    ++ (["unicodefffe", "utf-16be"].map (·, utf16 true))
    ++ (["csiso2022kr", "hz-gb-2312", "iso-2022-cn", "iso-2022-cn-ext", "iso-2022-kr",
      "replacement"].map (·, refused))

/-- Character set with a label; case does not count. -/
def named? (label : String) : Option Charset :=
  let label := String.ofList (label.toList.map Char.toLower)
  (labels.lookup label).orElse fun _ => (Alphabet.named? label).map bytewise

/-- Characters of bytes. -/
def chars (charset : Charset) (bytes : Bytes) : List Char :=
  match charset with
  | utf8 => decodeUtf8 bytes
  | utf16 bigEndian => decodeUnits (unitsOf bigEndian bytes)
  | bytewise alphabet => bytes.map alphabet.char
  | refused => if bytes.isEmpty then [] else [replacement]

end Charset

/-- Text of bytes. -/
def decode (charset : Charset) (bytes : Bytes) : String :=
  String.ofList <|
    match bytes with
    | 0xEF :: 0xBB :: 0xBF :: rest => Charset.utf8.chars rest
    | 0xFF :: 0xFE :: rest => (Charset.utf16 false).chars rest
    | 0xFE :: 0xFF :: rest => (Charset.utf16 true).chars rest
    | bytes => charset.chars bytes

end Text
end BatchRun
