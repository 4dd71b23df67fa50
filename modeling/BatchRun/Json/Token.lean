import BatchRun.Json.Fault
import BatchRun.Json.Value

/-!
# Lexical elements of JSON texts

**Input.**
The bytes that are left of a text.

**Results.**
White space, literals, numbers and quoted strings, each with the bytes after it or a placed
fault.

**Numbers.**
The digits of a number are gathered in 64 bits for as long as they fit.  Further integer digits
only raise the decimal exponent and further fraction digits are dropped; the gathered number is
then scaled by one multiplication or division by a power of ten, after steps of `1e308` when the
exponent lies beyond the table of powers.  The result is therefore not always the nearest
floating-point number.
-/

namespace BatchRun
namespace Json

open Number
open Text

/-- What remains to be read together with what was read, or a fault. -/
abbrev Reader := StateT Bytes (Except Fault)

namespace Reader

/-- Fault reported behind the bytes read so far. -/
def failHere (reason : Reason) : Reader α :=
  fun rest => .error (.placed reason rest.length)

/-- Fault whose place is fixed by the value around it. -/
def raise (reason : Reason) : Reader α :=
  fun rest => .error (.unplaced reason rest)

/-- Fixes the place of an open fault behind the bytes read so far. -/
def place (reader : Reader α) : Reader α := fun rest =>
  match reader rest with
  | .error (.unplaced reason left) => .error (.placed reason left.length)
  | answer => answer

end Reader

/-- White space between the elements of a text. -/
def isSpace (byte : UInt8) : Bool :=
  byte == 32 || byte == 10 || byte == 9 || byte == 13

/-- A decimal digit. -/
def isDigit (byte : UInt8) : Bool := 48 ≤ byte && byte ≤ 57

/-- Value of a decimal digit. -/
def digitValue (byte : UInt8) : Nat := byte.toNat - 48

/-- Code of an ASCII character. -/
def code (c : Char) : UInt8 := c.toNat.toUInt8

/-- The bytes after leading white space. -/
def skipSpace (text : Bytes) : Bytes := text.dropWhile isSpace

/-- The remaining letters of a literal. -/
def literal : List Char → Reader Unit
  | [] => pure ()
  | letter :: letters => fun rest =>
    match rest with
    | [] => .error (.placed .endOfValue 0)
    | byte :: rest =>
      if byte = code letter then literal letters rest
      else .error (.placed .expectedIdent rest.length)

/-- Greatest number of 64 bits. -/
def maxWord : Nat := Nat.pow 2 64 - 1

/-- Gathers digits while the number fits in 64 bits; also counts them. -/
def gather (significand count : Nat) : Bytes → Nat × Nat × Bytes
  | [] => (significand, count, [])
  | byte :: rest =>
    if isDigit byte && decide (significand * 10 + digitValue byte ≤ maxWord) then
      gather (significand * 10 + digitValue byte) (count + 1) rest
    else (significand, count, byte :: rest)

/-- Greatest decimal exponent with a power of ten in range. -/
def maxPower : Nat := 308

/-- A power of ten as a floating-point number. -/
def powerOfTen (exponent : Nat) : Binary64 := .ofNat (Nat.pow 10 exponent)

/-- The number `value * 10^exponent` for an exponent that is reached by division. -/
def scaleDown : (steps : Nat) → Binary64 → (exponent : Nat) → Binary64
  | 0, value, _ => value
  | steps + 1, value, exponent =>
    if exponent ≤ maxPower then value / powerOfTen exponent
    else if value.eq 0 then value
    else scaleDown steps (value / powerOfTen maxPower) (exponent - maxPower)

/-- The number `significand * 10^exponent` of 64 bits; `none` beyond the range.  Three steps of
division turn every significand of 64 bits into zero. -/
def scale (significand : Nat) (exponent : Int) : Option Binary64 :=
  let value := Binary64.ofNat significand
  if 0 ≤ exponent then
    if exponent.toNat ≤ maxPower then
      let scaled := value * powerOfTen exponent.toNat
      if scaled.isInfinite then none else some scaled
    else if significand = 0 then some value
    else none
  else some (scaleDown 3 value exponent.natAbs)

/-- A floating-point number from its parts, or a fault behind the last byte read. -/
def realOfParts (positive : Bool) (significand : Nat) (exponent : Int) : Reader Numeral :=
  match scale significand exponent with
  | none => Reader.failHere .numberOutOfRange
  | some value => pure (.real (if positive then value else -value))

/-- Greatest decimal exponent that can be written. -/
def maxExponent : Nat := Nat.pow 2 31 - 1

/-- Further digits of an exponent.  An exponent beyond its greatest value is a fault unless the
number is zero or the exponent negative, when the number is zero. -/
def exponentDigits (positive : Bool) (significand : Nat) (start : Int) (negative : Bool)
    (exponent : Nat) : Reader Numeral
  | [] =>
    realOfParts positive significand (if negative then start - exponent else start + exponent) []
  | byte :: rest =>
    if isDigit byte then
      if exponent * 10 + digitValue byte ≤ maxExponent then
        exponentDigits positive significand start negative
          (exponent * 10 + digitValue byte) rest
      else if significand ≠ 0 && !negative then
        .error (.placed .numberOutOfRange rest.length)
      else
        .ok (.real (if positive then 0 else -0), rest.dropWhile isDigit)
    else
      realOfParts positive significand
        (if negative then start - exponent else start + exponent) (byte :: rest)

/-- An exponent, behind its letter. -/
def exponentPart (positive : Bool) (significand : Nat) (start : Int) : Reader Numeral := fun rest =>
  let (negative, rest) := match rest with
    | [] => (false, [])
    | byte :: tail =>
      if byte = code '+' then (false, tail)
      else if byte = code '-' then (true, tail)
      else (false, byte :: tail)
  match rest with
  | [] => .error (.placed .endOfValue 0)
  | byte :: rest =>
    if isDigit byte then
      exponentDigits positive significand start negative (digitValue byte) rest
    else .error (.placed .invalidNumber rest.length)

/-- Whether the next byte starts an exponent. -/
def startsExponent : Bytes → Bool
  | [] => false
  | byte :: _ => byte == code 'e' || byte == code 'E'

/-- A fraction, behind its point. -/
def fractionPart (positive : Bool) (significand : Nat) (start : Int) : Reader Numeral := fun rest =>
  let (gathered, count, tail) := gather significand 0 rest
  let after := tail.dropWhile isDigit
  if count = 0 && tail.length = after.length then
    match tail with
    | [] => .error (.placed .endOfValue 0)
    | _ :: beyond => .error (.placed .invalidNumber beyond.length)
  else if startsExponent after then
    exponentPart positive gathered (start - count) after.tail
  else realOfParts positive gathered (start - count) after

/-- A number whose integer digits have been gathered; `dropped` of them did not fit. -/
def afterInteger (positive : Bool) (significand dropped : Nat) : Reader Numeral := fun rest =>
  match rest with
  | byte :: tail =>
    if byte = code '.' then fractionPart positive significand dropped tail
    else if startsExponent rest then exponentPart positive significand dropped tail
    else whole rest
  | [] => whole []
where
  /-- A number without fraction and exponent.  A negative one below the range of whole numbers,
  and minus zero, are floating point. -/
  whole : Reader Numeral :=
    if dropped ≠ 0 then realOfParts positive significand dropped
    else if positive then pure (.whole significand)
    else if significand = 0 ∨ Nat.pow 2 63 < significand then
      pure (.real (-(Binary64.ofNat significand)))
    else pure (.whole (-(significand : Int)))

/-- A number behind its sign. -/
def numeral (positive : Bool) : Reader Numeral := fun rest =>
  match rest with
  | [] => .error (.placed .endOfValue 0)
  | byte :: rest =>
    if byte = code '0' then
      match rest with
      | [] => afterInteger positive 0 0 []
      | next :: tail =>
        if isDigit next then .error (.placed .invalidNumber tail.length)
        else afterInteger positive 0 0 (next :: tail)
    else if isDigit byte then
      let (significand, _, tail) := gather (digitValue byte) 0 rest
      let after := tail.dropWhile isDigit
      afterInteger positive significand (tail.length - after.length) after
    else .error (.placed .invalidNumber rest.length)

/-- Value of a hexadecimal digit. -/
def hexValue? (byte : UInt8) : Option Nat :=
  if isDigit byte then some (digitValue byte)
  else if 97 ≤ byte && byte ≤ 102 then some (byte.toNat - 87)
  else if 65 ≤ byte && byte ≤ 70 then some (byte.toNat - 55)
  else none

/-- Value of four hexadecimal digits. -/
def hexWord? (a b c d : UInt8) : Option Nat :=
  match hexValue? a, hexValue? b, hexValue? c, hexValue? d with
  | some a, some b, some c, some d => some (((a * 16 + b) * 16 + c) * 16 + d)
  | _, _, _, _ => none

/-- Byte that stands for a letter behind a backslash. -/
def simpleEscape? (letter : UInt8) : Option UInt8 :=
  if letter = code '"' then some 34
  else if letter = code '\\' then some 92
  else if letter = code '/' then some 47
  else if letter = code 'b' then some 8
  else if letter = code 'f' then some 12
  else if letter = code 'n' then some 10
  else if letter = code 'r' then some 13
  else if letter = code 't' then some 9
  else none

/-- Whether a unit is the first half of a pair of surrogates. -/
def isLeadingSurrogate (unit : Nat) : Bool := 0xD800 ≤ unit && unit ≤ 0xDBFF

/-- Whether a unit is the second half of a pair of surrogates. -/
def isTrailingSurrogate (unit : Nat) : Bool := 0xDC00 ≤ unit && unit ≤ 0xDFFF

/-- UTF-8 bytes of a code point, in reverse. -/
def reversedUtf8 (point : Nat) : Bytes := (String.utf8EncodeChar (Char.ofNat point)).reverse

/-- Bytes of a string behind its quotation mark, up to the closing one; `read` holds those that
are done, in reverse. -/
def stringBytes (read : Bytes) : Bytes → Except Fault (Bytes × Bytes)
  | [] => .error (.placed .endOfString 0)
  | byte :: rest =>
    if byte = 34 then .ok (read.reverse, rest)
    else if byte = 92 then
      match rest with
      | [] => .error (.placed .endOfString 0)
      | letter :: rest =>
        if letter = code 'u' then
          match rest with
          | a :: b :: c :: d :: rest =>
            match hexWord? a b c d with
            | none => .error (.placed .invalidEscape rest.length)
            | some unit =>
              if isTrailingSurrogate unit then .error (.placed .loneSurrogate rest.length)
              else if isLeadingSurrogate unit then
                match rest with
                | [] => .error (.placed .endOfString 0)
                | slash :: rest =>
                  if slash = 92 then
                    match rest with
                    | [] => .error (.placed .endOfString 0)
                    | letter :: rest =>
                      if letter = code 'u' then
                        match rest with
                        | e :: f :: g :: h :: rest =>
                          match hexWord? e f g h with
                          | none => .error (.placed .invalidEscape rest.length)
                          | some second =>
                            if isTrailingSurrogate second then
                              stringBytes
                                (reversedUtf8
                                  ((unit - 0xD800) * 1024 + (second - 0xDC00) + 0x10000) ++ read)
                                rest
                            else .error (.placed .loneSurrogate rest.length)
                        | _ => .error (.placed .endOfString 0)
                      else .error (.placed .endOfHexEscape rest.length)
                  else .error (.placed .endOfHexEscape rest.length)
              else stringBytes (reversedUtf8 unit ++ read) rest
          | _ => .error (.placed .endOfString 0)
        else
          match simpleEscape? letter with
          | none => .error (.placed .invalidEscape rest.length)
          | some byte => stringBytes (byte :: read) rest
    else if byte < 32 then .error (.placed .controlCharacter rest.length)
    else stringBytes (byte :: read) rest

/-- A string behind its quotation mark. -/
def stringTail : Reader String := fun rest =>
  match stringBytes [] rest with
  | .error fault => .error fault
  | .ok (bytes, rest) =>
    match textOf? bytes with
    | some text => .ok (text, rest)
    | none => .error (.placed .invalidCodePoint rest.length)

end Json
end BatchRun
