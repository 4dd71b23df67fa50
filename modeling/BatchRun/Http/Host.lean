import BatchRun.Http.Percent
import BatchRun.Http.Punycode
import BatchRun.Storage.Path

/-!
# Hosts

**Input.**
The part of an address that tells the host.

**Result.**
`hostText?` gives the host as it is written in a normalized address: an address of version 4 with
four decimal numbers, one of version 6 in brackets, or a name in lower case with ASCII characters
alone.
-/

namespace BatchRun
namespace Http

open Storage
open Text

/-- Value of digits in a base, if there is any digit and all are digits. -/
def numberIn? (base : Nat) (digits : List Char) : Option Nat :=
  if digits.isEmpty then none
  else
    digits.foldlM
      (fun value c =>
        match digitOf? c.toNat.toUInt8 with
        | some digit =>
          if c.toNat < 128 ∧ digit.toNat < base then some (value * base + digit.toNat) else none
        | none => none)
      0

/-- A part of an address of version 4: decimal, octal behind a zero, or hexadecimal. -/
def addressPart? (digits : List Char) : Option Nat :=
  match digits with
  | '0' :: 'x' :: rest => if rest.isEmpty then some 0 else numberIn? 16 rest
  | '0' :: 'X' :: rest => if rest.isEmpty then some 0 else numberIn? 16 rest
  | '0' :: c :: rest => numberIn? 8 (c :: rest)
  | digits => numberIn? 10 digits

/-- Parts of a name between dots; a dot at its end does not count. -/
def nameParts (name : List Char) : List (List Char) :=
  let parts := splitAt '.' name
  if parts.getLast? = some [] then parts.dropLast else parts

/-- Whether a name has to be an address of version 4. -/
def endsInNumber (name : List Char) : Bool :=
  match (nameParts name).getLast? with
  | none => false
  | some part => !part.isEmpty && (part.all Char.isDigit || (addressPart? part).isSome)

/-- Address of version 4 as one number. -/
def addressNumber? (name : List Char) : Option Nat := do
  let numbers ← (nameParts name).mapM addressPart?
  let last ← numbers.getLast?
  let front := numbers.dropLast
  if 3 < front.length ∨ front.any (255 < ·) ∨ Nat.pow 256 (4 - front.length) ≤ last then none
  else
    let high := (front.zip [3, 2, 1]).foldl (fun sum (n, place) => sum + n * Nat.pow 256 place) 0
    some (high + last)

/-- Decimal digits of a number. -/
def decimalText (n : Nat) : List Char := Nat.toDigits 10 n

/-- Address of version 4 with four decimal numbers. -/
def dotted (address : Nat) : List Char :=
  let byte (place : Nat) : List Char := decimalText (address / Nat.pow 256 place % 256)
  byte 3 ++ '.' :: byte 2 ++ '.' :: byte 1 ++ '.' :: byte 0

/-- A byte of an address of version 4 inside one of version 6. -/
def plainByte? (digits : List Char) : Option Nat :=
  if digits.head? = some '0' ∧ digits.length ≠ 1 then none
  else (numberIn? 10 digits).filter (· < 256)

/-- Numbers of a part of an address of version 6.  The last one may be written as an address of
version 4, which stands for two. -/
def longParts? (text : List Char) : Option (List Nat) :=
  if text.isEmpty then some []
  else
    let parts := splitAt ':' text
    let number? (digits : List Char) : Option Nat :=
      if 4 < digits.length then none else numberIn? 16 digits
    match parts.getLast? with
    | none => none
    | some last =>
      if last.contains '.' then do
        let front ← parts.dropLast.mapM number?
        match ← (splitAt '.' last).mapM plainByte? with
        | [a, b, c, d] => some (front ++ [a * 256 + b, c * 256 + d])
        | _ => none
      else parts.mapM number?

/-- Text in front of two colons in a row, and behind them. -/
def aroundGap : List Char → Option (List Char × List Char)
  | ':' :: ':' :: rest => some ([], rest)
  | c :: rest => (aroundGap rest).map fun (front, rest) => (c :: front, rest)
  | [] => none

/-- Numbers of an address of version 6; two colons in a row stand for as many zeros as are
missing. -/
def longAddress? (text : List Char) : Option (List Nat) :=
  match aroundGap text with
  | none => (longParts? text).filter (·.length = 8)
  | some (front, rest) => do
    if front.contains '.' then none
    else
      let front ← longParts? front
      let rest ← longParts? rest
      let count := front.length + rest.length
      if count < 8 then some (front ++ List.replicate (8 - count) 0 ++ rest) else none

/-- Number of zeros at the start. -/
def zerosAhead (numbers : List Nat) : Nat := (numbers.takeWhile (· == 0)).length

/-- Place and length of the first of the longest runs of zeros. -/
def longestZeros : (place : Nat) → List Nat → Nat × Nat
  | place, [] => (place, 0)
  | place, n :: rest =>
    let here := zerosAhead (n :: rest)
    let later := longestZeros (place + 1) rest
    if later.2 ≤ here then (place, here) else later

/-- Address of version 6 with the longest run of zeros left out, if it is longer than one. -/
def longText (numbers : List Nat) : List Char :=
  let joined (numbers : List Nat) : List Char :=
    List.intercalate [':'] (numbers.map (Nat.toDigits 16))
  let (place, length) := longestZeros 0 numbers
  if length < 2 then joined numbers
  else joined (numbers.take place) ++ [':', ':'] ++ joined (numbers.drop (place + length))

/-- Characters that no name of a host may have. -/
def isForbidden (c : Char) : Bool :=
  c.toNat ≤ 32 || c.toNat == 127
    || ['%', '#', '/', ':', '<', '>', '?', '@', '[', '\\', ']', '^', '|'].contains c

/-- A name of a host in lower case with ASCII characters alone. -/
def asciiName (name : List Char) : List Char :=
  let label (label : List Char) : List Char :=
    if label.all (fun c => c.toNat < 128) then label
    else ['x', 'n', '-', '-'] ++ punycode label
  List.intercalate ['.'] ((splitAt '.' (name.map Char.toLower)).map label)

/-- Host of an address whose scheme is a well-known one. -/
def hostText? (host : List Char) : Option (List Char) :=
  match host with
  | '[' :: rest =>
    if rest.getLast? = some ']' then
      (longAddress? rest.dropLast).map fun numbers => '[' :: longText numbers ++ [']']
    else none
  | host => do
    let decoded ← textOf? (percentDecode (bytesOf (String.ofList host)))
    let name := asciiName decoded.toList
    if name.isEmpty ∨ name.any isForbidden then none
    else if endsInNumber name then (addressNumber? name).map dotted
    else some name

/-- Host of an address whose scheme is not known: as it is written. -/
def opaqueHostText? (host : List Char) : Option (List Char) :=
  match host with
  | '[' :: _ => hostText? host
  | host =>
    if host.any (fun c => c != '%' && c.toNat < 127 && isForbidden c) then none
    else some (percentEncode isVisibleByte host)

end Http
end BatchRun
