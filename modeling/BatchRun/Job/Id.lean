import BatchRun.Json.Reader
import BatchRun.Json.Printer

/-!
# Identifiers of jobs

**Type.**
A `JobId` is a number of 128 bits.

**Texts.**
It is written as 32 hexadecimal digits in groups of 8, 4, 4, 4 and 12.  It is read in this form,
also in curly brackets or behind the mark of a uniform resource name, or as the digits alone.
-/

namespace BatchRun

open Json
open Number
open Text

/-- A number of 128 bits. -/
structure JobId where
  value : Nat := 0
deriving DecidableEq, Inhabited

/-- Why a text is no identifier. -/
inductive JobIdError where
  /-- A character that is neither a digit nor a hyphen, and its place counted from one. -/
  | badCharacter (character : Char) (place : Nat)
  /-- No hyphens, and not 32 digits. -/
  | badLength (length : Nat)
  | badGroupCount (count : Nat)
  | badGroupLength (group expected length : Nat)
deriving DecidableEq

/-- Wording of an error. -/
def JobIdError.message : JobIdError → String
  | badCharacter character place =>
    "invalid character: expected an optional prefix of `urn:uuid:` followed by [0-9a-fA-F-], found "
      ++ inAccents (String.singleton character) ++ " at " ++ natText place
  | badLength length =>
    "invalid length: expected length 32 for simple format, found " ++ natText length
  | badGroupCount count => "invalid group count: expected 5, found " ++ natText count
  | badGroupLength group expected length =>
    "invalid group length in group " ++ natText group ++ ": expected " ++ natText expected
      ++ ", found " ++ natText length

namespace JobId

/-- Lengths of the groups of digits. -/
def groupLengths : List Nat := [8, 4, 4, 4, 12]

/-- Value of a hexadecimal digit. -/
def digit? (c : Char) : Option Nat :=
  if c.toNat < 128 then hexValue? c.toNat.toUInt8 else none

/-- Groups of characters of given lengths. -/
def groups (cs : List Char) : List Nat → List (List Char)
  | [] => []
  | length :: lengths => cs.take length :: groups (cs.drop length) lengths

/-- Text of an identifier. -/
def text (id : JobId) : String :=
  let digits := (List.range 32).map fun i => hexDigit (id.value / Nat.pow 16 (31 - i) % 16)
  String.ofList (separated ['-'] (groups digits groupLengths))

/-- Places of the hyphens, counted from zero, in characters of one byte. -/
def hyphens (cs : List Char) : List Nat :=
  cs.zipIdx.filterMap fun (c, index) => if c = '-' then some index else none

/-- Number of the bytes in front of the first character that is neither a digit nor a hyphen, and
that character. -/
def intruder? : (place : Nat) → List Char → Option (Char × Nat)
  | _, [] => none
  | place, c :: cs =>
    if c = '-' ∨ (digit? c).isSome then intruder? (place + 1) cs else some (c, place)

/-- Places of the hyphens between the groups. -/
def hyphenPlaces : List Nat := [8, 13, 18, 23]

/-- First group whose end is out of place. -/
def badGroup? (group start : Nat) : (found expected : List Nat) → Option JobIdError
  | place :: found, expected :: places =>
    if place = expected then badGroup? (group + 1) (expected + 1) found places
    else some (.badGroupLength group (expected - start) (place - start))
  | _, _ => none

/-- Error of a text that is no identifier: `body` without its brackets or its mark, `offset` the
number of bytes in front of it, `length` the number of all bytes. -/
def errorOf (body : List Char) (offset length : Nat) (isPlain : Bool) : JobIdError :=
  match intruder? 0 body with
  | some (c, place) => .badCharacter c (place + offset + 1)
  | none =>
    let places := hyphens body
    if places.isEmpty && isPlain then .badLength length
    else if places.length ≠ 4 then .badGroupCount (places.length + 1)
    else (badGroup? 0 0 places hyphenPlaces).getD (.badGroupLength 4 12 (length - 24))

/-- Mark of a uniform resource name. -/
def nameMark : List Char := ['u', 'r', 'n', ':', 'u', 'u', 'i', 'd', ':']

/-- Identifier of a text. -/
def parse? (text : String) : Except JobIdError JobId :=
  let cs := text.toList
  let (body, offset, isPlain) :=
    if cs.head? = some '{' ∧ cs.getLast? = some '}' ∧ 2 ≤ cs.length then
      ((cs.drop 1).dropLast, 1, false)
    else if nameMark.isPrefixOf cs then (cs.drop nameMark.length, nameMark.length, false)
    else (cs, 0, true)
  let digits := body.filter (· != '-')
  let wellFormed :=
    digits.length = 32 ∧ digits.all (fun c => (digit? c).isSome)
      ∧ (hyphens body = hyphenPlaces ∨ (isPlain = true ∧ hyphens body = []))
  if wellFormed then
    .ok ⟨digits.foldl (fun value c => value * 16 + (digit? c).getD 0) 0⟩
  else .error (errorOf body offset text.utf8ByteSize isPlain)

/-- Reader of identifiers. -/
def reader : Reader JobId :=
  Reader.textWith "a UUID string" fun text =>
    match parse? text with
    | .ok id => .ok id
    | .error error => .error (.custom ("UUID parsing failed: " ++ error.message))

end JobId

end BatchRun
