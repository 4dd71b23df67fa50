import BatchRun.Number.Layout
import BatchRun.Text.Blank

/-!
# Points in time

**Type.**
`Timestamp` counts seconds since 1970 in UTC, with nanoseconds; a leap second is the last second
of a minute with more than `10^9` nanoseconds.

**Texts.**
`Timestamp.text` writes the form of RFC 3339 in UTC with no more fraction digits than needed, in
groups of three.  `Timestamp.parse?` reads a lenient form of it: blanks may stand between the
parts, a blank may separate date and time, and any offset is accepted.
-/

namespace BatchRun
namespace Time

open Number
open Text

/-- A point in time. -/
structure Timestamp where
  /-- Whole seconds since the beginning of 1970, not counting leap seconds. -/
  seconds : Int
  /-- Nanoseconds within the second; `10^9` more of them within a leap second. -/
  nanos : Nat
deriving DecidableEq

/-- Number of seconds in a day. -/
def secondsPerDay : Nat := 86400

/-- Number of nanoseconds in a second. -/
def nanosPerSecond : Nat := 1000000000

/-- Number of nanoseconds in a millisecond. -/
def nanosPerMilli : Nat := 1000000

/-- Days from the beginning of 1970 to a date of the Gregorian calendar.  Years are counted from
March, so that the leap day is the last one of its year. -/
def daysOfDate (year : Int) (month day : Nat) : Int :=
  let marchYear := if month ≤ 2 then year - 1 else year
  let era := Int.fdiv marchYear 400
  let yearOfEra := Int.fmod marchYear 400
  let monthFromMarch : Int := if month ≤ 2 then month + 9 else month - 3
  let dayOfYear := (153 * monthFromMarch + 2) / 5 + day - 1
  era * 146097 + yearOfEra * 365 + yearOfEra / 4 - yearOfEra / 100 + dayOfYear - 719468

/-- Date of the Gregorian calendar after a number of days from the beginning of 1970. -/
def dateOfDays (days : Int) : Int × Nat × Nat :=
  let shifted := days + 719468
  let era := Int.fdiv shifted 146097
  let dayOfEra := Int.fmod shifted 146097
  let yearOfEra := (dayOfEra - dayOfEra / 1460 + dayOfEra / 36524 - dayOfEra / 146096) / 365
  let dayOfYear := dayOfEra - (365 * yearOfEra + yearOfEra / 4 - yearOfEra / 100)
  let monthFromMarch := (5 * dayOfYear + 2) / 153
  let day := dayOfYear - (153 * monthFromMarch + 2) / 5 + 1
  let month := if monthFromMarch < 10 then monthFromMarch + 3 else monthFromMarch - 9
  let year := yearOfEra + era * 400 + (if month ≤ 2 then 1 else 0)
  (year, month.toNat, day.toNat)

/-- Whether a year has a leap day. -/
def isLeapYear (year : Int) : Bool :=
  (year % 4 == 0 && year % 100 != 0) || year % 400 == 0

/-- Number of days in a month. -/
def daysInMonth (year : Int) (month : Nat) : Nat :=
  if month = 2 then if isLeapYear year then 29 else 28
  else if month = 4 ∨ month = 6 ∨ month = 9 ∨ month = 11 then 30
  else 31

/-- A number with leading zeros. -/
def zeroPadded (width n : Nat) : String :=
  let digits := natText n
  String.ofList (List.replicate (width - digits.length) '0') ++ digits

/-- A year: four digits, or at least four with a sign outside of `0` to `9999`. -/
def yearText (year : Int) : String :=
  if 0 ≤ year ∧ year ≤ 9999 then zeroPadded 4 year.toNat
  else (if year < 0 then "-" else "+") ++ zeroPadded 4 year.natAbs

/-- Fraction of a second in groups of three digits. -/
def fractionText (nanos : Nat) : String :=
  if nanos = 0 then ""
  else if nanos % 1000000 = 0 then "." ++ zeroPadded 3 (nanos / 1000000)
  else if nanos % 1000 = 0 then "." ++ zeroPadded 6 (nanos / 1000)
  else "." ++ zeroPadded 9 nanos

/-- Why a text is no point in time. -/
inductive TimestampError where
  | outOfRange
  | invalid
  | tooShort
  | tooLong
deriving DecidableEq

/-- Wording of an error. -/
def TimestampError.message : TimestampError → String
  | outOfRange => "input is out of range"
  | invalid => "input contains invalid characters"
  | tooShort => "premature end of input"
  | tooLong => "trailing input"

namespace Timestamp

/-- Date and time of day, separated by a given character. -/
def civilText (separator : String) (t : Timestamp) : String :=
  let day := Int.fdiv t.seconds secondsPerDay
  let second := (Int.fmod t.seconds secondsPerDay).toNat
  let (year, month, date) := dateOfDays day
  let leap := t.nanos / nanosPerSecond
  yearText year ++ "-" ++ zeroPadded 2 month ++ "-" ++ zeroPadded 2 date ++ separator
    ++ zeroPadded 2 (second / 3600) ++ ":" ++ zeroPadded 2 (second / 60 % 60) ++ ":"
    ++ zeroPadded 2 (second % 60 + leap) ++ fractionText (t.nanos % nanosPerSecond)

/-- Form of RFC 3339 in UTC. -/
def text (t : Timestamp) : String := t.civilText "T" ++ "Z"

/-- Form for readers, with the name of the time zone. -/
def readable (t : Timestamp) : String := t.civilText " " ++ " UTC"

/-- Time since another point, in nanoseconds.  A leap second between the two times of day counts
once. -/
def nanosSince (t start : Timestamp) : Int :=
  let own := Int.fmod t.seconds secondsPerDay
  let other := Int.fmod start.seconds secondsPerDay
  let leap : Int :=
    if other < own then (if nanosPerSecond ≤ start.nanos then 1 else 0)
    else if own < other then (if nanosPerSecond ≤ t.nanos then -1 else 0)
    else 0
  (t.seconds - start.seconds + leap) * nanosPerSecond + (t.nanos - start.nanos)

/-- Time since another point in whole milliseconds, cut off toward zero. -/
def millisSince (t start : Timestamp) : Int := Int.tdiv (t.nanosSince start) 1000000

/-- The point some milliseconds after the beginning of 1970. -/
def ofMillis (millis : Nat) : Timestamp := ⟨millis / 1000, millis % 1000 * 1000000⟩

/-- Characters without leading blanks. -/
def skipBlanks (cs : List Char) : List Char := cs.dropWhile isBlank

/-- Value of a run of digits. -/
def digitsValue (cs : List Char) : Nat :=
  cs.foldl (fun n c => n * 10 + (c.toNat - 48)) 0

/-- An ASCII digit. -/
def isAsciiDigit (c : Char) : Bool := '0' ≤ c && c ≤ '9'

/-- Between one and `width` digits. -/
def scanNumber (width : Nat) (cs : List Char) : Except TimestampError (Nat × List Char) :=
  let digits := (cs.take width).takeWhile isAsciiDigit
  match cs, digits with
  | [], _ => .error .tooShort
  | _, [] => .error .invalid
  | cs, digits => .ok (digitsValue digits, cs.drop digits.length)

/-- A number of at most two digits within bounds, behind blanks. -/
def scanField (least greatest : Nat) (cs : List Char) :
    Except TimestampError (Nat × List Char) := do
  let (n, rest) ← scanNumber 2 (skipBlanks cs)
  if least ≤ n ∧ n ≤ greatest then pure (n, rest) else .error .outOfRange

/-- A given character, behind blanks. -/
def scanMark (mark : Char) (cs : List Char) : Except TimestampError (List Char) :=
  match skipBlanks cs with
  | [] => .error .tooShort
  | c :: rest => if c = mark then .ok rest else .error .invalid

/-- A year: up to four digits, or any number of them behind a sign. -/
def scanYear (cs : List Char) : Except TimestampError (Int × List Char) := do
  let signed (sign : Int) (rest : List Char) : Except TimestampError (Int × List Char) := do
    let (n, rest) ← scanNumber rest.length rest
    if n < Nat.pow 2 63 then
      if -(Nat.pow 2 31 : Int) ≤ sign * n ∧ sign * n < Nat.pow 2 31 then pure (sign * n, rest)
      else .error .outOfRange
    else .error .outOfRange
  match skipBlanks cs with
  | '-' :: rest => signed (-1) rest
  | '+' :: rest => signed 1 rest
  | rest => do
    let (n, rest) ← scanNumber 4 rest
    pure (n, rest)

/-- A fraction of a second in nanoseconds; digits after the ninth are dropped. -/
def scanFraction : List Char → Except TimestampError (Nat × List Char)
  | '.' :: rest => do
    let (n, tail) ← scanNumber 9 rest
    pure (n * Nat.pow 10 (9 - (rest.length - tail.length)), tail.dropWhile isAsciiDigit)
  | rest => .ok (0, rest)

/-- Two digits, the first one at most five. -/
def scanOffsetMinutes : List Char → Except TimestampError (Nat × List Char)
  | a :: b :: rest =>
    if isAsciiDigit a && isAsciiDigit b then
      if a ≤ '5' then .ok (digitsValue [a, b], rest) else .error .outOfRange
    else .error .invalid
  | _ => .error .tooShort

/-- An offset from UTC in seconds. -/
def scanOffset (cs : List Char) : Except TimestampError (Int × List Char) :=
  match cs with
  | [] => .error .tooShort
  | c :: rest =>
    if c = 'Z' ∨ c = 'z' then .ok (0, rest)
    else if (String.ofList (cs.take 3)).toUpper = "UTC" then .ok (0, cs.drop 3)
    else if c = '+' ∨ c = '-' ∨ c = '−' then
      match rest with
      | a :: b :: rest =>
        if isAsciiDigit a && isAsciiDigit b then do
          let separated := rest.dropWhile (fun c => c == ':' || isBlank c)
          let (minutes, rest) ← scanOffsetMinutes separated
          let seconds : Int := digitsValue [a, b] * 3600 + minutes * 60
          pure (if c = '+' then seconds else -seconds, rest)
        else .error .invalid
      | _ => .error .tooShort
    else .error .invalid

/-- First and last year of the calendar. -/
def isYear (year : Int) : Bool := -262143 ≤ year && year ≤ 262142

/-- Reads a point in time. -/
def parse? (text : String) : Except TimestampError Timestamp := do
  let (year, rest) ← scanYear text.toList
  let rest ← scanMark '-' rest
  let (month, rest) ← scanField 1 12 rest
  let rest ← scanMark '-' rest
  let (day, rest) ← scanField 1 31 rest
  let rest ← match rest with
    | [] => .error .tooShort
    | c :: rest => if c = 'T' ∨ c = 't' ∨ c = ' ' then .ok rest else .error .invalid
  let (hour, rest) ← scanField 0 23 rest
  let rest ← scanMark ':' rest
  let (minute, rest) ← scanField 0 59 rest
  let rest ← scanMark ':' rest
  let (second, rest) ← scanField 0 60 rest
  let (fraction, rest) ← scanFraction rest
  let (offset, rest) ← scanOffset (skipBlanks rest)
  if !(skipBlanks rest).isEmpty then .error .tooLong
  else if !isYear year || daysInMonth year month < day then .error .outOfRange
  else if secondsPerDay ≤ offset.natAbs then .error .outOfRange
  else
    let seconds := daysOfDate year month day * secondsPerDay
      + hour * 3600 + minute * 60 + min second 59 - offset
    pure ⟨seconds, fraction + (if second = 60 then nanosPerSecond else 0)⟩

end Timestamp

end Time
end BatchRun
