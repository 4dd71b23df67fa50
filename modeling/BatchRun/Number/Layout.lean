import BatchRun.Number.Shortest

/-!
# Texts of numbers

**Input.**
A number and, for floating point, a `Layout`: the choices that are left when the digits are
known.

**Results.**
`natText` and `intText` write whole numbers in decimal digits; `Binary64.text` writes the
shortest digits that read back; `Binary64.wholeText` rounds to a whole number.
-/

namespace BatchRun
namespace Number

/-- Text of a natural number. -/
def natText (n : Nat) : String := Nat.repr n

/-- Text of an integer. -/
def intText (i : Int) : String :=
  if i < 0 then "-" ++ natText i.natAbs else natText i.natAbs

/-- Choices in writing a floating-point number whose digits are known. -/
structure Layout where
  /-- Range of integer digits written without an exponent; without a range all are. -/
  positional : Option (Int × Int)
  /-- Whether a whole number ends in a point and a zero. -/
  marksWhole : Bool
  /-- Which of two equally near digit sequences is written. -/
  tie : TieRule

/-- Digits of a decimal without trailing zeros, and the place of the point: the value is
`0.digits * 10^place`. -/
def Decimal.digits (d : Decimal) : List Char × Int :=
  let digits := (Nat.repr d.significand).toList
  let place := (digits.length : Int) + d.exponent
  ((digits.reverse.dropWhile (· == '0')).reverse, place)

/-- Digits with a decimal point at `place` and no exponent. -/
def positionalText (marksWhole : Bool) (digits : List Char) (place : Int) : String :=
  if place ≤ 0 then
    String.ofList ('0' :: '.' :: (List.replicate (-place).toNat '0' ++ digits))
  else if (digits.length : Int) ≤ place then
    String.ofList (digits ++ List.replicate (place - digits.length).toNat '0')
      ++ (if marksWhole then ".0" else "")
  else
    String.ofList (digits.take place.toNat ++ '.' :: digits.drop place.toNat)

/-- Digits with the point after the first one and a signed exponent. -/
def exponentText (digits : List Char) (place : Int) : String :=
  let mantissa := match digits with
    | [] => "0"
    | [d] => String.ofList [d]
    | d :: rest => String.ofList (d :: '.' :: rest)
  let exponent := place - 1
  mantissa ++ (if exponent < 0 then "e-" else "e+") ++ natText exponent.natAbs

/-- Text of the magnitude of a finite rank. -/
def magnitudeText (layout : Layout) (rank : Nat) : String :=
  if rank = 0 then if layout.marksWhole then "0.0" else "0"
  else
    let (digits, place) := (shortest layout.tie rank).digits
    match layout.positional with
    | none => positionalText layout.marksWhole digits place
    | some (least, greatest) =>
      if least ≤ place ∧ place ≤ greatest then positionalText layout.marksWhole digits place
      else exponentText digits place

/-- Text of a floating-point number. -/
def Binary64.text (layout : Layout) : Binary64 → String
  | .nan => "NaN"
  | .signed negative rank =>
    (if negative then "-" else "")
      ++ (if rank.val = infiniteRank then "inf" else magnitudeText layout rank.val)

/-- Layout of numbers in messages: never an exponent, and no mark on whole numbers. -/
def Layout.message : Layout := ⟨none, false, .up⟩

/-- Layout of numbers in documents: positional from `1e-5` to below `1e16`, and whole numbers
marked. -/
def Layout.document : Layout := ⟨some (-4, 16), true, .toEven⟩

/-- Text of a nonnegative number rounded to a whole one, a tie to the even one. -/
def Binary64.wholeText : Binary64 → String
  | .nan => "NaN"
  | .signed negative rank =>
    (if negative then "-" else "")
      ++ (if rank.val = infiniteRank then "inf"
          else natText (divNearestEven (unitsOfRank rank.val) unitsPerOne))

end Number
end BatchRun
