import BatchRun.Number.Binary64

/-!
# Shortest decimals that read back

**Input.**
A positive finite magnitude, given by its rank.

**Result.**
`shortest` finds a decimal in the interval of values that round to this magnitude, with as few
digits as any decimal in the interval has, and the nearest one of those.  On every grid
`10^k` only the two neighbours of the magnitude need a test: if any point of a grid lies in the
interval, one of them does.
-/

namespace BatchRun
namespace Number

/-- Number of decimal digits; zero has none. -/
def decimalLength (n : Nat) : Nat :=
  if n = 0 then 0 else decimalLength (n / 10) + 1
termination_by n

/-- The decimal `significand * 10^exponent`. -/
structure Decimal where
  significand : Nat
  exponent : Int
deriving DecidableEq

/-- Which of two equally near decimals is taken. -/
inductive TieRule where
  | toEven
  | up

namespace Decimal

/-- Whether a decimal lies in the interval of values that round to the magnitude of a rank.
The ends of the interval belong to it exactly when the rank is even. -/
def roundsTo (d : Decimal) (rank : Nat) : Bool :=
  let scale := Nat.pow 10 (-d.exponent).toNat
  let value := d.significand * Nat.pow 10 d.exponent.toNat * (2 * unitsPerOne)
  let low := (unitsOfRank (rank - 1) + unitsOfRank rank) * scale
  let high := (unitsOfRank rank + unitsOfRank (rank + 1)) * scale
  if rank % 2 = 0 then decide (low ≤ value) && decide (value ≤ high)
  else decide (low < value) && decide (value < high)

/-- Number of digits before the decimal point of a positive magnitude; for a magnitude below
one tenth, minus the number of zeros that follow the point. -/
def integerDigits (units : Nat) : Int :=
  if unitsPerOne ≤ units then decimalLength (units / unitsPerOne)
  else 1 - (decimalLength ((unitsPerOne + units - 1) / units - 1) : Int)

/-- Quotient and divisor of a magnitude by the grid step `10^exponent`: the magnitude lies
`quotient` steps and a `rest / divisor` of a step above zero. -/
def gridDivision (units : Nat) (exponent : Int) : Nat × Nat × Nat :=
  let numerator := units * Nat.pow 10 (-exponent).toNat
  let divisor := unitsPerOne * Nat.pow 10 exponent.toNat
  (numerator / divisor, numerator % divisor, divisor)

/-- Decimal nearest to the magnitude of a rank on the grid `10^exponent` among those that round
to it. -/
def onGrid? (tie : TieRule) (rank : Nat) (exponent : Int) : Option Decimal :=
  let (below, rest, divisor) := gridDivision (unitsOfRank rank) exponent
  let low : Decimal := ⟨below, exponent⟩
  let high : Decimal := ⟨below + 1, exponent⟩
  match low.roundsTo rank, high.roundsTo rank with
  | false, false => none
  | true, false => some low
  | false, true => some high
  | true, true =>
    if 2 * rest < divisor then some low
    else if divisor < 2 * rest then some high
    else match tie with
      | .toEven => some (if below % 2 = 0 then low else high)
      | .up => some high

/-- The first hit on the grids with `digits`, `digits + 1`, … significant digits. -/
def firstOnGrids (tie : TieRule) (rank : Nat) (integerDigits : Int) :
    (tries digits : Nat) → Decimal
  | 0, digits => (onGrid? tie rank (integerDigits - digits)).getD ⟨0, 0⟩
  | tries + 1, digits =>
    match onGrid? tie rank (integerDigits - digits) with
    | some d => d
    | none => firstOnGrids tie rank integerDigits tries (digits + 1)

end Decimal

/-- Shortest decimal that reads back as the magnitude of a positive finite rank.  Seventeen
digits always suffice. -/
def shortest (tie : TieRule) (rank : Nat) : Decimal :=
  Decimal.firstOnGrids tie rank (Decimal.integerDigits (unitsOfRank rank)) 16 1

end Number
end BatchRun
