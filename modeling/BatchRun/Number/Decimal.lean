import BatchRun.Number.Binary64

/-!
# Decimal numerals

**Result.**
`Binary64.ofDecimal` is the number nearest to a decimal numeral, given by its digits as one natural
number and the power of ten behind them.
-/

namespace BatchRun
namespace Number
namespace Binary64

/-- Power of ten that is out of the range of all finite numbers. -/
def decimalRange : Nat := 400

/-- Nearest number to `digits` times a power of ten. -/
def ofDecimal (digits : Nat) (exponent : Int) : Binary64 :=
  if digits = 0 then ofNat 0
  else if 0 ≤ exponent then
    if decimalRange < exponent.toNat then infinity else ofNat (digits * Nat.pow 10 exponent.toNat)
  else if decimalRange + digits.log2 < exponent.natAbs then ofNat 0
  else ofRatio digits (Nat.pow 10 exponent.natAbs)

end Binary64
end Number
end BatchRun
