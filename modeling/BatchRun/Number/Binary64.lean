/-!
# Binary floating point of 64 bits

**Input.**
Exact natural numbers and quotients of natural numbers.

**Representation.**
A number that is no NaN is a sign and a *rank*: the place of its magnitude among all
nonnegative magnitudes, zero having rank `0` and infinity the last one.  The order of ranks is
the order of magnitudes, and every rank stands for exactly one magnitude, so equal numbers are
equal terms.  Magnitudes are measured in units of `2^-1074`, the smallest positive one, and are
therefore natural numbers.

**Arithmetic.**
Each operation computes its exact result as a quotient of natural numbers and rounds once, by
`roundRank`: to the nearest magnitude, an exact tie to the even rank.
-/

namespace BatchRun
namespace Number

/-- Number of magnitudes between two neighbouring powers of two. -/
def binadeSize : Nat := Nat.pow 2 52

/-- Rank of infinity; the finite magnitudes are below it. -/
def infiniteRank : Nat := 2047 * binadeSize

/-- Number of units in the magnitude one. -/
def unitsPerOne : Nat := Nat.pow 2 1074

/-- Magnitude with a given rank, in units. -/
def unitsOfRank (rank : Nat) : Nat :=
  if rank < binadeSize then rank
  else (binadeSize + rank % binadeSize) * Nat.pow 2 (rank / binadeSize - 1)

/-- Quotient of two numbers rounded to the nearest natural number, a tie to the even one. -/
def divNearestEven (numerator denominator : Nat) : Nat :=
  let quotient := numerator / denominator
  let rest := numerator % denominator
  if denominator < 2 * rest ∨ (2 * rest = denominator ∧ quotient % 2 = 1) then quotient + 1
  else quotient

/-- Rank of the magnitude nearest to `numerator / denominator` units, a tie to the even rank. -/
def roundRank (numerator denominator : Nat) : Nat :=
  let binade := Nat.log2 (numerator / denominator) - 52
  min infiniteRank
    (binade * binadeSize + divNearestEven numerator (denominator * Nat.pow 2 binade))

/-- A binary floating-point number of 64 bits; all NaNs are one value. -/
inductive Binary64 where
  | nan
  | signed (negative : Bool) (rank : Fin (infiniteRank + 1))
deriving DecidableEq

namespace Binary64

/-- Number with a given sign and a rank, capped at infinity. -/
def ofRank (negative : Bool) (rank : Nat) : Binary64 :=
  .signed negative ⟨min infiniteRank rank, Nat.lt_succ_of_le (Nat.min_le_left _ _)⟩

/-- Nearest number to a signed quotient of units. -/
def round (negative : Bool) (numerator denominator : Nat) : Binary64 :=
  ofRank negative (roundRank numerator denominator)

/-- Nearest number to the quotient `numerator / denominator`. -/
def ofRatio (numerator denominator : Nat) : Binary64 :=
  round false (numerator * unitsPerOne) denominator

/-- Nearest number to a natural number. -/
def ofNat (n : Nat) : Binary64 := ofRatio n 1

instance : OfNat Binary64 n := ⟨ofNat n⟩

instance : Inhabited Binary64 := ⟨ofNat 0⟩

/-- Positive infinity. -/
def infinity : Binary64 := ofRank false infiniteRank

/-- Whether the number is a NaN. -/
def isNaN : Binary64 → Bool
  | nan => true
  | signed _ _ => false

/-- Whether the number is neither a NaN nor infinite. -/
def isFinite : Binary64 → Bool
  | nan => false
  | signed _ rank => rank.val < infiniteRank

/-- Whether the number is one of the two infinities. -/
def isInfinite : Binary64 → Bool
  | nan => false
  | signed _ rank => rank.val == infiniteRank

/-- Exact signed value of a finite number, in units. -/
def units : Binary64 → Int
  | nan => 0
  | signed false rank => unitsOfRank rank.val
  | signed true rank => -(unitsOfRank rank.val : Int)

/-- Place of a number in the order of all numbers; both zeros have place `0`. -/
def place : Binary64 → Int
  | nan => 0
  | signed false rank => rank.val
  | signed true rank => -(rank.val : Int)

/-- Numerical order; no NaN is below or above anything. -/
def lt (x y : Binary64) : Bool :=
  !x.isNaN && !y.isNaN && decide (x.place < y.place)

/-- Numerical order with equality; both zeros are equal and a NaN equals nothing. -/
def le (x y : Binary64) : Bool :=
  !x.isNaN && !y.isNaN && decide (x.place ≤ y.place)

/-- Numerical equality; both zeros are equal and a NaN equals nothing. -/
def eq (x y : Binary64) : Bool :=
  !x.isNaN && !y.isNaN && decide (x.place = y.place)

/-- Number with the opposite sign. -/
def neg : Binary64 → Binary64
  | nan => nan
  | signed negative rank => signed (!negative) rank

instance : Neg Binary64 := ⟨neg⟩

/-- Sum, rounded once.  A sum that cancels is positive zero. -/
def add : Binary64 → Binary64 → Binary64
  | nan, _ => nan
  | _, nan => nan
  | x@(signed sx rx), y@(signed sy ry) =>
    if x.isInfinite then if y.isInfinite && sx != sy then nan else x
    else if y.isInfinite then y
    else
      let sum := x.units + y.units
      if sum = 0 then
        ofRank (sx && sy && rx.val == 0 && ry.val == 0) 0
      else round (decide (sum < 0)) sum.natAbs 1

instance : Add Binary64 := ⟨add⟩

/-- Difference, rounded once. -/
def sub (x y : Binary64) : Binary64 := x + -y

instance : Sub Binary64 := ⟨sub⟩

/-- Product, rounded once.  Zero times infinity is a NaN. -/
def mul : Binary64 → Binary64 → Binary64
  | nan, _ => nan
  | _, nan => nan
  | x@(signed sx rx), y@(signed sy ry) =>
    if x.isInfinite then
      if ry.val = 0 then nan else ofRank (sx != sy) infiniteRank
    else if y.isInfinite then
      if rx.val = 0 then nan else ofRank (sx != sy) infiniteRank
    else round (sx != sy) (unitsOfRank rx.val * unitsOfRank ry.val) unitsPerOne

instance : Mul Binary64 := ⟨mul⟩

/-- Quotient, rounded once.  Zero over zero and infinity over infinity are NaNs. -/
def div : Binary64 → Binary64 → Binary64
  | nan, _ => nan
  | _, nan => nan
  | x@(signed sx rx), y@(signed sy ry) =>
    if x.isInfinite then
      if y.isInfinite then nan else ofRank (sx != sy) infiniteRank
    else if y.isInfinite then ofRank (sx != sy) 0
    else if ry.val = 0 then
      if rx.val = 0 then nan else ofRank (sx != sy) infiniteRank
    else round (sx != sy) (unitsOfRank rx.val * unitsPerOne) (unitsOfRank ry.val)

instance : Div Binary64 := ⟨div⟩

/-- The smaller of two numbers; a NaN gives way to the other one. -/
def min (x y : Binary64) : Binary64 :=
  if x.isNaN then y
  else if y.isNaN then x
  else if y.lt x then y
  else x

/-- The larger of two numbers; a NaN gives way to the other one. -/
def max (x y : Binary64) : Binary64 :=
  if x.isNaN then y
  else if y.isNaN then x
  else if x.lt y then y
  else x

/-- Power by repeated squaring, the squares taken from the right. -/
def powNat (base : Binary64) (exponent : Nat) : Binary64 :=
  go base 1 exponent
where
  /-- Multiplies the running result by the squares whose binary digit is one. -/
  go (square result : Binary64) (exponent : Nat) : Binary64 :=
    let result := if exponent % 2 = 1 then result * square else result
    if exponent / 2 = 0 then result
    else go (square * square) result (exponent / 2)
  termination_by exponent

/-- Power with an integer exponent; a negative one gives the reciprocal. -/
def powInt (base : Binary64) (exponent : Int) : Binary64 :=
  let power := powNat base exponent.natAbs
  if exponent < 0 then 1 / power else power

/-- Largest natural number not above the number, within `[0, bound]`; a NaN gives `0`. -/
def floorWithin (bound : Nat) : Binary64 → Nat
  | nan => 0
  | signed true _ => 0
  | signed false rank =>
    if rank.val = infiniteRank then bound
    else Nat.min bound (unitsOfRank rank.val / unitsPerOne)

/-- Smallest natural number not below the number, within `[0, bound]`; a NaN gives `0`. -/
def ceilWithin (bound : Nat) : Binary64 → Nat
  | nan => 0
  | signed true _ => 0
  | signed false rank =>
    if rank.val = infiniteRank then bound
    else Nat.min bound ((unitsOfRank rank.val + (unitsPerOne - 1)) / unitsPerOne)

end Binary64

end Number
end BatchRun
