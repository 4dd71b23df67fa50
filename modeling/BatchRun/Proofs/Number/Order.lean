import BatchRun.Proofs.Number.Rounding

/-!
# Order of floating-point results

Every operation rounds once, and rounding keeps the order.  So products, quotients and powers
are in the order of what they are made of, whatever their roundings come to.

**Type.**
Two numbers are `Ordered` if neither is a NaN or has a minus sign, and the second one is not below
the first.

**Results.**
* `Ordered.mul`, `Ordered.one_div`: products go up with their factors, reciprocals go down.
* `ordered_powNat`: a power of a number that is at least one goes up with the exponent.
* `ordered_powInt`: so does the power with an integer exponent.
* `Ordered.floorWithin`: whole numbers are in the order of the numbers that they are cut from.
-/

namespace BatchRun
namespace Number
namespace Binary64

/-- Two numbers without a minus sign, the second one not below the first. -/
inductive Ordered : Binary64 → Binary64 → Prop
  | ranks
      {rank larger : Fin (infiniteRank + 1)}
      (le : rank.val ≤ larger.val) :
      Ordered (.signed false rank) (.signed false larger)

section Order

variable {x y z : Binary64}

theorem Ordered.left
    (h : Ordered x y) :
    Ordered x x := by
  cases h with
  | ranks => exact .ranks (Nat.le_refl _)

theorem Ordered.right
    (h : Ordered x y) :
    Ordered y y := by
  cases h with
  | ranks => exact .ranks (Nat.le_refl _)

theorem Ordered.trans
    (h : Ordered x y)
    (h' : Ordered y z) :
    Ordered x z := by
  cases h with
  | ranks first =>
      cases h' with
      | ranks last => exact .ranks (Nat.le_trans first last)

/-- Quotients in order are rounded in order. -/
theorem ordered_round
    {numerator denominator numerator' denominator' : Nat}
    (positive : 0 < denominator)
    (positive' : 0 < denominator')
    (h : numerator * denominator' ≤ numerator' * denominator) :
    Ordered (round false numerator denominator) (round false numerator' denominator') := by
  rw [round_eq, round_eq]
  exact .ranks (roundRank_mono positive positive' h)

/-- Natural numbers are rounded in order. -/
theorem ordered_ofNat
    {m n : Nat}
    (h : m ≤ n) :
    Ordered (ofNat m) (ofNat n) :=
  ordered_round Nat.one_pos Nat.one_pos
    (Nat.mul_le_mul_right 1 (Nat.mul_le_mul_right unitsPerOne h))

theorem exists_one :
    ∃ rank : Fin (infiniteRank + 1), (1 : Binary64) = .signed false rank ∧
      rank.val < infiniteRank ∧ unitsOfRank rank.val = unitsPerOne := by
  obtain ⟨rank, hrank, hfinite, hunits⟩ := exists_ofNat (n := 1) (by decide)
  exact ⟨rank, hrank, hfinite, hunits.trans (Nat.one_mul _)⟩

/-- A rank is zero if its magnitude is. -/
theorem rank_ne_zero
    {rank : Nat}
    (h : 0 < unitsOfRank rank) :
    rank ≠ 0 := by
  rintro rfl
  exact absurd h (by decide)

end Order

section Products

variable {x y x' y' : Binary64} {rank other : Fin (infiniteRank + 1)}

theorem mul_infinite
    (infinite : rank.val = infiniteRank ∨ other.val = infiniteRank) :
    signed false rank * signed false other = nan ∨
      signed false rank * signed false other = infinity := by
  show mul _ _ = nan ∨ mul _ _ = infinity
  simp only [mul, isInfinite, beq_iff_eq, bne_self_eq_false]
  split
  case isTrue =>
      split
      case isTrue => exact .inl rfl
      case isFalse => exact .inr rfl
  case isFalse finite =>
      rw [if_pos (infinite.resolve_left finite)]
      split
      case isTrue => exact .inl rfl
      case isFalse => exact .inr rfl

theorem mul_finite
    (finite : rank.val ≠ infiniteRank)
    (finite' : other.val ≠ infiniteRank) :
    signed false rank * signed false other =
      round false (unitsOfRank rank.val * unitsOfRank other.val) unitsPerOne := by
  show mul _ _ = _
  simp [mul, isInfinite, finite, finite']

theorem mul_cases
    (rank other : Fin (infiniteRank + 1)) :
    signed false rank * signed false other = nan ∨
      ∃ product, signed false rank * signed false other = signed false product := by
  by_cases infinite : rank.val = infiniteRank ∨ other.val = infiniteRank
  · rcases mul_infinite infinite with hnan | hinfinity
    · exact .inl hnan
    · exact .inr ⟨_, hinfinity⟩
  · rw [not_or] at infinite
    rw [mul_finite infinite.1 infinite.2, round_eq]
    exact .inr ⟨_, rfl⟩

theorem ordered_infinity
    (rank : Fin (infiniteRank + 1)) :
    Ordered (signed false rank) infinity :=
  .ranks (Nat.le_min.mpr ⟨Nat.le_of_lt_succ rank.isLt, Nat.le_of_lt_succ rank.isLt⟩)

/-- The product of zero and infinity counted as infinity. -/
def orInfinity : Binary64 → Binary64
  | nan => infinity
  | number => number

theorem orInfinity_of_ne_nan
    (number : x ≠ nan) :
    x.orInfinity = x := by
  cases x with
  | nan => exact absurd rfl number
  | signed => rfl

/-- Products go up with their factors. -/
theorem Ordered.mul
    (h : Ordered x x')
    (h' : Ordered y y') :
    Ordered (x * y).orInfinity (x' * y').orInfinity := by
  cases h with
  | @ranks rank larger hrank =>
      cases h' with
      | @ranks other second hother =>
          by_cases infinite : larger.val = infiniteRank ∨ second.val = infiniteRank
          · have hinfinity : (signed false larger * signed false second).orInfinity = infinity := by
              rcases mul_infinite infinite with hproduct | hproduct <;> rw [hproduct] <;> rfl
            rw [hinfinity]
            rcases mul_cases rank other with hnan | ⟨product, hproduct⟩
            · rw [hnan]
              exact ordered_infinity _
            · rw [hproduct]
              exact ordered_infinity product
          · have hbound := larger.isLt
            have hbound' := second.isLt
            rw [mul_finite (by omega) (by omega), mul_finite (by omega) (by omega)]
            refine ordered_round unitsPerOne_pos unitsPerOne_pos (Nat.mul_le_mul_right _ ?_)
            exact Nat.mul_le_mul (unitsOfRank_mono (by omega) hrank)
              (unitsOfRank_mono (by omega) hother)

theorem Ordered.mul_numbers
    (h : Ordered x x')
    (h' : Ordered y y')
    (number : x * y ≠ nan)
    (number' : x' * y' ≠ nan) :
    Ordered (x * y) (x' * y') := by
  have hproduct := h.mul h'
  rwa [orInfinity_of_ne_nan number, orInfinity_of_ne_nan number'] at hproduct

/-- Numbers that are at least one are multiplied to a number. -/
theorem mul_ne_nan
    (h : Ordered 1 x)
    (h' : Ordered 1 y) :
    x * y ≠ nan := by
  obtain ⟨one, hone, -, hunits⟩ := exists_one
  have hpositive : one.val ≠ 0 := rank_ne_zero (hunits ▸ unitsPerOne_pos)
  rw [hone] at h h'
  cases h with
  | @ranks _ rank hrank =>
      cases h' with
      | @ranks _ other hother =>
          have hzero : rank.val ≠ 0 := by omega
          have hzero' : other.val ≠ 0 := by omega
          intro heq
          change mul _ _ = nan at heq
          simp only [mul, hzero, hzero', if_false] at heq
          split at heq
          case isTrue => cases heq
          case isFalse =>
              split at heq
              case isTrue => cases heq
              case isFalse => cases heq

theorem mul_commutes
    (x y : Binary64) :
    x * y = y * x := by
  show mul x y = mul y x
  cases x with
  | nan => cases y <;> rfl
  | signed negative rank =>
      cases y with
      | nan => rfl
      | signed negative' other =>
          have hsign : (negative != negative') = (negative' != negative) := bne_comm
          have hzero : ¬ infiniteRank = 0 := by decide
          simp only [mul, isInfinite, beq_iff_eq, hsign, Nat.mul_comm (unitsOfRank rank.val)]
          by_cases hrank : rank.val = infiniteRank
          · by_cases hother : other.val = infiniteRank
            · simp only [hrank, hother, hzero, if_true, if_false]
            · simp only [hrank, hother, if_true, if_false]
          · by_cases hother : other.val = infiniteRank
            · simp only [hrank, hother, if_true, if_false]
            · simp only [hrank, hother, if_false]

/-- Nothing changes by a factor of one. -/
theorem Ordered.mul_one
    (h : Ordered x x) :
    x * 1 = x := by
  obtain ⟨one, hone, hfinite, hunits⟩ := exists_one
  cases h with
  | @ranks rank =>
      rw [hone]
      by_cases infinite : rank.val = infiniteRank
      · have hpositive : one.val ≠ 0 := rank_ne_zero (hunits ▸ unitsPerOne_pos)
        have hrank : rank = ⟨infiniteRank, Nat.lt_succ_self _⟩ := Fin.ext infinite
        show Binary64.mul _ _ = _
        simp [Binary64.mul, isInfinite, hpositive, ofRank, hrank]
      · have hscale : roundRank (unitsOfRank rank.val * unitsPerOne) unitsPerOne = rank.val := by
          have hcommon := roundRank_mul_mul (unitsOfRank rank.val) 1 unitsPerOne_pos
          rwa [Nat.one_mul, roundRank_unitsOfRank (Nat.le_of_lt_succ rank.isLt)] at hcommon
        rw [mul_finite infinite (Nat.ne_of_lt hfinite), hunits, round_eq]
        exact congrArg (signed false) (Fin.ext hscale)

/-- A product with a number that is at least one is not below the other factor. -/
theorem Ordered.le_mul
    (h : Ordered 1 x)
    (h' : Ordered 1 y) :
    Ordered x (x * y) := by
  have hproduct := h.right.mul_numbers h' (mul_ne_nan h h'.left) (mul_ne_nan h h')
  rwa [h.right.mul_one] at hproduct

theorem Ordered.one_le_mul
    (h : Ordered 1 x)
    (h' : Ordered 1 y) :
    Ordered 1 (x * y) :=
  h.trans (h.le_mul h')

end Products

section Powers

variable {square result larger : Binary64} {exponent : Nat}

/-- A larger factor in front makes no power smaller. -/
theorem ordered_go
    (square_le : Ordered 1 square)
    (result_le : Ordered 1 result)
    (h : Ordered result larger)
    (exponent : Nat) :
    Ordered (powNat.go square result exponent) (powNat.go square larger exponent) := by
  induction exponent using Nat.strongRecOn generalizing square result larger with
  | ind exponent ih =>
      have hnumber := mul_ne_nan result_le square_le
      have hnumber' := mul_ne_nan (result_le.trans h) square_le
      have hproduct : Ordered (result * square) (larger * square) :=
        h.mul_numbers square_le.right hnumber hnumber'
      have hsquare := square_le.one_le_mul square_le
      have hone := result_le.one_le_mul square_le
      unfold powNat.go
      split
      case isTrue odd =>
          split
          case isTrue => exact hproduct
          case isFalse => exact ih _ (by omega) hsquare hone hproduct
      case isFalse even =>
          split
          case isTrue => exact h
          case isFalse => exact ih _ (by omega) hsquare result_le h

/-- One more factor makes no power smaller.  Behind ones in the exponent a power is the product of
the squares so far, and the next power is the next square alone: what is multiplied and squared
stays in order, although each product is rounded. -/
theorem ordered_go_succ
    (result_le : Ordered 1 result)
    (h : Ordered result square)
    (exponent : Nat) :
    Ordered (powNat.go square result exponent) (powNat.go square 1 (exponent + 1)) := by
  induction exponent using Nat.strongRecOn generalizing square result with
  | ind exponent ih =>
      have hsquare : Ordered 1 square := result_le.trans h
      have hfactor : 1 * square = square := by
        rw [mul_commutes, hsquare.right.mul_one]
      have hnumber := mul_ne_nan result_le hsquare
      have hnumber' := mul_ne_nan hsquare hsquare
      have hproduct : Ordered (result * square) (square * square) :=
        h.mul_numbers hsquare.right hnumber hnumber'
      rcases Nat.mod_two_eq_zero_or_one exponent with heven | hodd
      · have hhalf : (exponent + 1) / 2 = exponent / 2 := by omega
        rw [powNat.go, powNat.go.eq_1 square 1 (exponent + 1)]
        simp only [heven, hhalf, show (exponent + 1) % 2 = 1 by omega, hfactor, if_true,
          Nat.zero_ne_one, if_false]
        split
        case isTrue => exact h
        case isFalse => exact ordered_go (hsquare.one_le_mul hsquare) result_le h _
      · have hhalf : (exponent + 1) / 2 = exponent / 2 + 1 := by omega
        rw [powNat.go, powNat.go.eq_1 square 1 (exponent + 1)]
        simp only [hodd, hhalf, show (exponent + 1) % 2 = 0 by omega, if_true, Nat.zero_ne_one,
          if_false, Nat.succ_ne_zero]
        split
        case isTrue hzero =>
            have hlast : powNat.go (square * square) 1 1 = 1 * (square * square) := by
              rw [powNat.go]
              rfl
            rw [hzero, hlast, mul_commutes 1, (hsquare.one_le_mul hsquare).right.mul_one]
            exact hproduct
        case isFalse => exact ih _ (by omega) (result_le.one_le_mul hsquare) hproduct

/-- A power of a number that is at least one goes up with the exponent. -/
theorem ordered_powNat
    {base : Binary64} {m n : Nat}
    (one_le : Ordered 1 base)
    (h : m ≤ n) :
    Ordered (powNat base m) (powNat base n) := by
  induction h with
  | refl => exact (ordered_go one_le one_le.left one_le.left m).left
  | step _ ih => exact ih.trans (ordered_go_succ one_le.left one_le _)

theorem powNat_zero
    (base : Binary64) :
    powNat base 0 = 1 := by
  rw [powNat, powNat.go]
  rfl

theorem one_le_powNat
    {base : Binary64}
    (one_le : Ordered 1 base)
    (exponent : Nat) :
    Ordered 1 (powNat base exponent) := by
  have hpower := ordered_powNat one_le (Nat.zero_le exponent)
  rwa [powNat_zero] at hpower

end Powers

section Reciprocals

variable {x y base : Binary64}

/-- A reciprocal of a number that is at least one is finite. -/
theorem one_div_eq
    {rank : Fin (infiniteRank + 1)}
    (h : Ordered 1 (signed false rank)) :
    1 / signed false rank =
      if rank.val = infiniteRank then ofRank false 0
      else round false (unitsPerOne * unitsPerOne) (unitsOfRank rank.val) := by
  obtain ⟨one, hone, hfinite, hunits⟩ := exists_one
  have hpositive : one.val ≠ 0 := rank_ne_zero (hunits ▸ unitsPerOne_pos)
  rw [hone] at h ⊢
  cases h with
  | ranks hrank =>
      have hzero : rank.val ≠ 0 := by omega
      show div _ _ = _
      simp only [div, isInfinite, beq_iff_eq, Nat.ne_of_lt hfinite, hzero, hunits, if_false,
        bne_self_eq_false]

/-- Reciprocals go down. -/
theorem Ordered.one_div
    (one_le : Ordered 1 x)
    (h : Ordered x y) :
    Ordered (1 / y) (1 / x) := by
  have hone := one_le.trans h
  obtain ⟨one, hsame, -, hunits⟩ := exists_one
  cases h with
  | @ranks rank larger hrank =>
      rw [one_div_eq one_le, one_div_eq hone]
      rw [hsame] at one_le
      have hbound := larger.isLt
      by_cases infinite : rank.val = infiniteRank
      · rw [if_pos infinite, if_pos (by omega)]
        exact .ranks (Nat.le_refl _)
      · have hpositive : 0 < unitsOfRank rank.val := by
          cases one_le with
          | @ranks one _ hle =>
              have hunits_le := unitsOfRank_mono (Nat.le_of_lt_succ rank.isLt) hle
              have hpos := unitsPerOne_pos
              omega
        have hunits_le := unitsOfRank_mono (Nat.le_of_lt_succ hbound) hrank
        rw [if_neg infinite]
        split
        case isTrue =>
            rw [round_eq]
            exact .ranks (Nat.le_trans (Nat.min_le_right _ _) (Nat.zero_le _))
        case isFalse =>
            exact ordered_round (Nat.lt_of_lt_of_le hpositive hunits_le) hpositive
              (Nat.mul_le_mul_left _ hunits_le)

theorem one_div_one : (1 : Binary64) / 1 = 1 := by
  decide +kernel

/-- Powers with negative exponents go up to one, the others from one on. -/
theorem ordered_powInt
    {m n : Int}
    (one_le : Ordered 1 base)
    (h : m ≤ n) :
    Ordered (powInt base m) (powInt base n) := by
  unfold powInt
  have hpower := one_le_powNat one_le
  by_cases hm : m < 0
  · by_cases hn : n < 0
    · simp only [hm, hn, if_true]
      exact (hpower _).one_div (ordered_powNat one_le (by omega))
    · simp only [hm, hn, if_true, if_false]
      have hfirst := (hpower 0).left.one_div (hpower m.natAbs)
      rw [one_div_one] at hfirst
      exact hfirst.trans (hpower _)
  · have hn : ¬ n < 0 := by omega
    simp only [hm, hn, if_false]
    exact ordered_powNat one_le (by omega)

end Reciprocals

section Bounds

variable {x y z : Binary64}

/-- The smaller one of two numbers goes up with the first. -/
theorem Ordered.min
    (h : Ordered x y)
    (number : Ordered z z) :
    Ordered (x.min z) (y.min z) := by
  cases h with
  | @ranks rank larger hle =>
      cases number with
      | @ranks bound =>
          simp only [Binary64.min, isNaN, lt, place, Bool.not_false, Bool.true_and,
            decide_eq_true_eq, Bool.false_eq_true, if_false, Nat.cast_lt]
          split
          case isTrue =>
              rw [if_pos (by omega)]
              exact .ranks (Nat.le_refl _)
          case isFalse =>
              split
              case isTrue => exact .ranks (by omega)
              case isFalse => exact .ranks hle

theorem Ordered.min_eq
    (h : Ordered x y) :
    y.min x = x := by
  cases h with
  | @ranks rank larger hle =>
      simp only [Binary64.min, isNaN, lt, place, Bool.not_false, Bool.true_and,
        decide_eq_true_eq, Bool.false_eq_true, if_false, Nat.cast_lt]
      split
      case isTrue => rfl
      case isFalse hnot => exact congrArg (signed false) (Fin.ext (by omega))

theorem Ordered.min_eq_left
    (h : Ordered x y) :
    x.min y = x := by
  cases h with
  | @ranks rank larger hle =>
      simp only [Binary64.min, isNaN, lt, place, Bool.not_false, Bool.true_and,
        decide_eq_true_eq, Bool.false_eq_true, if_false, Nat.cast_lt]
      rw [if_neg (Nat.not_lt.mpr hle)]

theorem Ordered.max_zero
    (h : Ordered x x) :
    x.max 0 = x := by
  have hzero : (0 : Binary64) = signed false 0 := by decide +kernel
  cases h with
  | @ranks rank =>
      rw [hzero]
      simp [Binary64.max, isNaN, lt, place]

/-- Whole numbers are in the order of the numbers that they are cut from. -/
theorem Ordered.floorWithin
    (h : Ordered x y)
    (bound : Nat) :
    x.floorWithin bound ≤ y.floorWithin bound := by
  cases h with
  | @ranks rank larger hle =>
      have hbound := larger.isLt
      simp only [Binary64.floorWithin]
      split
      case isTrue infinite => rw [if_pos (by omega)]
      case isFalse =>
          split
          case isTrue => exact Nat.min_le_left _ _
          case isFalse =>
              have hunits := unitsOfRank_mono (Nat.le_of_lt_succ hbound) hle
              exact min_le_min_left _ (Nat.div_le_div_right hunits)

end Bounds

end Binary64
end Number
end BatchRun
