import BatchRun.Number.Binary64
import Mathlib.Data.Nat.Log
import Mathlib.Tactic.Linarith
import Mathlib.Tactic.Ring

/-!
# Rounding to binary floating point

Rounding keeps the order of quotients and leaves a magnitude what it is, so that a magnitude which bounds
a quotient also bounds what the quotient is rounded to.

**Results.**
* `divNearestEven_mono`, `roundRank_mono`: rounding keeps the order.
* `roundRank_unitsOfRank`: a magnitude is rounded to itself.
* `le_roundRank`, `roundRank_le`: magnitudes that bound a quotient bound its rounding.
* `unitsOfRank_roundRank`: 53 binary digits are enough for a quotient to be exact.
* `ofNat_div_ofNat`: the quotient of two natural numbers that are exact is rounded once.
-/

namespace BatchRun
namespace Number

theorem binadeSize_eq : binadeSize = 2 ^ 52 :=
  rfl

section Quotients

variable {p q p' q' : Nat}

/-- A rounded quotient is off by one half at most, and by one half only if it is even. -/
theorem divNearestEven_spec
    (p : Nat)
    (positive : 0 < q) :
    2 * (q * divNearestEven p q) ≤ 2 * p + q ∧ 2 * p ≤ 2 * (q * divNearestEven p q) + q ∧
      (2 * (q * divNearestEven p q) = 2 * p + q ∨ 2 * p = 2 * (q * divNearestEven p q) + q →
        divNearestEven p q % 2 = 0) := by
  have hdiv := Nat.div_add_mod p q
  have hmod := Nat.mod_lt p positive
  unfold divNearestEven
  dsimp only
  split
  case isTrue up =>
      rw [Nat.mul_add, Nat.mul_one]
      omega
  case isFalse down =>
      omega

theorem divNearestEven_mono
    (positive : 0 < q)
    (positive' : 0 < q')
    (h : p * q' ≤ p' * q) :
    divNearestEven p q ≤ divNearestEven p' q' := by
  obtain ⟨hlow, -, heven⟩ := divNearestEven_spec p positive
  obtain ⟨-, hhigh', heven'⟩ := divNearestEven_spec p' positive'
  generalize divNearestEven p q = r at *
  generalize divNearestEven p' q' = r' at *
  by_contra hlt
  have hpos : 0 < q * q' := Nat.mul_pos positive positive'
  have hleft : 2 * (q * q' * r) ≤ 2 * (p * q') + q * q' := by
    nlinarith
  have hright : 2 * (p' * q) ≤ 2 * (q * q' * r') + q * q' := by
    nlinarith
  have hsucc : q * q' * (r' + 1) ≤ q * q' * r := Nat.mul_le_mul_left _ (by omega)
  rw [Nat.mul_add, Nat.mul_one] at hsucc
  -- Both quotients are one half away from what they are rounded to, which is even twice.
  have hr : q * q' * r = q * q' * (r' + 1) := by
    rw [Nat.mul_add, Nat.mul_one]
    omega
  have hstep : r = r' + 1 := Nat.eq_of_mul_eq_mul_left hpos hr
  have hfirst : r % 2 = 0 := by
    refine heven (.inl (Nat.eq_of_mul_eq_mul_left positive' ?_))
    rw [Nat.mul_add, Nat.mul_one] at hr
    nlinarith
  have hlast : r' % 2 = 0 := by
    refine heven' (.inr (Nat.eq_of_mul_eq_mul_left positive ?_))
    rw [Nat.mul_add, Nat.mul_one] at hr
    nlinarith
  omega

theorem divNearestEven_mul
    (n : Nat)
    (positive : 0 < q) :
    divNearestEven (n * q) q = n := by
  obtain ⟨hlow, hhigh, -⟩ := divNearestEven_spec (n * q) positive
  generalize divNearestEven (n * q) q = r at *
  rw [Nat.mul_comm n q] at hlow hhigh
  refine Nat.le_antisymm (Nat.le_of_not_lt fun hlt => ?_) (Nat.le_of_not_lt fun hlt => ?_)
  · have hmul := Nat.mul_le_mul_left q (Nat.succ_le_of_lt hlt)
    rw [Nat.mul_succ] at hmul
    omega
  · have hmul := Nat.mul_le_mul_left q (Nat.succ_le_of_lt hlt)
    rw [Nat.mul_succ] at hmul
    omega

theorem divNearestEven_mul_mul
    (p q : Nat)
    {c : Nat}
    (positive : 0 < c) :
    divNearestEven (p * c) (q * c) = divNearestEven p q := by
  have hquotient : p * c / (q * c) = p / q := Nat.mul_div_mul_right p q positive
  have hrest : p * c % (q * c) = p % q * c := Nat.mul_mod_mul_right c p q
  have hlt : q * c < 2 * (p % q * c) ↔ q < 2 * (p % q) := by
    rw [← Nat.mul_assoc]
    exact Nat.mul_lt_mul_right positive
  have heq : 2 * (p % q * c) = q * c ↔ 2 * (p % q) = q := by
    rw [← Nat.mul_assoc]
    exact Nat.mul_right_cancel_iff positive
  unfold divNearestEven
  simp only [hquotient, hrest, hlt, heq]

end Quotients

section Ranks

variable {numerator denominator numerator' denominator' rank : Nat}

/-- Exponent of the binade in which a quotient is rounded. -/
def binadeOf (numerator denominator : Nat) : Nat := Nat.log2 (numerator / denominator) - 52

/-- Place of a quotient in its binade. -/
def placeOf (numerator denominator : Nat) : Nat :=
  divNearestEven numerator (denominator * 2 ^ binadeOf numerator denominator)

theorem roundRank_eq
    (numerator denominator : Nat) :
    roundRank numerator denominator =
      min infiniteRank
        (binadeOf numerator denominator * binadeSize + placeOf numerator denominator) :=
  rfl

/-- A quotient is below the end of its binade. -/
theorem le_of_binadeOf
    (numerator : Nat)
    (positive : 0 < denominator) :
    numerator ≤ 2 * binadeSize * (denominator * 2 ^ binadeOf numerator denominator) := by
  have hlog : numerator / denominator < 2 ^ (Nat.log2 (numerator / denominator) + 1) :=
    Nat.lt_log2_self
  have hpow : 2 ^ (Nat.log2 (numerator / denominator) + 1)
      ≤ 2 ^ (53 + binadeOf numerator denominator) :=
    Nat.pow_le_pow_right Nat.two_pos (by unfold binadeOf; omega)
  have hmul := (Nat.div_lt_iff_lt_mul positive).mp (Nat.lt_of_lt_of_le hlog hpow)
  have hsize : 2 * binadeSize = 2 ^ 53 := by decide
  rw [Nat.pow_add] at hmul
  calc
    numerator ≤ 2 ^ 53 * 2 ^ binadeOf numerator denominator * denominator := Nat.le_of_lt hmul
    _ = 2 * binadeSize * (denominator * 2 ^ binadeOf numerator denominator) := by
      rw [hsize]
      ring

/-- A quotient is not below the start of its binade, unless that is the first one. -/
theorem le_of_binadeOf_pos
    (positive : 0 < denominator)
    (later : 0 < binadeOf numerator denominator) :
    binadeSize * (denominator * 2 ^ binadeOf numerator denominator) ≤ numerator := by
  have hne : numerator / denominator ≠ 0 := by
    intro hzero
    rw [binadeOf, hzero] at later
    simp at later
  have hlog := Nat.log2_self_le hne
  have hexponent : Nat.log2 (numerator / denominator) = 52 + binadeOf numerator denominator := by
    unfold binadeOf at later ⊢
    omega
  rw [hexponent, Nat.pow_add, Nat.le_div_iff_mul_le positive] at hlog
  calc
    binadeSize * (denominator * 2 ^ binadeOf numerator denominator)
        = 2 ^ 52 * 2 ^ binadeOf numerator denominator * denominator := by
      rw [binadeSize_eq]
      ring
    _ ≤ numerator := hlog

theorem placeOf_le
    (numerator : Nat)
    (positive : 0 < denominator) :
    placeOf numerator denominator ≤ 2 * binadeSize := by
  have hpos : 0 < denominator * 2 ^ binadeOf numerator denominator :=
    Nat.mul_pos positive (Nat.two_pow_pos _)
  calc
    placeOf numerator denominator
        ≤ divNearestEven
            (2 * binadeSize * (denominator * 2 ^ binadeOf numerator denominator))
            (denominator * 2 ^ binadeOf numerator denominator) :=
      divNearestEven_mono hpos hpos (Nat.mul_le_mul_right _ (le_of_binadeOf numerator positive))
    _ = 2 * binadeSize := divNearestEven_mul _ hpos

theorem le_placeOf
    (positive : 0 < denominator)
    (later : 0 < binadeOf numerator denominator) :
    binadeSize ≤ placeOf numerator denominator := by
  have hpos : 0 < denominator * 2 ^ binadeOf numerator denominator :=
    Nat.mul_pos positive (Nat.two_pow_pos _)
  calc
    binadeSize = divNearestEven
            (binadeSize * (denominator * 2 ^ binadeOf numerator denominator))
            (denominator * 2 ^ binadeOf numerator denominator) := (divNearestEven_mul _ hpos).symm
    _ ≤ placeOf numerator denominator :=
      divNearestEven_mono hpos hpos (Nat.mul_le_mul_right _ (le_of_binadeOf_pos positive later))

theorem div_le_div_of_mul_le
    (positive : 0 < denominator)
    (positive' : 0 < denominator')
    (h : numerator * denominator' ≤ numerator' * denominator) :
    numerator / denominator ≤ numerator' / denominator' := by
  rw [Nat.le_div_iff_mul_le positive']
  refine Nat.le_of_mul_le_mul_right ?_ positive
  calc
    numerator / denominator * denominator' * denominator
        = numerator / denominator * denominator * denominator' := by ring
    _ ≤ numerator * denominator' := Nat.mul_le_mul_right _ (Nat.div_mul_le_self _ _)
    _ ≤ numerator' * denominator := h

/-- Rounding keeps the order of quotients. -/
theorem roundRank_mono
    (positive : 0 < denominator)
    (positive' : 0 < denominator')
    (h : numerator * denominator' ≤ numerator' * denominator) :
    roundRank numerator denominator ≤ roundRank numerator' denominator' := by
  have hbinade : binadeOf numerator denominator ≤ binadeOf numerator' denominator' := by
    unfold binadeOf
    rw [Nat.log2_eq_log_two, Nat.log2_eq_log_two]
    exact Nat.sub_le_sub_right (Nat.log_mono_right (div_le_div_of_mul_le positive positive' h)) 52
  rw [roundRank_eq, roundRank_eq]
  refine min_le_min_left _ ?_
  rcases Nat.eq_or_lt_of_le hbinade with hsame | hlater
  · unfold placeOf
    rw [hsame]
    have hpow : 0 < 2 ^ binadeOf numerator' denominator' := Nat.two_pow_pos _
    refine Nat.add_le_add_left (divNearestEven_mono (Nat.mul_pos positive hpow)
      (Nat.mul_pos positive' hpow) ?_) _
    rw [← Nat.mul_assoc, ← Nat.mul_assoc]
    exact Nat.mul_le_mul_right _ h
  · -- The end of a binade is the start of the next one.
    have hend := placeOf_le numerator positive
    have hstart := le_placeOf positive' (Nat.zero_lt_of_lt hlater)
    have hsize := Nat.mul_le_mul_right binadeSize (Nat.succ_le_of_lt hlater)
    rw [Nat.succ_mul] at hsize
    omega

/-- A common factor does not matter. -/
theorem roundRank_mul_mul
    (numerator denominator : Nat)
    {c : Nat}
    (positive : 0 < c) :
    roundRank (numerator * c) (denominator * c) = roundRank numerator denominator := by
  have hbinade : binadeOf (numerator * c) (denominator * c) = binadeOf numerator denominator := by
    unfold binadeOf
    rw [Nat.mul_div_mul_right _ _ positive]
  rw [roundRank_eq, roundRank_eq, placeOf, hbinade, Nat.mul_right_comm,
    divNearestEven_mul_mul _ _ positive]
  rfl

/-- Magnitudes before the end of a binade. -/
theorem unitsOfRank_add
    {exponent place : Nat}
    (normal : binadeSize ≤ place)
    (short : place < 2 * binadeSize) :
    unitsOfRank (exponent * binadeSize + place) = place * 2 ^ exponent := by
  have hpos : 0 < binadeSize := by decide
  have hrank : exponent * binadeSize + place
      = place - binadeSize + (exponent + 1) * binadeSize := by
    rw [Nat.succ_mul]
    omega
  have hquotient : (exponent * binadeSize + place) / binadeSize = exponent + 1 := by
    rw [hrank, Nat.add_mul_div_right _ _ hpos, Nat.div_eq_of_lt (by omega), Nat.zero_add]
  have hrest : (exponent * binadeSize + place) % binadeSize = place - binadeSize := by
    rw [hrank, Nat.add_mul_mod_self_right, Nat.mod_eq_of_lt (by omega)]
  have hlarge : ¬ exponent * binadeSize + place < binadeSize := by
    have hle := Nat.le_add_left place (exponent * binadeSize)
    omega
  rw [unitsOfRank, if_neg hlarge, hquotient, hrest, Nat.add_sub_cancel, Nat.pow_eq,
    Nat.add_sub_cancel' normal]

/-- Every rank is a place in a binade. -/
theorem rank_cases
    (rank : Nat) :
    rank < binadeSize ∨
      ∃ exponent place, rank = exponent * binadeSize + place ∧ binadeSize ≤ place ∧
        place < 2 * binadeSize := by
  by_cases h : rank < binadeSize
  · exact .inl h
  · have hpos : 0 < binadeSize := by decide
    have hdiv := Nat.div_add_mod (rank - binadeSize) binadeSize
    have hmod := Nat.mod_lt (rank - binadeSize) hpos
    refine .inr ⟨(rank - binadeSize) / binadeSize,
      binadeSize + (rank - binadeSize) % binadeSize, ?_, ?_, ?_⟩
    · rw [Nat.mul_comm]
      omega
    · exact Nat.le_add_right _ _
    · omega

theorem divNearestEven_one
    (n : Nat) :
    divNearestEven n 1 = n := by
  have h := divNearestEven_mul n Nat.one_pos
  rwa [Nat.mul_one] at h

/-- A magnitude is rounded to itself. -/
theorem roundRank_unitsOfRank
    (finite : rank ≤ infiniteRank) :
    roundRank (unitsOfRank rank) 1 = rank := by
  rcases rank_cases rank with hsmall | ⟨exponent, place, rfl, normal, short⟩
  · have hunits : unitsOfRank rank = rank := if_pos hsmall
    have hbinade : binadeOf rank 1 = 0 := by
      unfold binadeOf
      rw [Nat.div_one]
      rcases Nat.eq_zero_or_pos rank with rfl | hpos
      · rfl
      · have hlog := (Nat.log2_lt (Nat.ne_of_gt hpos)).mpr (binadeSize_eq ▸ hsmall)
        omega
    rw [hunits, roundRank_eq, placeOf, hbinade, Nat.zero_mul, Nat.zero_add, Nat.one_mul,
      Nat.pow_zero, divNearestEven_one, Nat.min_eq_right finite]
  · have hsize : 2 ^ 52 * 2 = 2 * binadeSize := by decide
    have hne : place * 2 ^ exponent ≠ 0 :=
      Nat.ne_of_gt (Nat.mul_pos (Nat.lt_of_lt_of_le (by decide) normal) (Nat.two_pow_pos _))
    have hlog : Nat.log2 (place * 2 ^ exponent) = 52 + exponent := by
      refine (Nat.log2_eq_iff hne).mpr ⟨?_, ?_⟩
      · rw [Nat.pow_add, ← binadeSize_eq]
        exact Nat.mul_le_mul_right _ normal
      · rw [Nat.add_right_comm, Nat.pow_add, Nat.pow_succ, hsize]
        exact Nat.mul_lt_mul_of_pos_right short (Nat.two_pow_pos _)
    have hbinade : binadeOf (place * 2 ^ exponent) 1 = exponent := by
      unfold binadeOf
      rw [Nat.div_one, hlog, Nat.add_sub_cancel_left]
    rw [unitsOfRank_add normal short, roundRank_eq, placeOf, hbinade, Nat.one_mul,
      divNearestEven_mul _ (Nat.two_pow_pos _), Nat.min_eq_right finite]

theorem le_roundRank
    (finite : rank ≤ infiniteRank)
    (positive : 0 < denominator)
    (h : unitsOfRank rank * denominator ≤ numerator) :
    rank ≤ roundRank numerator denominator := by
  have hmono : roundRank (unitsOfRank rank) 1 ≤ roundRank numerator denominator :=
    roundRank_mono Nat.one_pos positive (by rwa [Nat.mul_one])
  rwa [roundRank_unitsOfRank finite] at hmono

theorem roundRank_le
    (finite : rank ≤ infiniteRank)
    (positive : 0 < denominator)
    (h : numerator ≤ unitsOfRank rank * denominator) :
    roundRank numerator denominator ≤ rank := by
  have hmono : roundRank numerator denominator ≤ roundRank (unitsOfRank rank) 1 :=
    roundRank_mono positive Nat.one_pos (by rwa [Nat.mul_one])
  rwa [roundRank_unitsOfRank finite] at hmono

theorem roundRank_le_infiniteRank
    (numerator denominator : Nat) :
    roundRank numerator denominator ≤ infiniteRank :=
  Nat.min_le_left _ _

/-- The order of ranks is that of magnitudes. -/
theorem unitsOfRank_mono
    {larger : Nat}
    (finite : larger ≤ infiniteRank)
    (h : rank ≤ larger) :
    unitsOfRank rank ≤ unitsOfRank larger := by
  by_contra hgreater
  have hle : larger ≤ roundRank (unitsOfRank rank) 1 :=
    le_roundRank finite Nat.one_pos (by rw [Nat.mul_one]; omega)
  rw [roundRank_unitsOfRank (Nat.le_trans h finite)] at hle
  have heq : rank = larger := Nat.le_antisymm h hle
  rw [heq] at hgreater
  exact hgreater (Nat.le_refl _)

/-- Last exponent of the finite magnitudes. -/
def lastExponent : Nat := 2045

/-- A number of 53 binary digits and a power of two behind it are a magnitude. -/
theorem exists_rank
    {digits exponent : Nat}
    (short : digits < 2 * binadeSize)
    (finite : exponent ≤ lastExponent) :
    ∃ rank, rank < infiniteRank ∧ unitsOfRank rank = digits * 2 ^ exponent := by
  induction exponent generalizing digits with
  | zero =>
      refine ⟨digits, Nat.lt_trans short (by decide), ?_⟩
      by_cases h : digits < binadeSize
      · rw [unitsOfRank, if_pos h, Nat.pow_zero, Nat.mul_one]
      · have hunits : unitsOfRank (0 * binadeSize + digits) = digits * 2 ^ 0 :=
          unitsOfRank_add (Nat.le_of_not_lt h) short
        rwa [Nat.zero_mul, Nat.zero_add] at hunits
  | succ exponent ih =>
      by_cases h : digits < binadeSize
      · obtain ⟨rank, hrank, hunits⟩ : ∃ rank, rank < infiniteRank ∧
            unitsOfRank rank = 2 * digits * 2 ^ exponent := ih (by omega) (by omega)
        refine ⟨rank, hrank, hunits.trans ?_⟩
        rw [Nat.pow_succ]
        ring
      · refine ⟨(exponent + 1) * binadeSize + digits, ?_,
          unitsOfRank_add (Nat.le_of_not_lt h) short⟩
        have hlast : exponent + 1 ≤ 2045 := finite
        have hmul := Nat.mul_le_mul_right binadeSize hlast
        have hinfinite : infiniteRank = 2045 * binadeSize + 2 * binadeSize := by decide
        omega

/-- 53 binary digits are enough for a quotient to be exact. -/
theorem unitsOfRank_roundRank
    {digits exponent : Nat}
    (short : digits < 2 * binadeSize)
    (finite : exponent ≤ lastExponent) :
    roundRank (digits * 2 ^ exponent) 1 < infiniteRank ∧
      unitsOfRank (roundRank (digits * 2 ^ exponent) 1) = digits * 2 ^ exponent := by
  obtain ⟨rank, hrank, hunits⟩ := exists_rank short finite
  rw [← hunits, roundRank_unitsOfRank (Nat.le_of_lt hrank)]
  exact ⟨hrank, rfl⟩

end Ranks

namespace Binary64

/-- Exponent of the magnitude one. -/
def exponentOfOne : Nat := 1074

theorem unitsPerOne_eq : unitsPerOne = 2 ^ exponentOfOne := by
  have hexponent : exponentOfOne = 1074 := rfl
  unfold unitsPerOne
  rw [← hexponent, Nat.pow_eq]

theorem unitsPerOne_pos : 0 < unitsPerOne := by
  rw [unitsPerOne_eq]
  exact Nat.two_pow_pos _

theorem round_eq
    (numerator denominator : Nat) :
    round false numerator denominator =
      .signed false ⟨roundRank numerator denominator,
        Nat.lt_succ_of_le (roundRank_le_infiniteRank numerator denominator)⟩ := by
  unfold round ofRank
  congr 2
  exact Nat.min_eq_right (roundRank_le_infiniteRank numerator denominator)

/-- Natural numbers of 53 binary digits are exact. -/
theorem exists_ofNat
    {n : Nat}
    (short : n < 2 * binadeSize) :
    ∃ rank : Fin (infiniteRank + 1), ofNat n = .signed false rank ∧ rank.val < infiniteRank ∧
      unitsOfRank rank.val = n * unitsPerOne := by
  have hfinite : exponentOfOne ≤ lastExponent := by decide
  have hexact := unitsOfRank_roundRank short hfinite
  rw [← unitsPerOne_eq] at hexact
  exact ⟨_, round_eq _ _, hexact⟩

/-- The quotient of two natural numbers that are exact is rounded once. -/
theorem ofNat_div_ofNat
    {m n : Nat}
    (shortLeft : m < 2 * binadeSize)
    (shortRight : n < 2 * binadeSize)
    (positive : 0 < n) :
    ofNat m / ofNat n = ofRatio m n := by
  obtain ⟨left, hleft, hleftFinite, hleftUnits⟩ := exists_ofNat shortLeft
  obtain ⟨right, hright, hrightFinite, hrightUnits⟩ := exists_ofNat shortRight
  have hzero : right.val ≠ 0 := by
    intro hzero
    have hunits : unitsOfRank right.val = 0 := by
      rw [hzero]
      rfl
    have hpos := Nat.mul_pos positive unitsPerOne_pos
    omega
  have hscale : round false (m * unitsPerOne * unitsPerOne) (n * unitsPerOne) = ofRatio m n := by
    unfold round ofRatio round
    rw [roundRank_mul_mul _ _ unitsPerOne_pos]
  rw [hleft, hright]
  show div (.signed false left) (.signed false right) = ofRatio m n
  simp only [div, isInfinite, beq_iff_eq, Nat.ne_of_lt hleftFinite, Nat.ne_of_lt hrightFinite,
    hzero, if_false, hleftUnits, hrightUnits, bne_self_eq_false]
  exact hscale

/-- A natural number times a positive number is rounded once. -/
theorem ofNat_mul
    {n : Nat} {rank : Fin (infiniteRank + 1)}
    (short : n < 2 * binadeSize)
    (finite : rank.val < infiniteRank) :
    ofNat n * .signed false rank = round false (n * unitsOfRank rank.val) 1 := by
  obtain ⟨left, hleft, hleftFinite, hleftUnits⟩ := exists_ofNat short
  have hscale : round false (n * unitsPerOne * unitsOfRank rank.val) unitsPerOne
      = round false (n * unitsOfRank rank.val) 1 := by
    have hcommon := roundRank_mul_mul (n * unitsOfRank rank.val) 1 unitsPerOne_pos
    rw [Nat.one_mul, Nat.mul_right_comm] at hcommon
    unfold round
    rw [hcommon]
  rw [hleft]
  show mul (.signed false left) (.signed false rank) = _
  simp only [mul, isInfinite, beq_iff_eq, Nat.ne_of_lt hleftFinite, Nat.ne_of_lt finite, if_false,
    hleftUnits, bne_self_eq_false]
  exact hscale

/-- The natural number that a number does not exceed, but the one before it does. -/
theorem ceilWithin_of_bounds
    {count bound : Nat} {rank : Fin (infiniteRank + 1)}
    (finite : rank.val < infiniteRank)
    (above : (count - 1) * unitsPerOne < unitsOfRank rank.val)
    (upTo : unitsOfRank rank.val ≤ count * unitsPerOne)
    (fits : count ≤ bound) :
    ceilWithin bound (.signed false rank) = count := by
  have hpos := unitsPerOne_pos
  have hquotient : (unitsOfRank rank.val + (unitsPerOne - 1)) / unitsPerOne = count := by
    refine Nat.div_eq_of_lt_le ?_ ?_
    · cases count with
      | zero => omega
      | succ count =>
          rw [Nat.add_sub_cancel] at above
          rw [Nat.succ_mul]
          omega
    · rw [Nat.succ_mul]
      omega
  simp only [ceilWithin, Nat.ne_of_lt finite, if_false, hquotient]
  exact Nat.min_eq_right fits

end Binary64

end Number
end BatchRun
