import BatchRun.Proofs.Number.Exact

/-!
# What is rounded to a rank

Between two neighbouring magnitudes the middle decides: below it a quotient is rounded down, above it
up, and in the middle to the even rank.

**Types.**
`middle` is twice the middle between a magnitude and the next one, and `step` is their distance.
Ranks are `Within` a number of steps if they are no further apart.

**Results.**
* `lt_roundRank_iff`: a quotient is rounded beyond a rank exactly if it is beyond the middle behind
  it.
* `le_succ_roundRank`: a quotient that grows by no more than one part in `2^53` is rounded no more
  than one rank further.
* `roundRank_errors`: a rounded quotient that is large enough is off by one part in `2^53` at most.
* `within_div`, `Held.within_div`: a quotient of two numbers that are rounded first is no more than
  two ranks off, and one rank if the second number is held.
-/

namespace BatchRun
namespace Number

section Steps

variable {rank exponent place : Nat}

/-- Exponent of the distance between a magnitude and the next one. -/
def exponentOf (rank : Nat) : Nat := rank / binadeSize - 1

/-- Distance between a magnitude and the next one. -/
def step (rank : Nat) : Nat := 2 ^ exponentOf rank

/-- Number of steps in a magnitude. -/
def stepsOf (rank : Nat) : Nat := rank - exponentOf rank * binadeSize

/-- Magnitudes of a binade and the one behind its end; the first binade begins at zero. -/
theorem unitsOfRank_place
    (normal : exponent = 0 ∨ binadeSize ≤ place)
    (place_le : place ≤ 2 * binadeSize) :
    unitsOfRank (exponent * binadeSize + place) = place * 2 ^ exponent := by
  rcases Nat.lt_or_ge place binadeSize with hsmall | hnormal
  · have hzero : exponent = 0 := normal.resolve_right (Nat.not_le.mpr hsmall)
    rw [hzero, Nat.zero_mul, Nat.zero_add, Nat.pow_zero, Nat.mul_one]
    exact if_pos hsmall
  · rcases Nat.lt_or_eq_of_le place_le with hshort | rfl
    · exact unitsOfRank_add hnormal hshort
    · have hnext : exponent * binadeSize + 2 * binadeSize =
          (exponent + 1) * binadeSize + binadeSize := by ring
      rw [hnext, unitsOfRank_add (Nat.le_refl _) (by decide), Nat.pow_succ]
      ring

theorem rank_eq_steps
    (rank : Nat) :
    rank = exponentOf rank * binadeSize + stepsOf rank ∧ stepsOf rank < 2 * binadeSize ∧
      (exponentOf rank = 0 ∨ binadeSize ≤ stepsOf rank) := by
  have hdiv := Nat.div_add_mod rank binadeSize
  have hmod := Nat.mod_lt rank (show 0 < binadeSize by decide)
  unfold stepsOf exponentOf
  rw [Nat.mul_comm] at hdiv
  rcases Nat.eq_zero_or_pos (rank / binadeSize) with hzero | hpos
  · rw [hzero] at hdiv ⊢
    omega
  · obtain ⟨quotient, hquotient⟩ := Nat.exists_eq_succ_of_ne_zero (Nat.ne_of_gt hpos)
    rw [hquotient, Nat.succ_mul] at hdiv
    rw [hquotient, Nat.succ_eq_add_one, Nat.add_sub_cancel]
    omega

theorem unitsOfRank_eq
    (rank : Nat) :
    unitsOfRank rank = stepsOf rank * step rank := by
  obtain ⟨hrank, hlt, hnormal⟩ := rank_eq_steps rank
  have hunits := unitsOfRank_place hnormal (Nat.le_of_lt hlt)
  rwa [← hrank] at hunits

theorem unitsOfRank_succ
    (rank : Nat) :
    unitsOfRank (rank + 1) = unitsOfRank rank + step rank := by
  obtain ⟨hrank, hlt, hnormal⟩ := rank_eq_steps rank
  have hunits := unitsOfRank_place (hnormal.imp_right Nat.le_succ_of_le) (Nat.succ_le_of_lt hlt)
  rw [Nat.add_succ, ← hrank, Nat.succ_mul] at hunits
  rw [hunits, unitsOfRank_eq]
  rfl

theorem step_pos
    (rank : Nat) :
    0 < step rank :=
  Nat.two_pow_pos _

theorem units_pos
    (rank : Nat) :
    0 < unitsOfRank (rank + 1) := by
  rw [unitsOfRank_succ]
  exact Nat.lt_of_lt_of_le (step_pos rank) (Nat.le_add_left _ _)

theorem step_mono
    {larger : Nat}
    (h : rank ≤ larger) :
    step rank ≤ step larger :=
  Nat.pow_le_pow_right Nat.two_pos (Nat.sub_le_sub_right (Nat.div_le_div_right h) 1)

/-- A magnitude has no more than `2^53` of the steps before it. -/
theorem unitsOfRank_succ_le
    (rank : Nat) :
    unitsOfRank (rank + 1) ≤ 2 ^ 53 * step rank := by
  have hsize : 2 * binadeSize = 2 ^ 53 := by decide
  obtain ⟨-, hlt, -⟩ := rank_eq_steps rank
  rw [unitsOfRank_succ, unitsOfRank_eq, ← Nat.succ_mul, ← hsize]
  exact Nat.mul_le_mul_right _ hlt

/-- From the second binade on a magnitude has at least `2^52` of the steps behind it. -/
theorem le_unitsOfRank
    (normal : binadeSize ≤ rank) :
    2 ^ 52 * step rank ≤ unitsOfRank rank := by
  have hsteps : binadeSize ≤ stepsOf rank := by
    obtain ⟨hrank, -, hzero | hsteps⟩ := rank_eq_steps rank
    · rw [hzero] at hrank
      omega
    · exact hsteps
  rw [unitsOfRank_eq]
  exact Nat.mul_le_mul_right _ hsteps

end Steps

/-- Twice the middle between a magnitude and the next one. -/
def middle (rank : Nat) : Nat := unitsOfRank rank + unitsOfRank (rank + 1)

section Middles

variable {numerator denominator rank : Nat}

theorem middle_eq
    (rank : Nat) :
    middle rank = 2 * unitsOfRank rank + step rank := by
  rw [middle, unitsOfRank_succ]
  omega

/-- A quotient from a magnitude on and below the next one is in the binade of the magnitude. -/
theorem binadeOf_between
    (positive : 0 < denominator)
    (low : unitsOfRank rank * denominator ≤ numerator)
    (high : numerator < unitsOfRank (rank + 1) * denominator) :
    binadeOf numerator denominator = exponentOf rank := by
  obtain ⟨-, hlt, hnormal⟩ := rank_eq_steps rank
  have hquotient_ge : stepsOf rank * step rank ≤ numerator / denominator := by
    rw [← unitsOfRank_eq]
    exact (Nat.le_div_iff_mul_le positive).mpr low
  have hquotient_lt : numerator / denominator < (stepsOf rank + 1) * step rank := by
    rw [Nat.succ_mul, ← unitsOfRank_eq, ← unitsOfRank_succ]
    exact (Nat.div_lt_iff_lt_mul positive).mpr high
  have hstep : step rank = 2 ^ exponentOf rank := rfl
  have hend : numerator / denominator < 2 ^ (53 + exponentOf rank) := by
    have hsize : 2 * binadeSize = 2 ^ 53 := by decide
    rw [Nat.pow_add, ← hsize, ← hstep]
    exact Nat.lt_of_lt_of_le hquotient_lt (Nat.mul_le_mul_right _ hlt)
  unfold binadeOf
  rcases Nat.lt_or_ge (stepsOf rank) binadeSize with hsmall | hlarge
  · have hzero : exponentOf rank = 0 := hnormal.resolve_right (Nat.not_le.mpr hsmall)
    rw [hstep, hzero, Nat.pow_zero, Nat.mul_one] at hquotient_lt
    rw [hzero]
    rcases Nat.eq_zero_or_pos (numerator / denominator) with hnone | hpos
    · rw [hnone]
      rfl
    · have hlog := (Nat.log2_lt (Nat.ne_of_gt hpos)).mpr
        (binadeSize_eq ▸ Nat.lt_of_lt_of_le hquotient_lt hsmall)
      omega
  · have hstart : 2 ^ (52 + exponentOf rank) ≤ numerator / denominator := by
      rw [Nat.pow_add, ← binadeSize_eq, ← hstep]
      exact Nat.le_trans (Nat.mul_le_mul_right _ hlarge) hquotient_ge
    have hne : numerator / denominator ≠ 0 :=
      Nat.ne_of_gt (Nat.lt_of_lt_of_le (Nat.two_pow_pos _) hstart)
    have hlog : Nat.log2 (numerator / denominator) = 52 + exponentOf rank := by
      refine (Nat.log2_eq_iff hne).mpr ⟨hstart, ?_⟩
      rwa [Nat.add_right_comm]
    rw [hlog, Nat.add_sub_cancel_left]

/-- Between two magnitudes the middle decides. -/
theorem roundRank_of_between
    (positive : 0 < denominator)
    (finite : rank < infiniteRank)
    (low : unitsOfRank rank * denominator ≤ numerator)
    (high : numerator < unitsOfRank (rank + 1) * denominator) :
    roundRank numerator denominator =
      if middle rank * denominator < 2 * numerator ∨
          (middle rank * denominator = 2 * numerator ∧ rank % 2 = 1) then rank + 1
      else rank := by
  obtain ⟨hrank, -, -⟩ := rank_eq_steps rank
  have hbinade := binadeOf_between positive low high
  have hpos : 0 < denominator * step rank := Nat.mul_pos positive (step_pos rank)
  obtain ⟨rest, hrest⟩ : ∃ rest, numerator = stepsOf rank * (denominator * step rank) + rest := by
    refine Nat.exists_eq_add_of_le (Nat.le_trans (Nat.le_of_eq ?_) low)
    rw [unitsOfRank_eq]
    ring
  have hunits : unitsOfRank rank * denominator = stepsOf rank * (denominator * step rank) := by
    rw [unitsOfRank_eq]
    ring
  have hlt : rest < denominator * step rank := by
    rw [unitsOfRank_succ, Nat.add_mul, hunits, Nat.mul_comm (step rank)] at high
    omega
  have hmiddle : middle rank * denominator =
      2 * (stepsOf rank * (denominator * step rank)) + denominator * step rank := by
    rw [middle_eq, Nat.add_mul, Nat.mul_assoc, hunits, Nat.mul_comm (step rank)]
  have hquotient : numerator / (denominator * step rank) = stepsOf rank := by
    rw [hrest, Nat.add_comm, Nat.add_mul_div_right _ _ hpos, Nat.div_eq_of_lt hlt, Nat.zero_add]
  have hremainder : numerator % (denominator * step rank) = rest := by
    rw [hrest, Nat.add_comm, Nat.add_mul_mod_self_right, Nat.mod_eq_of_lt hlt]
  have hparity : stepsOf rank % 2 = rank % 2 := by
    have heven : exponentOf rank * binadeSize % 2 = 0 := by
      rw [Nat.mul_mod, show binadeSize % 2 = 0 by decide, Nat.mul_zero, Nat.zero_mod]
    omega
  have hplace : placeOf numerator denominator =
      divNearestEven numerator (denominator * step rank) := by
    rw [placeOf, hbinade]
    rfl
  rw [roundRank_eq, hbinade, hplace, hmiddle]
  unfold divNearestEven
  simp only [hquotient, hremainder, hparity]
  generalize stepsOf rank * (denominator * step rank) = whole at *
  generalize denominator * step rank = width at *
  split
  case isTrue hup =>
      rw [if_pos (by omega), ← Nat.add_assoc, ← hrank, Nat.min_eq_right finite]
  case isFalse hdown =>
      rw [if_neg (by omega), ← hrank, Nat.min_eq_right (Nat.le_of_lt finite)]

/-- A quotient is rounded beyond a rank exactly if it is beyond the middle behind it, or in the
middle and the rank is odd. -/
theorem lt_roundRank_iff
    (positive : 0 < denominator)
    (finite : rank < infiniteRank) :
    rank < roundRank numerator denominator ↔
      middle rank * denominator < 2 * numerator ∨
        (middle rank * denominator = 2 * numerator ∧ rank % 2 = 1) := by
  have hmiddle : middle rank * denominator =
      unitsOfRank rank * denominator + unitsOfRank (rank + 1) * denominator :=
    Nat.add_mul _ _ _
  have hnext : unitsOfRank (rank + 1) * denominator =
      unitsOfRank rank * denominator + step rank * denominator := by
    rw [unitsOfRank_succ, Nat.add_mul]
  have hpos : 0 < step rank * denominator := Nat.mul_pos (step_pos rank) positive
  by_cases low : unitsOfRank rank * denominator ≤ numerator
  · by_cases high : numerator < unitsOfRank (rank + 1) * denominator
    · rw [roundRank_of_between positive finite low high]
      split
      case isTrue hup => exact iff_of_true (Nat.lt_succ_self _) hup
      case isFalse hdown => exact iff_of_false (Nat.lt_irrefl _) hdown
    · exact iff_of_true (le_roundRank finite positive (Nat.not_lt.mp high)) (by omega)
  · have hle : roundRank numerator denominator ≤ rank :=
      roundRank_le (Nat.le_of_lt finite) positive (Nat.le_of_not_le low)
    exact iff_of_false (Nat.not_lt.mpr hle) (by omega)

end Middles

/-- Ranks that are no more than some steps apart. -/
def Within (steps first last : Nat) : Prop := first ≤ last + steps ∧ last ≤ first + steps

section Errors

variable {numerator denominator numerator' denominator' : Nat}

theorem Within.trans
    {steps steps' first between last : Nat}
    (h : Within steps first between)
    (h' : Within steps' between last) :
    Within (steps + steps') first last := by
  obtain ⟨hfirst, hback⟩ := h
  obtain ⟨hlast, hback'⟩ := h'
  exact ⟨by omega, by omega⟩

/-- A quotient that grows by no more than one part in `2^53` is rounded no more than one rank
further: the middles behind two neighbouring ranks are further apart. -/
theorem le_succ_roundRank
    (positive : 0 < denominator)
    (positive' : 0 < denominator')
    (near : numerator' * denominator * 2 ^ 53 ≤ numerator * denominator' * (2 ^ 53 + 1)) :
    roundRank numerator' denominator' ≤ roundRank numerator denominator + 1 := by
  obtain ⟨rank, hrank⟩ : ∃ rank, rank = roundRank numerator denominator := ⟨_, rfl⟩
  rw [← hrank]
  rcases Nat.lt_or_ge (rank + 1) infiniteRank with hfinite | hinfinite
  · have hbelow : 2 * numerator ≤ middle rank * denominator := by
      have hnot := (lt_roundRank_iff positive (Nat.lt_of_succ_lt hfinite)).not.mp
        (Nat.not_lt.mpr (Nat.le_of_eq hrank.symm))
      exact Nat.le_of_not_lt fun hlt => hnot (.inl hlt)
    by_contra hbeyond
    have habove : middle (rank + 1) * denominator' ≤ 2 * numerator' := by
      rcases (lt_roundRank_iff positive' hfinite).mp (Nat.lt_of_not_le hbeyond) with hlt | heq
      · exact Nat.le_of_lt hlt
      · exact Nat.le_of_eq heq.1
    have hmiddles : middle (rank + 1) * 2 ^ 53 ≤ middle rank * (2 ^ 53 + 1) := by
      refine Nat.le_of_mul_le_mul_right ?_ (Nat.mul_pos positive positive')
      calc
        middle (rank + 1) * 2 ^ 53 * (denominator * denominator')
            = middle (rank + 1) * denominator' * (denominator * 2 ^ 53) := by ring
        _ ≤ 2 * numerator' * (denominator * 2 ^ 53) := Nat.mul_le_mul_right _ habove
        _ = 2 * (numerator' * denominator * 2 ^ 53) := by ring
        _ ≤ 2 * (numerator * denominator' * (2 ^ 53 + 1)) := Nat.mul_le_mul_left _ near
        _ = 2 * numerator * (denominator' * (2 ^ 53 + 1)) := by ring
        _ ≤ middle rank * denominator * (denominator' * (2 ^ 53 + 1)) :=
          Nat.mul_le_mul_right _ hbelow
        _ = middle rank * (2 ^ 53 + 1) * (denominator * denominator') := by ring
    have hfirst := middle_eq rank
    have hlast := middle_eq (rank + 1)
    have hnext := unitsOfRank_succ rank
    have hmono : step rank ≤ step (rank + 1) := step_mono (Nat.le_succ rank)
    have hsteps := unitsOfRank_succ_le rank
    have hpos := step_pos rank
    omega
  · exact Nat.le_trans (roundRank_le_infiniteRank _ _) hinfinite

/-- Quotients that differ by no more than one part in `2^53` are rounded to neighbours. -/
theorem within_roundRank
    (positive : 0 < denominator)
    (positive' : 0 < denominator')
    (near : numerator' * denominator * 2 ^ 53 ≤ numerator * denominator' * (2 ^ 53 + 1))
    (near' : numerator * denominator' * 2 ^ 53 ≤ numerator' * denominator * (2 ^ 53 + 1)) :
    Within 1 (roundRank numerator' denominator') (roundRank numerator denominator) :=
  ⟨le_succ_roundRank positive positive' near, le_succ_roundRank positive' positive near'⟩

/-- A rounded quotient is off by one part in `2^53` at most, from the second binade on. -/
theorem roundRank_errors
    {rank : Nat}
    (positive : 0 < denominator)
    (h : roundRank numerator denominator = rank + 1)
    (normal : binadeSize ≤ rank)
    (finite : rank + 1 < infiniteRank) :
    numerator * 2 ^ 53 ≤ unitsOfRank (rank + 1) * denominator * (2 ^ 53 + 1) ∧
      unitsOfRank (rank + 1) * denominator * 2 ^ 53 ≤ numerator * (2 ^ 53 + 1) := by
  have habove : 2 * numerator ≤ middle (rank + 1) * denominator := by
    have hnot := (lt_roundRank_iff positive finite).not.mp (Nat.not_lt.mpr (Nat.le_of_eq h))
    exact Nat.le_of_not_lt fun hlt => hnot (.inl hlt)
  have hbelow : middle rank * denominator ≤ 2 * numerator := by
    rcases (lt_roundRank_iff positive (Nat.lt_of_succ_lt finite)).mp
      (Nat.lt_of_succ_le (Nat.le_of_eq h.symm)) with hlt | heq
    · exact Nat.le_of_lt hlt
    · exact Nat.le_of_eq heq.1
  have hlast : 2 ^ 52 * step (rank + 1) ≤ unitsOfRank (rank + 1) :=
    le_unitsOfRank (Nat.le_succ_of_le normal)
  have hsteps := Nat.mul_le_mul_right denominator hlast
  have hsteps' := Nat.mul_le_mul_right denominator (le_unitsOfRank normal)
  rw [Nat.mul_assoc] at hsteps hsteps'
  rw [middle_eq, Nat.add_mul, Nat.mul_assoc] at habove
  rw [middle, Nat.add_mul] at hbelow
  have hnext : unitsOfRank (rank + 1) * denominator =
      unitsOfRank rank * denominator + step rank * denominator := by
    rw [unitsOfRank_succ, Nat.add_mul]
  constructor
  · omega
  · omega

end Errors

namespace Binary64

/-- The number to which a natural number is rounded is off by one part in `2^53` at most. -/
structure Rounding (n : Nat) (rank : Fin (infiniteRank + 1)) : Prop where
  eq : ofNat n = signed false rank
  finite : rank.val < infiniteRank
  below : n * unitsPerOne * 2 ^ 53 ≤ unitsOfRank rank.val * (2 ^ 53 + 1)
  above : unitsOfRank rank.val * 2 ^ 53 ≤ n * unitsPerOne * (2 ^ 53 + 1)

section Quotients

variable {a b n : Nat}

theorem Held.rounding
    (h : Held n) :
    ∃ rank, Rounding n rank ∧ unitsOfRank rank.val = n * unitsPerOne := by
  obtain ⟨rank, hrank, hfinite, hunits⟩ := h
  refine ⟨rank, ⟨hrank, hfinite, ?_, ?_⟩, hunits⟩
  · rw [hunits]
    exact Nat.mul_le_mul_left _ (Nat.le_succ _)
  · rw [hunits]
    exact Nat.mul_le_mul_left _ (Nat.le_succ _)

/-- Every natural number in the range has such a number. -/
theorem exists_rounding
    (h : n ≤ 2 ^ lastPower) :
    ∃ rank, Rounding n rank := by
  rcases Nat.eq_zero_or_pos n with rfl | hpos
  · obtain ⟨rank, hrounding, -⟩ := (held_of_le (Nat.zero_le _)).rounding
    exact ⟨rank, hrounding⟩
  · obtain ⟨last, -, hlast, hunits⟩ := held_two_pow (Nat.le_refl lastPower)
    have hle : roundRank (n * unitsPerOne) 1 ≤ last.val := by
      refine roundRank_le (Nat.le_of_lt hlast) Nat.one_pos ?_
      rw [hunits, Nat.mul_one]
      exact Nat.mul_le_mul_right _ h
    have hlarge : binadeSize + 1 ≤ roundRank (n * unitsPerOne) 1 := by
      have hfirst : unitsOfRank (binadeSize + 1) = binadeSize + 1 := by
        rw [unitsOfRank_succ, unitsOfRank_eq]
        decide
      refine le_roundRank (by decide) Nat.one_pos ?_
      rw [hfirst, Nat.mul_one]
      have hone : binadeSize + 1 ≤ unitsPerOne := by
        rw [unitsPerOne_eq]
        exact Nat.le_trans (by decide : binadeSize + 1 ≤ 2 ^ 53)
          (Nat.pow_le_pow_right Nat.two_pos (by decide))
      exact Nat.le_trans hone (Nat.le_mul_of_pos_left _ hpos)
    obtain ⟨rank, hrank⟩ := Nat.exists_eq_add_of_le' (Nat.le_trans (Nat.le_add_left 1 _) hlarge)
    have hfinite : rank + 1 < infiniteRank := hrank ▸ Nat.lt_of_le_of_lt hle hlast
    obtain ⟨hbelow, habove⟩ := roundRank_errors Nat.one_pos hrank (by omega) hfinite
    rw [Nat.mul_one] at hbelow habove
    rw [← hrank] at hbelow habove hfinite
    exact ⟨_, round_eq _ _, hfinite, hbelow, habove⟩

theorem Rounding.units_pos
    {rank : Fin (infiniteRank + 1)}
    (h : Rounding n rank)
    (positive : 0 < n) :
    0 < unitsOfRank rank.val := by
  refine Nat.pos_of_ne_zero fun hzero => ?_
  have hbelow := h.below
  rw [hzero, Nat.zero_mul] at hbelow
  have hpos := Nat.mul_pos (Nat.mul_pos positive unitsPerOne_pos) (Nat.two_pow_pos 53)
  omega

/-- A quotient of rounded numbers is rounded once more. -/
theorem Rounding.div
    {rank rank' : Fin (infiniteRank + 1)}
    (h : Rounding a rank)
    (h' : Rounding b rank')
    (positive : 0 < b) :
    ofNat a / ofNat b =
      round false (unitsOfRank rank.val * unitsPerOne) (unitsOfRank rank'.val) := by
  have hzero : rank'.val ≠ 0 := rank_ne_zero (h'.units_pos positive)
  rw [h.eq, h'.eq]
  show Binary64.div _ _ = _
  simp only [Binary64.div, isInfinite, beq_iff_eq, Nat.ne_of_lt h.finite, Nat.ne_of_lt h'.finite,
    hzero, if_false, bne_self_eq_false]

/-- To divide the number to which the first one is rounded moves the quotient to a neighbour. -/
theorem Rounding.within_left
    {rank : Fin (infiniteRank + 1)}
    (h : Rounding a rank)
    (positive : 0 < b) :
    Within 1 (roundRank (unitsOfRank rank.val) b) (roundRank (a * unitsPerOne) b) := by
  refine within_roundRank positive positive ?_ ?_
  · calc
      unitsOfRank rank.val * b * 2 ^ 53 = unitsOfRank rank.val * 2 ^ 53 * b := by ring
      _ ≤ a * unitsPerOne * (2 ^ 53 + 1) * b := Nat.mul_le_mul_right _ h.above
      _ = a * unitsPerOne * b * (2 ^ 53 + 1) := by ring
  · calc
      a * unitsPerOne * b * 2 ^ 53 = a * unitsPerOne * 2 ^ 53 * b := by ring
      _ ≤ unitsOfRank rank.val * (2 ^ 53 + 1) * b := Nat.mul_le_mul_right _ h.below
      _ = unitsOfRank rank.val * b * (2 ^ 53 + 1) := by ring

/-- So does to divide by the number to which the second one is rounded. -/
theorem Rounding.within_right
    {rank : Fin (infiniteRank + 1)}
    (h : Rounding b rank)
    (positive : 0 < b)
    (units : Nat) :
    Within 1 (roundRank (units * unitsPerOne) (unitsOfRank rank.val)) (roundRank units b) := by
  refine within_roundRank positive (h.units_pos positive) ?_ ?_
  · calc
      units * unitsPerOne * b * 2 ^ 53 = units * (b * unitsPerOne * 2 ^ 53) := by ring
      _ ≤ units * (unitsOfRank rank.val * (2 ^ 53 + 1)) := Nat.mul_le_mul_left _ h.below
      _ = units * unitsOfRank rank.val * (2 ^ 53 + 1) := by ring
  · calc
      units * unitsOfRank rank.val * 2 ^ 53 = units * (unitsOfRank rank.val * 2 ^ 53) := by ring
      _ ≤ units * (b * unitsPerOne * (2 ^ 53 + 1)) := Nat.mul_le_mul_left _ h.above
      _ = units * unitsPerOne * b * (2 ^ 53 + 1) := by ring

/-- A quotient of two numbers that are rounded first is no more than two ranks off. -/
theorem within_div
    (ha : a ≤ 2 ^ lastPower)
    (hb : b ≤ 2 ^ lastPower)
    (positive : 0 < b) :
    ∃ rank : Fin (infiniteRank + 1), ofNat a / ofNat b = signed false rank ∧
      Within 2 rank.val (roundRank (a * unitsPerOne) b) := by
  obtain ⟨left, hleft⟩ := exists_rounding ha
  obtain ⟨right, hright⟩ := exists_rounding hb
  exact ⟨_, (hleft.div hright positive).trans (round_eq _ _),
    (hright.within_right positive _).trans (hleft.within_left positive)⟩

/-- If the second one is held, it is no more than one rank off. -/
theorem Held.within_div
    (held : Held b)
    (ha : a ≤ 2 ^ lastPower)
    (positive : 0 < b) :
    ∃ rank : Fin (infiniteRank + 1), ofNat a / ofNat b = signed false rank ∧
      Within 1 rank.val (roundRank (a * unitsPerOne) b) := by
  obtain ⟨left, hleft⟩ := exists_rounding ha
  obtain ⟨right, hright, hunits⟩ := held.rounding
  have hscale : roundRank (unitsOfRank left.val * unitsPerOne) (unitsOfRank right.val) =
      roundRank (unitsOfRank left.val) b := by
    rw [hunits, roundRank_mul_mul _ _ unitsPerOne_pos]
  have hwithin : Within 1 _ (roundRank (a * unitsPerOne) b) := hleft.within_left positive
  rw [← hscale] at hwithin
  exact ⟨_, (hleft.div hright positive).trans (round_eq _ _), hwithin⟩

end Quotients

end Binary64

end Number
end BatchRun
