import BatchRun.Number.Shortest
import BatchRun.Proofs.Number.Nearest

/-!
# Shortest decimals of magnitudes below one

The grids are those of so many places behind the point.  A grid is *hit* if one of its points is
rounded to the magnitude; the neighbours of the magnitude on the grid are then points of that kind,
and so the first hit is found by testing neighbours only.

**Types.**
`firstPlace` is the place of the first digit behind the point that is not zero.  A decimal `Reads` as
a rank at a number of places if it is a neighbour of the magnitude that is rounded to it.

**Results.**
* `roundsTo_iff`: the interval of a rank has the decimals that are rounded to it.
* `firstPlace_spec`: the first digit is where it is looked for.
* `hit_of_fine`: a grid that is fine enough is hit, and seventeen digits are.
* `shortest_spec`: the shortest decimal of a magnitude is a neighbour on the first grid that is hit.
-/

namespace BatchRun
namespace Number

open Binary64

section Lengths

theorem lt_ten_pow_decimalLength
    (n : Nat) :
    n < 10 ^ decimalLength n := by
  induction n using Nat.strongRecOn with
  | ind n ih =>
      rw [decimalLength]
      split
      case isTrue hzero =>
          rw [hzero]
          exact Nat.one_pos
      case isFalse hpos =>
          have hrest := ih (n / 10) (by omega)
          rw [Nat.pow_succ]
          omega

theorem ten_pow_decimalLength_le
    {n : Nat}
    (positive : 0 < n) :
    10 ^ decimalLength n ≤ 10 * n := by
  induction n using Nat.strongRecOn with
  | ind n ih =>
      rw [decimalLength, if_neg (Nat.ne_of_gt positive), Nat.pow_succ]
      rcases Nat.eq_zero_or_pos (n / 10) with hzero | hmore
      · rw [hzero, decimalLength, if_pos rfl]
        omega
      · have hrest := ih (n / 10) (by omega) hmore
        omega

end Lengths

/-- Place of the first digit behind the point of a magnitude below one. -/
def firstPlace (units : Nat) : Nat := decimalLength ((unitsPerOne + units - 1) / units - 1)

section Places

variable {units count : Nat}

/-- Number of whole magnitudes below one. -/
theorem wholes_spec
    (positive : 0 < units)
    (below_one : units < unitsPerOne) :
    ∃ wholes, (unitsPerOne + units - 1) / units - 1 = wholes ∧ 0 < wholes ∧
      wholes * units < unitsPerOne ∧ unitsPerOne ≤ (wholes + 1) * units := by
  have hdiv := Nat.div_add_mod (unitsPerOne + units - 1) units
  have hmod := Nat.mod_lt (unitsPerOne + units - 1) positive
  have htwo : 2 ≤ (unitsPerOne + units - 1) / units := by
    rw [Nat.le_div_iff_mul_le positive]
    omega
  obtain ⟨wholes, hwholes⟩ := Nat.exists_eq_add_of_le' (Nat.le_trans (Nat.le_succ 1) htwo)
  rw [hwholes] at hdiv htwo ⊢
  rw [Nat.mul_comm] at hdiv
  have hmul : (wholes + 1) * units = wholes * units + units := Nat.succ_mul _ _
  exact ⟨wholes, rfl, by omega, by omega, by omega⟩

/-- The first digit is where it is looked for. -/
theorem firstPlace_spec
    (positive : 0 < units)
    (below_one : units < unitsPerOne) :
    0 < firstPlace units ∧ unitsPerOne ≤ units * 10 ^ firstPlace units ∧
      units * 10 ^ firstPlace units < 10 * unitsPerOne := by
  obtain ⟨wholes, hwholes, hpos, hlow, hhigh⟩ := wholes_spec positive below_one
  have hlt := lt_ten_pow_decimalLength wholes
  have hle := ten_pow_decimalLength_le hpos
  unfold firstPlace
  rw [hwholes]
  refine ⟨Nat.pos_of_ne_zero fun hzero => ?_, ?_, ?_⟩
  · rw [hzero] at hlt
    omega
  · calc
      unitsPerOne ≤ (wholes + 1) * units := hhigh
      _ ≤ 10 ^ decimalLength wholes * units := Nat.mul_le_mul_right _ hlt
      _ = units * 10 ^ decimalLength wholes := Nat.mul_comm _ _
  · calc
      units * 10 ^ decimalLength wholes ≤ units * (10 * wholes) := Nat.mul_le_mul_left _ hle
      _ = 10 * (wholes * units) := by ring
      _ < 10 * unitsPerOne := by omega

/-- A magnitude of which not too many are one has its first digit early. -/
theorem firstPlace_le
    (positive : 0 < units)
    (below_one : units < unitsPerOne)
    (h : unitsPerOne ≤ units * 10 ^ count) :
    firstPlace units ≤ count := by
  obtain ⟨wholes, hwholes, hpos, hlow, -⟩ := wholes_spec positive below_one
  have hlt : wholes < 10 ^ count := by
    refine Nat.lt_of_mul_lt_mul_right (a := units) ?_
    rw [Nat.mul_comm (10 ^ count)]
    exact Nat.lt_of_lt_of_le hlow h
  have hpow : 10 ^ decimalLength wholes < 10 ^ (count + 1) := by
    rw [Nat.pow_succ]
    exact Nat.lt_of_le_of_lt (ten_pow_decimalLength_le hpos) (by omega)
  unfold firstPlace
  rw [hwholes]
  exact Nat.le_of_lt_succ ((Nat.pow_lt_pow_iff_right (by decide)).mp hpow)

theorem integerDigits_eq
    (below_one : units < unitsPerOne) :
    Decimal.integerDigits units = 1 - (firstPlace units : Int) :=
  if_neg (Nat.not_le.mpr below_one)

end Places

section Grids

variable {rank places other significand point : Nat} {tie : TieRule} {d : Decimal}

/-- The interval of a rank has the decimals that are rounded to it. -/
theorem roundsTo_iff
    (finite : rank + 1 < infiniteRank) :
    (⟨significand, -(places : Int)⟩ : Decimal).roundsTo (rank + 1) = true ↔
      roundRank (significand * unitsPerOne) (10 ^ places) = rank + 1 := by
  have hpos : 0 < 10 ^ places := Nat.pow_pos (by decide)
  have hlow : rank < roundRank (significand * unitsPerOne) (10 ^ places) ↔ _ :=
    lt_roundRank_iff hpos (Nat.lt_of_succ_lt finite)
  have hhigh : rank + 1 < roundRank (significand * unitsPerOne) (10 ^ places) ↔ _ :=
    lt_roundRank_iff hpos finite
  have hnone : (-(places : Int)).toNat = 0 := by omega
  have hplaces : (- -(places : Int)).toNat = places := by omega
  have hvalue : significand * Nat.pow 10 0 * (2 * unitsPerOne) =
      2 * (significand * unitsPerOne) := by
    rw [show Nat.pow 10 0 = 1 from rfl]
    ring
  unfold Decimal.roundsTo
  simp only [hnone, hplaces, hvalue, Nat.pow_eq, Nat.add_sub_cancel]
  rw [← middle, ← middle]
  generalize middle rank * 10 ^ places = low at *
  generalize middle (rank + 1) * 10 ^ places = high at *
  generalize 2 * (significand * unitsPerOne) = value at *
  generalize roundRank (significand * unitsPerOne) (10 ^ places) = rounded at *
  split
  case isTrue heven =>
      simp only [Bool.and_eq_true, decide_eq_true_eq]
      omega
  case isFalse hodd =>
      simp only [Bool.and_eq_true, decide_eq_true_eq]
      omega

/-- Number of points of a grid up to a magnitude. -/
def belowOf (rank places : Nat) : Nat := unitsOfRank rank * 10 ^ places / unitsPerOne

/-- A neighbour of a magnitude on a grid that is rounded to it. -/
structure Reads (rank places : Nat) (d : Decimal) : Prop where
  exponent : d.exponent = -(places : Int)
  neighbour : d.significand = belowOf rank places ∨ d.significand = belowOf rank places + 1
  rounded : roundRank (d.significand * unitsPerOne) (10 ^ places) = rank

theorem gridDivision_eq
    (units places : Nat) :
    Decimal.gridDivision units (-(places : Int)) =
      (units * 10 ^ places / unitsPerOne, units * 10 ^ places % unitsPerOne, unitsPerOne) := by
  have hnone : (-(places : Int)).toNat = 0 := by omega
  have hplaces : (- -(places : Int)).toNat = places := by omega
  have hone : unitsPerOne * Nat.pow 10 0 = unitsPerOne := by
    rw [show Nat.pow 10 0 = 1 from rfl, Nat.mul_one]
  unfold Decimal.gridDivision
  simp only [hnone, hplaces, hone, Nat.pow_eq]

/-- What is found on a grid. -/
theorem reads_of_onGrid?
    (finite : rank + 1 < infiniteRank)
    (h : Decimal.onGrid? tie (rank + 1) (-(places : Int)) = some d) :
    Reads (rank + 1) places d := by
  have hpoint : ∀ point, (⟨point, -(places : Int)⟩ : Decimal).roundsTo (rank + 1) = true →
      point = belowOf (rank + 1) places ∨ point = belowOf (rank + 1) places + 1 →
      Reads (rank + 1) places ⟨point, -(places : Int)⟩ := fun point hrounds hneighbour =>
    ⟨rfl, hneighbour, (roundsTo_iff finite).mp hrounds⟩
  unfold Decimal.onGrid? at h
  rw [gridDivision_eq, ← belowOf] at h
  dsimp only at h
  split at h
  case h_1 => cases h
  case h_2 hlow _ =>
      cases h
      exact hpoint _ hlow (.inl rfl)
  case h_3 _ hhigh =>
      cases h
      exact hpoint _ hhigh (.inr rfl)
  case h_4 hlow hhigh =>
      have hcases : d = ⟨belowOf (rank + 1) places, -(places : Int)⟩ ∨
          d = ⟨belowOf (rank + 1) places + 1, -(places : Int)⟩ := by
        split at h
        case isTrue => exact .inl (Option.some.inj h).symm
        case isFalse =>
            split at h
            case isTrue => exact .inr (Option.some.inj h).symm
            case isFalse =>
                split at h
                case h_1 =>
                    split at h
                    case isTrue => exact .inl (Option.some.inj h).symm
                    case isFalse => exact .inr (Option.some.inj h).symm
                case h_2 => exact .inr (Option.some.inj h).symm
      rcases hcases with rfl | rfl
      · exact hpoint _ hlow (.inl rfl)
      · exact hpoint _ hhigh (.inr rfl)

/-- Nothing is found only if neither neighbour is rounded to the magnitude. -/
theorem not_rounded_of_onGrid?
    (finite : rank + 1 < infiniteRank)
    (h : Decimal.onGrid? tie (rank + 1) (-(places : Int)) = none) :
    roundRank (belowOf (rank + 1) places * unitsPerOne) (10 ^ places) ≠ rank + 1 ∧
      roundRank ((belowOf (rank + 1) places + 1) * unitsPerOne) (10 ^ places) ≠ rank + 1 := by
  rw [ne_eq, ne_eq, ← roundsTo_iff finite, ← roundsTo_iff finite]
  unfold Decimal.onGrid? at h
  rw [gridDivision_eq, ← belowOf] at h
  dsimp only at h
  split at h
  case h_1 hlow hhigh =>
      rw [hlow, hhigh]
      exact ⟨Bool.false_ne_true, Bool.false_ne_true⟩
  case h_2 => cases h
  case h_3 => cases h
  case h_4 =>
      split at h
      case isTrue => cases h
      case isFalse =>
          split at h
          case isTrue => cases h
          case isFalse =>
              split at h
              case h_1 => cases h
              case h_2 => cases h

theorem belowOf_le
    (rank places : Nat) :
    belowOf rank places * unitsPerOne ≤ unitsOfRank rank * 10 ^ places :=
  Nat.div_mul_le_self _ _

theorem lt_belowOf
    (rank places : Nat) :
    unitsOfRank rank * 10 ^ places < (belowOf rank places + 1) * unitsPerOne := by
  have hlt := Nat.lt_mul_div_succ (unitsOfRank rank * 10 ^ places) unitsPerOne_pos
  rwa [← belowOf, Nat.mul_comm unitsPerOne] at hlt

/-- The point below a magnitude is rounded no further, and the point above it no less far. -/
theorem roundRank_neighbours
    (finite : rank ≤ infiniteRank)
    (places : Nat) :
    roundRank (belowOf rank places * unitsPerOne) (10 ^ places) ≤ rank ∧
      rank ≤ roundRank ((belowOf rank places + 1) * unitsPerOne) (10 ^ places) := by
  have hpos : 0 < 10 ^ places := Nat.pow_pos (by decide)
  have hlow := belowOf_le rank places
  have hhigh := Nat.le_of_lt (lt_belowOf rank places)
  exact ⟨roundRank_le finite hpos hlow, le_roundRank finite hpos hhigh⟩

/-- If any point of a grid is rounded to a magnitude, a neighbour is. -/
theorem hit_of_point
    (tie : TieRule)
    (finite : rank + 1 < infiniteRank)
    (h : roundRank (point * unitsPerOne) (10 ^ places) = rank + 1) :
    (Decimal.onGrid? tie (rank + 1) (-(places : Int))).isSome = true := by
  have hpos : 0 < 10 ^ places := Nat.pow_pos (by decide)
  obtain ⟨hbelow, habove⟩ := roundRank_neighbours (Nat.le_of_lt finite) places
  have hmono : ∀ {m n : Nat}, m ≤ n → roundRank (m * unitsPerOne) (10 ^ places) ≤
      roundRank (n * unitsPerOne) (10 ^ places) := fun hle =>
    roundRank_mono hpos hpos (Nat.mul_le_mul_right _ (Nat.mul_le_mul_right _ hle))
  rw [Option.isSome_iff_ne_none]
  intro hnone
  obtain ⟨hnot, hnot'⟩ := not_rounded_of_onGrid? finite hnone
  rcases Nat.lt_or_ge (belowOf (rank + 1) places) point with hlater | hearlier
  · have hle := hmono (Nat.succ_le_of_lt hlater)
    rw [h] at hle
    exact hnot' (Nat.le_antisymm hle habove)
  · have hle := hmono hearlier
    rw [h] at hle
    exact hnot (Nat.le_antisymm hbelow hle)

/-- A grid that is finer than the magnitudes is hit. -/
theorem hit_of_fine
    (tie : TieRule)
    (finite : rank + 1 < infiniteRank)
    (fine : unitsPerOne < step rank * 10 ^ places) :
    (Decimal.onGrid? tie (rank + 1) (-(places : Int))).isSome = true := by
  have hpos : 0 < 10 ^ places := Nat.pow_pos (by decide)
  obtain ⟨hbelow, habove⟩ := roundRank_neighbours (Nat.le_of_lt finite) places
  rw [Option.isSome_iff_ne_none]
  intro hnone
  obtain ⟨hnot, hnot'⟩ := not_rounded_of_onGrid? finite hnone
  -- the interval between the middles lies between the neighbours
  have hlow : 2 * (belowOf (rank + 1) places * unitsPerOne) ≤ middle rank * 10 ^ places := by
    have hle := (lt_roundRank_iff hpos (Nat.lt_of_succ_lt finite)).not.mp
      (Nat.not_lt.mpr (Nat.le_of_lt_succ (Nat.lt_of_le_of_ne hbelow hnot)))
    exact Nat.le_of_not_lt fun hlt => hle (.inl hlt)
  have hhigh : middle (rank + 1) * 10 ^ places ≤
      2 * ((belowOf (rank + 1) places + 1) * unitsPerOne) := by
    rcases (lt_roundRank_iff hpos finite).mp (Nat.lt_of_le_of_ne habove hnot'.symm) with hlt | heq
    · exact Nat.le_of_lt hlt
    · exact Nat.le_of_eq heq.1
  have hmiddles : middle rank + 2 * step rank ≤ middle (rank + 1) := by
    have hmono : step rank ≤ step (rank + 1) := step_mono (Nat.le_succ rank)
    rw [middle_eq, middle_eq, unitsOfRank_succ]
    omega
  have hwide := Nat.mul_le_mul_right (10 ^ places) hmiddles
  rw [Nat.add_mul, Nat.mul_assoc] at hwide
  rw [Nat.succ_mul (belowOf (rank + 1) places)] at hhigh
  omega

/-- Seventeen digits are enough. -/
theorem hit_of_seventeen
    (tie : TieRule)
    (finite : rank + 1 < infiniteRank)
    (below_one : unitsOfRank (rank + 1) < unitsPerOne) :
    (Decimal.onGrid? tie (rank + 1)
      (-((firstPlace (unitsOfRank (rank + 1)) + 16 : Nat) : Int))).isSome = true := by
  obtain ⟨-, hfirst, -⟩ := firstPlace_spec (units_pos rank) below_one
  refine hit_of_fine tie finite ?_
  refine Nat.lt_of_mul_lt_mul_left (a := 2 ^ 53) ?_
  calc
    2 ^ 53 * unitsPerOne < 10 ^ 16 * unitsPerOne :=
      Nat.mul_lt_mul_of_pos_right (by decide) unitsPerOne_pos
    _ ≤ 10 ^ 16 * (unitsOfRank (rank + 1) * 10 ^ firstPlace (unitsOfRank (rank + 1))) :=
      Nat.mul_le_mul_left _ hfirst
    _ ≤ 10 ^ 16 * (2 ^ 53 * step rank * 10 ^ firstPlace (unitsOfRank (rank + 1))) :=
      Nat.mul_le_mul_left _ (Nat.mul_le_mul_right _ (unitsOfRank_succ_le rank))
    _ = 2 ^ 53 * (step rank * 10 ^ (firstPlace (unitsOfRank (rank + 1)) + 16)) := by
      rw [Nat.pow_add]
      ring

end Grids

section Search

variable {rank places tries digits : Nat} {tie : TieRule}

/-- The search goes from grid to grid and ends at the first hit. -/
theorem firstOnGrids_spec
    {integerDigits : Int}
    (place : integerDigits - digits = -(places : Int))
    (hit : (Decimal.onGrid? tie rank (-((places + tries : Nat) : Int))).isSome = true) :
    ∃ later, later ≤ tries ∧
      Decimal.onGrid? tie rank (-((places + later : Nat) : Int)) =
        some (Decimal.firstOnGrids tie rank integerDigits tries digits) ∧
      ∀ earlier < later, Decimal.onGrid? tie rank (-((places + earlier : Nat) : Int)) = none := by
  induction tries generalizing places digits with
  | zero =>
      obtain ⟨d, hd⟩ := Option.isSome_iff_exists.mp hit
      refine ⟨0, Nat.le_refl _, ?_, nofun⟩
      rw [Decimal.firstOnGrids, place]
      rw [Nat.add_zero] at hd
      rw [Nat.add_zero, hd, Option.getD_some]
  | succ tries ih =>
      rw [Decimal.firstOnGrids, place]
      cases hhere : Decimal.onGrid? tie rank (-(places : Int)) with
      | some d => exact ⟨0, Nat.zero_le _, hhere, nofun⟩
      | none =>
          have hnext : integerDigits - (digits + 1 : Nat) = -((places + 1 : Nat) : Int) := by
            omega
          have hsum : ∀ count, places + (count + 1) = places + 1 + count := fun count => by omega
          rw [hsum] at hit
          obtain ⟨later, hlater, hfound, hearlier⟩ := ih hnext hit
          refine ⟨later + 1, Nat.succ_le_succ hlater, ?_, fun earlier hlt => ?_⟩
          · rw [hsum]
            exact hfound
          · cases earlier with
            | zero => exact hhere
            | succ earlier =>
                rw [hsum]
                exact hearlier earlier (Nat.lt_of_succ_lt_succ hlt)

/-- The shortest decimal of a magnitude below one is a neighbour on the first grid that is hit. -/
theorem shortest_spec
    (tie : TieRule)
    (finite : rank + 1 < infiniteRank)
    (below_one : unitsOfRank (rank + 1) < unitsPerOne) :
    ∃ places, Reads (rank + 1) places (shortest tie (rank + 1)) ∧
      firstPlace (unitsOfRank (rank + 1)) ≤ places ∧
      places ≤ firstPlace (unitsOfRank (rank + 1)) + 16 ∧
      ∀ earlier, firstPlace (unitsOfRank (rank + 1)) ≤ earlier → earlier < places →
        ∀ point, roundRank (point * unitsPerOne) (10 ^ earlier) ≠ rank + 1 := by
  have hplace : Decimal.integerDigits (unitsOfRank (rank + 1)) - (1 : Nat) =
      -(firstPlace (unitsOfRank (rank + 1)) : Int) := by
    rw [integerDigits_eq below_one]
    omega
  obtain ⟨later, hlater, hfound, hearlier⟩ :=
    firstOnGrids_spec hplace (hit_of_seventeen tie finite below_one)
  refine ⟨_, reads_of_onGrid? finite hfound, Nat.le_add_right _ _, Nat.add_le_add_left hlater _,
    fun earlier hfirst hlt point hpoint => ?_⟩
  obtain ⟨skipped, rfl⟩ := Nat.exists_eq_add_of_le hfirst
  have hhit := hit_of_point tie finite hpoint
  rw [hearlier skipped (Nat.lt_of_add_lt_add_left hlt)] at hhit
  cases hhit

end Search

end Number
end BatchRun
