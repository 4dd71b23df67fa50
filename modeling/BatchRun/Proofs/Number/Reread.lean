import BatchRun.Number.Layout
import BatchRun.Proofs.Number.Digits
import BatchRun.Proofs.Number.Shortest
import Mathlib.Data.List.TakeWhile

/-!
# Numbers up to one that are read back

A number is written with its shortest digits.  Read back, the digits become a whole number that is
rounded, and a power of ten that is rounded, and the quotient of the two is rounded once more.

**Types.**
`Decimal.trimmed` is a decimal without the zeros at its end, and `readBack` is what becomes of a
number.  A magnitude is a `Share` if it is no more than one and, unless it is zero, no less than one
part of so many.  Numbers are `Near` each other if few magnitudes lie between them.

**Results.**
* `share_of_div`: a quotient of two whole numbers, the first of which is no larger, is a share.
* `near_readBack`: a share is read back no more than two ranks off.
* `near_readBack_of_few`: it is no more than one rank off if it has not too many parts.
* `readBack_of_short`: it is read back as it is if its digits are no more than `2 ^ 53`.
* `readBack_of_dvd`: a quotient that has no more than fifteen places is read back as it is.
-/

namespace BatchRun
namespace Number

open Binary64

namespace Decimal

/-- A decimal without the zeros at its end. -/
def trimmed (d : Decimal) : Decimal where
  significand := Nat.ofDigitChars 10 d.digits.1 0
  exponent := d.digits.2 - d.digits.1.length

/-- The digits of a significand are those that are kept, with zeros behind them. -/
theorem digits_append
    (d : Decimal) :
    ∃ zeros, Number.digits d.significand = d.digits.1 ++ List.replicate zeros '0' := by
  have hzero : ∀ c ∈ (Number.digits d.significand).reverse.takeWhile (· == '0'), c = '0' :=
    fun c hc => by simpa using List.mem_takeWhile_imp hc
  have hsplit := List.takeWhile_append_dropWhile
    (p := fun c => c == '0') (l := (Number.digits d.significand).reverse)
  rw [List.eq_replicate_of_mem hzero] at hsplit
  refine ⟨((Number.digits d.significand).reverse.takeWhile (· == '0')).length, ?_⟩
  have hreverse := congrArg List.reverse hsplit
  rw [List.reverse_append, List.reverse_replicate, List.reverse_reverse] at hreverse
  exact hreverse.symm

/-- A decimal has the value that it has without the zeros at its end. -/
theorem trimmed_spec
    (d : Decimal) :
    ∃ zeros : Nat, d.significand = d.trimmed.significand * 10 ^ zeros ∧
      d.trimmed.exponent = d.exponent + zeros := by
  obtain ⟨zeros, hdigits⟩ := digits_append d
  refine ⟨zeros, ?_, ?_⟩
  · have hvalue := ofDigitChars_digits d.significand
    rw [hdigits, Nat.ofDigitChars_append, Nat.ofDigitChars_replicate_zero, Nat.mul_comm] at hvalue
    exact hvalue.symm
  · have hlength := congrArg List.length hdigits
    rw [List.length_append, List.length_replicate] at hlength
    have hplace : d.digits.2 = ((Number.digits d.significand).length : Int) + d.exponent := rfl
    unfold trimmed
    simp only [hplace, hlength]
    omega

end Decimal

section Fractions

variable {rank : Nat}

/-- Digits behind the point that are rounded to a rank. -/
structure Spells (rank places : Nat) (d : Decimal) : Prop where
  exponent : d.exponent = -(places : Int)
  positive : 0 < d.significand
  below_one : d.significand < 10 ^ places
  /-- They fit in 64 bits. -/
  short : d.significand ≤ 10 ^ 17
  rounded : roundRank (d.significand * unitsPerOne) (10 ^ places) = rank

theorem roundRank_zero
    {denominator : Nat}
    (positive : 0 < denominator) :
    roundRank 0 denominator = 0 :=
  Nat.le_zero.mp (roundRank_le (Nat.zero_le _) positive (Nat.zero_le _))

theorem exists_rankOfOne :
    ∃ one, one < infiniteRank ∧ unitsOfRank one = unitsPerOne ∧
      ∀ {places : Nat}, roundRank (10 ^ places * unitsPerOne) (10 ^ places) = one := by
  obtain ⟨one, -, hfinite, hunits⟩ := exists_one
  refine ⟨one.val, hfinite, hunits, fun {places} => ?_⟩
  have hscale := roundRank_mul_mul unitsPerOne 1 (Nat.pow_pos (by decide) : 0 < 10 ^ places)
  rw [Nat.one_mul, ← hunits, roundRank_unitsOfRank (Nat.le_of_lt hfinite), hunits] at hscale
  rw [Nat.mul_comm, hscale]

/-- A neighbour of a magnitude below one, with no more than seventeen digits. -/
theorem Reads.spells
    {places : Nat} {d : Decimal}
    (h : Reads (rank + 1) places d)
    (below_one : unitsOfRank (rank + 1) < unitsPerOne)
    (few : places ≤ firstPlace (unitsOfRank (rank + 1)) + 16) :
    Spells (rank + 1) places d := by
  have hpos : 0 < 10 ^ places := Nat.pow_pos (by decide)
  obtain ⟨-, -, hfirst⟩ := firstPlace_spec (units_pos rank) below_one
  have hbelow := belowOf_le (rank + 1) places
  have hneighbour : d.significand ≤ belowOf (rank + 1) places + 1 := by
    rcases h.neighbour with heq | heq <;> omega
  refine ⟨h.exponent, Nat.pos_of_ne_zero fun hzero => ?_, ?_, ?_, h.rounded⟩
  · have hrounded := h.rounded
    rw [hzero, Nat.zero_mul, roundRank_zero hpos] at hrounded
    cases hrounded
  · have hlt : belowOf (rank + 1) places < 10 ^ places := by
      refine Nat.lt_of_mul_lt_mul_right (a := unitsPerOne) (Nat.lt_of_le_of_lt hbelow ?_)
      rw [Nat.mul_comm]
      exact Nat.mul_lt_mul_of_pos_left below_one hpos
    refine Nat.lt_of_le_of_ne (Nat.le_trans hneighbour hlt) fun heq => ?_
    -- one is a magnitude itself, and another one
    obtain ⟨one, -, hone, hround⟩ := exists_rankOfOne
    have hrounded := h.rounded
    rw [heq, hround] at hrounded
    rw [hrounded] at hone
    omega
  · have hlt : belowOf (rank + 1) places < 10 ^ 17 := by
      refine Nat.lt_of_mul_lt_mul_right (a := unitsPerOne) (Nat.lt_of_le_of_lt hbelow ?_)
      calc
        unitsOfRank (rank + 1) * 10 ^ places
            ≤ unitsOfRank (rank + 1) * 10 ^ (firstPlace (unitsOfRank (rank + 1)) + 16) :=
          Nat.mul_le_mul_left _ (Nat.pow_le_pow_right (by decide) few)
        _ = unitsOfRank (rank + 1) * 10 ^ firstPlace (unitsOfRank (rank + 1)) * 10 ^ 16 := by
          rw [Nat.pow_add, Nat.mul_assoc]
        _ < 10 * unitsPerOne * 10 ^ 16 := Nat.mul_lt_mul_of_pos_right hfirst (by decide)
        _ = 10 ^ 17 * unitsPerOne := by ring
    exact Nat.le_trans hneighbour hlt

/-- Without zeros at their end the digits are rounded to the same rank. -/
theorem Spells.trimmed
    {places : Nat} {d : Decimal}
    (h : Spells rank places d) :
    ∃ fewer, fewer ≤ places ∧ Spells rank fewer d.trimmed := by
  obtain ⟨zeros, hvalue, hexponent⟩ := d.trimmed_spec
  have hpow : 0 < 10 ^ zeros := Nat.pow_pos (by decide)
  have hpos : 0 < d.trimmed.significand := by
    refine Nat.pos_of_ne_zero fun hzero => ?_
    rw [hzero, Nat.zero_mul] at hvalue
    exact absurd hvalue (Nat.ne_of_gt h.positive)
  have hle : zeros ≤ places := by
    have hlt : 10 ^ zeros < 10 ^ places := by
      refine Nat.lt_of_le_of_lt ?_ h.below_one
      rw [hvalue]
      exact Nat.le_mul_of_pos_left _ hpos
    exact Nat.le_of_lt ((Nat.pow_lt_pow_iff_right (by decide)).mp hlt)
  obtain ⟨fewer, rfl⟩ := Nat.exists_eq_add_of_le' hle
  have hdigits := h.below_one
  have hrounded := h.rounded
  rw [hvalue, Nat.pow_add] at hdigits
  rw [hvalue, Nat.mul_right_comm, Nat.pow_add, roundRank_mul_mul _ _ hpow] at hrounded
  refine ⟨fewer, Nat.le_add_right _ _, ?_, hpos, Nat.lt_of_mul_lt_mul_right hdigits, ?_, hrounded⟩
  · rw [hexponent, h.exponent]
    omega
  · refine Nat.le_trans ?_ h.short
    rw [hvalue]
    exact Nat.le_mul_of_pos_right _ hpow

/-- The digits that are written begin with one that is not zero, and the point stands in front of
them. -/
theorem Spells.digits
    {places : Nat} {d : Decimal}
    (h : Spells rank places d.trimmed) :
    ∃ c cs, d.digits.1 = c :: cs ∧ c ≠ '0' ∧ (∀ e ∈ c :: cs, e.isDigit = true) ∧
      cs.length < places ∧ d.digits.2 = ((cs.length + 1 : Nat) : Int) - places := by
  obtain ⟨zeros, hvalue, -⟩ := d.trimmed_spec
  obtain ⟨behind, hdigits⟩ := d.digits_append
  have hpos : 0 < d.significand := by
    rw [hvalue]
    exact Nat.mul_pos h.positive (Nat.pow_pos (by decide))
  have hall : ∀ e ∈ d.digits.1, e.isDigit = true := fun e he =>
    isDigit_of_mem_digits (hdigits ▸ List.mem_append_left _ he)
  have hplace : d.digits.2 - d.digits.1.length = -(places : Int) := h.exponent
  have hbelow : Nat.ofDigitChars 10 d.digits.1 0 < 10 ^ places := h.below_one
  have hsome : 0 < Nat.ofDigitChars 10 d.digits.1 0 := h.positive
  cases hcs : d.digits.1 with
  | nil =>
      rw [hcs] at hsome
      exact absurd hsome (Nat.lt_irrefl 0)
  | cons c cs =>
      obtain ⟨first, others, hfirst, hne⟩ := head_digits hpos
      rw [hcs, hfirst, List.cons_append] at hdigits
      obtain ⟨rfl, -⟩ := List.cons.inj hdigits
      rw [hcs] at hall hplace hbelow
      have hbounds := toNat_of_isDigit (hall first List.mem_cons_self)
      have hzero : '0'.toNat = 48 := rfl
      have hnonzero : 1 ≤ first.toNat - '0'.toNat := by
        have hnat : first.toNat ≠ '0'.toNat := fun heq => hne (Char.toNat_inj.mp heq)
        omega
      have hlarge : 10 ^ cs.length < 10 ^ places := by
        refine Nat.lt_of_le_of_lt ?_ hbelow
        rw [Nat.ofDigitChars_cons, Nat.ofDigitChars_eq_ofDigitChars_zero, Nat.mul_zero,
          Nat.zero_add]
        exact Nat.le_add_right_of_le (Nat.le_mul_of_pos_right _ hnonzero)
      rw [List.length_cons] at hplace
      exact ⟨first, cs, rfl, hne, hall, (Nat.pow_lt_pow_iff_right (by decide)).mp hlarge, by omega⟩

/-- The decimal of a magnitude below one as it is written. -/
theorem spells_shortest
    (finite : rank + 1 < infiniteRank)
    (below_one : unitsOfRank (rank + 1) < unitsPerOne) :
    ∃ places, Spells (rank + 1) places (shortest .toEven (rank + 1)).trimmed ∧
      places ≤ firstPlace (unitsOfRank (rank + 1)) + 16 ∧
      ∀ later, firstPlace (unitsOfRank (rank + 1)) ≤ later →
        ∀ point, roundRank (point * unitsPerOne) (10 ^ later) = rank + 1 → places ≤ later := by
  obtain ⟨places, hreads, -, hfew, hfirst⟩ := shortest_spec .toEven finite below_one
  obtain ⟨fewer, hfewer, hspells⟩ := (hreads.spells below_one hfew).trimmed
  refine ⟨fewer, hspells, Nat.le_trans hfewer hfew, fun later hlater point hpoint => ?_⟩
  by_contra hmore
  have hlt : later < places := Nat.lt_of_lt_of_le (Nat.lt_of_not_le hmore) hfewer
  exact hfirst later hlater hlt point hpoint

end Fractions

namespace Binary64

/-- The digits with which a number is written, as a whole number. -/
def significand : Binary64 → Nat
  | nan => 0
  | signed _ rank => (shortest .toEven rank.val).trimmed.significand

/-- What is read of the text of a number that is no more than one. -/
def readBack : Binary64 → Binary64
  | signed false rank =>
    if rank.val = 0 then ofNat 0
    else
      let d := (shortest .toEven rank.val).trimmed
      ofNat d.significand / ofNat (10 ^ (-d.exponent).toNat)
  | x => x

/-- A magnitude that is no more than one and, unless it is zero, no less than one part of so
many. -/
structure Share (parts rank : Nat) : Prop where
  le_one : unitsOfRank rank ≤ unitsPerOne
  le_parts : rank ≠ 0 → unitsPerOne ≤ unitsOfRank rank * parts

section Shares

variable {parts count exponent : Nat} {rank : Fin (infiniteRank + 1)}

/-- A quotient of two whole numbers, the first of which is no larger. -/
theorem share_of_div
    {successes samples : Nat}
    (some : 0 < samples)
    (le : successes ≤ samples)
    (few : samples ≤ 2 ^ exponent)
    (finite : exponent ≤ lastPower) :
    ∃ rank : Fin (infiniteRank + 1), ofNat successes / ofNat samples = signed false rank ∧
      rank.val < infiniteRank ∧ Share (2 ^ exponent) rank.val := by
  have hrange : 2 ^ exponent ≤ 2 ^ lastPower := Nat.pow_le_pow_right Nat.two_pos finite
  obtain ⟨left, hleft⟩ := exists_rounding (Nat.le_trans le (Nat.le_trans few hrange))
  obtain ⟨right, hright⟩ := exists_rounding (Nat.le_trans few hrange)
  have hmono : ∀ {m n : Nat} {rank rank' : Fin (infiniteRank + 1)}, m ≤ n → Rounding m rank →
      Rounding n rank' → unitsOfRank rank.val ≤ unitsOfRank rank'.val := by
    intro m n rank rank' hle hm hn
    have hordered := ordered_ofNat hle
    rw [hm.eq, hn.eq] at hordered
    cases hordered with
    | ranks hranks => exact unitsOfRank_mono (Nat.le_of_lt hn.finite) hranks
  have hpos := hright.units_pos some
  obtain ⟨one, -, hone, honeUnits⟩ := exists_one
  have hle_one :
      roundRank (unitsOfRank left.val * unitsPerOne) (unitsOfRank right.val) ≤ one.val := by
    refine roundRank_le (Nat.le_of_lt hone) hpos ?_
    rw [honeUnits, Nat.mul_comm]
    exact Nat.mul_le_mul_left _ (hmono le hleft hright)
  refine ⟨_, (hleft.div hright some).trans (round_eq _ _), Nat.lt_of_le_of_lt hle_one hone,
    ?_, fun hne => ?_⟩
  · exact Nat.le_trans (unitsOfRank_mono (Nat.le_of_lt hone) hle_one) (Nat.le_of_eq honeUnits)
  · have hsuccesses : 1 ≤ successes := by
      refine Nat.pos_of_ne_zero fun hzero => hne ?_
      have habove := hleft.above
      rw [hzero, Nat.zero_mul, Nat.zero_mul] at habove
      have hunits : unitsOfRank left.val = 0 := by omega
      rw [hunits, Nat.zero_mul]
      exact roundRank_zero hpos
    obtain ⟨unit, hunit, hunitUnits⟩ := (held_of_le (by decide : 1 ≤ 2 ^ 53)).rounding
    obtain ⟨most, hmost, hmostUnits⟩ := (held_two_pow finite).rounding
    rw [Nat.one_mul] at hunitUnits
    have hlow : unitsPerOne ≤ unitsOfRank left.val := hunitUnits ▸ hmono hsuccesses hunit hleft
    have hhigh : unitsOfRank right.val ≤ 2 ^ exponent * unitsPerOne :=
      hmostUnits ▸ hmono few hright hmost
    have hlast : exponentOfOne - exponent ≤ lastExponent :=
      Nat.le_trans (Nat.sub_le _ _) (by decide)
    have hsplit : 2 ^ (exponentOfOne - exponent) * 2 ^ exponent = unitsPerOne := by
      have hexponent : exponent ≤ exponentOfOne := Nat.le_trans finite (by decide)
      rw [unitsPerOne_eq, ← Nat.pow_add, Nat.sub_add_cancel hexponent]
    obtain ⟨part, hpart, hpartUnits⟩ := exists_rank (by decide : 1 < 2 * binadeSize) hlast
    rw [Nat.one_mul] at hpartUnits
    have hle : part ≤ roundRank (unitsOfRank left.val * unitsPerOne) (unitsOfRank right.val) := by
      refine le_roundRank (Nat.le_of_lt hpart) hpos ?_
      calc
        unitsOfRank part * unitsOfRank right.val
            ≤ 2 ^ (exponentOfOne - exponent) * (2 ^ exponent * unitsPerOne) := by
          rw [hpartUnits]
          exact Nat.mul_le_mul_left _ hhigh
        _ = unitsPerOne * unitsPerOne := by rw [← Nat.mul_assoc, hsplit]
        _ ≤ unitsOfRank left.val * unitsPerOne := Nat.mul_le_mul_right _ hlow
    calc
      unitsPerOne = unitsOfRank part * 2 ^ exponent := by rw [hpartUnits, hsplit]
      _ ≤ _ := Nat.mul_le_mul_right _ (unitsOfRank_mono (roundRank_le_infiniteRank _ _) hle)

theorem share_of_one
    (some : 0 < parts) :
    ∃ rank : Fin (infiniteRank + 1), (1 : Binary64) = signed false rank ∧
      rank.val < infiniteRank ∧ Share parts rank.val := by
  obtain ⟨one, hone, hfinite, hunits⟩ := exists_one
  refine ⟨one, hone, hfinite, Nat.le_of_eq hunits, fun _ => ?_⟩
  rw [hunits]
  exact Nat.le_mul_of_pos_right _ some

theorem zero_eq : signed false 0 = (0 : Binary64) := by
  decide +kernel

theorem readBack_zero : (0 : Binary64).readBack = 0 := by
  decide +kernel

theorem readBack_one : (1 : Binary64).readBack = 1 := by
  decide +kernel

/-- A share is zero, one, or between the two. -/
theorem Share.cases
    (share : Share parts rank.val)
    (finite : rank.val < infiniteRank) :
    (signed false rank = 0 ∨ signed false rank = 1) ∨
      ∃ below, rank.val = below + 1 ∧ unitsOfRank rank.val < unitsPerOne ∧
        unitsPerOne ≤ unitsOfRank rank.val * parts := by
  rcases Nat.eq_zero_or_pos rank.val with hzero | hpos
  · have hrank : rank = 0 := Fin.ext hzero
    rw [hrank]
    exact .inl (.inl zero_eq)
  · rcases Nat.lt_or_eq_of_le share.le_one with hlt | heq
    · obtain ⟨below, hbelow⟩ := Nat.exists_eq_succ_of_ne_zero (Nat.ne_of_gt hpos)
      exact .inr ⟨below, hbelow, hlt, share.le_parts (Nat.ne_of_gt hpos)⟩
    · obtain ⟨one, hone, honeFinite, hunits⟩ := exists_one
      have hrank : rank = one := by
        refine Fin.ext ?_
        rw [← roundRank_unitsOfRank (Nat.le_of_lt finite), heq, ← hunits,
          roundRank_unitsOfRank (Nat.le_of_lt honeFinite)]
      rw [hrank, ← hone]
      exact .inl (.inr rfl)

theorem readBack_whole
    {x : Binary64}
    (h : x = 0 ∨ x = 1) :
    x.readBack = x := by
  rcases h with rfl | rfl
  · exact readBack_zero
  · exact readBack_one

/-- Between zero and one the digits are divided by a power of ten. -/
theorem readBack_eq
    {below : Nat}
    (finite : rank.val < infiniteRank)
    (hbelow : rank.val = below + 1)
    (below_one : unitsOfRank rank.val < unitsPerOne)
    (le_parts : unitsPerOne ≤ unitsOfRank rank.val * parts)
    (few : parts ≤ 10 ^ count) :
    ∃ places, Spells rank.val places (shortest .toEven rank.val).trimmed ∧
      (signed false rank).readBack =
        ofNat (shortest .toEven rank.val).trimmed.significand / ofNat (10 ^ places) ∧
      places ≤ count + 16 ∧
      ∀ later, count ≤ later → ∀ point,
        roundRank (point * unitsPerOne) (10 ^ later) = rank.val → places ≤ later := by
  rw [hbelow] at finite below_one le_parts ⊢
  obtain ⟨places, hspells, hplaces, hfirst⟩ := spells_shortest finite below_one
  have hcount : firstPlace (unitsOfRank (below + 1)) ≤ count :=
    firstPlace_le (units_pos below) below_one
      (Nat.le_trans le_parts (Nat.mul_le_mul_left _ few))
  refine ⟨places, hspells, ?_, by omega, fun later hlater =>
    hfirst later (Nat.le_trans hcount hlater)⟩
  have hexponent : (-(shortest .toEven (below + 1)).trimmed.exponent).toNat = places := by
    rw [hspells.exponent]
    omega
  unfold readBack
  simp only [hbelow, hexponent]
  exact if_neg (Nat.succ_ne_zero below)

theorem ten_pow_le
    {places : Nat}
    (h : places ≤ 255) :
    10 ^ places ≤ 2 ^ lastPower := by
  have hlast : lastPower = 1023 := rfl
  calc
    10 ^ places ≤ (2 ^ 4) ^ places := Nat.pow_le_pow_left (by decide) _
    _ = 2 ^ (4 * places) := (Nat.pow_mul 2 4 places).symm
    _ ≤ 2 ^ lastPower := Nat.pow_le_pow_right Nat.two_pos (by omega)

/-- Powers of ten are held as long as their odd parts have 53 binary digits. -/
theorem held_ten_pow
    {places : Nat}
    (h : places ≤ 22) :
    Held (10 ^ places) := by
  have hone : exponentOfOne = 1074 := rfl
  have hlast : lastExponent = 2045 := rfl
  have hodd : 5 ^ places < 2 * binadeSize :=
    Nat.lt_of_le_of_lt (Nat.pow_le_pow_right (by decide) h) (by decide)
  have hsplit : 10 ^ places = 5 ^ places * 2 ^ places := by rw [← Nat.mul_pow]
  rw [hsplit]
  exact held_shifted hodd (by omega)

/-- Two numbers that are not negative, with no more than some steps between their ranks. -/
def Near (steps : Nat) (x y : Binary64) : Prop :=
  ∃ first last : Fin (infiniteRank + 1), x = signed false first ∧ y = signed false last ∧
    Within steps first.val last.val

/-- A share is read back no more than two ranks off. -/
theorem near_readBack
    (share : Share parts rank.val)
    (finite : rank.val < infiniteRank)
    (few : parts ≤ 10 ^ 200) :
    Near 2 (signed false rank).readBack (signed false rank) := by
  rcases share.cases finite with hwhole | ⟨below, hbelow, hbelow_one, hparts⟩
  · exact ⟨rank, rank, readBack_whole hwhole, rfl, Nat.le_add_right _ _, Nat.le_add_right _ _⟩
  · obtain ⟨places, hspells, hread, hplaces, -⟩ :=
      readBack_eq finite hbelow hbelow_one hparts few
    have hdigits : (shortest .toEven rank.val).trimmed.significand ≤ 2 ^ lastPower :=
      Nat.le_trans hspells.short (ten_pow_le (by decide))
    have hpower : 10 ^ places ≤ 2 ^ lastPower := ten_pow_le (Nat.le_trans hplaces (by decide))
    obtain ⟨other, hother, hwithin⟩ := within_div hdigits hpower (Nat.pow_pos (by decide))
    rw [hspells.rounded] at hwithin
    exact ⟨other, rank, hread.trans hother, rfl, hwithin⟩

/-- A share of not too many parts is read back no more than one rank off. -/
theorem near_readBack_of_few
    (share : Share parts rank.val)
    (finite : rank.val < infiniteRank)
    (few : parts ≤ 10 ^ 6) :
    Near 1 (signed false rank).readBack (signed false rank) := by
  rcases share.cases finite with hwhole | ⟨below, hbelow, hbelow_one, hparts⟩
  · exact ⟨rank, rank, readBack_whole hwhole, rfl, Nat.le_add_right _ _, Nat.le_add_right _ _⟩
  · obtain ⟨places, hspells, hread, hplaces, -⟩ :=
      readBack_eq finite hbelow hbelow_one hparts few
    have hdigits : (shortest .toEven rank.val).trimmed.significand ≤ 2 ^ lastPower :=
      Nat.le_trans hspells.short (ten_pow_le (by decide))
    obtain ⟨other, hother, hwithin⟩ :=
      (held_ten_pow hplaces).within_div hdigits (Nat.pow_pos (by decide))
    rw [hspells.rounded] at hwithin
    exact ⟨other, rank, hread.trans hother, rfl, hwithin⟩

/-- A share of not too many parts is read back as it is if its digits are a number that is held. -/
theorem readBack_of_short
    (share : Share parts rank.val)
    (finite : rank.val < infiniteRank)
    (few : parts ≤ 10 ^ 6)
    (short : (signed false rank).significand ≤ 2 ^ 53) :
    (signed false rank).readBack = signed false rank := by
  rcases share.cases finite with hwhole | ⟨below, hbelow, hbelow_one, hparts⟩
  · exact readBack_whole hwhole
  · obtain ⟨places, hspells, hread, hplaces, -⟩ :=
      readBack_eq finite hbelow hbelow_one hparts few
    have hheld : Held (shortest .toEven rank.val).trimmed.significand := held_of_le short
    rw [hread, hheld.div (held_ten_pow hplaces) (Nat.pow_pos (by decide)), ofRatio, round_eq]
    exact congrArg (signed false) (Fin.ext hspells.rounded)

/-- So it is if a decimal with fifteen places is rounded to it. -/
theorem readBack_of_point
    {point : Nat}
    (share : Share parts rank.val)
    (finite : rank.val < infiniteRank)
    (few : parts ≤ 10 ^ 6)
    (h : roundRank (point * unitsPerOne) (10 ^ 15) = rank.val) :
    (signed false rank).readBack = signed false rank := by
  rcases share.cases finite with hwhole | ⟨below, hbelow, hbelow_one, hparts⟩
  · exact readBack_whole hwhole
  · obtain ⟨places, hspells, -, -, hfirst⟩ :=
      readBack_eq finite hbelow hbelow_one hparts few
    have hplaces : places ≤ 15 := hfirst 15 (by decide) point h
    refine readBack_of_short share finite few (Nat.le_trans (Nat.le_of_lt hspells.below_one) ?_)
    exact Nat.le_trans (Nat.pow_le_pow_right (by decide) hplaces) (by decide)

/-- A quotient that has no more than fifteen places is read back as it is. -/
theorem readBack_of_dvd
    {successes samples : Nat}
    (some : 0 < samples)
    (le : successes ≤ samples)
    (few : samples ≤ 2 ^ 19)
    (places : samples ∣ successes * 10 ^ 15) :
    (ofNat successes / ofNat samples).readBack = ofNat successes / ofNat samples := by
  have hshort : samples < 2 * binadeSize := Nat.lt_of_le_of_lt few (by decide)
  have hratio : ofNat successes / ofNat samples = ofRatio successes samples :=
    ofNat_div_ofNat (Nat.lt_of_le_of_lt le hshort) hshort some
  obtain ⟨rank, hrank, hfinite, hshare⟩ := share_of_div some le few (by decide)
  obtain ⟨point, hpoint⟩ := places
  have hsame := signed.inj (hrank.symm.trans (hratio.trans (round_eq _ _)))
  have hval := congrArg Fin.val hsame.2
  dsimp only at hval
  rw [hrank]
  refine readBack_of_point hshare hfinite (by decide) (?_ : roundRank (point * _) _ = _)
  rw [hval, ← roundRank_mul_mul (point * unitsPerOne) (10 ^ 15) some,
    ← roundRank_mul_mul (successes * unitsPerOne) samples (Nat.pow_pos (by decide) : 0 < 10 ^ 15),
    Nat.mul_right_comm successes, hpoint, Nat.mul_right_comm point, Nat.mul_comm point samples,
    Nat.mul_comm samples (10 ^ 15)]

end Shares

end Binary64

end Number
end BatchRun
