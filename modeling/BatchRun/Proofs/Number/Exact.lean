import BatchRun.Proofs.Number.Order

/-!
# Results that are not rounded

**Type.**
A natural number is `Held` if its floating-point number has exactly its magnitude.

**Results.**
* `held_shifted`: 53 binary digits with zeros behind them are held.
* `Held.mul`, `Held.div`: an operation on numbers that are held rounds the exact result once.
* `Held.floorWithin`: a number that is held is cut to itself.
* `two_pow_mul_two_pow`, `powNat_two_pow`: powers of two stay powers of two; beyond the range they
  are infinite.
-/

namespace BatchRun
namespace Number
namespace Binary64

/-- A natural number whose floating-point number has exactly its magnitude. -/
def Held (n : Nat) : Prop :=
  ∃ rank : Fin (infiniteRank + 1), ofNat n = signed false rank ∧ rank.val < infiniteRank ∧
    unitsOfRank rank.val = n * unitsPerOne

section Held

variable {m n digits exponent : Nat}

/-- 53 binary digits with zeros behind them are held. -/
theorem held_shifted
    (short : digits < 2 * binadeSize)
    (finite : exponent + exponentOfOne ≤ lastExponent) :
    Held (digits * 2 ^ exponent) := by
  have hexact := unitsOfRank_roundRank short finite
  have hunits : digits * 2 ^ (exponent + exponentOfOne) = digits * 2 ^ exponent * unitsPerOne := by
    rw [unitsPerOne_eq, Nat.pow_add, Nat.mul_assoc]
  rw [hunits] at hexact
  exact ⟨_, round_eq _ _, hexact⟩

theorem held_of_short
    (short : n < 2 * binadeSize) :
    Held n := by
  have hfinite : 0 + exponentOfOne ≤ lastExponent := by decide
  have hheld := held_shifted short hfinite
  rwa [Nat.pow_zero, Nat.mul_one] at hheld

/-- The first number of 54 binary digits is held as well. -/
theorem held_of_le
    (h : n ≤ 2 ^ 53) :
    Held n := by
  have hsize : 2 * binadeSize = 2 ^ 53 := by decide
  rcases Nat.lt_or_eq_of_le h with hlt | rfl
  · exact held_of_short (hsize ▸ hlt)
  · have hone : Held (1 * 2 ^ 53) := held_shifted (by decide) (by decide)
    rwa [Nat.one_mul] at hone

/-- Last exponent of the powers of two that are finite. -/
def lastPower : Nat := 1023

theorem held_two_pow
    (finite : exponent ≤ lastPower) :
    Held (2 ^ exponent) := by
  have hpower : lastPower = 1023 := rfl
  have hone : exponentOfOne = 1074 := rfl
  have hlast : lastExponent = 2045 := rfl
  rcases Nat.le_total exponent 52 with hsmall | hlarge
  · have hle : 2 ^ exponent ≤ 2 ^ 53 := Nat.pow_le_pow_right Nat.two_pos (by omega)
    exact held_of_le hle
  · have hsplit : 2 ^ exponent = binadeSize * 2 ^ (exponent - 52) := by
      rw [binadeSize_eq, ← Nat.pow_add]
      congr 1
      omega
    rw [hsplit]
    exact held_shifted (by decide) (by omega)

/-- A product of numbers that are held is rounded once. -/
theorem Held.mul
    (h : Held m)
    (h' : Held n) :
    ofNat m * ofNat n = ofNat (m * n) := by
  obtain ⟨left, hleft, hleftFinite, hleftUnits⟩ := h
  obtain ⟨right, hright, hrightFinite, hrightUnits⟩ := h'
  have hunits : m * unitsPerOne * (n * unitsPerOne) = m * n * unitsPerOne * unitsPerOne := by
    ring
  have hscale := roundRank_mul_mul (m * n * unitsPerOne) 1 unitsPerOne_pos
  rw [Nat.one_mul] at hscale
  rw [hleft, hright, mul_finite (Nat.ne_of_lt hleftFinite) (Nat.ne_of_lt hrightFinite), hleftUnits,
    hrightUnits, hunits]
  unfold ofNat ofRatio round
  rw [hscale]

/-- A quotient of numbers that are held is rounded once. -/
theorem Held.div
    (h : Held m)
    (h' : Held n)
    (positive : 0 < n) :
    ofNat m / ofNat n = ofRatio m n := by
  obtain ⟨left, hleft, hleftFinite, hleftUnits⟩ := h
  obtain ⟨right, hright, hrightFinite, hrightUnits⟩ := h'
  have hzero : right.val ≠ 0 :=
    rank_ne_zero (hrightUnits ▸ Nat.mul_pos positive unitsPerOne_pos)
  have hscale : round false (m * unitsPerOne * unitsPerOne) (n * unitsPerOne) = ofRatio m n := by
    unfold round ofRatio round
    rw [roundRank_mul_mul _ _ unitsPerOne_pos]
  rw [hleft, hright]
  show Binary64.div _ _ = _
  simp only [Binary64.div, isInfinite, beq_iff_eq, Nat.ne_of_lt hleftFinite, Nat.ne_of_lt hrightFinite,
    hzero, if_false, hleftUnits, hrightUnits, bne_self_eq_false]
  exact hscale

/-- A number that is held is cut to itself. -/
theorem Held.floorWithin
    {bound : Nat}
    (h : Held n)
    (fits : n ≤ bound) :
    (ofNat n).floorWithin bound = n := by
  obtain ⟨rank, hrank, hfinite, hunits⟩ := h
  rw [hrank]
  simp only [Binary64.floorWithin, Nat.ne_of_lt hfinite, if_false, hunits,
    Nat.mul_div_cancel _ unitsPerOne_pos]
  exact Nat.min_eq_right fits

/-- The magnitude of a positive number that is held is no zero. -/
theorem Held.rank_pos
    (h : Held n)
    (positive : 0 < n) :
    ∃ rank : Fin (infiniteRank + 1), ofNat n = signed false rank ∧ rank.val ≠ 0 ∧
      rank.val ≠ infiniteRank := by
  obtain ⟨rank, hrank, hfinite, hunits⟩ := h
  exact ⟨rank, hrank, rank_ne_zero (hunits ▸ Nat.mul_pos positive unitsPerOne_pos),
    Nat.ne_of_lt hfinite⟩

end Held

section Powers

variable {a b n exponent : Nat}

/-- From the first power of two beyond the range on, natural numbers are infinite. -/
theorem ofNat_eq_infinity
    (h : 2 ^ (lastPower + 1) ≤ n) :
    ofNat n = infinity := by
  have hrank : infiniteRank = (lastExponent + 1) * binadeSize + binadeSize := by decide
  have hexponent : 52 + (lastExponent + 1) = lastPower + 1 + exponentOfOne := rfl
  have hunits : unitsOfRank infiniteRank = 2 ^ (lastPower + 1) * unitsPerOne := by
    rw [hrank, unitsOfRank_add (Nat.le_refl _) (by decide), binadeSize_eq, unitsPerOne_eq,
      ← Nat.pow_add, ← Nat.pow_add, hexponent]
  have hle : infiniteRank ≤ roundRank (n * unitsPerOne) 1 := by
    refine le_roundRank (Nat.le_refl _) Nat.one_pos ?_
    rw [hunits, Nat.mul_one]
    exact Nat.mul_le_mul_right _ h
  have hsame : roundRank (n * unitsPerOne) 1 = infiniteRank :=
    Nat.le_antisymm (roundRank_le_infiniteRank _ _) hle
  rw [ofNat, ofRatio, round, hsame]
  rfl

theorem two_pow_eq_infinity
    (h : lastPower < exponent) :
    ofNat (2 ^ exponent) = infinity :=
  ofNat_eq_infinity (Nat.pow_le_pow_right Nat.two_pos h)

/-- Infinity times a power of two. -/
theorem infinity_mul_two_pow
    (exponent : Nat) :
    infinity * ofNat (2 ^ exponent) = infinity := by
  have hinfinite : ∀ rank : Fin (infiniteRank + 1), rank.val ≠ 0 →
      infinity * signed false rank = infinity := by
    intro rank hrank
    show mul (ofRank false infiniteRank) (signed false rank) = infinity
    simp [mul, ofRank, isInfinite, hrank, infinity]
  rcases Nat.lt_or_ge lastPower exponent with hlarge | hsmall
  · rw [two_pow_eq_infinity hlarge]
    exact hinfinite _ (by decide)
  · obtain ⟨rank, hrank, hzero, -⟩ := (held_two_pow hsmall).rank_pos (Nat.two_pow_pos exponent)
    rw [hrank]
    exact hinfinite rank hzero

/-- Powers of two are multiplied to a power of two, also beyond the range. -/
theorem two_pow_mul_two_pow
    (a b : Nat) :
    ofNat (2 ^ a) * ofNat (2 ^ b) = ofNat (2 ^ (a + b)) := by
  rcases Nat.lt_or_ge lastPower a with ha | ha
  · rw [two_pow_eq_infinity ha, two_pow_eq_infinity (Nat.lt_add_right b ha), infinity_mul_two_pow]
  · rcases Nat.lt_or_ge lastPower b with hb | hb
    · rw [mul_commutes, two_pow_eq_infinity hb, two_pow_eq_infinity (Nat.lt_add_left a hb),
        infinity_mul_two_pow]
    · rw [(held_two_pow ha).mul (held_two_pow hb), ← Nat.pow_add]

/-- Repeated squaring doubles the exponent of the square and adds it where a digit is one. -/
theorem go_two_pow
    (a b exponent : Nat) :
    powNat.go (ofNat (2 ^ a)) (ofNat (2 ^ b)) exponent = ofNat (2 ^ (b + a * exponent)) := by
  induction exponent using Nat.strongRecOn generalizing a b with
  | ind exponent ih =>
      have hresult : (if exponent % 2 = 1 then ofNat (2 ^ b) * ofNat (2 ^ a) else ofNat (2 ^ b)) =
          ofNat (2 ^ (b + a * (exponent % 2))) := by
        rcases Nat.mod_two_eq_zero_or_one exponent with heven | hodd
        · rw [heven, if_neg Nat.zero_ne_one, Nat.mul_zero, Nat.add_zero]
        · rw [hodd, if_pos rfl, two_pow_mul_two_pow, Nat.mul_one]
      have hhalves := Nat.div_add_mod exponent 2
      rw [powNat.go, hresult]
      split
      case isTrue hzero =>
          rw [hzero, Nat.mul_zero, Nat.zero_add] at hhalves
          rw [hhalves]
      case isFalse hmore =>
          rw [two_pow_mul_two_pow, ih _ (by omega)]
          congr 2
          calc
            b + a * (exponent % 2) + (a + a) * (exponent / 2)
                = b + a * (2 * (exponent / 2) + exponent % 2) := by ring
            _ = b + a * exponent := by rw [hhalves]

/-- A power of a power of two. -/
theorem powNat_two_pow
    (a exponent : Nat) :
    powNat (ofNat (2 ^ a)) exponent = ofNat (2 ^ (a * exponent)) := by
  have hpower := go_two_pow a 0 exponent
  rw [Nat.zero_add, Nat.pow_zero] at hpower
  exact hpower

end Powers

end Binary64
end Number
end BatchRun
