import BatchRun.Number.Layout

/-!
# Decimal digits

**Results.**
* `isDigit_of_mem_digits`: the digits of a number are digits.
* `head_digits`: a positive number does not begin with zero.
* `le_ofDigitChars`: more digits make a number no smaller.
-/

namespace BatchRun
namespace Number

/-- Digits of a number. -/
def digits (n : Nat) : List Char := (natText n).toList

theorem digits_eq
    (n : Nat) :
    digits n = Nat.toDigits 10 n := by
  unfold digits natText
  exact Nat.toList_repr

theorem isDigit_of_mem_digits
    {n : Nat} {c : Char}
    (h : c ∈ digits n) :
    c.isDigit = true := by
  rw [digits_eq] at h
  exact Nat.isDigit_of_mem_toDigits (by decide) (by decide) h

theorem ofDigitChars_digits
    (n : Nat) :
    Nat.ofDigitChars 10 (digits n) 0 = n := by
  rw [digits_eq]
  exact Nat.ofDigitChars_ten_toDigits

theorem digits_ne_nil
    (n : Nat) :
    digits n ≠ [] := by
  rw [digits_eq]
  exact Nat.toDigits_ne_nil

theorem natText_injective
    {n m : Nat}
    (h : natText n = natText m) :
    n = m := by
  rw [← ofDigitChars_digits n, ← ofDigitChars_digits m, digits, digits, h]

theorem natText_ne_empty
    (n : Nat) :
    natText n ≠ "" := fun h => digits_ne_nil n (by rw [digits, h]; rfl)

theorem length_digits_le
    {n width : Nat}
    (positive : 0 < width)
    (h : n < Nat.pow 10 width) :
    (digits n).length ≤ width := by
  rw [digits_eq]
  exact (Nat.length_toDigits_le_iff (by decide) positive).mpr h

/-- Bounds of the code of a digit. -/
theorem toNat_of_isDigit
    {c : Char}
    (h : c.isDigit = true) :
    48 ≤ c.toNat ∧ c.toNat ≤ 57 := by
  simp only [Char.isDigit, Bool.and_eq_true, decide_eq_true_eq] at h
  exact ⟨h.1, h.2⟩

/-- A positive number does not begin with zero. -/
theorem head_digits
    {n : Nat}
    (h : 0 < n) :
    ∃ c cs, digits n = c :: cs ∧ c ≠ '0' := by
  rw [digits_eq]
  induction n using Nat.strongRecOn with
  | ind n ih =>
      by_cases hsmall : n < 10
      · refine ⟨n.digitChar, [], Nat.toDigits_of_lt_base hsmall, fun hzero => ?_⟩
        have hvalue := Nat.toNat_digitChar_of_lt_ten hsmall
        rw [hzero] at hvalue
        have hcode : '0'.toNat = 48 := rfl
        omega
      · obtain ⟨c, cs, heq, hc⟩ := ih (n / 10) (by omega) (by omega)
        refine ⟨c, cs ++ [(n % 10).digitChar], ?_, hc⟩
        rw [Nat.toDigits_of_base_le (by decide) (by omega), heq, List.cons_append]

/-- More digits make a number no smaller. -/
theorem le_ofDigitChars
    (cs : List Char)
    (n : Nat) :
    n ≤ Nat.ofDigitChars 10 cs n := by
  rw [Nat.ofDigitChars_eq_ofDigitChars_zero]
  have hpos : 0 < 10 ^ cs.length := Nat.pow_pos (by decide)
  have hle : 1 * n ≤ 10 ^ cs.length * n := Nat.mul_le_mul_right n hpos
  omega

end Number
end BatchRun
