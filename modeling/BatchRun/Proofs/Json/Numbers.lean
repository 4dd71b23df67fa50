import BatchRun.Json.Printer
import BatchRun.Json.Token
import BatchRun.Proofs.Number.Text
import BatchRun.Proofs.Text.Encoding

/-!
# Numbers of documents

**Type.**
Bytes are `Bounded` if they do not go on with a number before them.

**Results.**
* `numeral_digits`: what is read of the digits of a number that fits is the number.
* `numeral_negative`: the same behind a minus sign.
* `numberChars_numeralText`, `head_numeralText`: the characters with which a number is written.
-/

namespace BatchRun
namespace Json

open Number
open Text

/-- Bytes that do not go on with a number before them. -/
def Bounded (rest : Bytes) : Prop :=
  ∀ byte, rest.head? = some byte →
    isDigit byte = false ∧ byte ≠ code '.' ∧ byte ≠ code 'e' ∧ byte ≠ code 'E'

theorem dropWhile_of_bounded
    {rest : Bytes}
    (h : Bounded rest) :
    rest.dropWhile isDigit = rest := by
  cases rest with
  | nil => rfl
  | cons byte rest => simp [(h byte rfl).1]

section Digits

variable {c : Char}

theorem encoded_digit
    (h : c.isDigit = true)
    (cs : List Char) :
    encoded (c :: cs) = code c :: encoded cs := by
  have hbounds := toNat_of_isDigit h
  exact encoded_ascii cs (by omega)

theorem toNat_code
    (h : c.isDigit = true) :
    (code c).toNat = c.toNat := by
  have hbounds := toNat_of_isDigit h
  simp [code]
  omega

theorem isDigit_code
    (h : c.isDigit = true) :
    isDigit (code c) = true := by
  have hbounds := toNat_of_isDigit h
  have hcode := toNat_code h
  simp only [isDigit, Bool.and_eq_true, decide_eq_true_eq, UInt8.le_iff_toNat_le, hcode]
  exact hbounds

theorem digitValue_code
    (h : c.isDigit = true) :
    digitValue (code c) = c.toNat - '0'.toNat := by
  rw [digitValue, toNat_code h]
  rfl

/-- Digits of a number that fits are gathered up to its end. -/
theorem gather_digits
    {cs : List Char} {rest : Bytes} {significand : Nat}
    (count : Nat)
    (digits : ∀ c ∈ cs, c.isDigit = true)
    (fits : Nat.ofDigitChars 10 cs significand ≤ maxWord)
    (stops : ∀ byte, rest.head? = some byte → isDigit byte = false) :
    gather significand count (encoded cs ++ rest) =
      (Nat.ofDigitChars 10 cs significand, count + cs.length, rest) := by
  induction cs generalizing significand count with
  | nil =>
      cases rest with
      | nil => simp [gather]
      | cons byte rest => simp [gather, stops byte rfl]
  | cons c cs ih =>
      have hc := digits c List.mem_cons_self
      rw [Nat.ofDigitChars_cons] at fits ⊢
      have hle := le_ofDigitChars cs (10 * significand + (c.toNat - '0'.toNat))
      have hsmall : significand * 10 + digitValue (code c) ≤ maxWord := by
        rw [digitValue_code hc]
        omega
      rw [encoded_digit hc, List.cons_append, gather]
      simp only [isDigit_code hc, hsmall, decide_true, Bool.and_self, if_true]
      rw [digitValue_code hc, Nat.mul_comm significand 10,
        ih _ (fun d hd => digits d (List.mem_cons_of_mem c hd)) fits, List.length_cons]
      congr 2
      omega

end Digits

theorem afterInteger_of_bounded
    {positive : Bool} {significand : Nat} {rest : Bytes}
    (bounded : Bounded rest) :
    afterInteger positive significand 0 rest = afterInteger.whole positive significand 0 rest := by
  cases rest with
  | nil => rfl
  | cons byte rest =>
      obtain ⟨-, hpoint, hlower, hupper⟩ := bounded byte rfl
      simp [afterInteger, hpoint, startsExponent, hlower, hupper]

/-- The digits of a number that fits are read as the number. -/
theorem numeral_eq
    {positive : Bool} {n : Nat} {rest : Bytes}
    (fits : n ≤ maxWord)
    (bounded : Bounded rest) :
    numeral positive (encoded (digits n) ++ rest) = afterInteger.whole positive n 0 rest := by
  by_cases hzero : n = 0
  · subst hzero
    have hdigits : encoded (digits 0) ++ rest = code '0' :: rest := rfl
    rw [hdigits, ← afterInteger_of_bounded bounded]
    cases rest with
    | nil => rfl
    | cons byte rest => simp [numeral, (bounded byte rfl).1]
  · obtain ⟨c, cs, heq, hc⟩ := head_digits (Nat.pos_of_ne_zero hzero)
    have hdigits : ∀ d ∈ c :: cs, d.isDigit = true := fun d hd =>
      isDigit_of_mem_digits (heq ▸ hd)
    have hfirst := hdigits c List.mem_cons_self
    have hvalue : Nat.ofDigitChars 10 cs (c.toNat - '0'.toNat) = n := by
      have hn := ofDigitChars_digits n
      rw [heq, Nat.ofDigitChars_cons, Nat.mul_zero, Nat.zero_add] at hn
      exact hn
    have hne : code c ≠ code '0' := by
      intro hcode
      have hnat := congrArg UInt8.toNat hcode
      rw [toNat_code hfirst] at hnat
      exact hc (Char.toNat_inj.mp hnat)
    have hgather := gather_digits 0 (fun d hd => hdigits d (List.mem_cons_of_mem c hd))
      (by rw [hvalue]; exact fits) fun byte hbyte => (bounded byte hbyte).1
    rw [heq, encoded_digit hfirst, List.cons_append, numeral.eq_def]
    simp only [hne, if_false, isDigit_code hfirst, if_true, digitValue_code hfirst, hgather,
      dropWhile_of_bounded bounded, Nat.sub_self, hvalue]
    exact afterInteger_of_bounded bounded

theorem numeral_digits
    {n : Nat} {rest : Bytes}
    (fits : n ≤ maxWord)
    (bounded : Bounded rest) :
    numeral true (encoded (digits n) ++ rest) = .ok (.whole n, rest) :=
  numeral_eq fits bounded

theorem numeral_negative
    {n : Nat} {rest : Bytes}
    (positive : n ≠ 0)
    (fits : n ≤ Nat.pow 2 63)
    (bounded : Bounded rest) :
    numeral false (encoded (digits n) ++ rest) = .ok (.whole (-(n : Int)), rest) := by
  have hword : n ≤ maxWord := Nat.le_trans fits (by decide)
  have hnot : ¬(n = 0 ∨ Nat.pow 2 63 < n) := by omega
  rw [numeral_eq hword bounded]
  simp only [afterInteger.whole, ne_eq, not_true_eq_false, if_false, Bool.false_eq_true, hnot]
  rfl

/-- Characters with which a number is written. -/
theorem numberChars_numeralText
    (value : Numeral) :
    ∀ c ∈ (numeralText value).toList, isNumberChar c = true := by
  cases value with
  | whole value => exact fun c h => isNumberChar_of_isMark ((marked_intText value).marks c h)
  | real value => exact numberChars_text .document value

theorem head_numeralText
    (value : Numeral) :
    ∃ c cs, (numeralText value).toList = c :: cs ∧ beginsNumber c = true := by
  cases value with
  | whole value => exact (marked_intText value).head
  | real value => exact head_text .document value

end Json
end BatchRun
