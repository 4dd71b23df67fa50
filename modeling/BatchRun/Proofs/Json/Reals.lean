import BatchRun.Proofs.Json.Acceptance
import BatchRun.Proofs.Json.Tokens
import BatchRun.Proofs.Number.Reread

/-!
# Floating-point numbers of documents

A number from zero to one is written with a point behind its first digit, or with zeros in front of
its digits, or with a negative exponent.

**Type.**
A text `Yields` a number if it begins with a digit and the number is read of it.

**Results.**
* `numeral_point`, `numeral_exponent`: digits with a point among them, and with an exponent behind.
* `realOfParts_eq`: what is read is divided by a power of ten.
* `yields_magnitudeText`, `yields_share`: of the text of a share the number is read that it becomes.
* `accepts_real`: so it is where a floating-point number is expected.
-/

namespace BatchRun
namespace Json

open Number
open Number.Binary64
open Text

section Parts

variable {c : Char} {cs : List Char} {rest : Bytes} {positive : Bool} {significand : Nat}
  {start : Int}

theorem stops_of_bounded
    (bounded : Bounded rest) :
    Stops isDigit rest :=
  fun byte hbyte => (bounded byte hbyte).1

theorem stops_cons
    {byte : UInt8}
    (h : isDigit byte = false) :
    Stops isDigit (byte :: rest) := by
  intro other hother
  rwa [← Option.some.inj hother]

theorem dropWhile_of_stops
    (stops : Stops isDigit rest) :
    rest.dropWhile isDigit = rest := by
  have hnone : ∀ byte ∈ ([] : Bytes), isDigit byte = true := nofun
  exact dropWhile_append_of_stops hnone stops

/-- One digit in front of bytes that are none. -/
theorem numeral_single
    (hc : c.isDigit = true)
    (stops : Stops isDigit rest) :
    numeral positive (code c :: rest) = afterInteger positive (c.toNat - '0'.toNat) 0 rest := by
  have hgather : gather (digitValue (code c)) 0 rest = (digitValue (code c), 0, rest) :=
    gather_of_not_isDigit stops
  rw [← digitValue_code hc]
  by_cases hzero : code c = code '0'
  · rw [hzero]
    exact numeral_zero stops
  · rw [numeral_digit hzero (isDigit_code hc) hgather, dropWhile_of_stops stops, Nat.sub_self]

/-- Digits behind the point. -/
theorem fractionPart_digits
    (filled : cs ≠ [])
    (digits : ∀ c ∈ cs, c.isDigit = true)
    (fits : Nat.ofDigitChars 10 cs significand ≤ maxWord)
    (stops : Stops isDigit rest) :
    fractionPart positive significand start (encoded cs ++ rest) =
      if startsExponent rest then
        exponentPart positive (Nat.ofDigitChars 10 cs significand) (start - cs.length) rest.tail
      else
        realOfParts positive (Nat.ofDigitChars 10 cs significand) (start - cs.length) rest := by
  have hcount : cs.length ≠ 0 := fun h => filled (List.length_eq_zero_iff.mp h)
  unfold fractionPart
  simp only [gather_digits 0 digits fits stops, dropWhile_of_stops stops, Nat.zero_add, hcount,
    decide_false, Bool.false_and, Bool.false_eq_true, if_false]

theorem exponentDigits_digits
    {negative : Bool} {exponent : Nat}
    (digits : ∀ c ∈ cs, c.isDigit = true)
    (fits : Nat.ofDigitChars 10 cs exponent ≤ maxExponent)
    (stops : Stops isDigit rest) :
    exponentDigits positive significand start negative exponent (encoded cs ++ rest) =
      realOfParts positive significand
        (if negative then start - (Nat.ofDigitChars 10 cs exponent : Nat)
          else start + (Nat.ofDigitChars 10 cs exponent : Nat)) rest := by
  induction cs generalizing exponent with
  | nil => exact exponentDigits_of_stops stops
  | cons c cs ih =>
      have hc := digits c List.mem_cons_self
      rw [Nat.ofDigitChars_cons] at fits ⊢
      have hle := le_ofDigitChars cs (10 * exponent + (c.toNat - '0'.toNat))
      have hsmall : exponent * 10 + digitValue (code c) ≤ maxExponent := by
        rw [digitValue_code hc]
        omega
      rw [encoded_digit hc, List.cons_append, exponentDigits, if_pos (isDigit_code hc),
        if_pos hsmall, digitValue_code hc, Nat.mul_comm exponent 10]
      exact ih (fun d hd => digits d (List.mem_cons_of_mem c hd)) fits

/-- A negative exponent behind its letter. -/
theorem exponentPart_digits
    {n : Nat}
    (fits : n ≤ maxExponent)
    (stops : Stops isDigit rest) :
    exponentPart positive significand start (code '-' :: (encoded (digits n) ++ rest)) =
      realOfParts positive significand (start - n) rest := by
  have hminus : code '-' ≠ code '+' := by decide
  have hdigits : ∀ c ∈ digits n, c.isDigit = true := fun c hc => isDigit_of_mem_digits hc
  have hvalue := ofDigitChars_digits n
  cases hcs : digits n with
  | nil => exact absurd hcs (digits_ne_nil n)
  | cons c cs =>
      rw [hcs] at hdigits hvalue
      rw [Nat.ofDigitChars_cons, Nat.mul_zero, Nat.zero_add] at hvalue
      have hc := hdigits c List.mem_cons_self
      have hrest : exponentDigits positive significand start true (c.toNat - '0'.toNat)
          (encoded cs ++ rest) = _ :=
        exponentDigits_digits (fun d hd => hdigits d (List.mem_cons_of_mem c hd))
          (hvalue ▸ fits) stops
      rw [hvalue] at hrest
      rw [exponentPart_eq, exponentSign, if_neg hminus, if_pos rfl, encoded_digit hc,
        List.cons_append, unsignedExponent, if_pos (isDigit_code hc), digitValue_code hc]
      exact hrest

end Parts

section Shares

variable {c : Char} {cs : List Char} {rest : Bytes} {rank places : Nat} {x y : Binary64}

theorem realOfParts_of_scale
    {significand : Nat} {exponent : Int}
    (h : scale significand exponent = some x) :
    realOfParts true significand exponent rest = .ok (.real x, rest) := by
  unfold realOfParts
  rw [h]
  rfl

/-- Digits in front of so many places are divided by a power of ten. -/
theorem realOfParts_eq
    {significand : Nat}
    (behind : 0 < places)
    (few : places ≤ maxPower) :
    realOfParts true significand (-(places : Int)) rest =
      .ok (.real (ofNat significand / ofNat (10 ^ places)), rest) := by
  have hnegative : ¬ (0 : Int) ≤ -(places : Int) := by omega
  have hplaces : (-(places : Int)).natAbs = places := by omega
  refine realOfParts_of_scale ?_
  unfold scale
  dsimp only
  rw [if_neg hnegative, hplaces, scaleDown, if_pos few, powerOfTen, Nat.pow_eq]

/-- A point behind the first digit. -/
theorem numeral_point
    (hc : c.isDigit = true)
    (filled : cs ≠ [])
    (digits : ∀ d ∈ cs, d.isDigit = true)
    (fits : Nat.ofDigitChars 10 (c :: cs) 0 ≤ maxWord)
    (stops : Stops isDigit rest) :
    numeral true (encoded (c :: '.' :: cs) ++ rest) =
      if startsExponent rest then
        exponentPart true (Nat.ofDigitChars 10 (c :: cs) 0) (-(cs.length : Int)) rest.tail
      else realOfParts true (Nat.ofDigitChars 10 (c :: cs) 0) (-(cs.length : Int)) rest := by
  have hvalue : Nat.ofDigitChars 10 (c :: cs) 0 =
      Nat.ofDigitChars 10 cs (c.toNat - '0'.toNat) := by
    rw [Nat.ofDigitChars_cons, Nat.mul_zero, Nat.zero_add]
  have hpoint : encoded ('.' :: cs) = code '.' :: encoded cs := encoded_ascii cs (by decide)
  have hzero : ((0 : Nat) : Int) - cs.length = -(cs.length : Int) := by omega
  rw [hvalue] at fits ⊢
  rw [encoded_digit hc, hpoint, List.cons_append, List.cons_append,
    numeral_single hc (stops_cons rfl), afterInteger, if_pos rfl,
    fractionPart_digits filled digits fits stops, hzero]

/-- A text that begins with a digit and of which a number is read. -/
structure Yields (text : List Char) (x : Binary64) : Prop where
  head : ∃ c cs, text = c :: cs ∧ c.isDigit = true
  reads : ∀ rest, Bounded rest → numeral true (encoded text ++ rest) = .ok (.real x, rest)

theorem startsExponent_of_bounded
    (bounded : Bounded rest) :
    startsExponent rest = false := by
  refine stops_iff_startsExponent.mpr fun byte hbyte => ?_
  obtain ⟨-, -, hlower, hupper⟩ := bounded byte hbyte
  simp [hlower, hupper]

/-- Zeros between the point and the digits. -/
theorem yields_positional
    {zeros : Nat}
    (digits : ∀ d ∈ cs, d.isDigit = true)
    (fits : Nat.ofDigitChars 10 cs 0 ≤ maxWord)
    (length : zeros + cs.length = places)
    (behind : 0 < places)
    (few : places ≤ maxPower) :
    Yields ('0' :: '.' :: (List.replicate zeros '0' ++ cs))
      (ofNat (Nat.ofDigitChars 10 cs 0) / ofNat (10 ^ places)) := by
  refine ⟨⟨_, _, rfl, rfl⟩, fun rest bounded => ?_⟩
  have hvalue : Nat.ofDigitChars 10 ('0' :: (List.replicate zeros '0' ++ cs)) 0 =
      Nat.ofDigitChars 10 cs 0 := by
    rw [Nat.ofDigitChars_cons, Nat.ofDigitChars_append, Nat.ofDigitChars_replicate_zero]
    simp
  have hlength : (List.replicate zeros '0' ++ cs).length = places := by
    rw [List.length_append, List.length_replicate, length]
  have hfilled : List.replicate zeros '0' ++ cs ≠ [] := by
    intro hnil
    rw [hnil] at hlength
    exact absurd hlength (Nat.ne_of_lt behind)
  have hdigits : ∀ d ∈ List.replicate zeros '0' ++ cs, d.isDigit = true := by
    rw [List.forall_mem_append]
    refine ⟨fun d hd => ?_, digits⟩
    rw [(List.mem_replicate.mp hd).2]
    rfl
  rw [numeral_point rfl hfilled hdigits (hvalue.symm ▸ fits) (stops_of_bounded bounded), hvalue,
    hlength, startsExponent_of_bounded bounded, if_neg Bool.false_ne_true]
  exact realOfParts_eq behind few

/-- Digits in front of an exponent, with a point behind the first one if there are more. -/
def mantissa (c : Char) : List Char → List Char
  | [] => [c]
  | d :: ds => c :: '.' :: d :: ds

theorem toList_exponentText
    {place : Int}
    (below_one : place ≤ 0) :
    (exponentText (c :: cs) place).toList =
      mantissa c cs ++ 'e' :: '-' :: Number.digits (1 - place).toNat := by
  have hnegative : place - 1 < 0 := by omega
  have habs : (place - 1).natAbs = (1 - place).toNat := by omega
  unfold exponentText
  simp only [hnegative, if_true, habs]
  cases cs with
  | nil => simp [mantissa, Number.digits]
  | cons d ds => simp [mantissa, Number.digits]

theorem encoded_exponent
    (n : Nat)
    (rest : Bytes) :
    encoded ('e' :: '-' :: Number.digits n) ++ rest =
      code 'e' :: code '-' :: (encoded (Number.digits n) ++ rest) := by
  rw [encoded_ascii _ (by decide), encoded_ascii _ (by decide)]
  rfl

/-- A negative exponent behind the digits. -/
theorem numeral_exponent
    {n : Nat}
    (digits : ∀ d ∈ c :: cs, d.isDigit = true)
    (fits : Nat.ofDigitChars 10 (c :: cs) 0 ≤ maxWord)
    (few : n ≤ maxExponent)
    (stops : Stops isDigit rest) :
    numeral true (encoded (mantissa c cs ++ 'e' :: '-' :: Number.digits n) ++ rest) =
      realOfParts true (Nat.ofDigitChars 10 (c :: cs) 0) (-((cs.length + n : Nat) : Int)) rest := by
  have hc := digits c List.mem_cons_self
  rw [encoded_append, List.append_assoc, encoded_exponent]
  cases cs with
  | nil =>
      have hpoint : code 'e' ≠ code '.' := by decide
      have hvalue : Nat.ofDigitChars 10 [c] 0 = c.toNat - '0'.toNat := by
        rw [Nat.ofDigitChars_cons, Nat.ofDigitChars_nil, Nat.mul_zero, Nat.zero_add]
      have hplaces : ((0 : Nat) : Int) - n = -((0 + n : Nat) : Int) := by omega
      rw [mantissa, encoded_digit hc, List.cons_append, encoded_nil, List.nil_append,
        numeral_single hc (stops_cons rfl), hvalue, List.length_nil, ← hplaces]
      have hletter : startsExponent (code 'e' :: code '-' ::
          (encoded (Number.digits n) ++ rest)) = true := rfl
      unfold afterInteger
      simp only [hpoint, hletter, if_false, if_true]
      exact exponentPart_digits few stops
  | cons d ds =>
      have hplaces : -((d :: ds).length : Int) - n = -(((d :: ds).length + n : Nat) : Int) := by
        omega
      rw [mantissa, numeral_point hc (List.cons_ne_nil d ds)
        (fun e he => digits e (List.mem_cons_of_mem c he)) fits (stops_cons rfl), ← hplaces]
      exact exponentPart_digits few stops

/-- The text of a magnitude between zero and one. -/
theorem yields_magnitudeText
    (nonzero : rank ≠ 0)
    (spells : Spells rank places (shortest .toEven rank).trimmed)
    (few : places ≤ maxPower) :
    Yields (magnitudeText .document rank).toList
      (ofNat (shortest .toEven rank).trimmed.significand / ofNat (10 ^ places)) := by
  obtain ⟨c, cs, hdigits, -, hall, hlength, hplace⟩ := spells.digits
  have hfits : Nat.ofDigitChars 10 (c :: cs) 0 ≤ maxWord := by
    have hshort := spells.short
    rw [Decimal.trimmed, hdigits] at hshort
    exact Nat.le_trans hshort (by decide)
  have hbehind : 0 < places := Nat.zero_lt_of_lt hlength
  have hbelow : (shortest .toEven rank).digits.2 ≤ 0 := by omega
  have hvalue : (shortest .toEven rank).trimmed.significand = Nat.ofDigitChars 10 (c :: cs) 0 := by
    rw [Decimal.trimmed, hdigits]
  rw [hvalue]
  unfold magnitudeText
  rw [if_neg nonzero]
  simp only [Layout.document, hdigits]
  split
  case isTrue =>
      unfold positionalText
      rw [if_pos hbelow, String.toList_ofList]
      refine yields_positional hall hfits ?_ hbehind few
      rw [List.length_cons, hplace]
      omega
  case isFalse =>
      have hmax : maxPower ≤ maxExponent := by decide
      rw [toList_exponentText hbelow]
      refine ⟨?_, fun rest bounded => ?_⟩
      · cases cs with
        | nil => exact ⟨c, _, rfl, hall c List.mem_cons_self⟩
        | cons d ds => exact ⟨c, _, rfl, hall c List.mem_cons_self⟩
      · have hsum : cs.length + (1 - (shortest .toEven rank).digits.2).toNat = places := by omega
        rw [numeral_exponent hall hfits (by omega) (stops_of_bounded bounded), hsum]
        exact realOfParts_eq hbehind few

theorem yields_zero : Yields ((0 : Binary64).text .document).toList 0 := by
  have htext : ((0 : Binary64).text .document).toList = '0' :: '.' :: ['0'] := by decide +kernel
  have hvalue : ofNat (Nat.ofDigitChars 10 ['0'] 0) / ofNat (10 ^ 1) = 0 := by decide +kernel
  have hfits : Nat.ofDigitChars 10 ['0'] 0 ≤ maxWord := by decide
  have hfew : 1 ≤ maxPower := by decide
  rw [htext, ← hvalue]
  exact yields_positional (List.all_eq_true.mp rfl) hfits rfl Nat.one_pos hfew

theorem yields_one : Yields ((1 : Binary64).text .document).toList 1 := by
  have htext : ((1 : Binary64).text .document).toList = '1' :: '.' :: ['0'] := by decide +kernel
  have hvalue : ofNat (Nat.ofDigitChars 10 ['1', '0'] 0) / ofNat (10 ^ 1) = 1 := by decide +kernel
  rw [htext, ← hvalue]
  refine ⟨⟨_, _, rfl, rfl⟩, fun rest bounded => ?_⟩
  rw [numeral_point rfl (List.cons_ne_nil _ _) (List.all_eq_true.mp rfl) (by decide)
    (stops_of_bounded bounded), startsExponent_of_bounded bounded, if_neg Bool.false_ne_true]
  exact realOfParts_eq Nat.one_pos (by decide)

/-- Of the text of a share the number is read that it becomes. -/
theorem yields_share
    {parts : Nat} {rank : Fin (infiniteRank + 1)}
    (share : Share parts rank.val)
    (finite : rank.val < infiniteRank)
    (few : parts ≤ 10 ^ 200) :
    Yields ((signed false rank).text .document).toList (signed false rank).readBack := by
  rcases share.cases finite with hwhole | ⟨below, hbelow, hbelow_one, hparts⟩
  · rw [readBack_whole hwhole]
    rcases hwhole with hzero | hone
    · rw [hzero]
      exact yields_zero
    · rw [hone]
      exact yields_one
  · obtain ⟨places, hspells, hread, hplaces, -⟩ :=
      readBack_eq finite hbelow hbelow_one hparts few
    have hpower : 200 + 16 ≤ maxPower := by decide
    have htext : (signed false rank).text .document = magnitudeText .document rank.val := by
      rw [Binary64.text, if_neg Bool.false_ne_true, if_neg (Nat.ne_of_lt finite),
        String.empty_append]
    rw [htext, hread]
    exact yields_magnitudeText (hbelow ▸ Nat.succ_ne_zero below) hspells
      (Nat.le_trans hplaces hpower)

/-- A number is read where a floating-point number is expected. -/
theorem accepts_real
    (h : Yields (x.text .document).toList y) :
    Accepts Reader.real (.number (.real x)) y := by
  obtain ⟨c, cs, htext, hc⟩ := h.head
  have hhead : ∃ byte bytes, encoded (x.text .document).toList = byte :: bytes ∧
      isDigit byte = true := by
    rw [htext, encoded_digit hc]
    exact ⟨_, _, rfl, isDigit_code hc⟩
  exact accepts_numberWith (fun _ _ => rfl) hhead h.reads rfl

end Shares

end Json
end BatchRun
