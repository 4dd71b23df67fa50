import BatchRun.Proofs.Number.Digits
import BatchRun.Proofs.Time.Calendar
import Mathlib.Algebra.GroupWithZero.Nat
import Mathlib.Tactic.SplitIfs

/-!
# Points in time in texts

**Type.**
A `Timestamp` is `Civil` if its date is one of the calendar, and if it lies in a leap second only
at the end of a minute.

**Results.**
* `scanNumber_append`, `scanNumber_padded`: digits are read as their number.
* `parse?_text`: what is read of the text of a civil point in time is the point.
* `millisSince_lt`: the time between two civil points fits in 64 bits.
-/

namespace BatchRun
namespace Time

open Number
open Text

/-- A point in time that the calendar has. -/
structure Timestamp.Civil (t : Timestamp) : Prop where
  year : isYear (dateOfDays (Int.fdiv t.seconds secondsPerDay)).1 = true
  nanos :
    t.nanos < nanosPerSecond ∨
      t.nanos < 2 * nanosPerSecond ∧ Int.fmod t.seconds 60 = 59

namespace Timestamp

/-- Digits of a number behind leading zeros. -/
def padded (width n : Nat) : List Char :=
  List.replicate (width - (digits n).length) '0' ++ digits n

section Digits

variable {width n : Nat} {c : Char} {cs rest : List Char}

theorem toList_zeroPadded
    (width n : Nat) :
    (zeroPadded width n).toList = padded width n := by
  simp [zeroPadded, padded, digits, String.length_toList]

theorem isDigit_of_mem_padded
    (h : c ∈ padded width n) :
    c.isDigit = true := by
  rcases List.mem_append.mp h with h | h
  · rw [(List.mem_replicate.mp h).2]
    rfl
  · exact isDigit_of_mem_digits h

theorem length_padded
    (positive : 0 < width)
    (h : n < Nat.pow 10 width) :
    (padded width n).length = width := by
  have hle := length_digits_le positive h
  simp only [padded, List.length_append, List.length_replicate]
  omega

theorem padded_ne_nil
    (width n : Nat) :
    padded width n ≠ [] := by
  intro h
  exact digits_ne_nil n (List.append_eq_nil_iff.mp h).2

theorem digitsValue_eq
    (cs : List Char) :
    digitsValue cs = Nat.ofDigitChars 10 cs 0 := by
  unfold digitsValue Nat.ofDigitChars
  congr 1
  funext value c
  rw [Nat.mul_comm]
  rfl

theorem digitsValue_padded
    (width n : Nat) :
    digitsValue (padded width n) = n := by
  rw [digitsValue_eq, padded, Nat.ofDigitChars_append, Nat.ofDigitChars_replicate_zero,
    Nat.mul_zero, ofDigitChars_digits]

/-- Digits are read as their number if they are at an end: of the width, or of the digits. -/
theorem scanNumber_append
    (isDigits : ∀ c ∈ cs, c.isDigit = true)
    (filled : cs ≠ [])
    (short : cs.length ≤ width)
    (ends : cs.length = width ∨ ∀ c, rest.head? = some c → c.isDigit = false) :
    scanNumber width (cs ++ rest) = .ok (digitsValue cs, rest) := by
  have hdigits : ((cs ++ rest).take width).takeWhile isAsciiDigit = cs := by
    have hall : ∀ c ∈ cs, isAsciiDigit c = true := isDigits
    rw [List.take_append, List.take_of_length_le short, List.takeWhile_append_of_pos hall]
    rcases ends with hfull | hend
    · simp [hfull]
    · cases rest with
      | nil => simp
      | cons c rest =>
          have hc : isAsciiDigit c = false := hend c rfl
          cases width - cs.length with
          | zero => simp
          | succ count => simp [hc]
  obtain ⟨c, tail, rfl⟩ := List.exists_cons_of_ne_nil filled
  unfold scanNumber
  rw [hdigits]
  simp

/-- Digits of a fixed width are read as their number. -/
theorem scanNumber_padded
    (positive : 0 < width)
    (h : n < Nat.pow 10 width)
    (rest : List Char) :
    scanNumber width (padded width n ++ rest) = .ok (n, rest) := by
  have hlength := length_padded positive h
  rw [scanNumber_append (fun _ hc => isDigit_of_mem_padded hc) (padded_ne_nil width n)
    (Nat.le_of_eq hlength) (.inl hlength), digitsValue_padded]

theorem isBlank_of_isDigit
    (h : c.isDigit = true) :
    isBlank c = false := by
  have hbounds := toNat_of_isDigit h
  simp only [isBlank, Bool.or_eq_false_iff, Bool.and_eq_false_iff, decide_eq_false_iff_not,
    beq_eq_false_iff_ne]
  omega

theorem skipBlanks_cons
    (h : isBlank c = false) :
    skipBlanks (c :: cs) = c :: cs := by
  simp [skipBlanks, h]

theorem padded_eq_cons
    (width n : Nat) :
    ∃ c cs, padded width n = c :: cs ∧ c.isDigit = true := by
  obtain ⟨c, cs, heq⟩ := List.exists_cons_of_ne_nil (padded_ne_nil width n)
  exact ⟨c, cs, heq, isDigit_of_mem_padded (heq ▸ List.mem_cons_self)⟩

theorem skipBlanks_padded
    (width n : Nat)
    (rest : List Char) :
    skipBlanks (padded width n ++ rest) = padded width n ++ rest := by
  obtain ⟨c, cs, heq, hc⟩ := padded_eq_cons width n
  rw [heq, List.cons_append, skipBlanks_cons (isBlank_of_isDigit hc)]

end Digits

section Parts

variable {rest : List Char}

theorem scanMark_cons
    {mark : Char}
    (h : isBlank mark = false) :
    scanMark mark (mark :: rest) = .ok rest := by
  unfold scanMark
  rw [skipBlanks_cons h]
  simp

theorem scanField_padded
    {least greatest n : Nat}
    (low : least ≤ n)
    (high : n ≤ greatest)
    (small : n < 100) :
    scanField least greatest (padded 2 n ++ rest) = .ok (n, rest) := by
  unfold scanField
  rw [skipBlanks_padded, scanNumber_padded (by decide) small]
  change (if least ≤ n ∧ n ≤ greatest then _ else _) = _
  rw [if_pos ⟨low, high⟩]
  rfl

/-- The characters of a year. -/
def yearChars (year : Int) : List Char :=
  if 0 ≤ year ∧ year ≤ 9999 then padded 4 year.toNat
  else (if year < 0 then '-' else '+') :: padded 4 year.natAbs

theorem toList_yearText
    (year : Int) :
    (yearText year).toList = yearChars year := by
  unfold yearText yearChars
  split
  case isTrue => exact toList_zeroPadded 4 _
  case isFalse =>
      rw [String.toList_append, toList_zeroPadded]
      split <;> rfl

/-- A year of the calendar is read up to the mark behind it. -/
theorem scanYear_yearChars
    {year : Int}
    (h : isYear year = true) :
    scanYear (yearChars year ++ '-' :: rest) = .ok (year, '-' :: rest) := by
  have hbounds : -262143 ≤ year ∧ year ≤ 262142 := by simpa [isYear] using h
  have hsigned : ∀ n : Nat, scanNumber (padded 4 n ++ '-' :: rest).length
      (padded 4 n ++ '-' :: rest) = .ok (n, '-' :: rest) := by
    intro n
    rw [scanNumber_append (fun _ hc => isDigit_of_mem_padded hc) (padded_ne_nil 4 n)
      (by simp) (.inr (by simp)), digitsValue_padded]
  unfold yearChars
  split
  case isTrue hplain =>
      have hsmall : year.toNat < 10000 := by omega
      obtain ⟨c, cs, heq, hc⟩ := padded_eq_cons 4 year.toNat
      have hread : scanNumber 4 (padded 4 year.toNat ++ '-' :: rest)
          = .ok (year.toNat, '-' :: rest) :=
        scanNumber_padded (by decide) hsmall ('-' :: rest)
      have hminus : c ≠ '-' := by
        rintro rfl
        cases hc
      have hplus : c ≠ '+' := by
        rintro rfl
        cases hc
      rw [heq, List.cons_append] at hread ⊢
      unfold scanYear
      rw [skipBlanks_cons (isBlank_of_isDigit hc)]
      simp only
      split
      case h_1 heq => exact absurd (List.cons.inj heq).1 hminus
      case h_2 heq => exact absurd (List.cons.inj heq).1 hplus
      case h_3 =>
          rw [hread]
          have hyear : ((year.toNat : Nat) : Int) = year := by omega
          exact congrArg (fun y => Except.ok (y, '-' :: rest)) hyear
  case isFalse hplain =>
      have hword : year.natAbs < Nat.pow 2 63 := by
        have : Nat.pow 2 63 = 9223372036854775808 := rfl
        omega
      have hrange : -(Nat.pow 2 31 : Int) ≤ year ∧ year < Nat.pow 2 31 := by
        have : Nat.pow 2 31 = 2147483648 := rfl
        omega
      split
      case isTrue hneg =>
          have hyear : -1 * (year.natAbs : Int) = year := by omega
          rw [List.cons_append]
          unfold scanYear
          rw [skipBlanks_cons rfl]
          simp only
          rw [hsigned year.natAbs]
          change (if year.natAbs < Nat.pow 2 63 then _ else _) = _
          rw [if_pos hword, hyear, if_pos hrange]
          rfl
      case isFalse hpos =>
          have hyear : 1 * (year.natAbs : Int) = year := by omega
          rw [List.cons_append]
          unfold scanYear
          rw [skipBlanks_cons rfl]
          simp only
          rw [hsigned year.natAbs]
          change (if year.natAbs < Nat.pow 2 63 then _ else _) = _
          rw [if_pos hword, hyear, if_pos hrange]
          rfl

theorem scanFraction_padded
    {width n : Nat}
    (positive : 0 < width)
    (le : width ≤ 9)
    (h : n < Nat.pow 10 width) :
    scanFraction ('.' :: (padded width n ++ ['Z'])) = .ok (n * Nat.pow 10 (9 - width), ['Z']) := by
  have hlength := length_padded positive h
  have hread : scanNumber 9 (padded width n ++ ['Z']) = .ok (n, ['Z']) := by
    rw [scanNumber_append (fun _ hc => isDigit_of_mem_padded hc) (padded_ne_nil width n)
      (by omega) (.inr (by simp)), digitsValue_padded]
  unfold scanFraction
  simp only [hread, bind, Except.bind]
  rw [List.length_append, hlength, Nat.add_sub_cancel]
  rfl

/-- A fraction of a second is read up to the mark of the time zone. -/
theorem scanFraction_fractionText
    {nanos : Nat}
    (h : nanos < nanosPerSecond) :
    scanFraction ((fractionText nanos).toList ++ ['Z']) = .ok (nanos, ['Z']) := by
  have hlt : nanos < 1000000000 := h
  unfold fractionText
  split
  case isTrue hzero => rw [hzero]; rfl
  case isFalse =>
      split
      case isTrue hmillis =>
          rw [String.toList_append, toList_zeroPadded]
          have hsmall : nanos / 1000000 < 1000 := by omega
          refine (scanFraction_padded (by decide) (by decide) hsmall).trans ?_
          have heq : nanos / 1000000 * 1000000 = nanos := by omega
          exact congrArg (fun n => Except.ok (n, ['Z'])) heq
      case isFalse =>
          split
          case isTrue hmicros =>
              rw [String.toList_append, toList_zeroPadded]
              have hsmall : nanos / 1000 < 1000000 := by omega
              refine (scanFraction_padded (by decide) (by decide) hsmall).trans ?_
              have heq : nanos / 1000 * 1000 = nanos := by omega
              exact congrArg (fun n => Except.ok (n, ['Z'])) heq
          case isFalse =>
              rw [String.toList_append, toList_zeroPadded]
              refine (scanFraction_padded (by decide) (by decide) hlt).trans ?_
              rw [Nat.sub_self]
              exact congrArg (fun n => Except.ok (n, ['Z'])) (Nat.mul_one nanos)

end Parts

/-- Characters of a date and a time of day in UTC. -/
def momentChars (year : Int) (month day hour minute second nanos : Nat) : List Char :=
  yearChars year ++ '-' :: (padded 2 month ++ '-' :: (padded 2 day ++ 'T' ::
    (padded 2 hour ++ ':' :: (padded 2 minute ++ ':' ::
      (padded 2 second ++ ((fractionText nanos).toList ++ ['Z']))))))

/-- A date and a time of day are read as the point in time. -/
theorem parse?_momentChars
    {text : String} {year : Int} {month day hour minute second nanos : Nat}
    (calendar : isYear year = true)
    (date : IsDate year month day)
    (hour_le : hour ≤ 23)
    (minute_le : minute ≤ 59)
    (second_le : second ≤ 60)
    (nanos_lt : nanos < nanosPerSecond)
    (htext : text.toList = momentChars year month day hour minute second nanos) :
    parse? text =
      .ok ⟨daysOfDate year month day * secondsPerDay + hour * 3600 + minute * 60
          + min second 59,
        nanos + (if second = 60 then nanosPerSecond else 0)⟩ := by
  have hmonth : month < 100 := Nat.lt_of_le_of_lt date.month_le (by decide)
  have hday : day ≤ 31 := Nat.le_trans date.day_le (daysInMonth_le year month)
  have hlength : ¬ daysInMonth year month < day := Nat.not_lt.mpr date.day_le
  unfold parse?
  rw [htext, momentChars, scanYear_yearChars calendar]
  simp only [bind, Except.bind, scanMark_cons (rfl : isBlank '-' = false),
    scanField_padded date.month_pos date.month_le hmonth,
    scanField_padded date.day_pos hday (by omega), true_or, if_true,
    scanField_padded (Nat.zero_le hour) hour_le (by omega),
    scanField_padded (Nat.zero_le minute) minute_le (by omega),
    scanField_padded (Nat.zero_le second) second_le (by omega),
    scanMark_cons (rfl : isBlank ':' = false), scanFraction_fractionText nanos_lt]
  have hoffset : scanOffset (skipBlanks ['Z']) = .ok (0, []) := rfl
  have hend : (!(skipBlanks []).isEmpty) = false := rfl
  simp only [hoffset, hend, calendar, hlength]
  rw [if_neg (by decide), if_neg (by decide), if_neg (by decide), Int.sub_zero]
  rfl

/-- Second of the day of a point in time. -/
def secondOfDay (t : Timestamp) : Nat := (Int.fmod t.seconds secondsPerDay).toNat

theorem toList_text
    (t : Timestamp) :
    t.text.toList =
      (let date := dateOfDays (Int.fdiv t.seconds secondsPerDay)
      momentChars date.1 date.2.1 date.2.2 (t.secondOfDay / 3600) (t.secondOfDay / 60 % 60)
        (t.secondOfDay % 60 + t.nanos / nanosPerSecond) (t.nanos % nanosPerSecond)) := by
  have hminus : ("-" : String).toList = ['-'] := rfl
  have hletter : ("T" : String).toList = ['T'] := rfl
  have hcolon : (":" : String).toList = [':'] := rfl
  have hzone : ("Z" : String).toList = ['Z'] := rfl
  simp only [text, civilText, momentChars, secondOfDay, String.toList_append, toList_yearText,
    toList_zeroPadded, List.append_assoc, hminus, hletter, hcolon, hzone, List.cons_append,
    List.nil_append]

theorem seconds_eq
    (t : Timestamp) :
    t.seconds = Int.fdiv t.seconds secondsPerDay * secondsPerDay + t.secondOfDay ∧
      t.secondOfDay < secondsPerDay := by
  have hparts := Int.fdiv_mul_add_fmod t.seconds secondsPerDay
  have hpos : (0 : Int) < secondsPerDay := by decide
  have hnonneg := Int.fmod_nonneg_of_pos t.seconds hpos
  have hlt := Int.fmod_lt_of_pos t.seconds hpos
  unfold secondOfDay
  omega

/-- The last second of a minute is the last one of a minute of its day. -/
theorem secondOfDay_of_last
    {t : Timestamp}
    (h : Int.fmod t.seconds 60 = 59) :
    t.secondOfDay % 60 = 59 := by
  have hparts := (seconds_eq t).1
  rw [Int.fmod_eq_emod_of_nonneg _ (by decide)] at h
  have hday : (secondsPerDay : Int) = 86400 := rfl
  rw [hday] at hparts
  omega

/-- What is read of the text of a point in time is the point. -/
theorem parse?_text
    {t : Timestamp}
    (h : t.Civil) :
    parse? t.text = .ok t := by
  obtain ⟨hseconds, hday⟩ := seconds_eq t
  have hperDay : secondsPerDay = 86400 := rfl
  obtain ⟨leap, hleap⟩ : ∃ n, n = t.nanos / nanosPerSecond := ⟨_, rfl⟩
  have hcases : leap = 0 ∨ leap = 1 ∧ t.secondOfDay % 60 = 59 := by
    rcases h.nanos with hnanos | ⟨hnanos, hlast⟩
    · exact .inl (hleap.trans (Nat.div_eq_of_lt hnanos))
    · have hsecond := secondOfDay_of_last hlast
      have hle := Nat.div_lt_of_lt_mul (Nat.mul_comm 2 nanosPerSecond ▸ hnanos)
      omega
  have hnanos : t.nanos % nanosPerSecond +
      (if t.secondOfDay % 60 + leap = 60 then nanosPerSecond else 0) = t.nanos := by
    have hparts := Nat.mod_add_div t.nanos nanosPerSecond
    rw [← hleap] at hparts
    rcases hcases with hzero | ⟨hone, hlast⟩
    · rw [hzero, Nat.mul_zero] at hparts
      rw [hzero, if_neg (by omega)]
      exact hparts
    · rw [hone, Nat.mul_one] at hparts
      rw [hone, if_pos (by omega)]
      exact hparts
  have htext := toList_text t
  rw [← hleap] at htext
  rw [parse?_momentChars h.year (isDate_dateOfDays _) (by omega) (by omega) (by omega)
    (Nat.mod_lt _ (by decide)) htext, daysOfDate_dateOfDays, hnanos]
  refine congrArg (fun n => Except.ok (Timestamp.mk n t.nanos)) ?_
  omega

section Elapsed

variable {t start : Timestamp}

/-- Greatest number of days between 1970 and a date of the calendar. -/
def farthestDay : Nat := 100000000

theorem daysOfDate_bounds
    {year : Int} {month day : Nat}
    (calendar : isYear year = true)
    (date : IsDate year month day) :
    (daysOfDate year month day).natAbs ≤ farthestDay := by
  have hyear : -262143 ≤ year ∧ year ≤ 262142 := by simpa [isYear] using calendar
  have hmonth := date.month_le
  have hday := Nat.le_trans date.day_le (daysInMonth_le year month)
  have hbound : farthestDay = 100000000 := rfl
  unfold daysOfDate
  simp only [Int.fdiv_eq_ediv_of_nonneg _ (by decide : (0 : Int) ≤ 400),
    Int.fmod_eq_emod_of_nonneg _ (by decide : (0 : Int) ≤ 400)]
  split <;> omega

/-- A point in time of the calendar is not far from 1970. -/
theorem Civil.natAbs_seconds
    (h : t.Civil) :
    t.seconds.natAbs ≤ (farthestDay + 1) * secondsPerDay := by
  have hdays := daysOfDate_bounds h.year (isDate_dateOfDays _)
  rw [daysOfDate_dateOfDays] at hdays
  obtain ⟨hseconds, hday⟩ := seconds_eq t
  have hperDay : secondsPerDay = 86400 := rfl
  have hbound : (farthestDay + 1) * secondsPerDay = 8640000086400 := rfl
  rw [hbound]
  rw [hperDay] at hdays hseconds hday
  rw [farthestDay] at hdays
  omega

theorem Civil.nanos_lt
    (h : t.Civil) :
    t.nanos < 2 * nanosPerSecond := by
  have hnanos := h.nanos
  omega

/-- The time between two points of the calendar fits in 64 bits. -/
theorem millisSince_lt
    (h : t.Civil)
    (hstart : start.Civil) :
    (t.millisSince start).toNat < 2 ^ 64 := by
  have hseconds := h.natAbs_seconds
  have hother := hstart.natAbs_seconds
  have hnanos := h.nanos_lt
  have hotherNanos := hstart.nanos_lt
  have hbound : (farthestDay + 1) * secondsPerDay = 8640000086400 := rfl
  have hperSecond : nanosPerSecond = 1000000000 := rfl
  obtain ⟨leap, heq, hleast, hmost⟩ : ∃ leap : Int, t.nanosSince start =
      (t.seconds - start.seconds + leap) * nanosPerSecond + (t.nanos - start.nanos) ∧
        -1 ≤ leap ∧ leap ≤ 1 := by
    refine ⟨_, rfl, ?_, ?_⟩
    · split_ifs <;> decide
    · split_ifs <;> decide
  have hmillis : (t.millisSince start).natAbs = (t.nanosSince start).natAbs / 1000000 :=
    Int.natAbs_tdiv _ _
  rw [hbound] at hseconds hother
  rw [hperSecond] at hnanos hotherNanos heq
  omega

end Elapsed
end Timestamp

end Time
end BatchRun
