import BatchRun.Time.Timestamp

/-!
# Dates of the calendar

**Type.**
`EraDay` is a day of an era of 400 years by its century, its cycle of four years, its year of the
cycle and its day of the year.  Only the last year of a cycle has 366 days, and of the years that
end a century only the last one of the era does.

**Results.**
* `eraDay_of_lt`: every day of an era is one of these.
* `isDate_dateOfDays`: the date of a day exists in the calendar.
* `daysOfDate_dateOfDays`: the date of a day leads back to the day.
-/

namespace BatchRun
namespace Time

/-- A day of an era of 400 years. -/
structure EraDay (dayOfEra century cycle year day : Int) : Prop where
  eq : dayOfEra = 36524 * century + 1461 * cycle + 365 * year + day
  century_nonneg : 0 ≤ century
  century_le : century ≤ 3
  cycle_nonneg : 0 ≤ cycle
  cycle_le : cycle ≤ 24
  year_nonneg : 0 ≤ year
  year_le : year ≤ 3
  day_nonneg : 0 ≤ day
  day_le : day ≤ 365
  /-- The last day is that of a leap year. -/
  leap : day = 365 → year = 3 ∧ (cycle = 24 → century = 3)

theorem eraDay_of_lt
    {dayOfEra : Int}
    (nonneg : 0 ≤ dayOfEra)
    (lt : dayOfEra < 146097) :
    ∃ century cycle year day, EraDay dayOfEra century cycle year day := by
  obtain ⟨century, hcentury⟩ : ∃ n : Int, n = min (dayOfEra / 36524) 3 := ⟨_, rfl⟩
  obtain ⟨rest, hrest⟩ : ∃ n : Int, n = dayOfEra - 36524 * century := ⟨_, rfl⟩
  obtain ⟨cycle, hcycle⟩ : ∃ n : Int, n = rest / 1461 := ⟨_, rfl⟩
  obtain ⟨year, hyear⟩ : ∃ n : Int, n = min ((rest - 1461 * cycle) / 365) 3 := ⟨_, rfl⟩
  have hbounds : 0 ≤ rest ∧ rest ≤ 36524 ∧ (rest = 36524 → century = 3) := by omega
  refine ⟨century, cycle, year, rest - 1461 * cycle - 365 * year, ?_⟩
  exact
    { eq := by omega
      century_nonneg := by omega
      century_le := by omega
      cycle_nonneg := by omega
      cycle_le := by omega
      year_nonneg := by omega
      year_le := by omega
      day_nonneg := by omega
      day_le := by omega
      leap := fun h => ⟨by omega, fun hlast => by omega⟩ }

section EraDay

variable {dayOfEra century cycle year day : Int}

/-- Full centuries of an era, but for its last day. -/
theorem centuries_eq
    (h : EraDay dayOfEra century cycle year day) :
    dayOfEra / 36524 - dayOfEra / 146096 = century := by
  obtain ⟨heq, _, _, _, _, _, _, _, _, hleap⟩ := h
  by_cases hlast : day = 365 ∧ cycle = 24
  · obtain ⟨hyear, hcentury⟩ := hleap hlast.1
    have hday : dayOfEra = 146096 := by
      have := hcentury hlast.2
      omega
    omega
  · have hlt : dayOfEra < 36524 * (century + 1) := by omega
    have hdays : dayOfEra / 146096 = 0 := by omega
    have hcentury : dayOfEra / 36524 = century := by omega
    omega

/-- Year of an era, as it is computed from the day. -/
theorem yearOfEra_eq
    (h : EraDay dayOfEra century cycle year day) :
    (dayOfEra - dayOfEra / 1460 + dayOfEra / 36524 - dayOfEra / 146096) / 365 =
      100 * century + 4 * cycle + year := by
  have hcenturies := centuries_eq h
  obtain ⟨heq, _, _, _, _, _, _, _, _, hleap⟩ := h
  -- whether the cycle has run over 1460 days already
  obtain ⟨late, hlate⟩ : ∃ n, n = dayOfEra / 1460 - (25 * century + cycle) := ⟨_, rfl⟩
  have hlow : 0 ≤ late := by omega
  have hhigh : late ≤ 1 := by omega
  have hfirst : late = 1 → 1 ≤ day := by omega
  have hlast : day = 365 → late = 1 := by
    intro hday
    have hyear := (hleap hday).1
    have hcycle : 1460 ≤ 24 * century + cycle + 1095 + 365 := by omega
    omega
  have hdays : dayOfEra - dayOfEra / 1460 + dayOfEra / 36524 - dayOfEra / 146096 =
      365 * (100 * century + 4 * cycle + year) + (day - late) := by omega
  rw [hdays, Int.add_ediv_of_dvd_left ⟨_, rfl⟩, Int.mul_ediv_cancel_left _ (by decide),
    Int.ediv_eq_zero_of_lt (by omega) (by omega), Int.add_zero]

/-- Day of the year, as it is computed from the day. -/
theorem dayOfYear_eq
    (h : EraDay dayOfEra century cycle year day) :
    dayOfEra - (365 * (100 * century + 4 * cycle + year) + (100 * century + 4 * cycle + year) / 4
      - (100 * century + 4 * cycle + year) / 100) = day := by
  obtain ⟨heq, _, _, _, _, _, _, _, _, _⟩ := h
  have hfour : (100 * century + 4 * cycle + year) / 4 = 25 * century + cycle := by omega
  have hhundred : (100 * century + 4 * cycle + year) / 100 = century := by omega
  rw [hfour, hhundred]
  omega

end EraDay

/-- A day by its era, its year of the era and its day of the year; years begin in March. -/
structure YearDay (days era year day : Int) : Prop where
  eq : days = era * 146097 + year * 365 + year / 4 - year / 100 + day - 719468
  year_nonneg : 0 ≤ year
  year_le : year ≤ 399
  day_nonneg : 0 ≤ day
  day_le : day ≤ 365
  /-- The last day is that of a leap year. -/
  leap : day = 365 → isLeapYear (year + era * 400 + 1) = true

section EraDay

variable {days era dayOfEra century cycle year day : Int}

theorem yearDay_of_eraDay
    (hdays : days + 719468 = 146097 * era + dayOfEra)
    (h : EraDay dayOfEra century cycle year day) :
    YearDay days era (100 * century + 4 * cycle + year) day := by
  obtain ⟨heq, _, _, _, _, _, _, _, _, hleap⟩ := h
  have hfour : (100 * century + 4 * cycle + year) / 4 = 25 * century + cycle := by omega
  have hhundred : (100 * century + 4 * cycle + year) / 100 = century := by omega
  refine
    { eq := by omega
      year_nonneg := by omega
      year_le := by omega
      day_nonneg := by omega
      day_le := by omega
      leap := fun hlast => ?_ }
  obtain ⟨hyear, hcentury⟩ := hleap hlast
  simp only [isLeapYear, Bool.or_eq_true, Bool.and_eq_true, beq_iff_eq, bne_iff_ne]
  by_cases hcycle : cycle = 24
  · right
    have := hcentury hcycle
    omega
  · left
    omega

/-- Date by the parts of a day. -/
def dateOfParts (era year day : Int) : Int × Nat × Nat :=
  let month := (5 * day + 2) / 153
  let number := if month < 10 then month + 3 else month - 9
  (year + era * 400 + (if number ≤ 2 then 1 else 0), number.toNat,
    (day - (153 * month + 2) / 5 + 1).toNat)

theorem dateOfDays_eq
    (hera : Int.fdiv (days + 719468) 146097 = era)
    (hdayOfEra : Int.fmod (days + 719468) 146097 = dayOfEra)
    (h : EraDay dayOfEra century cycle year day) :
    dateOfDays days = dateOfParts era (100 * century + 4 * cycle + year) day := by
  simp only [dateOfDays, dateOfParts, hera, hdayOfEra, yearOfEra_eq h, dayOfYear_eq h]

end EraDay

/-- The date of a day is that of its parts. -/
theorem dateOfDays_parts
    (days : Int) :
    ∃ era year day, YearDay days era year day ∧ dateOfDays days = dateOfParts era year day := by
  have hparts := Int.mul_fdiv_add_fmod (days + 719468) 146097
  obtain ⟨century, cycle, year, day, h⟩ :=
    eraDay_of_lt (Int.fmod_nonneg_of_pos (days + 719468) (by decide : (0 : Int) < 146097))
      (Int.fmod_lt_of_pos (days + 719468) (by decide))
  exact ⟨_, _, day, yearDay_of_eraDay hparts.symm h, dateOfDays_eq rfl rfl h⟩

/-- A date that the calendar has. -/
structure IsDate (year : Int) (month day : Nat) : Prop where
  month_pos : 1 ≤ month
  month_le : month ≤ 12
  day_pos : 1 ≤ day
  day_le : day ≤ daysInMonth year month

theorem daysInMonth_le
    (year : Int)
    (month : Nat) :
    daysInMonth year month ≤ 31 := by
  unfold daysInMonth
  split
  case isTrue => split <;> omega
  case isFalse => split <;> omega

section Parts

variable {days era year day : Int}

/-- Lengths of the months, which are counted from March. -/
theorem day_le_of_month
    {month : Int}
    (h : YearDay days era year day)
    (hmonth : month = (5 * day + 2) / 153) :
    (day - (153 * month + 2) / 5 + 1).toNat ≤
      daysInMonth (year + era * 400 + (if month < 10 then 0 else 1))
        (if month < 10 then month + 3 else month - 9).toNat := by
  obtain ⟨_, _, _, hlow, hhigh, hleap⟩ := h
  have hcases : month = 0 ∨ month = 1 ∨ month = 2 ∨ month = 3 ∨ month = 4 ∨ month = 5 ∨
      month = 6 ∨ month = 7 ∨ month = 8 ∨ month = 9 ∨ month = 10 ∨ month = 11 := by omega
  rcases hcases with rfl | rfl | rfl | rfl | rfl | rfl | rfl | rfl | rfl | rfl | rfl | rfl
  case inr.inr.inr.inr.inr.inr.inr.inr.inr.inr.inr =>
      by_cases hlast : day = 365
      · simp [daysInMonth, hleap hlast]
        omega
      · have hday : day ≤ 364 := by omega
        simp [daysInMonth]
        split <;> omega
  all_goals
    simp [daysInMonth]
    omega

theorem isDate_dateOfParts
    (h : YearDay days era year day) :
    IsDate (dateOfParts era year day).1 (dateOfParts era year day).2.1
      (dateOfParts era year day).2.2 := by
  have hle := day_le_of_month h rfl
  obtain ⟨_, _, _, hlow, hhigh, _⟩ := h
  obtain ⟨month, hmonth⟩ : ∃ n, n = (5 * day + 2) / 153 := ⟨_, rfl⟩
  have hyear : (if (if month < 10 then month + 3 else month - 9) ≤ 2 then (1 : Int) else 0) =
      if month < 10 then 0 else 1 := by
    split <;> split <;> omega
  simp only [← hmonth] at hle
  simp only [dateOfParts, ← hmonth, hyear]
  refine ⟨?_, ?_, by omega, hle⟩
  · split <;> omega
  · split <;> omega

/-- The days of a date by its year and month, both counted from March. -/
theorem daysOfDate_eq
    {civilYear : Int} {number date : Nat}
    (month first : Int)
    (hyear : (if number ≤ 2 then civilYear - 1 else civilYear) = year + era * 400)
    (hmonth : (if number ≤ 2 then (number : Int) + 9 else number - 3) = month)
    (hfirst : (153 * month + 2) / 5 = first)
    (hdate : (date : Int) = day - first + 1)
    (h : YearDay days era year day) :
    daysOfDate civilYear number date = days := by
  have hera : Int.fdiv (year + era * 400) 400 = era := by
    rw [Int.add_mul_fdiv_right _ _ (by decide),
      Int.fdiv_eq_ediv_of_nonneg _ (by decide),
      Int.ediv_eq_zero_of_lt h.year_nonneg (Int.lt_of_le_of_lt h.year_le (by decide)),
      Int.zero_add]
  have hyearOfEra : Int.fmod (year + era * 400) 400 = year := by
    rw [Int.fmod_def, hera]
    omega
  simp only [daysOfDate, hyear, hmonth, hera, hyearOfEra, hfirst, hdate]
  have hdays := h.eq
  omega

theorem daysOfDate_dateOfParts
    (h : YearDay days era year day) :
    daysOfDate (dateOfParts era year day).1 (dateOfParts era year day).2.1
      (dateOfParts era year day).2.2 = days := by
  have hlow := h.day_nonneg
  have hhigh := h.day_le
  obtain ⟨month, hmonth⟩ : ∃ n, n = (5 * day + 2) / 153 := ⟨_, rfl⟩
  have hdate : (((day - (153 * month + 2) / 5 + 1).toNat : Nat) : Int) =
      day - (153 * month + 2) / 5 + 1 := by omega
  simp only [dateOfParts, ← hmonth]
  refine daysOfDate_eq month _ ?_ ?_ rfl hdate h
  · split <;> split <;> omega
  · split <;> omega

end Parts

/-- The date of a day exists in the calendar. -/
theorem isDate_dateOfDays
    (days : Int) :
    IsDate (dateOfDays days).1 (dateOfDays days).2.1 (dateOfDays days).2.2 := by
  obtain ⟨era, year, day, h, heq⟩ := dateOfDays_parts days
  rw [heq]
  exact isDate_dateOfParts h

/-- The date of a day leads back to the day. -/
theorem daysOfDate_dateOfDays
    (days : Int) :
    daysOfDate (dateOfDays days).1 (dateOfDays days).2.1 (dateOfDays days).2.2 = days := by
  obtain ⟨era, year, day, h, heq⟩ := dateOfDays_parts days
  rw [heq]
  exact daysOfDate_dateOfParts h

end Time
end BatchRun
