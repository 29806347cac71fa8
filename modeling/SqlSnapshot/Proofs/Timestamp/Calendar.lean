import Mathlib.Tactic.IntervalCases
import SqlSnapshot.Timestamp

/-!
# The calendar

`civilDate` is the inverse of `dayNumber`: it gives a date that exists and has that day number.
An era of 400 years falls into centuries of 36524 days, these into four-year periods of 1461 days,
and these into years of 365 days, where the last year of a period may have one day more.  Years
begin in March, so that the day more is the last day of the year.
-/

namespace SqlSnapshot.Timestamp

/-! ## Years of an era -/

/-- The first day of a year of an era. -/
def firstDay (yearOfEra : Int) : Int :=
  365 * yearOfEra + yearOfEra / 4 - yearOfEra / 100

/-- The year of an era in which a day of the era lies. -/
def yearOfDay (dayOfEra : Int) : Int :=
  (dayOfEra - dayOfEra / 1460 + dayOfEra / 36524 - dayOfEra / 146096) / 365

theorem yearOfDay_eq {century period year day : Int} (hcentury : 0 ≤ century ∧ century ≤ 3)
    (hperiod : 0 ≤ period ∧ period ≤ 24) (hyear : 0 ≤ year ∧ year ≤ 3)
    (hday : 365 * year ≤ day ∧ (day < 365 * year + 365 ∨ year = 3 ∧ day = 1460 ∧ period ≤ 23)) :
    yearOfDay (36524 * century + 1461 * period + day) = 100 * century + 4 * period + year := by
  generalize hera : 36524 * century + 1461 * period + day = dayOfEra
  have hcenturies : dayOfEra / 36524 = century := by omega
  have hend : dayOfEra / 146096 = 0 := by omega
  have hperiods : dayOfEra / 1460 =
      25 * century + period + (24 * century + period + day) / 1460 := by omega
  have hextra : 0 ≤ (24 * century + period + day) / 1460 ∧
      (24 * century + period + day) / 1460 ≤ 1 := by omega
  have hlate : (24 * century + period + day) / 1460 = 1 → 1340 ≤ day := by omega
  rw [yearOfDay, hcenturies, hend, hperiods]
  generalize (24 * century + period + day) / 1460 = extra at *
  omega

/-- A day of an era lies in a year of the era, and it is the 366th only of a year that ends with a
leap day. -/
theorem exists_yearOfDay {dayOfEra : Int} (h : 0 ≤ dayOfEra ∧ dayOfEra ≤ 146096) :
    ∃ dayOfYear, dayOfEra = firstDay (yearOfDay dayOfEra) + dayOfYear ∧
      0 ≤ yearOfDay dayOfEra ∧ yearOfDay dayOfEra ≤ 399 ∧ 0 ≤ dayOfYear ∧ dayOfYear ≤ 365 ∧
      (dayOfYear = 365 → isLeapYear (yearOfDay dayOfEra + 1) = true) := by
  rcases eq_or_lt_of_le h.2 with rfl | hlt
  · exact ⟨365, by decide⟩
  · let century := dayOfEra / 36524
    let period := dayOfEra % 36524 / 1461
    let day := dayOfEra % 36524 % 1461
    have hcentury : 0 ≤ century ∧ century ≤ 3 := by omega
    have hperiod : 0 ≤ period ∧ period ≤ 24 := by omega
    obtain ⟨year, hyear, hday⟩ : ∃ year, (0 ≤ year ∧ year ≤ 3) ∧ 365 * year ≤ day ∧
        (day < 365 * year + 365 ∨ year = 3 ∧ day = 1460 ∧ period ≤ 23) := by
      by_cases hlast : day = 1460
      · exact ⟨3, by omega⟩
      · exact ⟨day / 365, by omega⟩
    have hera : dayOfEra = 36524 * century + 1461 * period + day := by omega
    have hyearOf := yearOfDay_eq hcentury hperiod hyear hday
    rw [← hera] at hyearOf
    refine ⟨day - 365 * year, ?_, ?_, ?_, ?_, ?_, ?_⟩
    · rw [hyearOf, firstDay]
      omega
    · omega
    · omega
    · omega
    · omega
    · intro hlast
      rw [hyearOf]
      simp only [isLeapYear, Bool.or_eq_true, Bool.and_eq_true, beq_iff_eq, bne_iff_ne]
      omega

/-! ## Months and days -/

/-- The date that a year beginning in March, the month counted from March and the day give. -/
theorem exists_monthOfDay {dayOfYear : Int} (h : 0 ≤ dayOfYear ∧ dayOfYear ≤ 365) :
    ∃ month day : Int, month = (5 * dayOfYear + 2) / 153 ∧
      day = dayOfYear - (153 * month + 2) / 5 + 1 ∧ 0 ≤ month ∧ month ≤ 11 ∧ 1 ≤ day ∧
      (month = 1 ∨ month = 3 ∨ month = 6 ∨ month = 8 → day ≤ 30) ∧ day ≤ 31 ∧
      (month = 11 → day ≤ 29 ∧ (day = 29 → dayOfYear = 365)) := by
  refine ⟨_, _, rfl, rfl, ?_⟩
  omega

theorem dayNumber_early (era : Int) {yearOfEra : Int} (hyear : 0 ≤ yearOfEra ∧ yearOfEra ≤ 399)
    {month : Nat} (hmonth : 3 ≤ month) (day : Nat) :
    dayNumber (yearOfEra + era * 400) month day =
      era * 146097 + firstDay yearOfEra + (153 * ((month : Int) - 3) + 2) / 5 + day - 1 -
        719468 := by
  have hlate : ¬ month ≤ 2 := by omega
  have hera : (yearOfEra + era * 400) / 400 = era := by omega
  simp only [dayNumber, hlate, if_false, show 2 < month by omega, if_true, hera, firstDay]
  omega

theorem dayNumber_late (era : Int) {yearOfEra : Int} (hyear : 0 ≤ yearOfEra ∧ yearOfEra ≤ 399)
    {month : Nat} (hmonth : month ≤ 2) (day : Nat) :
    dayNumber (yearOfEra + era * 400 + 1) month day =
      era * 146097 + firstDay yearOfEra + (153 * ((month : Int) + 9) + 2) / 5 + day - 1 -
        719468 := by
  have hearly : ¬ 2 < month := by omega
  have hera : (yearOfEra + era * 400 + 1 - 1) / 400 = era := by omega
  simp only [dayNumber, hmonth, if_true, hearly, if_false, hera, firstDay]
  omega

theorem isLeapYear_add_eras (year era : Int) :
    isLeapYear (year + era * 400) = isLeapYear year := by
  have hfour : (year + era * 400) % 4 = year % 4 := by omega
  have hcentury : (year + era * 400) % 100 = year % 100 := by omega
  have hera : (year + era * 400) % 400 = year % 400 := by omega
  simp only [isLeapYear, hfour, hcentury, hera]

theorem daysInMonth_cases (year : Int) (month : Nat) :
    daysInMonth year month = 31 ∧ month ≠ 2 ∨
      daysInMonth year month = 30 ∧ (month = 4 ∨ month = 6 ∨ month = 9 ∨ month = 11) ∨
      month = 2 ∧ daysInMonth year month = if isLeapYear year = true then 29 else 28 := by
  by_cases hfebruary : month = 2
  · simp [daysInMonth, hfebruary]
  · by_cases hshort : month = 4 ∨ month = 6 ∨ month = 9 ∨ month = 11
    · refine Or.inr (Or.inl ⟨?_, hshort⟩)
      rcases hshort with rfl | rfl | rfl | rfl <;> rfl
    · refine Or.inl ⟨?_, hfebruary⟩
      simp_all [daysInMonth]

/-- The date of a day number exists, and its day number is the given one. -/
theorem civilDate_spec (days : Int) {year : Int} {month day : Nat}
    (h : civilDate days = (year, month, day)) :
    dayNumber year month day = days ∧ 1 ≤ month ∧ month ≤ 12 ∧ 1 ≤ day ∧
      day ≤ daysInMonth year month := by
  generalize hera : (days + 719468) / 146097 = era
  generalize hdayOfEra : days + 719468 - era * 146097 = dayOfEra
  obtain ⟨dayOfYear, hday, hyear, hyear', hfirst, hlast, hleap⟩ :=
    exists_yearOfDay (show 0 ≤ dayOfEra ∧ dayOfEra ≤ 146096 by omega)
  obtain ⟨monthFromMarch, dayOfMonth, hmonth, hdayOfMonth, hmonth0, hmonth11, hday1, hshort, hday31,
    hfebruary⟩ := exists_monthOfDay ⟨hfirst, hlast⟩
  simp only [civilDate, hera, hdayOfEra] at h
  have hyearOf : (dayOfEra - dayOfEra / 1460 + dayOfEra / 36524 - dayOfEra / 146096) / 365 =
      yearOfDay dayOfEra := rfl
  have hdayOf : dayOfEra - (365 * yearOfDay dayOfEra + yearOfDay dayOfEra / 4 -
      yearOfDay dayOfEra / 100) = dayOfYear := by
    rw [firstDay] at hday
    omega
  rw [hyearOf, hdayOf, ← hmonth, ← hdayOfMonth] at h
  generalize yearOfDay dayOfEra = yearOfEra at *
  by_cases hearly : monthFromMarch < 10
  · have hmarch : ¬ monthFromMarch + 3 ≤ 2 := by omega
    simp only [hearly, if_true, hmarch, if_false, add_zero, Prod.mk.injEq] at h
    obtain ⟨rfl, rfl, rfl⟩ := h
    have hnumber := dayNumber_early era ⟨hyear, hyear'⟩
      (show 3 ≤ (monthFromMarch + 3).toNat by omega) dayOfMonth.toNat
    have hdays := daysInMonth_cases (yearOfEra + era * 400) (monthFromMarch + 3).toNat
    refine ⟨?_, by omega, by omega, by omega, by omega⟩
    rw [hnumber, Int.toNat_of_nonneg (by omega), Int.toNat_of_nonneg (by omega)]
    omega
  · have hmarch : monthFromMarch - 9 ≤ 2 := by omega
    simp only [hearly, if_false, hmarch, if_true, Prod.mk.injEq] at h
    obtain ⟨rfl, rfl, rfl⟩ := h
    have hnumber := dayNumber_late era ⟨hyear, hyear'⟩
      (show (monthFromMarch - 9).toNat ≤ 2 by omega) dayOfMonth.toNat
    have hdays := daysInMonth_cases (yearOfEra + era * 400 + 1) (monthFromMarch - 9).toNat
    rw [show yearOfEra + era * 400 + 1 = yearOfEra + 1 + era * 400 by omega,
      isLeapYear_add_eras] at hdays
    rw [show yearOfEra + era * 400 + 1 = yearOfEra + 1 + era * 400 by omega] at hnumber ⊢
    refine ⟨?_, by omega, by omega, by omega, ?_⟩
    · rw [hnumber, Int.toNat_of_nonneg (by omega), Int.toNat_of_nonneg (by omega)]
      omega
    · by_cases hleap29 : dayOfMonth = 29
      · rcases hdays with hdays | hdays | ⟨hmonth2, hdays⟩
        · omega
        · omega
        · rw [hleap (by omega), if_pos rfl] at hdays
          omega
      · rcases hdays with hdays | hdays | ⟨hmonth2, hdays⟩
        · omega
        · omega
        · split at hdays <;> omega

/-! ## The range of years -/

theorem firstYear_le_of_dayNumber {year : Int} {month day : Nat} (hmonth : 1 ≤ month ∧ month ≤ 12)
    (hday : day ≤ 31) (h : dayNumber firstYear 1 1 ≤ dayNumber year month day) :
    firstYear ≤ year := by
  have hfirst : dayNumber firstYear 1 1 = -96465292 := by decide
  rw [hfirst] at h
  by_contra hyear
  simp only [firstYear] at hyear
  simp only [dayNumber] at h
  by_cases hlate : month ≤ 2
  · simp only [hlate, if_true, show ¬ 2 < month by omega, if_false] at h
    omega
  · simp only [hlate, if_false, show 2 < month by omega, if_true] at h
    rcases eq_or_lt_of_le (show year ≤ -262144 by omega) with rfl | hbefore
    · omega
    · omega

theorem le_lastYear_of_dayNumber {year : Int} {month day : Nat} (hmonth : 1 ≤ month ∧ month ≤ 12)
    (hday : 1 ≤ day) (h : dayNumber year month day ≤ dayNumber lastYear 12 31) :
    year ≤ lastYear := by
  have hlast : dayNumber lastYear 12 31 = 95026236 := by decide
  rw [hlast] at h
  by_contra hyear
  simp only [lastYear] at hyear
  simp only [dayNumber] at h
  by_cases hlate : month ≤ 2
  · simp only [hlate, if_true, show ¬ 2 < month by omega, if_false] at h
    rcases eq_or_lt_of_le (show 262143 ≤ year by omega) with rfl | hafter
    · omega
    · omega
  · simp only [hlate, if_false, show 2 < month by omega, if_true] at h
    omega

end SqlSnapshot.Timestamp
