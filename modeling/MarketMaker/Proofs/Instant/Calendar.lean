import MarketMaker.Instant.Basic
import Mathlib.Tactic
/-!
Days of the calendar and their dates. The date of a day exists, and counting its days gives the day back.
Years begin in March here, so that a leap day is the last day of its year.
-/

namespace MarketMaker

namespace Date

/-- The year of its era that a day of the era falls in. -/
def yearOfEra (day : ℤ) : ℤ :=
  (day - day / 1460 + day / 36524 - day / 146096) / 365

/-- Days of the era before one of its years. -/
def daysBefore (year : ℤ) : ℤ :=
  year * 365 + year / 4 - year / 100

/-- The month, counted from March, that a day of the year falls in. -/
def monthOfYear (day : ℤ) : ℤ :=
  (5 * day + 2) / 153

/-- Days of the year before one of its months. -/
def daysBeforeMonth (month : ℤ) : ℤ :=
  (153 * month + 2) / 5

/-! ### Years -/

/-- An era has 400 years, and a day of it is one of the 366 days that begin with its year. The last of
these is in leap years only, and of those that end a century only the last is one. -/
structure YearOf (day year : ℤ) : Prop where
  nonneg : 0 ≤ year
  le : year ≤ 399
  begun : daysBefore year ≤ day
  within : day ≤ daysBefore year + 365
  leap : day = daysBefore year + 365 → year % 4 = 3 ∧ (year % 100 = 99 → year = 399)

theorem daysBefore_century {century year : ℤ} (least : 0 ≤ year) (most : year ≤ 99) :
    daysBefore (100 * century + year) = 36524 * century + (year * 365 + year / 4) := by
  have quarters : (100 * century + year) / 4 = 25 * century + year / 4 := by omega
  have hundreds : (100 * century + year) / 100 = century := by omega
  rw [daysBefore, quarters, hundreds]
  ring

theorem yearOf_yearOfEra {day : ℤ} (least : 0 ≤ day) (most : day ≤ 146096) :
    YearOf day (yearOfEra day) := by
  rcases most.lt_or_eq with before | rfl
  · -- within its century the year is found as if every fourth one were a leap year
    obtain ⟨century, inCentury⟩ : ∃ q, q = day / 36524 := ⟨_, rfl⟩
    obtain ⟨leaps, passed⟩ : ∃ k, k = (24 * century + (day - 36524 * century)) / 1460 := ⟨_, rfl⟩
    obtain ⟨year, inYear⟩ : ∃ y, y = (day - 36524 * century - leaps) / 365 := ⟨_, rfl⟩
    have few : 0 ≤ century ∧ century ≤ 3 := by omega
    have short : 0 ≤ year ∧ year ≤ 99 := by omega
    have found : yearOfEra day = 100 * century + year := by
      unfold yearOfEra
      omega
    have begun : year * 365 + year / 4 ≤ day - 36524 * century := by omega
    have within : day - 36524 * century ≤ year * 365 + year / 4 + 365 := by omega
    have last : day - 36524 * century = year * 365 + year / 4 + 365 → year % 4 = 3 ∧ year ≠ 99 := by
      intro ends
      have next : leaps = year / 4 + 1 := by omega
      constructor <;> omega
    clear inCentury passed inYear
    have counted := @daysBefore_century century year short.1 short.2
    rw [found]
    refine ⟨by omega, by omega, by omega, by omega, fun ends => ?_⟩
    obtain ⟨leap, other⟩ := last (by omega)
    refine ⟨by omega, fun ended => ?_⟩
    exact absurd (by omega) other
  · rw [show yearOfEra 146096 = 399 from rfl]
    exact ⟨by decide, by decide, by decide, by decide, by decide⟩

/-! ### Months -/

/-- Months have 30 or 31 days, but for the last one, which has 28 or 29. -/
structure MonthOf (day month : ℤ) : Prop where
  nonneg : 0 ≤ month
  le : month ≤ 11
  begun : daysBeforeMonth month ≤ day
  within : day < daysBeforeMonth (month + 1)

theorem monthOf_monthOfYear {day : ℤ} (least : 0 ≤ day) (most : day ≤ 365) :
    MonthOf day (monthOfYear day) := by
  unfold monthOfYear
  refine ⟨by omega, by omega, ?_, ?_⟩ <;> unfold daysBeforeMonth <;> omega

/-! ### Dates -/

/-- The date of a day by its era, year and month, when days of a month are counted from zero. -/
def ofParts (era year month day : ℤ) : Date :=
  let named := if month < 10 then month + 3 else month - 9
  ⟨year + era * 400 + (if named ≤ 2 then 1 else 0), named.toNat, (day + 1).toNat⟩

theorem toDays_ofParts {era year month day : ℤ} (least : 0 ≤ year) (most : year ≤ 399)
    (first : 0 ≤ month) (last : month ≤ 11) (counted : 0 ≤ day) :
    (ofParts era year month day).toDays =
      era * 146097 + (daysBefore year + (daysBeforeMonth month + day)) - 719468 := by
  have eras : (year + era * 400) / 400 = era := by omega
  have years : (year + era * 400) % 400 = year := by omega
  have days : ((day + 1).toNat : ℤ) = day + 1 := Int.toNat_of_nonneg (by omega)
  interval_cases month <;>
    simp [toDays, ofParts, eras, years, days, daysBefore, daysBeforeMonth] <;> ring

theorem isLeap_iff {year : ℤ} :
    isLeap year = true ↔ year % 4 = 0 ∧ (year % 100 = 0 → year % 400 = 0) := by
  rw [isLeap, Bool.and_eq_true, Bool.or_eq_true, beq_iff_eq, bne_iff_ne, beq_iff_eq]
  exact and_congr_right fun _ => imp_iff_not_or.symm

/-- A day within its month exists. The last day of a leap year is one more than the month has else. -/
theorem day_le_daysIn {era year month day : ℤ} (found : MonthOf (daysBeforeMonth month + day) month)
    (most : daysBeforeMonth month + day ≤ 365)
    (leap : daysBeforeMonth month + day = 365 → isLeap (year + era * 400 + 1) = true) :
    (ofParts era year month day).day ≤
      daysIn (ofParts era year month day).year (ofParts era year month day).month := by
  obtain ⟨first, last, -, within⟩ := found
  unfold ofParts
  interval_cases month <;> simp [daysBeforeMonth, daysIn] at within most leap ⊢ <;> try omega
  by_cases ends : day = 28
  · rw [if_pos (leap (by omega))]
    omega
  · split <;> omega

theorem month_ofParts {era year month day : ℤ} (found : MonthOf (daysBeforeMonth month + day) month) :
    1 ≤ (ofParts era year month day).month ∧ (ofParts era year month day).month ≤ 12 := by
  have first := found.nonneg
  have last := found.le
  unfold ofParts
  dsimp only
  split <;> omega

/-- How a day divides into its era, year and month. -/
structure PartsOf (days era year month day : ℤ) : Prop where
  date : ofDays days = ofParts era year month day
  sum : days = era * 146097 + (daysBefore year + (daysBeforeMonth month + day)) - 719468
  yearNonneg : 0 ≤ year
  yearLe : year ≤ 399
  inMonth : MonthOf (daysBeforeMonth month + day) month
  dayNonneg : 0 ≤ day
  inYear : daysBeforeMonth month + day ≤ 365
  leap : daysBeforeMonth month + day = 365 → isLeap (year + era * 400 + 1) = true

theorem exists_partsOf (days : ℤ) : ∃ era year month day, PartsOf days era year month day := by
  obtain ⟨era, eras⟩ : ∃ era, era = (days + 719468) / 146097 := ⟨_, rfl⟩
  obtain ⟨dayOfEra, left⟩ : ∃ day, day = (days + 719468) % 146097 := ⟨_, rfl⟩
  have year := @yearOf_yearOfEra dayOfEra (by omega) (by omega)
  obtain ⟨dayOfYear, rest⟩ : ∃ day, day = dayOfEra - daysBefore (yearOfEra dayOfEra) := ⟨_, rfl⟩
  have within := year.within
  have begun := year.begun
  have month := @monthOf_monthOfYear dayOfYear (by omega) (by omega)
  have split : daysBeforeMonth (monthOfYear dayOfYear) +
      (dayOfYear - daysBeforeMonth (monthOfYear dayOfYear)) = dayOfYear := by ring
  refine ⟨era, yearOfEra dayOfEra, monthOfYear dayOfYear,
    dayOfYear - daysBeforeMonth (monthOfYear dayOfYear), ?_, ?_, year.nonneg, year.le, ?_, ?_, ?_, ?_⟩
  · have same : daysBefore (yearOfEra dayOfEra) = 365 * yearOfEra dayOfEra +
        yearOfEra dayOfEra / 4 - yearOfEra dayOfEra / 100 := by rw [daysBefore, mul_comm]
    rw [same] at rest
    subst eras left rest
    rfl
  · rw [split]
    omega
  · rwa [split]
  · exact sub_nonneg.2 month.begun
  · omega
  · rw [split]
    intro last
    obtain ⟨fourth, century⟩ := year.leap (by omega)
    rw [isLeap_iff]
    omega

theorem toDays_ofDays (days : ℤ) : (ofDays days).toDays = days := by
  obtain ⟨era, year, month, day, parts⟩ := exists_partsOf days
  rw [parts.date, toDays_ofParts parts.yearNonneg parts.yearLe parts.inMonth.nonneg
    parts.inMonth.le parts.dayNonneg]
  exact parts.sum.symm

/-- The date of a day exists, if its year is not out of bounds. -/
theorem isValid_ofDays {days : ℤ} (least : -262143 ≤ (ofDays days).year)
    (most : (ofDays days).year ≤ 262142) : (ofDays days).isValid = true := by
  obtain ⟨era, year, month, day, parts⟩ := exists_partsOf days
  have last := day_le_daysIn parts.inMonth parts.inYear parts.leap
  have named := @month_ofParts era year month day parts.inMonth
  have first : 1 ≤ (ofParts era year month day).day := by
    have counted := parts.dayNonneg
    change 1 ≤ (day + 1).toNat
    omega
  rw [← parts.date] at last named first
  exact decide_eq_true ⟨least, most, named.1, named.2, first, last⟩

end Date

end MarketMaker
