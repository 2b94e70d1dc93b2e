import Mathlib.Order.Monotone.Basic
import Mathlib.Tactic.IntervalCases

/-!
# Civil dates and days

The proleptic Gregorian calendar by eras of 400 years that begin in March: the day of an era from a
year and a day of that year, and back, and the same for the months. Years and months are counted
from zero, days of an era and of a year too. The second half is the calendar by its rules, the
leap years and the lengths of the months, and that the eras count its days.
-/

namespace NullRouter.Base.CivilDate

/-- Days of an era: 400 years with 97 leap days. -/
def eraDays : Nat := 146097

/-- The first day of a year of an era. -/
def yearStart (year : Nat) : Nat := year * 365 + year / 4 - year / 100

/-- The year of an era that a day of it falls in. -/
def yearOf (day : Nat) : Nat := (day - day / 1460 + day / 36524 - day / 146096) / 365

/-- The first day of a month, from March on. -/
def monthStart (month : Nat) : Nat := (153 * month + 2) / 5

/-- The month that a day of a year falls in. -/
def monthOf (day : Nat) : Nat := (5 * day + 2) / 153

variable {day : Nat}

theorem yearOf_lt (h : day < eraDays) : yearOf day < 400 := by
  rw [eraDays] at h
  rw [yearOf]
  omega

private theorem yearOf_div (h : day < eraDays) (hlast : day ≠ 146096) :
    yearOf day = (day - day / 1460 + day / 36524) / 365 ∧ yearOf day / 100 = day / 36524 := by
  rw [eraDays] at h
  have hzero : day / 146096 = 0 := by omega
  rw [yearOf, hzero]
  omega

/-- A day is no earlier than its year. -/
theorem yearStart_le (h : day < eraDays) : yearStart (yearOf day) ≤ day := by
  by_cases hlast : day = 146096
  · rw [hlast]
    decide
  · obtain ⟨hyear, hcentury⟩ := yearOf_div h hlast
    rw [eraDays] at h
    rw [yearStart, hcentury]
    generalize day / 36524 = century at *
    omega

/-- A day is at most a leap year after the start of its year. -/
theorem sub_yearStart_le (h : day < eraDays) : day - yearStart (yearOf day) ≤ 365 := by
  by_cases hlast : day = 146096
  · rw [hlast]
    decide
  · obtain ⟨hyear, hcentury⟩ := yearOf_div h hlast
    rw [eraDays] at h
    rw [yearStart, hcentury]
    have hfour : day / 36524 ≤ 3 := by omega
    generalize day / 36524 = century at *
    omega

theorem monthOf_le (h : day ≤ 365) : monthOf day ≤ 11 := by
  rw [monthOf]
  omega

theorem monthStart_le : monthStart (monthOf day) ≤ day := by
  rw [monthStart, monthOf]
  omega

/-- A day is before the next month. -/
theorem lt_monthStart_succ : day < monthStart (monthOf day + 1) := by
  rw [monthStart, monthOf]
  omega

theorem sub_monthStart_le : day - monthStart (monthOf day) ≤ 30 := by
  rw [monthStart, monthOf]
  omega

/-! ## Days of all eras -/

/-- The year that a day falls in, from the first era on. -/
def marchYear (day : Nat) : Nat := yearOf (day % eraDays) + day / eraDays * 400

/-- The day of its year. -/
def dayOfYear (day : Nat) : Nat := day % eraDays - yearStart (yearOf (day % eraDays))

/-- The month of its year. -/
def marchMonth (day : Nat) : Nat := monthOf (dayOfYear day)

/-- The day of its month. -/
def dayOfMonth (day : Nat) : Nat := dayOfYear day - monthStart (marchMonth day)

variable (day)

private theorem mod_lt : day % eraDays < eraDays := Nat.mod_lt day (by decide)

theorem dayOfYear_le : dayOfYear day ≤ 365 := sub_yearStart_le (mod_lt day)

theorem marchMonth_le : marchMonth day ≤ 11 := monthOf_le (dayOfYear_le day)

theorem dayOfMonth_le : dayOfMonth day ≤ 30 := sub_monthStart_le

theorem marchYear_div : marchYear day / 400 = day / eraDays := by
  have := yearOf_lt (mod_lt day)
  rw [marchYear]
  omega

theorem marchYear_mod : marchYear day % 400 = yearOf (day % eraDays) := by
  have := yearOf_lt (mod_lt day)
  rw [marchYear]
  omega

/-- A day is told by its year, month and day of the month. -/
theorem days_eq : marchYear day / 400 * eraDays + (yearStart (marchYear day % 400) +
    (monthStart (marchMonth day) + dayOfMonth day)) = day := by
  have hmonth : monthStart (marchMonth day) ≤ dayOfYear day := monthStart_le
  have hyear := yearStart_le (mod_lt day)
  have hera := Nat.div_add_mod day eraDays
  rw [marchYear_div, marchYear_mod, dayOfMonth, Nat.add_sub_cancel' hmonth, dayOfYear,
    Nat.add_sub_cancel' hyear, Nat.mul_comm]
  exact hera

/-! ## The calendar by its rules -/

/-- The years of 366 days. -/
def isLeap (year : Nat) : Bool := year % 4 == 0 && (year % 100 != 0 || year % 400 == 0)

/-- The length of a month, January being the first. -/
def daysInMonth (year : Nat) : Nat → Nat
  | 2 => if isLeap year then 29 else 28
  | 4 | 6 | 9 | 11 => 30
  | _ => 31

/-- The length of a year. -/
def daysInYear (year : Nat) : Nat := if isLeap year then 366 else 365

/-- The days before a year, from the year zero on. -/
def daysBeforeYear : Nat → Nat
  | 0 => 0
  | year + 1 => daysBeforeYear year + daysInYear year

/-- The days of a year before a month. -/
def daysBeforeMonth (year : Nat) : Nat → Nat
  | 0 | 1 => 0
  | month + 2 => daysBeforeMonth year (month + 1) + daysInMonth year (month + 1)

/-- The number of a day, the first of January of the year zero being day zero. -/
def dayNumber (year month day : Nat) : Nat :=
  daysBeforeYear year + daysBeforeMonth year month + (day - 1)

/-- A date of the calendar. -/
structure ValidDate (year month day : Nat) : Prop where
  monthInRange : 1 ≤ month ∧ month ≤ 12
  dayInRange : 1 ≤ day ∧ day ≤ daysInMonth year month

example : dayNumber 0 3 1 = 60 := by decide

theorem isLeap_iff (year : Nat) :
    isLeap year = true ↔ year % 4 = 0 ∧ (year % 100 ≠ 0 ∨ year % 400 = 0) := by
  simp [isLeap]

/-- The days before a year in closed form. -/
theorem daysBeforeYear_eq (year : Nat) : daysBeforeYear year + (year + 99) / 100 =
    365 * year + (year + 3) / 4 + (year + 399) / 400 := by
  induction year with
  | zero => rfl
  | succ year ih =>
    rw [daysBeforeYear, daysInYear]
    by_cases hleap : isLeap year = true
    · rw [if_pos hleap]
      rw [isLeap_iff] at hleap
      omega
    · rw [if_neg hleap]
      rw [isLeap_iff] at hleap
      omega

theorem daysInMonth_le (year month : Nat) : daysInMonth year month ≤ 31 := by
  unfold daysInMonth
  split
  · split <;> omega
  all_goals omega

/-- The year of a month counted from March on, from the year before the year zero on. -/
def shiftedYear (year month : Nat) : Int := if month ≤ 2 then (year : Int) - 1 else year

/-- A month counted from March on. -/
def shiftedMonth (month : Nat) : Nat := if 2 < month then month - 3 else month + 9

/-- The days since the first of March of the year zero, by eras. -/
def marchDays (year month day : Nat) : Int :=
  shiftedYear year month / 400 * 146097 + (shiftedYear year month % 400 * 365 +
    shiftedYear year month % 400 / 4 - shiftedYear year month % 400 / 100) +
      monthStart (shiftedMonth month) + (day - 1)

/-- A year counted from March on, without eras. -/
theorem eras_eq (year : Int) : year / 400 * 146097 + (year % 400 * 365 + year % 400 / 4 -
    year % 400 / 100) = 365 * year + year / 4 - year / 100 + year / 400 := by
  omega

/-- The days before a month are those since March and, from March on, those of January and
February. -/
theorem daysBeforeMonth_eq (year : Nat) {month : Nat} (h : 1 ≤ month ∧ month ≤ 12) :
    daysBeforeMonth year month + (if month ≤ 2 then 306 else 0) =
      monthStart (shiftedMonth month) + (if month ≤ 2 then 0 else 31 + daysInMonth year 2) := by
  obtain ⟨hlow, hhigh⟩ := h
  interval_cases month <;> simp [daysBeforeMonth, daysInMonth, monthStart, shiftedMonth] <;> omega

/-- Eras count the days of the calendar. -/
theorem marchDays_eq (year : Nat) {month : Nat} (h : 1 ≤ month ∧ month ≤ 12) {day : Nat}
    (hday : 1 ≤ day) : marchDays year month day = dayNumber year month day - 60 := by
  have hyear := daysBeforeYear_eq year
  have hmonth := daysBeforeMonth_eq year h
  rw [marchDays, eras_eq, dayNumber, shiftedYear]
  by_cases hearly : month ≤ 2
  · rw [if_pos hearly, if_pos hearly] at hmonth
    rw [if_pos hearly]
    omega
  · rw [if_neg hearly, if_neg hearly, daysInMonth] at hmonth
    rw [if_neg hearly]
    by_cases hleap : isLeap year = true
    · rw [if_pos hleap] at hmonth
      rw [isLeap_iff] at hleap
      omega
    · rw [if_neg hleap] at hmonth
      rw [isLeap_iff] at hleap
      omega

/-! ## The date of a day -/

/-- The date of a day since the first of March of the year zero. -/
def dateOf (day : Nat) : Nat × Nat × Nat :=
  let month := if marchMonth day < 10 then marchMonth day + 3 else marchMonth day - 9
  (if month ≤ 2 then marchYear day + 1 else marchYear day, month, dayOfMonth day + 1)

/-- Only a leap year has a day before it that ends a year of 366 days from March on. -/
theorem isLeap_of_dayOfYear {day : Nat} (h : dayOfYear day = 365) :
    isLeap (marchYear day + 1) = true := by
  have hlt : day % eraDays < eraDays := Nat.mod_lt day (by decide)
  have hyear := marchYear_mod day
  rw [isLeap_iff]
  by_cases hlast : day % eraDays = 146096
  · rw [hlast, show yearOf 146096 = 399 from by decide] at hyear
    omega
  · obtain ⟨hdiv, hcentury⟩ := yearOf_div hlt hlast
    have hstart := yearStart_le hlt
    rw [dayOfYear] at h
    rw [yearStart, hcentury] at h hstart
    rw [eraDays] at hlt h hstart hdiv hcentury hyear hlast
    generalize day % 146097 = rest at *
    generalize hfour : rest / 36524 = century at *
    generalize yearOf rest = year at *
    have hlate : year / 4 + 1 ≤ rest / 1460 := by omega
    have hlastOfFour : year % 4 = 3 := by omega
    have hcenturyGoesOn : year % 100 ≠ 99 := by omega
    omega

theorem daysInMonth_of_shifted {year month : Nat} (hne : month ≠ 2) (h : 1 ≤ month ∧ month ≤ 12) :
    daysInMonth year month =
      monthStart (shiftedMonth month + 1) - monthStart (shiftedMonth month) := by
  obtain ⟨hlow, hhigh⟩ := h
  interval_cases month <;> simp [daysInMonth, monthStart, shiftedMonth] at hne ⊢

private theorem shiftedMonth_dateOf : shiftedMonth (dateOf day).2.1 = marchMonth day := by
  have hmonth := marchMonth_le day
  dsimp only [dateOf]
  rw [shiftedMonth]
  by_cases hlate : marchMonth day < 10
  · rw [if_pos hlate, if_pos (by omega)]
    omega
  · rw [if_neg hlate, if_neg (by omega)]
    omega

private theorem shiftedYear_dateOf :
    shiftedYear (dateOf day).1 (dateOf day).2.1 = (marchYear day : Int) := by
  dsimp only [dateOf]
  generalize (if marchMonth day < 10 then marchMonth day + 3 else marchMonth day - 9) = month
  rw [shiftedYear]
  by_cases hearly : month ≤ 2
  · rw [if_pos hearly, if_pos hearly]
    omega
  · rw [if_neg hearly, if_neg hearly]

private theorem month_dateOf : 1 ≤ (dateOf day).2.1 ∧ (dateOf day).2.1 ≤ 12 := by
  have hmonth := marchMonth_le day
  dsimp only [dateOf]
  split <;> omega

/-- Every day has a date of the calendar. -/
theorem validDate_dateOf : ValidDate (dateOf day).1 (dateOf day).2.1 (dateOf day).2.2 := by
  have hmonth := month_dateOf day
  have hshifted := shiftedMonth_dateOf day
  have hstart : monthStart (marchMonth day) ≤ dayOfYear day := monthStart_le
  have hday : (dateOf day).2.2 = dayOfYear day - monthStart (marchMonth day) + 1 := rfl
  refine ⟨hmonth, by omega, ?_⟩
  rw [hday]
  by_cases hfebruary : (dateOf day).2.1 = 2
  · have hyear := shiftedYear_dateOf day
    rw [hfebruary, shiftedYear, if_pos (by decide)] at hyear
    rw [hfebruary] at hshifted ⊢
    have hle := dayOfYear_le day
    rw [← hshifted, daysInMonth, show monthStart (shiftedMonth 2) = 337 by decide]
    by_cases hlast : dayOfYear day = 365
    · have hleap := isLeap_of_dayOfYear hlast
      rw [show marchYear day + 1 = (dateOf day).1 by omega] at hleap
      rw [if_pos hleap]
      omega
    · split <;> omega
  · have hnext : dayOfYear day < monthStart (marchMonth day + 1) := lt_monthStart_succ
    rw [daysInMonth_of_shifted hfebruary hmonth, hshifted]
    omega

/-- The date of a day has the day's number. -/
theorem dayNumber_dateOf :
    dayNumber (dateOf day).1 (dateOf day).2.1 (dateOf day).2.2 = day + 60 := by
  have hnumber := marchDays_eq (dateOf day).1 (month_dateOf day)
    (validDate_dateOf day).dayInRange.1
  have hday : (dateOf day).2.2 = dayOfMonth day + 1 := rfl
  have heq := days_eq day
  have hcast : ((yearStart (marchYear day % 400) : Nat) : Int) = (marchYear day : Int) % 400 * 365 +
      (marchYear day : Int) % 400 / 4 - (marchYear day : Int) % 400 / 100 := by
    rw [yearStart]
    omega
  rw [marchDays, shiftedYear_dateOf, shiftedMonth_dateOf, hday] at hnumber
  rw [hday]
  rw [eraDays] at heq
  omega

/-! ## A date is told by its number -/

private theorem eq_of_between {before : Nat → Nat} (hmono : Monotone before) {m n k : Nat}
    (hm : before m ≤ k ∧ k < before (m + 1)) (hn : before n ≤ k ∧ k < before (n + 1)) : m = n := by
  by_contra hne
  rcases Nat.lt_or_gt_of_ne hne with hlt | hlt
  · have : before (m + 1) ≤ before n := hmono hlt
    omega
  · have : before (n + 1) ≤ before m := hmono hlt
    omega

theorem monotone_daysBeforeYear : Monotone daysBeforeYear :=
  monotone_nat_of_le_succ fun year ↦ Nat.le_add_right _ (daysInYear year)

private theorem monotone_daysBeforeMonth (year : Nat) : Monotone (daysBeforeMonth year) := by
  apply monotone_nat_of_le_succ
  intro month
  cases month with
  | zero => exact Nat.le_refl 0
  | succ month => exact Nat.le_add_right _ _

private theorem daysBeforeMonth_succ (year : Nat) {month : Nat} (h : 1 ≤ month) :
    daysBeforeMonth year (month + 1) = daysBeforeMonth year month + daysInMonth year month := by
  obtain ⟨month, rfl⟩ : ∃ before, month = before + 1 := ⟨month - 1, by omega⟩
  rfl

private theorem daysBeforeMonth_thirteen (year : Nat) :
    daysBeforeMonth year 13 = daysInYear year := by
  simp only [daysBeforeMonth, daysInMonth, daysInYear]
  split <;> rfl

variable {day} {year month : Nat}

/-- A day of a year is before its end. -/
theorem ValidDate.lt_daysInYear (h : ValidDate year month day) :
    daysBeforeMonth year month + (day - 1) < daysInYear year := by
  obtain ⟨⟨hlow, hhigh⟩, hday⟩ := h
  have hnext := monotone_daysBeforeMonth year (show month + 1 ≤ 13 by omega)
  rw [daysBeforeMonth_succ year hlow, daysBeforeMonth_thirteen] at hnext
  omega

/-- No two dates have one number. -/
theorem ValidDate.eq_of_dayNumber {year' month' day' : Nat} (h : ValidDate year month day)
    (h' : ValidDate year' month' day')
    (heq : dayNumber year month day = dayNumber year' month' day') :
    (year, month, day) = (year', month', day') := by
  have hlt := h.lt_daysInYear
  have hlt' := h'.lt_daysInYear
  rw [dayNumber, dayNumber] at heq
  obtain rfl : year = year' := by
    apply eq_of_between monotone_daysBeforeYear (k := daysBeforeYear year +
      (daysBeforeMonth year month + (day - 1)))
    · rw [daysBeforeYear]
      omega
    · rw [daysBeforeYear]
      omega
  obtain ⟨⟨hlow, -⟩, hday⟩ := h
  obtain ⟨⟨hlow', -⟩, hday'⟩ := h'
  obtain rfl : month = month' := by
    apply eq_of_between (monotone_daysBeforeMonth year)
      (k := daysBeforeMonth year month + (day - 1))
    · rw [daysBeforeMonth_succ year hlow]
      omega
    · rw [daysBeforeMonth_succ year hlow']
      omega
  rw [show day = day' by omega]

/-- A date from March of the year zero on is the date of its day. -/
theorem ValidDate.dateOf_eq (h : ValidDate year month day) {number : Nat}
    (hnumber : dayNumber year month day = number + 60) : dateOf number = (year, month, day) :=
  (validDate_dateOf number).eq_of_dayNumber h ((dayNumber_dateOf number).trans hnumber.symm)

end NullRouter.Base.CivilDate
