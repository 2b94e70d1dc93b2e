import NullRouter.Base.Checked
import NullRouter.Base.CivilDate

/-!
# The date of a day

`civil_from_days` of `services/auth-actix/src/sso_routes.rs:824`, in a build with overflow checks or
without: the civil date of a day since the epoch, for the instant that a request for a sign-on
names.
-/

namespace NullRouter.Auth

open NullRouter.Base

/-- The month of the calendar from one counted from March on, `sso_routes.rs:834`. -/
def unshiftedMonth (checks : Bool) (shiftedMonth : Nat) : Option Nat :=
  if shiftedMonth < 10 then addU64 checks shiftedMonth 3 else subU64 checks shiftedMonth 9

/-- The year of the calendar from one that begins in March, `sso_routes.rs:839`. -/
def unshiftedYear (checks : Bool) (year month : Nat) : Option Nat :=
  if month ≤ 2 then addU64 checks year 1 else some year

/-- `civil_from_days`, `sso_routes.rs:824`: the year, the month and the day. -/
def civilFromDays (checks : Bool) (days : Nat) : Option (Nat × Nat × Nat) := do
  let z ← addU64 checks days 719468
  let era := z / 146097
  let dayOfEra := z % 146097
  let yearDays ← subU64 checks dayOfEra (dayOfEra / 1460)
  let yearDays ← addU64 checks yearDays (dayOfEra / 36524)
  let yearDays ← subU64 checks yearDays (dayOfEra / 146096)
  let yearOfEra := yearDays / 365
  let eraYears ← mulU64 checks era 400
  let year ← addU64 checks yearOfEra eraYears
  let startDays ← mulU64 checks 365 yearOfEra
  let startDays ← addU64 checks startDays (yearOfEra / 4)
  let startDays ← subU64 checks startDays (yearOfEra / 100)
  let dayOfYear ← subU64 checks dayOfEra startDays
  let monthDays ← mulU64 checks 5 dayOfYear
  let monthDays ← addU64 checks monthDays 2
  let shiftedMonth := monthDays / 153
  let startDays ← mulU64 checks 153 shiftedMonth
  let startDays ← addU64 checks startDays 2
  let dayOfMonth ← subU64 checks dayOfYear (startDays / 5)
  let day ← addU64 checks dayOfMonth 1
  let month ← unshiftedMonth checks shiftedMonth
  let year ← unshiftedYear checks year month
  some (year, month, day)

/-- Past the first addition no step overflows, and the result is the date of the calendar. -/
theorem civilFromDays_of_fits {days : Nat} (h : days + 719468 ≤ u64Max) (checks : Bool) :
    civilFromDays checks days = some (CivilDate.dateOf (days + 719468)) := by
  have hmax : u64Max = 2 ^ 64 - 1 := rfl
  generalize hz : days + 719468 = z at *
  have hlt : z % 146097 < CivilDate.eraDays := Nat.mod_lt z (by decide)
  have hyearLt := CivilDate.yearOf_lt hlt
  have hyearLe := CivilDate.yearStart_le hlt
  have hday := CivilDate.dayOfYear_le z
  have hmonth := CivilDate.marchMonth_le z
  have hmonthLe : CivilDate.monthStart (CivilDate.marchMonth z) ≤ CivilDate.dayOfYear z :=
    CivilDate.monthStart_le
  rw [civilFromDays, addU64_of_le checks (by omega), hz]
  dsimp only [Option.bind_eq_bind]
  rw [CivilDate.eraDays] at hlt
  rw [CivilDate.yearStart] at hyearLe
  rw [Option.bind_some, subU64_of_le checks (by omega), Option.bind_some,
    addU64_of_le checks (by omega), Option.bind_some, subU64_of_le checks (by omega),
    Option.bind_some]
  rw [show (z % 146097 - z % 146097 / 1460 + z % 146097 / 36524 - z % 146097 / 146096) / 365 =
    CivilDate.yearOf (z % 146097) from rfl]
  rw [mulU64_of_le checks (by omega), Option.bind_some, addU64_of_le checks (by omega),
    Option.bind_some, mulU64_of_le checks (by omega), Option.bind_some,
    addU64_of_le checks (by omega), Option.bind_some, subU64_of_le checks (by omega),
    Option.bind_some, subU64_of_le checks (by omega), Option.bind_some]
  have hdayOfYear : z % 146097 - (365 * CivilDate.yearOf (z % 146097) +
      CivilDate.yearOf (z % 146097) / 4 - CivilDate.yearOf (z % 146097) / 100) =
        CivilDate.dayOfYear z := by
    rw [CivilDate.dayOfYear, CivilDate.yearStart, CivilDate.eraDays]
    omega
  rw [hdayOfYear, mulU64_of_le checks (by omega), Option.bind_some,
    addU64_of_le checks (by omega), Option.bind_some]
  rw [show (5 * CivilDate.dayOfYear z + 2) / 153 = CivilDate.marchMonth z from rfl,
    mulU64_of_le checks (by omega), Option.bind_some, addU64_of_le checks (by omega),
    Option.bind_some]
  rw [show (153 * CivilDate.marchMonth z + 2) / 5 =
      CivilDate.monthStart (CivilDate.marchMonth z) from rfl,
    subU64_of_le checks hmonthLe, Option.bind_some, addU64_of_le checks (by omega),
    Option.bind_some]
  have hyear : CivilDate.yearOf (z % 146097) + z / 146097 * 400 = CivilDate.marchYear z := rfl
  have hofMonth : CivilDate.dayOfYear z - CivilDate.monthStart (CivilDate.marchMonth z) =
    CivilDate.dayOfMonth z := rfl
  rw [hyear, hofMonth]
  have hmonthOf : unshiftedMonth checks (CivilDate.marchMonth z) =
      some (CivilDate.dateOf z).2.1 := by
    dsimp only [CivilDate.dateOf]
    rw [unshiftedMonth]
    split
    · exact addU64_of_le checks (by omega)
    · exact subU64_of_le checks (by omega)
  have hyearOf : unshiftedYear checks (CivilDate.marchYear z) (CivilDate.dateOf z).2.1 =
      some (CivilDate.dateOf z).1 := by
    have hsmall : CivilDate.marchYear z + 1 ≤ 2 ^ 64 - 1 := by omega
    rw [unshiftedYear, show (CivilDate.dateOf z).1 = if (CivilDate.dateOf z).2.1 ≤ 2 then
      CivilDate.marchYear z + 1 else CivilDate.marchYear z from rfl]
    split
    · exact addU64_of_le checks hsmall
    · rfl
  rw [hmonthOf, Option.bind_some, hyearOf, Option.bind_some]
  rfl

/-- A build with overflow checks has a date for a day exactly where the first addition fits. -/
theorem civilFromDays_of_overflow {days : Nat} (h : u64Max < days + 719468) :
    civilFromDays true days = none := by
  rw [civilFromDays, addU64_true, if_neg (by omega)]
  rfl

end NullRouter.Auth
