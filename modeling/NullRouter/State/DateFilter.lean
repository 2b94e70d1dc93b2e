import Mathlib.Data.List.TakeWhile
import NullRouter.Auth.CivilDays
import NullRouter.Base.Offsets
import NullRouter.Runtime.Timestamps

/-!
# Date filters

`parse_date_ms` and `days_from_civil` of `services/state-actix/src/internal/usage_query.rs:549–658`:
the milliseconds that a date of the dashboard tells. A text is read as its own stamps, as plain
milliseconds, or as a civil date and time; the arithmetic of the days is that of `i64`, in a build
with overflow checks or without, and that of the milliseconds is checked.
-/

namespace NullRouter.State

open NullRouter.Base
open NullRouter.Auth (civilFromDays)
open NullRouter.Runtime (ofDigitChars_lt)
open NullRouter.Translate (parseI64)

/-! ## The day of a date -/

/-- The year that begins in March, `usage_query.rs:652`. -/
def yearFromMarch (checks : Bool) (year : Int) (month : Nat) : Option Int :=
  if month ≤ 2 then wrapI64 checks (year - 1) else some year

/-- The month from March on, `usage_query.rs:655`. -/
def monthFromMarch (checks : Bool) (month : Int) : Option Int :=
  if 2 < month then wrapI64 checks (month - 3) else wrapI64 checks (month + 9)

/-- What is divided for the era, `usage_query.rs:653`. -/
def eraDividend (checks : Bool) (year : Int) : Option Int :=
  if 0 ≤ year then some year else wrapI64 checks (year - 399)

/-- `days_from_civil`, `usage_query.rs:649`. -/
def daysFromCivil (checks : Bool) (year : Int) (month day : Nat) : Option Int := do
  let year ← yearFromMarch checks year month
  let dividend ← eraDividend checks year
  let era := dividend.tdiv 400
  let eraYears ← wrapI64 checks (era * 400)
  let yearOfEra ← wrapI64 checks (year - eraYears)
  let monthShifted ← monthFromMarch checks month
  let monthDays ← wrapI64 checks (153 * monthShifted)
  let monthDays ← wrapI64 checks (monthDays + 2)
  let dayOfYear ← wrapI64 checks (monthDays.tdiv 5 + day)
  let dayOfYear ← wrapI64 checks (dayOfYear - 1)
  let yearDays ← wrapI64 checks (yearOfEra * 365)
  let yearDays ← wrapI64 checks (yearDays + yearOfEra.tdiv 4)
  let yearDays ← wrapI64 checks (yearDays - yearOfEra.tdiv 100)
  let dayOfEra ← wrapI64 checks (yearDays + dayOfYear)
  let eraDays ← wrapI64 checks (era * 146097)
  let days ← wrapI64 checks (eraDays + dayOfEra)
  wrapI64 checks (days - 719468)

/-! ## Reading -/

/-- `str::parse::<u32>`. -/
def parseU32 (s : String) : Option Nat := (parseU64 s).filter (· ≤ u32Max)

/-- `checked_add` and its like of `i64`. -/
def checkedI64 (n : Int) : Option Int := if -2 ^ 63 ≤ n ∧ n < 2 ^ 63 then some n else none

/-- `str::split` by a character. -/
def fieldsOf (mark : Char) (text : List Char) : List String :=
  (text.splitOn mark).map String.ofList

/-- A field, or a default where there is none. -/
def fieldOr {α : Type} (field : Option String) (default : α) (parse : String → Option α) :
    Option α :=
  match field with
  | some text => parse text
  | none => some default

/-- The mark between a date and a time. -/
def isTimeMark (c : Char) : Bool := c == 'T' || c == 't'

/-- The year, the month and the day of a text, `usage_query.rs:571`. -/
def readDate (date : List Char) : Option (Int × Nat × Nat) := do
  let fields := fieldsOf '-' date
  let year ← fields[0]?.bind parseI64
  let month ← fieldOr fields[1]? 1 parseU32
  let day ← fieldOr fields[2]? 1 parseU32
  if fields.length ≤ 3 ∧ (1 ≤ month ∧ month ≤ 12) ∧ 1 ≤ day ∧ day ≤ 31 then
    some (year, month, day)
  else none

/-- The sign of an offset. -/
def isSign (c : Char) : Bool := c == '+' || c == '-'

/-- The milliseconds of an offset without its sign, `usage_query.rs:606`. -/
def zoneMillis (zone : List Char) : Option Int := do
  let fields := fieldsOf ':' zone
  let hours ← fields[0]?.bind parseI64
  let minutes ← fieldOr fields[1]? 0 parseI64
  if fields.length ≤ 2 then
    let hours ← checkedI64 (hours * 3600000)
    let minutes ← checkedI64 (minutes * 60000)
    checkedI64 (hours + minutes)
  else none

/-- `split_zone`, `usage_query.rs:597`: the time without its zone, and the offset of the zone. The
outer option is a panic. -/
def splitZone (checks : Bool) (time : List Char) : Option (Option (List Char × Int)) :=
  if time.getLast? = some 'Z' ∨ time.getLast? = some 'z' then some (some (time.dropLast, 0))
  else match time.reverse.dropWhile (!isSign ·) with
    | [] => some (some (time, 0))
    | sign :: head =>
      match zoneMillis (time.reverse.takeWhile (!isSign ·)).reverse with
      | none => some none
      | some magnitude =>
        (if sign = '-' then wrapI64 checks (-magnitude) else some magnitude).map
          fun offset ↦ some (head.reverse, offset)

/-- The milliseconds of a fraction of a second: `format!` with zeros up to three characters, and the
first three bytes. -/
def readMilli (fraction : List Char) : Option Nat :=
  (charsTo 3 (fraction ++ List.replicate (3 - fraction.length) '0')).bind
    fun digits ↦ parseU32 (String.ofList digits)

/-- A time of a day. -/
structure ClockTime where
  hour : Nat
  minute : Nat
  second : Nat
  milli : Nat
  deriving DecidableEq

/-- `parse_time`, `usage_query.rs:622`. -/
def parseTime (time : List Char) : Option ClockTime :=
  if time = [] then some ⟨0, 0, 0, 0⟩ else do
    let fields := fieldsOf ':' time
    let hour ← fields[0]?.bind parseU32
    let minute ← fieldOr fields[1]? 0 parseU32
    let seconds := fields[2]?.getD "0"
    let (secondText, fraction) := (splitOnce '.' seconds).getD (seconds, "0")
    let second ← parseU32 secondText
    let milli ← readMilli fraction.toList
    if fields.length ≤ 3 ∧ hour ≤ 23 ∧ minute ≤ 59 ∧ second ≤ 60 then
      some ⟨hour, minute, second, milli⟩
    else none

/-- What a text tells before any arithmetic on its day. -/
structure IsoTime where
  year : Int
  month : Nat
  day : Nat
  clock : ClockTime
  offset : Int
  deriving DecidableEq

/-- The fields of a text, `usage_query.rs:567–580`. The outer option is a panic. -/
def readIso (checks : Bool) (value : List Char) : Option (Option IsoTime) :=
  match readDate (value.takeWhile (!isTimeMark ·)) with
  | none => some none
  | some (year, month, day) =>
    (splitZone checks ((value.dropWhile (!isTimeMark ·)).drop 1)).map fun zone ↦
      zone.bind fun (time, offset) ↦
        (parseTime time).map fun clock ↦ ⟨year, month, day, clock, offset⟩

/-- The milliseconds of a time from the days before it, `usage_query.rs:583`. -/
def IsoTime.millis (time : IsoTime) (days : Int) : Option Nat := do
  let millis ← checkedI64 (days * 86400000)
  let millis ← checkedI64 (millis + time.clock.hour * 3600000)
  let millis ← checkedI64 (millis + time.clock.minute * 60000)
  let millis ← checkedI64 (millis + time.clock.second * 1000)
  let millis ← checkedI64 (millis + time.clock.milli)
  let millis ← checkedI64 (millis - time.offset)
  if 0 ≤ millis then some millis.toNat else none

/-- `parse_iso_ms`, `usage_query.rs:566`. The outer option is a panic. -/
def parseIsoMs (checks : Bool) (value : List Char) : Option (Option Nat) := do
  match ← readIso checks value with
  | none => some none
  | some time => (daysFromCivil checks time.year time.month time.day).map time.millis

/-- What a filter is read as: nothing, a number of milliseconds, or a date. -/
inductive FilterForm where
  | nothing
  | stamp (millis : String)
  | iso (value : List Char)
  deriving DecidableEq

/-- The form of a filter, `usage_query.rs:550–562`. -/
def filterForm (value : String) : FilterForm :=
  if trim value = "" then .nothing
  else match stripPrefix? "unix-ms:" (trim value) with
    | some millis => .stamp (trim millis)
    | none =>
      if (trim value).toList.all Char.isDigit then .stamp (trim value)
      else .iso (trim value).toList

/-- `parse_date_ms`, `usage_query.rs:549`. The outer option is a panic. -/
def parseDateMs (checks : Bool) (value : String) : Option (Option Nat) :=
  match filterForm value with
  | .nothing => some none
  | .stamp millis => some (parseU64 millis)
  | .iso value => parseIsoMs checks value

/-! ## The days of the calendar -/

section Days

variable {year month day : Nat}

private theorem yearFromMarch_eq (hyear : year < 2 ^ 63) (checks : Bool) :
    yearFromMarch checks year month = some (CivilDate.shiftedYear year month) := by
  rw [yearFromMarch, CivilDate.shiftedYear]
  split
  · exact wrapI64_of_le checks (by omega)
  · rfl

private theorem eraDividend_eq {year : Int} (hlow : -1 ≤ year) (checks : Bool) :
    ∃ dividend, eraDividend checks year = some dividend ∧ dividend.tdiv 400 = year / 400 := by
  rw [eraDividend]
  by_cases hneg : 0 ≤ year
  · rw [if_pos hneg]
    exact ⟨year, rfl, Int.tdiv_eq_ediv_of_nonneg hneg⟩
  · obtain rfl : year = -1 := by omega
    exact ⟨-400, by cases checks <;> rfl, rfl⟩

private theorem monthFromMarch_eq (hmonth : 1 ≤ month ∧ month ≤ 12) (checks : Bool) :
    monthFromMarch checks month = some (CivilDate.shiftedMonth month : Int) := by
  rw [monthFromMarch, CivilDate.shiftedMonth]
  by_cases hlate : 2 < month
  · rw [if_pos (by omega), if_pos hlate, wrapI64_of_le checks (by omega)]
    congr 1
    omega
  · rw [if_neg (by omega), if_neg hlate, wrapI64_of_le checks (by omega)]
    rfl

private theorem daysFromCivil_eq (hyear : year < 2 ^ 63) (hmonth : 1 ≤ month ∧ month ≤ 12)
    (hday : 1 ≤ day ∧ day ≤ 31) (checks : Bool) : ∃ dayOfEra : Int,
      (0 ≤ dayOfEra ∧ dayOfEra < 200000) ∧
      CivilDate.marchDays year month day =
        CivilDate.shiftedYear year month / 400 * 146097 + dayOfEra ∧
      daysFromCivil checks year month day =
        (wrapI64 checks (CivilDate.shiftedYear year month / 400 * 146097)).bind fun eraDays ↦
          (wrapI64 checks (eraDays + dayOfEra)).bind fun days ↦ wrapI64 checks (days - 719468) := by
  have hlow : -1 ≤ CivilDate.shiftedYear year month ∧ CivilDate.shiftedYear year month < 2 ^ 63 := by
    rw [CivilDate.shiftedYear]
    split <;> omega
  have hshifted : CivilDate.shiftedMonth month ≤ 11 := by
    rw [CivilDate.shiftedMonth]
    split <;> omega
  obtain ⟨dividend, hdividend, hera⟩ := eraDividend_eq hlow.1 checks
  rw [daysFromCivil, yearFromMarch_eq hyear, monthFromMarch_eq hmonth]
  dsimp only [Option.bind_eq_bind]
  rw [Option.bind_some, hdividend, Option.bind_some, hera, CivilDate.marchDays,
    CivilDate.monthStart]
  generalize CivilDate.shiftedYear year month = y at *
  generalize CivilDate.shiftedMonth month = m at *
  have hrest : y - y / 400 * 400 = y % 400 := by omega
  have hm : (153 * (m : Int) + 2).tdiv 5 = (((153 * m + 2) / 5 : Nat) : Int) := rfl
  have hfour : (y % 400).tdiv 4 = y % 400 / 4 := Int.tdiv_eq_ediv_of_nonneg (by omega)
  have hhundred : (y % 400).tdiv 100 = y % 400 / 100 := Int.tdiv_eq_ediv_of_nonneg (by omega)
  rw [wrapI64_of_le checks (by omega), Option.bind_some, wrapI64_of_le checks (by omega),
    Option.bind_some, hrest, Option.bind_some, wrapI64_of_le checks (by omega), Option.bind_some,
    wrapI64_of_le checks (by omega), Option.bind_some, hm, wrapI64_of_le checks (by omega),
    Option.bind_some, wrapI64_of_le checks (by omega), Option.bind_some,
    wrapI64_of_le checks (by omega), Option.bind_some, hfour, wrapI64_of_le checks (by omega),
    Option.bind_some, hhundred, wrapI64_of_le checks (by omega), Option.bind_some,
    wrapI64_of_le checks (by omega), Option.bind_some]
  refine ⟨_, ?_, ?_, rfl⟩
  · omega
  · omega

private theorem wrapI64_true_of_le {n : Int} (h : 2 ^ 63 ≤ n) : wrapI64 true n = none := by
  rw [wrapI64, if_neg (by omega), if_pos rfl]

/-- Where the days from March of the year zero on fit, the day is that of the calendar. -/
theorem daysFromCivil_of_fits (hyear : year < 2 ^ 63) (hmonth : 1 ≤ month ∧ month ≤ 12)
    (hday : 1 ≤ day ∧ day ≤ 31) (h : CivilDate.dayNumber year month day < 2 ^ 63 + 60)
    (checks : Bool) : daysFromCivil checks year month day =
      some ((CivilDate.dayNumber year month day : Int) - 719528) := by
  obtain ⟨dayOfEra, hbound, hmarch, hdays⟩ := daysFromCivil_eq hyear hmonth hday checks
  have hlow : -1 ≤ CivilDate.shiftedYear year month := by
    rw [CivilDate.shiftedYear]
    split <;> omega
  rw [CivilDate.marchDays_eq year hmonth hday.1] at hmarch
  rw [hdays, wrapI64_of_le checks (by omega), Option.bind_some, wrapI64_of_le checks (by omega),
    Option.bind_some, wrapI64_of_le checks (by omega)]
  congr 1
  omega

/-- Where they do not, a build with overflow checks has no day. -/
theorem daysFromCivil_of_overflow (hyear : year < 2 ^ 63) (hmonth : 1 ≤ month ∧ month ≤ 12)
    (hday : 1 ≤ day ∧ day ≤ 31) (h : 2 ^ 63 + 60 ≤ CivilDate.dayNumber year month day) :
    daysFromCivil true year month day = none := by
  obtain ⟨dayOfEra, hbound, hmarch, hdays⟩ := daysFromCivil_eq hyear hmonth hday true
  rw [CivilDate.marchDays_eq year hmonth hday.1] at hmarch
  rw [hdays]
  by_cases hera : 2 ^ 63 ≤ CivilDate.shiftedYear year month / 400 * 146097
  · rw [wrapI64_true_of_le hera, Option.bind_none]
  · rw [wrapI64_of_le true (by omega), Option.bind_some, wrapI64_true_of_le (by omega),
      Option.bind_none]

end Days

/-! ## Days and dates -/

/-- Whether the date that one service makes of a day is of the calendar and the other service's day
of it is the same, in any build. -/
def DayRoundTrips (days : Nat) : Prop :=
  ∀ checks, ∃ year month day, civilFromDays checks days = some (year, month, day) ∧
    CivilDate.ValidDate year month day ∧ daysFromCivil checks year month day = some (days : Int)

/-- Whether a date is the date of its day, in any build. -/
def DateRoundTrips (year month day : Nat) : Prop :=
  ∀ checks, ∃ days : Nat, daysFromCivil checks year month day = some (days : Int) ∧
    civilFromDays checks days = some (year, month, day)

private theorem le_thirtyOne {year month day : Nat} (h : CivilDate.ValidDate year month day) :
    1 ≤ day ∧ day ≤ 31 :=
  ⟨h.dayInRange.1, h.dayInRange.2.trans (CivilDate.daysInMonth_le year month)⟩

private theorem year_dateOf_lt {z : Nat} (h : z ≤ u64Max) : (CivilDate.dateOf z).1 < 2 ^ 63 := by
  have hmax : u64Max = 2 ^ 64 - 1 := rfl
  have hdiv := CivilDate.marchYear_div z
  rw [CivilDate.eraDays] at hdiv
  dsimp only [CivilDate.dateOf]
  generalize (if CivilDate.marchMonth z < 10 then _ else _) = month
  split <;> omega

theorem dayRoundTrips_iff (days : Nat) : DayRoundTrips days ↔ days + 719468 < 2 ^ 63 := by
  have hmax : u64Max = 2 ^ 64 - 1 := rfl
  have hnumber := CivilDate.dayNumber_dateOf (days + 719468)
  have hvalid := CivilDate.validDate_dateOf (days + 719468)
  constructor
  · intro h
    obtain ⟨year, month, day, hdate, -, hdays⟩ := h true
    by_cases hfits : days + 719468 ≤ u64Max
    · rw [Auth.civilFromDays_of_fits hfits, Option.some_inj] at hdate
      by_contra hbeyond
      have hnone := daysFromCivil_of_overflow (year_dateOf_lt hfits) hvalid.monthInRange
        (le_thirtyOne hvalid) (by omega)
      rw [hdate, hdays] at hnone
      cases hnone
    · rw [Auth.civilFromDays_of_overflow (by omega)] at hdate
      cases hdate
  · intro h checks
    have hfits : days + 719468 ≤ u64Max := by omega
    have hdays := daysFromCivil_of_fits (year_dateOf_lt hfits) hvalid.monthInRange
      (le_thirtyOne hvalid) (by omega) checks
    rw [hnumber] at hdays
    refine ⟨(CivilDate.dateOf (days + 719468)).1, (CivilDate.dateOf (days + 719468)).2.1,
      (CivilDate.dateOf (days + 719468)).2.2, Auth.civilFromDays_of_fits hfits checks, hvalid, ?_⟩
    rw [hdays, Option.some_inj]
    omega

theorem dateRoundTrips_iff {year month day : Nat} (hdate : CivilDate.ValidDate year month day)
    (hyear : 1970 ≤ year ∧ year < 2 ^ 63) :
    DateRoundTrips year month day ↔ CivilDate.dayNumber year month day < 2 ^ 63 + 60 := by
  have hmax : u64Max = 2 ^ 64 - 1 := rfl
  constructor
  · intro h
    obtain ⟨days, hdays, -⟩ := h true
    by_contra hbeyond
    rw [daysFromCivil_of_overflow hyear.2 hdate.monthInRange (le_thirtyOne hdate) (by omega)]
      at hdays
    cases hdays
  · intro h checks
    have hepoch : 719528 ≤ CivilDate.dayNumber year month day := by
      have hmono := CivilDate.monotone_daysBeforeYear hyear.1
      have hepoch := CivilDate.daysBeforeYear_eq 1970
      rw [CivilDate.dayNumber]
      omega
    refine ⟨CivilDate.dayNumber year month day - 719528, ?_, ?_⟩
    · rw [daysFromCivil_of_fits hyear.2 hdate.monthInRange (le_thirtyOne hdate) h,
        Option.some_inj]
      omega
    · rw [Auth.civilFromDays_of_fits (by omega), hdate.dateOf_eq (by omega)]

/-! ## Reading overflows nowhere -/

theorem mem_of_mem_splitOn {mark c : Char} {text field : List Char}
    (hfield : field ∈ text.splitOn mark) (hc : c ∈ field) : c ∈ text := by
  induction text generalizing field with
  | nil =>
    rw [List.splitOn_nil, List.mem_singleton] at hfield
    rw [hfield] at hc
    cases hc
  | cons d text ih =>
    obtain ⟨head, tail, hsplit⟩ := List.exists_cons_of_ne_nil (List.splitOn_ne_nil mark text)
    rw [List.splitOn_cons_eq_if_modifyHead, hsplit] at hfield
    rw [hsplit] at ih
    split at hfield
    · rcases List.mem_cons.mp hfield with rfl | hrest
      · cases hc
      · exact List.mem_cons_of_mem d (ih hrest hc)
    · rw [List.modifyHead_cons] at hfield
      rcases List.mem_cons.mp hfield with rfl | hrest
      · rcases List.mem_cons.mp hc with rfl | hhead
        · exact List.mem_cons_self
        · exact List.mem_cons_of_mem d (ih List.mem_cons_self hhead)
      · exact List.mem_cons_of_mem d (ih (List.mem_cons_of_mem head hrest) hc)

private theorem notMem_of_fieldsOf {mark c : Char} {text : List Char} (hc : c ∉ text) {i : Nat}
    {field : String} (hfield : (fieldsOf mark text)[i]? = some field) : c ∉ field.toList := by
  obtain ⟨chars, hmem, rfl⟩ := List.mem_map.mp (List.mem_of_getElem? hfield)
  rw [String.toList_ofList]
  exact fun h ↦ hc (mem_of_mem_splitOn hmem h)

private theorem notMem_splitOn {mark : Char} {text field : List Char}
    (hfield : field ∈ text.splitOn mark) : mark ∉ field := by
  induction text generalizing field with
  | nil =>
    rw [List.splitOn_nil, List.mem_singleton] at hfield
    rw [hfield]
    exact List.not_mem_nil
  | cons d text ih =>
    obtain ⟨head, tail, hsplit⟩ := List.exists_cons_of_ne_nil (List.splitOn_ne_nil mark text)
    rw [List.splitOn_cons_eq_if_modifyHead, hsplit] at hfield
    rw [hsplit] at ih
    split at hfield
    · rcases List.mem_cons.mp hfield with rfl | hrest
      · exact List.not_mem_nil
      · exact ih hrest
    · next hne =>
      rw [List.modifyHead_cons] at hfield
      rcases List.mem_cons.mp hfield with rfl | hrest
      · intro hmem
        rcases List.mem_cons.mp hmem with rfl | hhead
        · exact hne (beq_self_eq_true _)
        · exact ih List.mem_cons_self hhead
      · exact ih (List.mem_cons_of_mem head hrest)

private theorem parseI64_of_unsigned {text : String} {n : Int} (h : '-' ∉ text.toList)
    (hn : parseI64 text = some n) : 0 ≤ n ∧ n < 2 ^ 63 := by
  rw [parseI64] at hn
  split at hn
  · next rest htext =>
    rw [htext] at h
    exact absurd List.mem_cons_self h
  · obtain ⟨m, -, hm⟩ := Option.bind_eq_some_iff.mp hn
    split at hm
    · cases hm
      omega
    · cases hm

theorem checkedI64_eq_some {n m : Int} (h : checkedI64 n = some m) :
    m = n ∧ -2 ^ 63 ≤ n ∧ n < 2 ^ 63 := by
  rw [checkedI64] at h
  split at h
  · next hbound =>
    cases h
    exact ⟨rfl, hbound⟩
  · cases h

private theorem zoneMillis_nonneg {zone : List Char} (hzone : '-' ∉ zone) {millis : Int}
    (h : zoneMillis zone = some millis) : 0 ≤ millis ∧ millis < 2 ^ 63 := by
  simp only [zoneMillis, Option.bind_eq_bind, Option.bind_eq_some_iff] at h
  obtain ⟨hours, ⟨field, hfield, hhours⟩, minutes, hminutes, h⟩ := h
  have hhour := parseI64_of_unsigned (notMem_of_fieldsOf hzone hfield) hhours
  have hminute : 0 ≤ minutes := by
    unfold fieldOr at hminutes
    split at hminutes
    · next field hfield =>
      exact (parseI64_of_unsigned (notMem_of_fieldsOf hzone hfield) hminutes).1
    · cases hminutes
      exact Int.le_refl 0
  split at h
  · simp only [Option.bind_eq_some_iff] at h
    obtain ⟨hourMillis, hhourMillis, minuteMillis, hminuteMillis, h⟩ := h
    have hfirst := checkedI64_eq_some hhourMillis
    have hsecond := checkedI64_eq_some hminuteMillis
    have hsum := checkedI64_eq_some h
    omega
  · cases h

private theorem splitZone_exact (time : List Char) :
    ∃ zone, ∀ checks, splitZone checks time = some zone := by
  simp only [splitZone]
  split
  · exact ⟨_, fun _ ↦ rfl⟩
  split
  · exact ⟨_, fun _ ↦ rfl⟩
  next sign head _ =>
  split
  · exact ⟨_, fun _ ↦ rfl⟩
  next magnitude hmillis =>
  have hsign : '-' ∉ (time.reverse.takeWhile (!isSign ·)).reverse := by
    intro hmem
    have hnot := List.mem_takeWhile_imp (List.mem_reverse.mp hmem)
    exact absurd hnot (by decide)
  have hbound := zoneMillis_nonneg hsign hmillis
  split
  · exact ⟨some (head.reverse, -magnitude), fun checks ↦ by
      rw [wrapI64_of_le checks (by omega), Option.map_some]⟩
  · exact ⟨_, fun _ ↦ rfl⟩

/-- The fields of a text are read without an overflow. -/
theorem readIso_exact (value : List Char) :
    ∃ time, ∀ checks, readIso checks value = some time := by
  obtain ⟨zone, hzone⟩ := splitZone_exact ((value.dropWhile (!isTimeMark ·)).drop 1)
  simp only [readIso]
  split
  · exact ⟨_, fun _ ↦ rfl⟩
  · exact ⟨_, fun checks ↦ by rw [hzone, Option.map_some]⟩

/-- A year that is no negative one, a month of twelve and a day of thirty-one. -/
structure IsoTime.InRange (time : IsoTime) : Prop where
  year : 0 ≤ time.year ∧ time.year < 2 ^ 63
  month : 1 ≤ time.month ∧ time.month ≤ 12
  day : 1 ≤ time.day ∧ time.day ≤ 31

theorem inRange_of_readIso {checks : Bool} {value : List Char} {time : IsoTime}
    (h : readIso checks value = some (some time)) : time.InRange := by
  rw [readIso] at h
  split at h
  · cases h
  next year month day hdate =>
  obtain ⟨zone, -, hzone⟩ := Option.map_eq_some_iff.mp h
  obtain ⟨⟨rest, offset⟩, -, htime⟩ := Option.bind_eq_some_iff.mp hzone
  obtain ⟨clock, -, rfl⟩ := Option.map_eq_some_iff.mp htime
  simp only [readDate, Option.bind_eq_bind, Option.bind_eq_some_iff] at hdate
  obtain ⟨year', ⟨field, hfield, hyear⟩, month', -, day', -, hdate⟩ := hdate
  split at hdate
  · next hrange =>
    cases hdate
    obtain ⟨chars, hmem, rfl⟩ := List.mem_map.mp (List.mem_of_getElem? hfield)
    have hminus : '-' ∉ (String.ofList chars).toList := by
      rw [String.toList_ofList]
      exact notMem_splitOn hmem
    exact ⟨parseI64_of_unsigned hminus hyear, hrange.2.1, hrange.2.2⟩
  · cases hdate

theorem parseIsoMs_none {checks : Bool} {value : List Char}
    (h : readIso checks value = some none) : parseIsoMs checks value = some none := by
  simp only [parseIsoMs, h, Option.bind_eq_bind, Option.bind_some]

private theorem parseIsoMs_some {checks : Bool} {value : List Char} {time : IsoTime}
    (h : readIso checks value = some (some time)) : parseIsoMs checks value =
      (daysFromCivil checks time.year time.month time.day).map time.millis := by
  simp only [parseIsoMs, h, Option.bind_eq_bind, Option.bind_some]

/-- A text that is read as a date more than 2 ^ 63 - 1 days after the first of March of the year
zero. -/
def BeyondReach (text : String) : Prop :=
  ∃ value time, filterForm text = .iso value ∧ readIso true value = some (some time) ∧
    2 ^ 63 + 60 ≤ CivilDate.dayNumber time.year.toNat time.month time.day

/-- The milliseconds of a date within reach. -/
theorem parseDateMs_of_time {text : String} {value : List Char} {time : IsoTime}
    (hform : filterForm text = .iso value)
    (hread : ∀ checks, readIso checks value = some (some time))
    (hreach : CivilDate.dayNumber time.year.toNat time.month time.day < 2 ^ 63 + 60)
    (checks : Bool) : parseDateMs checks text = some (time.millis
      ((CivilDate.dayNumber time.year.toNat time.month time.day : Int) - 719528)) := by
  obtain ⟨hyear, hmonth, hday⟩ := inRange_of_readIso (hread true)
  have hcast : time.year = ((time.year.toNat : Nat) : Int) := by omega
  have hdays := daysFromCivil_of_fits (by omega) hmonth hday hreach checks
  rw [← hcast] at hdays
  rw [parseDateMs, hform]
  dsimp only
  rw [parseIsoMs_some (hread checks), hdays, Option.map_some]

/-- A text within reach is read without an overflow, and to the same in any build. -/
theorem parseDateMs_of_reach {text : String} (h : ¬ BeyondReach text) :
    ∃ result, ∀ checks, parseDateMs checks text = some result := by
  cases hform : filterForm text with
  | nothing => exact ⟨none, fun checks ↦ by rw [parseDateMs, hform]⟩
  | stamp millis => exact ⟨parseU64 millis, fun checks ↦ by rw [parseDateMs, hform]⟩
  | iso value =>
    obtain ⟨read, hread⟩ := readIso_exact value
    cases read with
    | none =>
      refine ⟨none, fun checks ↦ ?_⟩
      rw [parseDateMs, hform]
      exact parseIsoMs_none (hread checks)
    | some time =>
      refine ⟨_, parseDateMs_of_time hform hread ?_⟩
      by_contra hbeyond
      exact h ⟨value, time, hform, hread true, by omega⟩

/-- A build with overflow checks does not read the others. -/
theorem parseDateMs_of_beyond {text : String} (h : BeyondReach text) :
    parseDateMs true text = none := by
  obtain ⟨value, time, hform, hread, hbeyond⟩ := h
  obtain ⟨hyear, hmonth, hday⟩ := inRange_of_readIso hread
  have hcast : time.year = ((time.year.toNat : Nat) : Int) := by omega
  have hdays := daysFromCivil_of_overflow (by omega) hmonth hday hbeyond
  rw [← hcast] at hdays
  rw [parseDateMs, hform]
  dsimp only
  rw [parseIsoMs_some hread, hdays, Option.map_none]

end NullRouter.State
