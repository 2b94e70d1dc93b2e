import Mathlib.Data.List.Basic
import NullRouter.Base.Bytes
import NullRouter.Base.Checked
import NullRouter.Base.CivilDate
import NullRouter.Translate.Claude

/-!
# Timestamps of credentials

`parse_rfc3339_millis` and `format_rfc3339_millis` of `crates/execute/src/refresh.rs:143–222`. The
parser cuts its fields out of the bytes of a text; its arithmetic is that of words, in a build with
overflow checks or without.
-/

namespace NullRouter.Runtime

open NullRouter.Base
open NullRouter.Translate (parseI64)

/-! ## Reading -/

/-- The text of some bytes that are ASCII. No other bytes are a number. -/
def asciiText? (bytes : List UInt8) : Option String :=
  if bytes.all (·.toNat < 128) then some (String.ofList (bytes.map fun b ↦ Char.ofNat b.toNat))
  else none

/-- The bytes of a text between two places: `get(from..to)`. -/
def cut? (bytes : List UInt8) (start stop : Nat) : Option String :=
  if stop ≤ bytes.length then asciiText? ((bytes.drop start).take (stop - start)) else none

/-- `number`, `refresh.rs:150`. -/
def number (bytes : List UInt8) (start stop : Nat) : Option Nat :=
  (cut? bytes start stop).bind parseU64

/-- The fields of a timestamp. -/
structure CivilTime where
  year : Nat
  month : Nat
  day : Nat
  hour : Nat
  minute : Nat
  second : Nat
  deriving DecidableEq

/-- The fields that a text has, with the month and the day in range, `refresh.rs:153`. -/
def CivilTime.read (bytes : List UInt8) : Option CivilTime := do
  let year ← number bytes 0 4
  let month ← number bytes 5 7
  let day ← number bytes 8 10
  let hour ← number bytes 11 13
  let minute ← number bytes 14 16
  let second ← number bytes 17 19
  if (1 ≤ month ∧ month ≤ 12) ∧ 1 ≤ day ∧ day ≤ 31 then
    some ⟨year, month, day, hour, minute, second⟩
  else none

/-- The year, from March on. -/
def CivilTime.yearAdjusted (checks : Bool) (time : CivilTime) : Option Nat :=
  if time.month ≤ 2 then subU64 checks time.year 1 else some time.year

/-- The month, from March on. -/
def CivilTime.monthShifted (checks : Bool) (time : CivilTime) : Option Nat :=
  if 2 < time.month then subU64 checks time.month 3 else addU64 checks time.month 9

/-- Days since the first of March of the year zero, `refresh.rs:164`. -/
def CivilTime.days (checks : Bool) (time : CivilTime) : Option Nat := do
  let yearAdjusted ← time.yearAdjusted checks
  let era := yearAdjusted / 400
  let eraYears ← mulU64 checks era 400
  let yearOfEra ← subU64 checks yearAdjusted eraYears
  let monthShifted ← time.monthShifted checks
  let monthDays ← mulU64 checks 153 monthShifted
  let monthDays ← addU64 checks monthDays 2
  let monthDays ← addU64 checks (monthDays / 5) time.day
  let dayOfYear ← subU64 checks monthDays 1
  let yearDays ← mulU64 checks yearOfEra 365
  let yearDays ← addU64 checks yearDays (yearOfEra / 4)
  let yearDays ← subU64 checks yearDays (yearOfEra / 100)
  let dayOfEra ← addU64 checks yearDays dayOfYear
  let eraDays ← mulU64 checks era 146097
  addU64 checks eraDays dayOfEra

/-- The seconds of a day. -/
def CivilTime.daySeconds (checks : Bool) (time : CivilTime) : Option Nat := do
  let hours ← mulU64 checks time.hour 3600
  let minutes ← mulU64 checks time.minute 60
  let seconds ← addU64 checks hours minutes
  addU64 checks seconds time.second

/-- `i64::try_from`. -/
def tryI64 (n : Nat) : Option Int := if n < 2 ^ 63 then some n else none

/-- `trailing_offset_seconds`, `refresh.rs:180`. The outer option is a panic. -/
def trailingOffsetSeconds (checks : Bool) (bytes : List UInt8) : Option (Option Int) :=
  if bytes.getLast? = some 90 ∨ bytes.getLast? = some 122 then some (some 0)
  else if bytes.length < 6 then some none
  else
    let tail := bytes.drop (bytes.length - 6)
    match tail.head? with
    | none => some none
    | some first =>
      -- no character begins with a continuation byte
      if 128 ≤ first.toNat ∧ first.toNat < 192 then some none
      else if first ≠ 43 ∧ first ≠ 45 then some (some 0)
      else match (cut? tail 1 3).bind parseI64, (cut? tail 4 6).bind parseI64 with
        | some hours, some minutes => do
          let hours ← wrapI64 checks (hours * 3600)
          let minutes ← wrapI64 checks (minutes * 60)
          let offset ← wrapI64 checks (hours + minutes)
          let signed ← wrapI64 checks ((if first = 43 then 1 else -1) * offset)
          some (some signed)
        | _, _ => some none

/-- The milliseconds of a time, `refresh.rs:170`. The outer option is a panic. -/
def CivilTime.millis (checks : Bool) (time : CivilTime) (bytes : List UInt8) :
    Option (Option Nat) := do
  match tryI64 (← time.days checks) with
  | none => some none
  | some days =>
    let days ← wrapI64 checks (days - 719468)
    let daysSeconds ← wrapI64 checks (days * 86400)
    match tryI64 (← time.daySeconds checks) with
    | none => some none
    | some ofDay =>
      let seconds ← wrapI64 checks (daysSeconds + ofDay)
      match ← trailingOffsetSeconds checks bytes with
      | none => some none
      | some offset =>
        let utc ← wrapI64 checks (seconds - offset)
        let millis ← wrapI64 checks (utc * 1000)
        some (if 0 ≤ millis then some millis.toNat else none)

/-- `parse_rfc3339_millis`, `refresh.rs:143`. The outer option is a panic. -/
def parseRfc3339Millis (checks : Bool) (text : String) : Option (Option Nat) :=
  match parseU64 (trim text) with
  | some millis => some (some millis)
  | none =>
    match CivilTime.read (Bytes.ofText (trim text)) with
    | none => some none
    | some time => time.millis checks (Bytes.ofText (trim text))

/-! ## Writing -/

/-- A number in decimal, with zeros in front up to a width. -/
def padded (width n : Nat) : List Char :=
  List.leftpad width '0' (Nat.toDigits 10 n)

/-- `year_of_era`, `refresh.rs:204`. -/
def yearOfEra (dayOfEra : Int) : Int :=
  (dayOfEra - dayOfEra.tdiv 1460 + dayOfEra.tdiv 36524 - dayOfEra.tdiv 146096).tdiv 365

/-- `day_of_year`, `refresh.rs:207`. -/
def dayOfYear (dayOfEra yearOfEra : Int) : Int :=
  dayOfEra - (365 * yearOfEra + yearOfEra.tdiv 4 - yearOfEra.tdiv 100)

/-- The date of a day since the epoch, `refresh.rs:200`. -/
def civilOfDays (days : Int) : Int × Int × Int :=
  let z := days + 719468
  let era := (if 0 ≤ z then z else z - 146096).tdiv 146097
  let dayOfEra := z - era * 146097
  let year := yearOfEra dayOfEra + era * 400
  let dayOfYear := dayOfYear dayOfEra (yearOfEra dayOfEra)
  let monthShifted := (5 * dayOfYear + 2).tdiv 153
  let day := dayOfYear - (153 * monthShifted + 2).tdiv 5 + 1
  let month := if monthShifted < 10 then monthShifted + 3 else monthShifted - 9
  (if month ≤ 2 then year + 1 else year, month, day)

/-- The date of an instant. -/
def dateOfMillis (millis : Nat) : Int × Int × Int :=
  civilOfDays ((tryI64 (millis / 1000 / 86400)).getD 0)

/-- The characters of a time in UTC, `refresh.rs:215`. -/
def CivilTime.text (time : CivilTime) : List Char :=
  padded 4 time.year ++ '-' :: padded 2 time.month ++ '-' :: padded 2 time.day ++
    'T' :: padded 2 time.hour ++ ':' :: padded 2 time.minute ++ ':' :: padded 2 time.second ++ ['Z']

/-- `format_rfc3339_millis`, `refresh.rs:196`. -/
def formatRfc3339Millis (millis : Nat) : String :=
  let timeOfDay := millis / 1000 % 86400
  let date := dateOfMillis millis
  String.ofList (CivilTime.text
    { year := date.1.toNat
      month := date.2.1.toNat
      day := date.2.2.toNat
      hour := timeOfDay / 3600
      minute := timeOfDay % 3600 / 60
      second := timeOfDay % 60 })

/-! ## Fields are small -/

theorem ofDigitChars_lt {cs : List Char} (h : ∀ c ∈ cs, c.isDigit = true) (n : Nat) :
    Nat.ofDigitChars 10 cs n < (n + 1) * 10 ^ cs.length := by
  induction cs generalizing n with
  | nil => simp
  | cons c cs ih =>
    have hdigit : c.toNat - '0'.toNat ≤ 9 := by
      have hc : 48 ≤ c.toNat ∧ c.toNat ≤ 57 := by
        simpa [Char.isDigit, UInt32.le_iff_toNat_le] using h c List.mem_cons_self
      have hzero : '0'.toNat = 48 := rfl
      omega
    rw [Nat.ofDigitChars_cons, List.length_cons, pow_succ]
    calc _ < (10 * n + (c.toNat - '0'.toNat) + 1) * 10 ^ cs.length :=
          ih (fun d hd ↦ h d (List.mem_cons_of_mem _ hd)) _
      _ ≤ (10 * (n + 1)) * 10 ^ cs.length := Nat.mul_le_mul_right _ (by omega)
      _ = (n + 1) * (10 ^ cs.length * 10) := by
        rw [Nat.mul_comm 10 (n + 1), Nat.mul_assoc, Nat.mul_comm 10]

private theorem ofDigits_lt {digits : List Char} {n : Nat}
    (h : (if digits ≠ [] ∧ digits.all Char.isDigit ∧ Nat.ofDigitChars 10 digits 0 ≤ u64Max then
      some (Nat.ofDigitChars 10 digits 0) else none) = some n) : n < 10 ^ digits.length := by
  split at h
  · next hdigits =>
    have hlt := ofDigitChars_lt (List.all_eq_true.mp hdigits.2.1) 0
    rw [Option.some.injEq] at h
    rwa [h, Nat.zero_add, Nat.one_mul] at hlt
  · cases h

/-- A number is below the power of ten that its length tells. -/
theorem parseU64_lt {text : String} {n : Nat} (h : parseU64 text = some n) :
    n < 10 ^ text.toList.length := by
  unfold parseU64 at h
  dsimp only at h
  split at h
  · next rest htext =>
    apply (ofDigits_lt h).trans_le
    apply Nat.pow_le_pow_right (by decide)
    rw [htext, List.length_cons]
    omega
  · exact ofDigits_lt h

theorem length_cut {bytes : List UInt8} {start stop : Nat} {text : String}
    (h : cut? bytes start stop = some text) : text.toList.length ≤ stop - start := by
  rw [cut?] at h
  split at h
  · rw [asciiText?] at h
    split at h
    · rw [Option.some.injEq] at h
      rw [← h, String.toList_ofList, List.length_map]
      exact List.length_take_le _ _
    · cases h
  · cases h

theorem number_lt {bytes : List UInt8} {start stop n : Nat} (h : number bytes start stop = some n) :
    n < 10 ^ (stop - start) := by
  obtain ⟨text, htext, hn⟩ := Option.bind_eq_some_iff.mp h
  exact (parseU64_lt hn).trans_le (Nat.pow_le_pow_right (by decide) (length_cut htext))

/-- Fields of so many digits, with the month and the day in range. -/
structure CivilTime.InRange (time : CivilTime) : Prop where
  year : time.year ≤ 9999
  month : 1 ≤ time.month ∧ time.month ≤ 12
  day : 1 ≤ time.day ∧ time.day ≤ 31
  hour : time.hour ≤ 99
  minute : time.minute ≤ 99
  second : time.second ≤ 99

theorem CivilTime.inRange_of_read {bytes : List UInt8} {time : CivilTime}
    (h : CivilTime.read bytes = some time) : time.InRange := by
  simp only [CivilTime.read, Option.bind_eq_bind, Option.bind_eq_some_iff] at h
  obtain ⟨year, hyear, month, -, day, -, hour, hhour, minute, hminute, second, hsecond, h⟩ := h
  split at h
  · next hrange =>
    cases h
    have hyear := number_lt hyear
    have hhour := number_lt hhour
    have hminute := number_lt hminute
    have hsecond := number_lt hsecond
    exact ⟨Nat.le_of_lt_succ hyear, hrange.1, hrange.2, Nat.le_of_lt_succ hhour,
      Nat.le_of_lt_succ hminute, Nat.le_of_lt_succ hsecond⟩
  · cases h

theorem parseI64_bounds {text : String} {n : Int} (h : parseI64 text = some n)
    (hlength : text.toList.length ≤ 2) : -99 ≤ n ∧ n ≤ 99 := by
  have hpow : 10 ^ text.toList.length ≤ 10 ^ 2 := Nat.pow_le_pow_right (by decide) hlength
  rw [parseI64] at h
  split at h
  · next rest htext =>
    split at h
    · next hdigits =>
      have hlt := ofDigitChars_lt (List.all_eq_true.mp hdigits.2.1) 0
      have hrest : 10 ^ rest.length ≤ 10 ^ 2 := by
        apply Nat.pow_le_pow_right (by decide)
        rw [htext, List.length_cons] at hlength
        omega
      rw [Option.some.injEq] at h
      omega
    · cases h
  · obtain ⟨value, hvalue, hn⟩ := Option.bind_eq_some_iff.mp h
    have hlt := parseU64_lt hvalue
    split at hn
    · rw [Option.some.injEq] at hn
      omega
    · cases hn

/-! ## No overflow -/

/-- No offset overflows, and none is more than two digits of hours and minutes. -/
theorem trailingOffsetSeconds_fits (bytes : List UInt8) : ∃ offset,
    (∀ checks, trailingOffsetSeconds checks bytes = some offset) ∧
      ∀ seconds, offset = some seconds → -362340 ≤ seconds ∧ seconds ≤ 362340 := by
  by_cases hutc : bytes.getLast? = some 90 ∨ bytes.getLast? = some 122
  · refine ⟨some 0, fun checks ↦ if_pos hutc, fun seconds h ↦ ?_⟩
    cases h
    omega
  simp only [trailingOffsetSeconds, if_neg hutc]
  split
  · exact ⟨none, fun _ ↦ rfl, fun _ h ↦ by cases h⟩
  split
  · exact ⟨none, fun _ ↦ rfl, fun _ h ↦ by cases h⟩
  next first _ =>
  split
  · exact ⟨none, fun _ ↦ rfl, fun _ h ↦ by cases h⟩
  split
  · refine ⟨some 0, fun _ ↦ rfl, fun seconds h ↦ ?_⟩
    cases h
    omega
  split
  · next hours minutes hhours hminutes =>
    obtain ⟨text, htext, hparse⟩ := Option.bind_eq_some_iff.mp hhours
    obtain ⟨text', htext', hparse'⟩ := Option.bind_eq_some_iff.mp hminutes
    obtain ⟨hlow, hhigh⟩ := parseI64_bounds hparse (length_cut htext)
    obtain ⟨hlow', hhigh'⟩ := parseI64_bounds hparse' (length_cut htext')
    let offset := (if first = 43 then 1 else -1) * (hours * 3600 + minutes * 60)
    have hoffset : -362340 ≤ offset ∧ offset ≤ 362340 := by
      by_cases hplus : first = 43
      · simp only [offset, if_pos hplus]
        omega
      · simp only [offset, if_neg hplus]
        omega
    refine ⟨some offset, fun checks ↦ ?_, fun seconds h ↦ ?_⟩
    · rw [wrapI64_of_le checks (by omega), wrapI64_of_le checks (by omega)]
      simp only [Option.bind_eq_bind, Option.bind_some]
      rw [wrapI64_of_le checks (by omega), Option.bind_some, wrapI64_of_le checks (by omega),
        Option.bind_some]
    · cases h
      exact hoffset
  · exact ⟨none, fun _ ↦ rfl, fun _ h ↦ by cases h⟩

namespace CivilTime

variable {time : CivilTime}

/-- The years since March of the year zero. -/
def marchYear (time : CivilTime) : Nat := if time.month ≤ 2 then time.year - 1 else time.year

/-- The months since March. -/
def marchMonth (time : CivilTime) : Nat :=
  if 2 < time.month then time.month - 3 else time.month + 9

/-- The days since March of the year zero. -/
def marchDays (time : CivilTime) : Nat :=
  time.marchYear / 400 * CivilDate.eraDays +
    (CivilDate.yearStart (time.marchYear % 400) +
      (CivilDate.monthStart time.marchMonth + time.day - 1))

/-- A time in range is one of the years since March of the year zero. -/
def BeforeMarch (time : CivilTime) : Prop := time.year = 0 ∧ time.month ≤ 2

theorem days_of_inRange (h : time.InRange) (hmarch : ¬ time.BeforeMarch) (checks : Bool) :
    time.days checks = some time.marchDays := by
  obtain ⟨hyear, hmonth, hday, -⟩ := h
  have hstart : ¬ (time.year = 0 ∧ time.month ≤ 2) := hmarch
  have hadjusted : time.yearAdjusted checks = some time.marchYear := by
    rw [yearAdjusted, marchYear]
    split
    · exact subU64_of_le checks (by omega)
    · rfl
  have hshifted : time.monthShifted checks = some time.marchMonth := by
    rw [monthShifted, marchMonth]
    split
    · exact subU64_of_le checks (by omega)
    · exact addU64_of_le checks (by omega)
  have hy : time.marchYear ≤ 9999 := by
    rw [marchYear]
    split <;> omega
  have hm : time.marchMonth ≤ 11 := by
    rw [marchMonth]
    split <;> omega
  rw [days, hadjusted, hshifted, marchDays, CivilDate.eraDays, CivilDate.yearStart,
    CivilDate.monthStart]
  generalize time.marchYear = y at *
  generalize time.marchMonth = m at *
  have hmod : y - y / 400 * 400 = y % 400 := by omega
  dsimp only [Option.bind_eq_bind]
  rw [Option.bind_some, mulU64_of_le checks (by omega), Option.bind_some,
    subU64_of_le checks (by omega), Option.bind_some, Option.bind_some, mulU64_of_le checks (by omega), Option.bind_some,
    addU64_of_le checks (by omega), Option.bind_some, addU64_of_le checks (by omega),
    Option.bind_some, subU64_of_le checks (by omega), Option.bind_some, hmod,
    mulU64_of_le checks (by omega), Option.bind_some, addU64_of_le checks (by omega),
    Option.bind_some, subU64_of_le checks (by omega), Option.bind_some,
    addU64_of_le checks (by omega), Option.bind_some, mulU64_of_le checks (by omega),
    Option.bind_some, addU64_of_le checks (by omega)]

theorem marchDays_lt (h : time.InRange) : time.marchDays < 4000000 := by
  obtain ⟨hyear, hmonth, hday, -⟩ := h
  have hy : time.marchYear ≤ 9999 := by
    rw [marchYear]
    split <;> omega
  have hm : time.marchMonth ≤ 11 := by
    rw [marchMonth]
    split <;> omega
  rw [marchDays, CivilDate.eraDays, CivilDate.yearStart, CivilDate.monthStart]
  omega

theorem daySeconds_of_inRange (h : time.InRange) (checks : Bool) :
    time.daySeconds checks = some (time.hour * 3600 + time.minute * 60 + time.second) := by
  obtain ⟨-, -, -, hhour, hminute, hsecond⟩ := h
  rw [daySeconds]
  dsimp only [Option.bind_eq_bind]
  rw [mulU64_of_le checks (by omega), Option.bind_some, mulU64_of_le checks (by omega),
    Option.bind_some, addU64_of_le checks (by omega), Option.bind_some,
    addU64_of_le checks (by omega)]

/-- The seconds since the epoch that the fields tell, without an offset. -/
def epochSeconds (time : CivilTime) : Int :=
  ((time.marchDays : Int) - 719468) * 86400 +
    ((time.hour * 3600 + time.minute * 60 + time.second : Nat) : Int)

/-- The milliseconds of a number of seconds, where it is not negative. -/
def millisOf (seconds : Int) : Option Nat :=
  if 0 ≤ seconds * 1000 then some (seconds * 1000).toNat else none

theorem millis_of_inRange (h : time.InRange) (hmarch : ¬ time.BeforeMarch) {bytes : List UInt8}
    {offset : Option Int} (hoffset : ∀ checks, trailingOffsetSeconds checks bytes = some offset)
    (hbound : ∀ seconds, offset = some seconds → -362340 ≤ seconds ∧ seconds ≤ 362340)
    (checks : Bool) : time.millis checks bytes =
      some (offset.bind fun offset ↦ millisOf (time.epochSeconds - offset)) := by
  have hdays := marchDays_lt h
  obtain ⟨-, -, -, hhour, hminute, hsecond⟩ := id h
  have htry : tryI64 time.marchDays = some (time.marchDays : Int) := if_pos (by omega)
  have htryDay : tryI64 (time.hour * 3600 + time.minute * 60 + time.second) =
      some ((time.hour * 3600 + time.minute * 60 + time.second : Nat) : Int) :=
    if_pos (by omega)
  rw [millis]
  dsimp only [Option.bind_eq_bind]
  rw [days_of_inRange h hmarch, Option.bind_some, htry]
  dsimp only
  rw [wrapI64_of_le checks (by omega), Option.bind_some, wrapI64_of_le checks (by omega),
    Option.bind_some, daySeconds_of_inRange h, Option.bind_some, htryDay]
  dsimp only
  rw [wrapI64_of_le checks (by omega), Option.bind_some, hoffset, Option.bind_some]
  cases hcase : offset with
  | none => rfl
  | some seconds =>
    obtain ⟨hlow, hhigh⟩ := hbound seconds hcase
    dsimp only
    rw [wrapI64_of_le checks (by omega), Option.bind_some, wrapI64_of_le checks (by omega),
      Option.bind_some]
    rfl

/-- A time of the year zero before March is a panic in a build with overflow checks. -/
theorem millis_of_beforeMarch (h : time.BeforeMarch) (bytes : List UInt8) :
    time.millis true bytes = none := by
  have hadjusted : time.yearAdjusted true = none := by
    rw [yearAdjusted, if_pos h.2, h.1]
    rfl
  rw [millis, days, hadjusted]
  rfl

end CivilTime

/-- A text whose fields are a date of January or February of the year zero, and that is no plain
number. -/
def OfYearZero (text : String) : Prop :=
  parseU64 (trim text) = none ∧ ∃ time, CivilTime.read (Bytes.ofText (trim text)) = some time ∧
    time.year = 0 ∧ time.month ≤ 2

/-- Every other text is read without an overflow, and to the same in any build. -/
theorem parse_of_not_ofYearZero {text : String} (h : ¬ OfYearZero text) :
    ∃ millis, ∀ checks, parseRfc3339Millis checks text = some millis := by
  simp only [parseRfc3339Millis]
  cases hnumber : parseU64 (trim text) with
  | some millis => exact ⟨some millis, fun _ ↦ rfl⟩
  | none =>
    cases hread : CivilTime.read (Bytes.ofText (trim text)) with
    | none => exact ⟨none, fun _ ↦ rfl⟩
    | some time =>
      have hmarch : ¬ time.BeforeMarch := fun hbefore ↦ h ⟨hnumber, time, hread, hbefore⟩
      obtain ⟨offset, hoffset, hbound⟩ := trailingOffsetSeconds_fits (Bytes.ofText (trim text))
      have hrange := CivilTime.inRange_of_read hread
      exact ⟨_, CivilTime.millis_of_inRange hrange hmarch hoffset hbound⟩

theorem parse_of_ofYearZero {text : String} (h : OfYearZero text) :
    parseRfc3339Millis true text = none := by
  obtain ⟨hnumber, time, hread, hbefore⟩ := h
  simp only [parseRfc3339Millis, hnumber, hread]
  exact CivilTime.millis_of_beforeMarch hbefore _

/-- No step of reading a text overflows exactly where it is no date before March of the year
zero. -/
theorem isSome_parse_iff (text : String) :
    (parseRfc3339Millis true text).isSome = true ↔ ¬ OfYearZero text := by
  constructor
  · intro hsome hzero
    rw [parse_of_ofYearZero hzero] at hsome
    cases hsome
  · intro h
    obtain ⟨millis, hmillis⟩ := parse_of_not_ofYearZero h
    rw [hmillis]
    rfl

end NullRouter.Runtime

/-!
## Timestamps are read as they were written

What `format_rfc3339_millis` (`crates/execute/src/refresh.rs:196`) writes of an instant up to the
year 9999 is what `parse_rfc3339_millis` reads, less the fraction of a second.
-/

namespace NullRouter.Runtime

open NullRouter.Base

/-! ## The date -/

/-- The calendar month of a month from March on. -/
def calendarMonth (month : Nat) : Nat := if month < 10 then month + 3 else month - 9

/-- The calendar year, from a year and a month from March on. -/
def calendarYear (year month : Nat) : Nat := if calendarMonth month ≤ 2 then year + 1 else year

private theorem yearOfEra_natCast (day : Nat) :
    yearOfEra day = ((CivilDate.yearOf day : Nat) : Int) := by
  have hsum : (day : Int) - (day : Int).tdiv 1460 + (day : Int).tdiv 36524 -
      (day : Int).tdiv 146096 =
      ((day - day / 1460 + day / 36524 - day / 146096 : Nat) : Int) := by
    simp only [Int.natCast_tdiv_eq_ediv]
    omega
  rw [yearOfEra, hsum]
  rfl

private theorem dayOfYear_natCast {day : Nat} (h : day < CivilDate.eraDays) :
    dayOfYear day ((CivilDate.yearOf day : Nat) : Int) =
      ((day - CivilDate.yearStart (CivilDate.yearOf day) : Nat) : Int) := by
  have hstart := CivilDate.yearStart_le h
  rw [dayOfYear]
  rw [CivilDate.yearStart] at hstart ⊢
  simp only [Int.natCast_tdiv_eq_ediv]
  omega

private theorem calendarMonth_natCast (month : Nat) :
    (if (month : Int) < 10 then (month : Int) + 3 else (month : Int) - 9) =
      ((calendarMonth month : Nat) : Int) := by
  rw [calendarMonth]
  by_cases h : month < 10
  · rw [if_pos h, if_pos (by omega)]
    omega
  · rw [if_neg h, if_neg (by omega)]
    omega

/-- The date that is written is that of the calendar. -/
theorem civilOfDays_natCast {days z : Nat} (hz : days + 719468 = z) : civilOfDays days =
    (((calendarYear (CivilDate.marchYear z) (CivilDate.marchMonth z) : Nat) : Int),
      ((calendarMonth (CivilDate.marchMonth z) : Nat) : Int),
      ((CivilDate.dayOfMonth z + 1 : Nat) : Int)) := by
  have hzInt : (days : Int) + 719468 = (z : Int) := by omega
  have hera : (z : Int).tdiv 146097 = ((z / 146097 : Nat) : Int) := rfl
  have hday : (z : Int) - ((z / 146097 : Nat) : Int) * 146097 = ((z % 146097 : Nat) : Int) := by
    omega
  have hlt : z % 146097 < CivilDate.eraDays := Nat.mod_lt z (by decide)
  have hmonth : (5 * ((CivilDate.dayOfYear z : Nat) : Int) + 2).tdiv 153 =
      ((CivilDate.marchMonth z : Nat) : Int) := rfl
  have hstart : (153 * ((CivilDate.marchMonth z : Nat) : Int) + 2).tdiv 5 =
      ((CivilDate.monthStart (CivilDate.marchMonth z) : Nat) : Int) := rfl
  have hle : CivilDate.monthStart (CivilDate.marchMonth z) ≤ CivilDate.dayOfYear z :=
    CivilDate.monthStart_le
  dsimp only [civilOfDays]
  rw [hzInt, if_pos (Int.natCast_nonneg z), hera, hday, yearOfEra_natCast, dayOfYear_natCast hlt,
    ← show CivilDate.dayOfYear z =
      z % 146097 - CivilDate.yearStart (CivilDate.yearOf (z % 146097)) from rfl, hmonth, hstart]
  rw [calendarMonth_natCast, calendarYear, CivilDate.marchYear, CivilDate.dayOfMonth,
    CivilDate.eraDays]
  refine Prod.ext ?_ (Prod.ext rfl ?_)
  · dsimp only
    by_cases hearly : calendarMonth (CivilDate.marchMonth z) ≤ 2
    · rw [if_pos hearly, if_pos (by omega)]
      omega
    · rw [if_neg hearly, if_neg (by omega)]
      omega
  · dsimp only
    omega

/-! ## Fields -/

theorem isDigit_padded {width n : Nat} : ∀ c ∈ padded width n, c.isDigit = true := by
  intro c hc
  rcases List.mem_append.mp hc with hzero | hdigit
  · rw [List.eq_of_mem_replicate hzero]
    rfl
  · exact Nat.isDigit_of_mem_toDigits (by decide) (by decide) hdigit

theorem length_padded {width n : Nat} (hwidth : 0 < width) (h : n < 10 ^ width) :
    (padded width n).length = width := by
  rw [padded, List.length_leftpad]
  exact max_eq_left ((Nat.length_toDigits_le_iff (by decide) hwidth).mpr h)

theorem padded_ne_nil (width n : Nat) : padded width n ≠ [] :=
  List.append_ne_nil_of_right_ne_nil _ Nat.toDigits_ne_nil

/-- The digits of a field are read as its number. -/
theorem parseU64_padded {width n : Nat} (h : n ≤ u64Max) :
    parseU64 (String.ofList (padded width n)) = some n := by
  have hplus : ∀ rest, padded width n ≠ '+' :: rest := by
    intro rest he
    have hdigit := isDigit_padded '+' (by rw [he]; exact List.mem_cons_self)
    exact absurd hdigit (by decide)
  have hvalue : Nat.ofDigitChars 10 (padded width n) 0 = n := by
    rw [padded, List.leftpad, Nat.ofDigitChars_append, Nat.ofDigitChars_replicate_zero,
      Nat.mul_zero, Nat.ofDigitChars_ten_toDigits]
  unfold parseU64
  dsimp only
  rw [String.toList_ofList]
  split
  · next rest he => exact absurd he (hplus rest)
  · rw [hvalue]
    exact if_pos ⟨padded_ne_nil width n, List.all_eq_true.mpr isDigit_padded, h⟩

/-! ## The bytes of a text of ASCII -/

/-- The byte of a character of ASCII. -/
private def asciiByte (c : Char) : UInt8 := UInt8.ofNat c.toNat

private theorem toNat_asciiByte {c : Char} (h : c.toNat < 128) : (asciiByte c).toNat = c.toNat := by
  rw [asciiByte, UInt8.toNat_ofNat', Nat.mod_eq_of_lt (by omega)]

private theorem ofText_ascii {cs : List Char} (h : ∀ c ∈ cs, c.toNat < 128) :
    Bytes.ofText (String.ofList cs) = cs.map asciiByte := by
  rw [Bytes.ofText, String.toList_ofList, List.map_eq_flatMap]
  apply List.flatMap_congr
  intro c hc
  rw [String.utf8EncodeChar]
  exact if_pos (Nat.le_of_lt_succ (h c hc))

private theorem cut_ascii {cs : List Char} (h : ∀ c ∈ cs, c.toNat < 128) {start stop : Nat}
    (hstop : stop ≤ cs.length) : cut? (cs.map asciiByte) start stop =
      some (String.ofList ((cs.drop start).take (stop - start))) := by
  have hsub : ∀ c ∈ (cs.drop start).take (stop - start), c.toNat < 128 := fun c hc ↦
    h c (List.mem_of_mem_drop (List.mem_of_mem_take hc))
  rw [cut?, List.length_map, if_pos hstop, ← List.map_drop, ← List.map_take]
  generalize (cs.drop start).take (stop - start) = chars at hsub
  have hall : (chars.map asciiByte).all (·.toNat < 128) = true := by
    apply List.all_eq_true.mpr
    intro b hb
    obtain ⟨c, hc, rfl⟩ := List.mem_map.mp hb
    rw [toNat_asciiByte (hsub c hc)]
    exact decide_eq_true (hsub c hc)
  have hback : (chars.map asciiByte).map (fun b ↦ Char.ofNat b.toNat) = chars := by
    rw [List.map_map]
    refine (List.map_congr_left fun c hc ↦ ?_).trans (List.map_id chars)
    rw [Function.comp_apply, toNat_asciiByte (hsub c hc), Char.ofNat_toNat, id]
  rw [asciiText?, if_pos hall, hback]

private theorem number_ascii {cs : List Char} (h : ∀ c ∈ cs, c.toNat < 128) {start stop n : Nat}
    (hstop : stop ≤ cs.length) (hn : n ≤ u64Max)
    (hfield : (cs.drop start).take (stop - start) = padded (stop - start) n) :
    number (cs.map asciiByte) start stop = some n := by
  rw [number, cut_ascii h hstop, Option.bind_some, hfield, parseU64_padded hn]

/-! ## The text of a time -/

namespace CivilTime

variable {time : CivilTime}

private theorem mem_text {c : Char} (h : c ∈ time.text) :
    c.isDigit = true ∨ c ∈ ['-', 'T', ':', 'Z'] := by
  simp only [text, List.mem_append, List.mem_cons, List.not_mem_nil, or_false] at h
  simp only [List.mem_cons, List.not_mem_nil, or_false]
  have hdigit (width n : Nat) (hc : c ∈ padded width n) : c.isDigit = true := isDigit_padded c hc
  rcases h with (((((h | h) | h) | h) | h) | h) | h
  all_goals grind

private theorem lt_of_mem_text {c : Char} (h : c ∈ time.text) : c.toNat < 128 := by
  rcases mem_text h with hdigit | hmark
  · have hc : 48 ≤ c.toNat ∧ c.toNat ≤ 57 := by
      simpa [Char.isDigit, UInt32.le_iff_toNat_le] using hdigit
    omega
  · have hmarks : ∀ c ∈ ['-', 'T', ':', 'Z'], c.toNat < 128 :=
      forall_mem_of_all (by decide)
    exact hmarks c hmark

private theorem not_isWhitespace_of_mem_text {c : Char} (h : c ∈ time.text) :
    isWhitespace c = false := by
  rcases mem_text h with hdigit | hmark
  · exact isWhitespace_of_isDigit hdigit
  · have hmarks : ∀ c ∈ ['-', 'T', ':', 'Z'], isWhitespace c = false :=
      forall_mem_of_all (by decide)
    exact hmarks c hmark

/-- A time with fields in range is read back from its text. -/
theorem read_text (h : time.InRange) :
    CivilTime.read (Bytes.ofText (String.ofList time.text)) = some time := by
  have hascii : ∀ c ∈ time.text, c.toNat < 128 := fun c ↦ lt_of_mem_text
  obtain ⟨hyear, hmonth, hday, hhour, hminute, hsecond⟩ := h
  have hmax : u64Max = 2 ^ 64 - 1 := rfl
  obtain ⟨y₀, y₁, y₂, y₃, hy⟩ := List.length_eq_four.mp
    (length_padded (by decide) (show time.year < 10 ^ 4 by omega))
  have htwo {n : Nat} (hn : n ≤ 99) : ∃ a b, padded 2 n = [a, b] :=
    List.length_eq_two.mp (length_padded (by decide) (by omega))
  obtain ⟨mo₀, mo₁, hmo⟩ := htwo (show time.month ≤ 99 by omega)
  obtain ⟨d₀, d₁, hd⟩ := htwo (show time.day ≤ 99 by omega)
  obtain ⟨h₀, h₁, hh⟩ := htwo hhour
  obtain ⟨mi₀, mi₁, hmi⟩ := htwo hminute
  obtain ⟨s₀, s₁, hs⟩ := htwo hsecond
  have htext : time.text = [y₀, y₁, y₂, y₃, '-', mo₀, mo₁, '-', d₀, d₁, 'T', h₀, h₁, ':', mi₀, mi₁,
      ':', s₀, s₁, 'Z'] := by
    rw [text, hy, hmo, hd, hh, hmi, hs]
    rfl
  rw [ofText_ascii hascii]
  rw [htext] at hascii ⊢
  have hn {n : Nat} (hle : n ≤ 9999) : n ≤ u64Max := by omega
  rw [CivilTime.read, @number_ascii _ hascii 0 4 time.year (by simp) (hn hyear) hy.symm,
    @number_ascii _ hascii 5 7 time.month (by simp) (hn (by omega)) hmo.symm,
    @number_ascii _ hascii 8 10 time.day (by simp) (hn (by omega)) hd.symm,
    @number_ascii _ hascii 11 13 time.hour (by simp) (hn (by omega)) hh.symm,
    @number_ascii _ hascii 14 16 time.minute (by simp) (hn (by omega)) hmi.symm,
    @number_ascii _ hascii 17 19 time.second (by simp) (hn (by omega)) hs.symm]
  exact if_pos ⟨hmonth, hday⟩

/-- The text of a time in UTC has no offset. -/
theorem trailingOffsetSeconds_text (time : CivilTime) (checks : Bool) :
    trailingOffsetSeconds checks (Bytes.ofText (String.ofList time.text)) = some (some 0) := by
  have hlast : (time.text.map asciiByte).getLast? = some 90 := by
    rw [text, List.map_append, List.getLast?_append]
    rfl
  rw [ofText_ascii fun c ↦ lt_of_mem_text, trailingOffsetSeconds, if_pos (.inl hlast)]

theorem trim_text (time : CivilTime) : trim (String.ofList time.text) = String.ofList time.text := by
  rw [trim, String.toList_ofList, trimChars_eq_self fun c ↦ not_isWhitespace_of_mem_text]

/-- The text of a time is no plain number. -/
theorem parseU64_text (time : CivilTime) : parseU64 (String.ofList time.text) = none := by
  have hmark : '-' ∈ time.text := by simp [text]
  have hplus : ∀ rest, time.text ≠ '+' :: rest := by
    intro rest he
    have hmem : '+' ∈ time.text := by rw [he]; exact List.mem_cons_self
    rcases mem_text hmem with h | h
    · exact absurd h (by decide)
    · exact absurd h (by decide)
  unfold parseU64
  dsimp only
  rw [String.toList_ofList]
  split
  · next rest he => exact absurd he (hplus rest)
  · apply if_neg
    rintro ⟨-, hdigits, -⟩
    exact absurd (List.all_eq_true.mp hdigits '-' hmark) (by decide)

/-- A time since March of the year zero is read as its milliseconds. -/
theorem parse_text (h : time.InRange) (hmarch : ¬ time.BeforeMarch) (checks : Bool) :
    parseRfc3339Millis checks (String.ofList time.text) = some (millisOf time.epochSeconds) := by
  have hzero : ∀ seconds : Int, some (0 : Int) = some seconds →
      -362340 ≤ seconds ∧ seconds ≤ 362340 := by
    intro seconds hseconds
    cases hseconds
    decide
  rw [parseRfc3339Millis, trim_text, parseU64_text, read_text h]
  dsimp only
  rw [millis_of_inRange h hmarch (trailingOffsetSeconds_text time) hzero, Option.bind_some,
    sub_zero]

/-- The time of a day since March of the year zero, with the seconds of that day. -/
def ofDay (day seconds : Nat) : CivilTime where
  year := calendarYear (CivilDate.marchYear day) (CivilDate.marchMonth day)
  month := calendarMonth (CivilDate.marchMonth day)
  day := CivilDate.dayOfMonth day + 1
  hour := seconds / 3600
  minute := seconds % 3600 / 60
  second := seconds % 60

variable {day seconds : Nat}

/-- The days of a time are those it was made of. -/
theorem epochSeconds_ofDay :
    (ofDay day seconds).epochSeconds = ((day : Int) - 719468) * 86400 + (seconds : Int) := by
  have hmonth := CivilDate.marchMonth_le day
  have hmarchMonth : (ofDay day seconds).marchMonth = CivilDate.marchMonth day := by
    simp only [marchMonth, ofDay, calendarMonth]
    split <;> split <;> omega
  have hmarchYear : (ofDay day seconds).marchYear = CivilDate.marchYear day := by
    simp only [marchYear, ofDay, calendarYear]
    split <;> rfl
  have hdays : (ofDay day seconds).marchDays = day := by
    rw [marchDays, hmarchMonth, hmarchYear]
    exact CivilDate.days_eq day
  have hseconds : (ofDay day seconds).hour * 3600 + (ofDay day seconds).minute * 60 +
      (ofDay day seconds).second = seconds := by
    simp only [ofDay]
    omega
  rw [epochSeconds, hdays, hseconds]

theorem inRange_ofDay (h : (ofDay day seconds).year ≤ 9999) (hseconds : seconds < 86400) :
    (ofDay day seconds).InRange := by
  have hmonth := CivilDate.marchMonth_le day
  have hday := CivilDate.dayOfMonth_le day
  refine ⟨h, ?_, ?_, ?_, ?_, ?_⟩
  · simp only [ofDay, calendarMonth]
    split <;> omega
  all_goals
    simp only [ofDay]
    omega

theorem not_beforeMarch_ofDay : ¬ (ofDay day seconds).BeforeMarch := by
  rintro ⟨hyear, hmonth⟩
  simp only [ofDay, calendarYear] at hyear hmonth
  rw [if_pos hmonth] at hyear
  omega

end CivilTime

private theorem formatRfc3339Millis_eq {millis day seconds : Nat} (h : millis ≤ u64Max)
    (hday : millis / 1000 / 86400 + 719468 = day) (hseconds : millis / 1000 % 86400 = seconds) :
    (dateOfMillis millis).1 = (((CivilTime.ofDay day seconds).year : Nat) : Int) ∧
      formatRfc3339Millis millis = String.ofList (CivilTime.ofDay day seconds).text := by
  have hmax : u64Max = 2 ^ 64 - 1 := rfl
  have hdays : tryI64 (millis / 1000 / 86400) = some ((millis / 1000 / 86400 : Nat) : Int) :=
    if_pos (by omega)
  have hdate : dateOfMillis millis = (((CivilTime.ofDay day seconds).year : Int),
      ((CivilTime.ofDay day seconds).month : Int), ((CivilTime.ofDay day seconds).day : Int)) := by
    rw [dateOfMillis, hdays, Option.getD_some, civilOfDays_natCast hday]
    rfl
  constructor
  · rw [hdate]
  · rw [formatRfc3339Millis, hdate, hseconds]
    rfl

/-- An instant up to the year 9999 is read, in any build, as it was written less the fraction of
a second. -/
theorem parse_format {millis : Nat} (hword : millis ≤ u64Max)
    (hyear : (dateOfMillis millis).1 ≤ 9999) (checks : Bool) :
    parseRfc3339Millis checks (formatRfc3339Millis millis) =
      some (some (millis / 1000 * 1000)) := by
  obtain ⟨day, hday⟩ : ∃ day, millis / 1000 / 86400 + 719468 = day := ⟨_, rfl⟩
  obtain ⟨seconds, hseconds⟩ : ∃ seconds, millis / 1000 % 86400 = seconds := ⟨_, rfl⟩
  obtain ⟨hdate, hformat⟩ := formatRfc3339Millis_eq hword hday hseconds
  rw [hdate] at hyear
  have hrange := CivilTime.inRange_ofDay (Int.ofNat_le.mp hyear) (by omega)
  have hepoch : ((day : Int) - 719468) * 86400 + (seconds : Int) = ((millis / 1000 : Nat) : Int) := by
    omega
  rw [hformat, CivilTime.parse_text hrange CivilTime.not_beforeMarch_ofDay,
    CivilTime.epochSeconds_ofDay, hepoch, CivilTime.millisOf, if_pos (by omega)]
  congr 2

/-- Timestamps: what is written is read back, and reading a text overflows nowhere exactly where
it is no date before March of the year zero. -/
theorem timestamps (millis : Nat) (text : String) :
    (millis ≤ u64Max → (dateOfMillis millis).1 ≤ 9999 → ∀ checks,
      parseRfc3339Millis checks (formatRfc3339Millis millis) =
        some (some (millis / 1000 * 1000))) ∧
    ((parseRfc3339Millis true text).isSome = true ↔ ¬ OfYearZero text) :=
  ⟨fun hword hyear ↦ parse_format hword hyear, isSome_parse_iff text⟩

/-- The first of June of 2024, and an eighth of a second. -/
theorem timestamps_2024 :
    parseRfc3339Millis true (formatRfc3339Millis 1717200000125) = some (some 1717200000000) ∧
      ((parseRfc3339Millis true "0000-03-01T00:00:00Z").isSome = true ↔
        ¬ OfYearZero "0000-03-01T00:00:00Z") :=
  ⟨(timestamps 1717200000125 "").1 (by decide) (by decide +kernel) true,
    (timestamps 0 "0000-03-01T00:00:00Z").2⟩

/-- The first of January of the year zero is a panic in a build with overflow checks. -/
theorem parse_year_zero : parseRfc3339Millis true "0000-01-01T00:00:00Z" = none := by
  decide +kernel

end NullRouter.Runtime
