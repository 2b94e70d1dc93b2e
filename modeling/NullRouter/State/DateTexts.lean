import NullRouter.State.DateFilter

/-!
# Dates as they are written

Civil dates and times in writing, `YYYY-MM-DD[THH:MM[:SS[.fff]][Z|±HH[:MM]]]`, with any number of
digits in a field, and the milliseconds since the epoch that they tell by the calendar: what
`parse_date_ms` of `services/state-actix/src/internal/usage_query.rs:549` reads of them.
-/

namespace NullRouter.State

open NullRouter.Base
open NullRouter.Translate (parseI64)
open NullRouter.Runtime (ofDigitChars_lt)

/-! ## Writing -/

/-- The digits of a number. -/
structure Digits where
  chars : List Char
  ne_nil : chars ≠ []
  isDigit : ∀ c ∈ chars, c.isDigit = true

/-- The number that some digits are. -/
def Digits.value (digits : Digits) : Nat := Nat.ofDigitChars 10 digits.chars 0

/-- The thousandths that digits after a point are, less what is below one. -/
def Digits.thousandths (digits : Digits) : Nat := digits.value * 1000 / 10 ^ digits.chars.length

/-- Digits behind a mark, where there are any. -/
def marked (mark : Char) : Option Digits → List Char
  | none => []
  | some digits => mark :: digits.chars

/-- The seconds of a time, with or without a fraction. -/
structure SecondsText where
  whole : Digits
  fraction : Option Digits

/-- `SS[.fff]`. -/
def SecondsText.chars (seconds : SecondsText) : List Char :=
  seconds.whole.chars ++ marked '.' seconds.fraction

/-- The milliseconds of some seconds. -/
def SecondsText.millis (seconds : SecondsText) : Nat :=
  seconds.whole.value * 1000 + (seconds.fraction.map Digits.thousandths).getD 0

/-- A time of a day, with or without seconds. -/
structure TimeText where
  hour : Digits
  minute : Digits
  seconds : Option SecondsText

/-- `HH:MM[:SS[.fff]]`. -/
def TimeText.chars (time : TimeText) : List Char :=
  time.hour.chars ++ ':' :: (time.minute.chars ++ match time.seconds with
    | none => []
    | some seconds => ':' :: seconds.chars)

/-- The milliseconds of a time of a day. -/
def TimeText.millis (time : TimeText) : Nat :=
  time.hour.value * 3600000 + time.minute.value * 60000 +
    (time.seconds.map SecondsText.millis).getD 0

/-- The zone of a time. -/
inductive ZoneText where
  | unnamed
  | utc (lower : Bool)
  | offset (behind : Bool) (hours : Digits) (minutes : Option Digits)

/-- `[Z|±HH[:MM]]`. -/
def ZoneText.chars : ZoneText → List Char
  | unnamed => []
  | utc lower => [if lower then 'z' else 'Z']
  | offset behind hours minutes =>
    (if behind then '-' else '+') :: (hours.chars ++ marked ':' minutes)

/-- The milliseconds that a zone is ahead. -/
def ZoneText.millis : ZoneText → Int
  | unnamed | utc _ => 0
  | offset behind hours minutes =>
    (if behind then -1 else 1) *
      ((hours.value * 3600000 + (minutes.map Digits.value).getD 0 * 60000 : Nat) : Int)

/-- A civil date, with or without a time. -/
structure DateText where
  year : Digits
  month : Digits
  day : Digits
  time : Option (Bool × TimeText × ZoneText)

/-- `YYYY-MM-DD`. -/
def DateText.dateChars (date : DateText) : List Char :=
  date.year.chars ++ '-' :: (date.month.chars ++ '-' :: date.day.chars)

/-- What follows the date. -/
def DateText.timeChars (date : DateText) : List Char :=
  match date.time with
  | none => []
  | some (lower, time, zone) => (if lower then 't' else 'T') :: (time.chars ++ zone.chars)

/-- `YYYY-MM-DD[THH:MM[:SS[.fff]][Z|±HH[:MM]]]`. -/
def DateText.chars (date : DateText) : List Char := date.dateChars ++ date.timeChars

/-- The number of the day of a date. -/
def DateText.dayNumber (date : DateText) : Nat :=
  CivilDate.dayNumber date.year.value date.month.value date.day.value

/-- The milliseconds since the epoch at the place of the clock. -/
def DateText.localMillis (date : DateText) : Int :=
  ((date.dayNumber : Int) - 719528) * 86400000 +
    (((date.time.map fun (_, time, _) ↦ time.millis).getD 0 : Nat) : Int)

/-- The milliseconds since the epoch. -/
def DateText.millis (date : DateText) : Int :=
  date.localMillis - (date.time.map fun (_, _, zone) ↦ zone.millis).getD 0

/-- A time of the clock, a leap second being one. -/
structure TimeText.Valid (time : TimeText) : Prop where
  hour : time.hour.value ≤ 23
  minute : time.minute.value ≤ 59
  second : ∀ seconds, time.seconds = some seconds → seconds.whole.value ≤ 60

/-- A zone less than a day away. -/
def ZoneText.Valid : ZoneText → Prop
  | unnamed | utc _ => True
  | offset _ hours minutes => hours.value ≤ 23 ∧ ∀ digits, minutes = some digits → digits.value ≤ 59

/-- A date of the calendar, at a time of the clock if there is one. -/
structure DateText.Valid (date : DateText) : Prop where
  ofCalendar : CivilDate.ValidDate date.year.value date.month.value date.day.value
  ofClock : ∀ lower time zone, date.time = some (lower, time, zone) → time.Valid ∧ zone.Valid

/-! ## Digits are read as their number -/

namespace Digits

variable (digits : Digits)

private theorem ne_cons {c : Char} (h : c.isDigit = false) (rest : List Char) :
    digits.chars ≠ c :: rest := by
  intro he
  have hdigit := digits.isDigit c (by rw [he]; exact List.mem_cons_self)
  rw [h] at hdigit
  cases hdigit

private theorem parseU64_eq : parseU64 (String.ofList digits.chars) =
    if digits.value ≤ u64Max then some digits.value else none := by
  unfold parseU64
  dsimp only
  rw [String.toList_ofList]
  split
  · next rest he => exact absurd he (digits.ne_cons (by decide) rest)
  · by_cases hfits : digits.value ≤ u64Max
    · rw [if_pos hfits]
      exact if_pos ⟨digits.ne_nil, List.all_eq_true.mpr digits.isDigit, hfits⟩
    · rw [if_neg hfits]
      exact if_neg fun h ↦ hfits h.2.2

private theorem parseU32_eq (h : digits.value ≤ u32Max) :
    parseU32 (String.ofList digits.chars) = some digits.value := by
  have hmax : u32Max ≤ u64Max := by decide
  rw [parseU32, parseU64_eq digits, if_pos (h.trans hmax), Option.filter_some, if_pos]
  exact decide_eq_true h

private theorem parseI64_eq : parseI64 (String.ofList digits.chars) =
    if digits.value < 2 ^ 63 then some (digits.value : Int) else none := by
  have hmax : u64Max = 2 ^ 64 - 1 := rfl
  rw [parseI64, String.toList_ofList]
  split
  · next rest he => exact absurd he (digits.ne_cons (by decide) rest)
  · rw [parseU64_eq]
    by_cases hfits : digits.value ≤ u64Max
    · rw [if_pos hfits, Option.bind_some]
    · rw [if_neg hfits, if_neg (by omega), Option.bind_none]

private theorem notMem {c : Char} (h : c.isDigit = false) : c ∉ digits.chars := by
  intro hmem
  rw [digits.isDigit c hmem] at h
  cases h

private theorem toNat_lt_of_isDigit {c : Char} (h : c.isDigit = true) : c.toNat < 128 := by
  have hc : 48 ≤ c.toNat ∧ c.toNat ≤ 57 := by
    simpa [Char.isDigit, UInt32.le_iff_toNat_le] using h
  omega

private theorem thousandths_eq : digits.thousandths =
    Nat.ofDigitChars 10 ((digits.chars ++ List.replicate 3 '0').take 3) 0 := by
  let all := digits.chars ++ List.replicate 3 '0'
  have hvalue : Nat.ofDigitChars 10 all 0 = digits.value * 1000 := by
    rw [Nat.ofDigitChars_append, Nat.ofDigitChars_replicate_zero, Nat.mul_comm]
    rfl
  have hdrop : (all.drop 3).length = digits.chars.length := by
    rw [List.length_drop, List.length_append, List.length_replicate, Nat.add_sub_cancel]
  have hrest : Nat.ofDigitChars 10 (all.drop 3) 0 < 10 ^ digits.chars.length := by
    have hlt := @ofDigitChars_lt (all.drop 3) ?_ 0
    · rwa [Nat.zero_add, Nat.one_mul, hdrop] at hlt
    · intro c hc
      rcases List.mem_append.mp (List.mem_of_mem_drop hc) with hmem | hzero
      · exact digits.isDigit c hmem
      · rw [List.eq_of_mem_replicate hzero]
        rfl
  have hsplit : Nat.ofDigitChars 10 all 0 = 10 ^ digits.chars.length *
      Nat.ofDigitChars 10 (all.take 3) 0 + Nat.ofDigitChars 10 (all.drop 3) 0 := by
    rw [← hdrop, ← Nat.ofDigitChars_eq_ofDigitChars_zero, ← Nat.ofDigitChars_append,
      List.take_append_drop]
  rw [thousandths, ← hvalue, hsplit, Nat.mul_add_div (Nat.pow_pos (by decide)),
    Nat.div_eq_of_lt hrest, Nat.add_zero]

private theorem readMilli_eq : readMilli digits.chars = some digits.thousandths := by
  let zeros := List.replicate (3 - digits.chars.length) '0'
  have hdigit : ∀ c ∈ digits.chars ++ zeros, c.isDigit = true := by
    intro c hc
    rcases List.mem_append.mp hc with hmem | hzero
    · exact digits.isDigit c hmem
    · rw [List.eq_of_mem_replicate hzero]
      rfl
  have hlength : 3 ≤ (digits.chars ++ zeros).length := by
    rw [List.length_append, List.length_replicate]
    omega
  have hascii : ∀ c ∈ digits.chars ++ zeros, c.toNat < 128 := by
    intro c hc
    exact toNat_lt_of_isDigit (hdigit c hc)
  have htake : (digits.chars ++ zeros).take 3 ≠ [] := by
    intro hnil
    have hlen := congrArg List.length hnil
    rw [List.length_take, List.length_nil] at hlen
    omega
  let three : Digits := ⟨(digits.chars ++ zeros).take 3, htake,
    fun c hc ↦ hdigit c (List.mem_of_mem_take hc)⟩
  have hthree : three.value = digits.thousandths := by
    rw [thousandths_eq]
    change Nat.ofDigitChars 10 ((digits.chars ++ zeros).take 3) 0 = _
    rw [List.take_append, List.take_append, List.take_replicate, List.take_replicate,
      Nat.min_self, Nat.min_eq_left (Nat.sub_le 3 _)]
  have hsmall : three.value ≤ u32Max := by
    have hlt := ofDigitChars_lt three.isDigit 0
    have hpow : 10 ^ three.chars.length ≤ 10 ^ 3 :=
      Nat.pow_le_pow_right (by decide) (List.length_take_le _ _)
    rw [Nat.zero_add, Nat.one_mul] at hlt
    exact (hlt.trans_le hpow).le.trans (by decide)
  rw [readMilli, charsTo_of_ascii hascii hlength, Option.bind_some]
  exact (three.parseU32_eq hsmall).trans (congrArg some hthree)

end Digits

/-! ## Fields -/

private theorem fieldsOf_digits {mark : Char} (hmark : mark.isDigit = false) (digits : Digits) :
    fieldsOf mark digits.chars = [String.ofList digits.chars] := by
  rw [fieldsOf, List.splitOn_eq_singleton (digits.notMem hmark), List.map_singleton]

private theorem fieldsOf_cons {mark : Char} (hmark : mark.isDigit = false) (digits : Digits)
    (rest : List Char) : fieldsOf mark (digits.chars ++ mark :: rest) =
      String.ofList digits.chars :: fieldsOf mark rest := by
  rw [fieldsOf, List.splitOn_append_cons_self_of_not_mem (digits.notMem hmark), List.map_cons,
    fieldsOf]

private theorem readDate_eq {date : DateText} (h : date.Valid) : readDate date.dateChars =
    if date.year.value < 2 ^ 63 then
      some ((date.year.value : Int), date.month.value, date.day.value)
    else none := by
  obtain ⟨⟨hmonth, hday⟩, -⟩ := h
  have hlength := CivilDate.daysInMonth_le date.year.value date.month.value
  have hmax : u32Max = 2 ^ 32 - 1 := rfl
  have hfields : fieldsOf '-' date.dateChars = [String.ofList date.year.chars,
      String.ofList date.month.chars, String.ofList date.day.chars] := by
    rw [DateText.dateChars, fieldsOf_cons (by decide), fieldsOf_cons (by decide),
      fieldsOf_digits (by decide)]
  have hreadMonth := date.month.parseU32_eq (by omega)
  have hreadDay := date.day.parseU32_eq (by omega)
  simp only [readDate, hfields, List.getElem?_cons_zero, List.getElem?_cons_succ, fieldOr,
    Option.bind_eq_bind, Option.bind_some, hreadMonth, hreadDay, Digits.parseI64_eq]
  by_cases hyear : date.year.value < 2 ^ 63
  · rw [if_pos hyear, if_pos hyear, Option.bind_some, if_pos]
    refine ⟨Nat.le_refl 3, hmonth, hday.1, by omega⟩
  · rw [if_neg hyear, if_neg hyear, Option.bind_none]

/-- What a time is written with. -/
def isTimeChar (c : Char) : Bool := c.isDigit || c == ':' || c == '.'

private theorem isTimeChar_of_digits (digits : Digits) : ∀ c ∈ digits.chars, isTimeChar c = true := by
  intro c hc
  rw [isTimeChar, digits.isDigit c hc]
  rfl

private theorem isTimeChar_of_marked {mark : Char} (hmark : isTimeChar mark = true)
    (digits : Option Digits) : ∀ c ∈ marked mark digits, isTimeChar c = true := by
  intro c hc
  cases digits with
  | none => cases hc
  | some digits =>
    rcases List.mem_cons.mp hc with rfl | hdigit
    · exact hmark
    · exact isTimeChar_of_digits digits c hdigit

private theorem isTimeChar_of_time (time : TimeText) : ∀ c ∈ time.chars, isTimeChar c = true := by
  intro c hc
  rcases List.mem_append.mp hc with hhour | hc
  · exact isTimeChar_of_digits _ c hhour
  rcases List.mem_cons.mp hc with rfl | hc
  · rfl
  rcases List.mem_append.mp hc with hminute | hc
  · exact isTimeChar_of_digits _ c hminute
  split at hc
  · cases hc
  · rcases List.mem_cons.mp hc with rfl | hc
    · rfl
    · rcases List.mem_append.mp hc with hwhole | hfraction
      · exact isTimeChar_of_digits _ c hwhole
      · exact isTimeChar_of_marked rfl _ c hfraction

private theorem not_isSign {c : Char} (h : isTimeChar c = true) : (!isSign c) = true := by
  by_contra hsign
  rw [Bool.not_eq_true, Bool.not_eq_false', isSign, Bool.or_eq_true, beq_iff_eq, beq_iff_eq] at hsign
  rcases hsign with rfl | rfl
  · exact absurd h (by decide)
  · exact absurd h (by decide)

private theorem getLast?_ne {text : List Char} (h : ∀ c ∈ text, isTimeChar c = true) {c : Char}
    (hc : isTimeChar c = false) : text.getLast? ≠ some c := by
  intro hlast
  rw [h c (List.mem_of_getLast? hlast)] at hc
  cases hc

private theorem checkedI64_of_fits {n : Int} (h : -2 ^ 63 ≤ n ∧ n < 2 ^ 63) :
    checkedI64 n = some n := if_pos h

private theorem zoneMillis_eq {behind : Bool} {hours : Digits} {minutes : Option Digits}
    (h : (ZoneText.offset behind hours minutes).Valid) :
    zoneMillis (hours.chars ++ marked ':' minutes) =
      some ((hours.value * 3600000 + (minutes.map Digits.value).getD 0 * 60000 : Nat) : Int) := by
  obtain ⟨hhours, hminutes⟩ := h
  have hreadHours : parseI64 (String.ofList hours.chars) = some (hours.value : Int) := by
    rw [Digits.parseI64_eq, if_pos (by omega)]
  cases minutes with
  | none =>
    have hfields : fieldsOf ':' (hours.chars ++ marked ':' none) =
        [String.ofList hours.chars] := by
      rw [marked, List.append_nil, fieldsOf_digits (by decide)]
    rw [zoneMillis, hfields]
    dsimp only [Option.bind_eq_bind, List.getElem?_cons_zero, List.getElem?_cons_succ,
      List.getElem?_nil, fieldOr]
    rw [Option.bind_some, hreadHours, Option.bind_some, Option.bind_some]
    have hone : [String.ofList hours.chars].length ≤ 2 := Nat.le_succ 1
    rw [if_pos hone, checkedI64_of_fits (by omega), Option.bind_some,
      checkedI64_of_fits (by omega), Option.bind_some, checkedI64_of_fits (by omega),
      Option.map_none, Option.getD_none, Option.some_inj]
    omega
  | some digits =>
    have hle := hminutes digits rfl
    have hfields : fieldsOf ':' (hours.chars ++ marked ':' (some digits)) =
        [String.ofList hours.chars, String.ofList digits.chars] := by
      rw [marked, fieldsOf_cons (by decide), fieldsOf_digits (by decide)]
    have hreadMinutes : parseI64 (String.ofList digits.chars) = some (digits.value : Int) := by
      rw [Digits.parseI64_eq, if_pos (by omega)]
    rw [zoneMillis, hfields]
    dsimp only [Option.bind_eq_bind, List.getElem?_cons_zero, List.getElem?_cons_succ, fieldOr]
    rw [Option.bind_some, hreadHours, Option.bind_some, hreadMinutes, Option.bind_some]
    have htwo : [String.ofList hours.chars, String.ofList digits.chars].length ≤ 2 := Nat.le_refl 2
    rw [if_pos htwo, checkedI64_of_fits (by omega), Option.bind_some,
      checkedI64_of_fits (by omega), Option.bind_some, checkedI64_of_fits (by omega),
      Option.map_some, Option.getD_some, Option.some_inj]
    omega

private theorem splitZone_eq {text : List Char} (htext : ∀ c ∈ text, isTimeChar c = true)
    {zone : ZoneText} (hzone : zone.Valid) (checks : Bool) :
    splitZone checks (text ++ zone.chars) = some (some (text, zone.millis)) := by
  cases zone with
  | unnamed =>
    have hsigns : text.reverse.dropWhile (!isSign ·) = [] :=
      List.dropWhile_eq_nil_iff.mpr fun c hc ↦ not_isSign (htext c (List.mem_reverse.mp hc))
    rw [ZoneText.chars, List.append_nil, splitZone, if_neg, hsigns]
    · rfl
    · rintro (hlast | hlast)
      · exact getLast?_ne htext (by decide) hlast
      · exact getLast?_ne htext (by decide) hlast
  | utc lower =>
    rw [ZoneText.chars, splitZone, if_pos, List.dropLast_concat]
    · rfl
    · rw [List.getLast?_concat]
      cases lower
      · exact .inl rfl
      · exact .inr rfl
  | offset behind hours minutes =>
    have hafter : ∀ c ∈ hours.chars ++ marked ':' minutes, isTimeChar c = true := by
      intro c hc
      rcases List.mem_append.mp hc with hhours | hminutes
      · exact isTimeChar_of_digits hours c hhours
      · exact isTimeChar_of_marked rfl minutes c hminutes
    have hback : ∀ c ∈ (hours.chars ++ marked ':' minutes).reverse, (!isSign c) = true :=
      fun c hc ↦ not_isSign (hafter c (List.mem_reverse.mp hc))
    have hstop : isSign (if behind then '-' else '+') = true := by
      cases behind <;> rfl
    have hlast : ∀ c, isTimeChar c = false → isSign c = false →
        (text ++ (ZoneText.offset behind hours minutes).chars).getLast? ≠ some c := by
      intro c hc hsign hlast
      have hmem := List.mem_of_getLast? hlast
      rcases List.mem_append.mp hmem with htime | hzone
      · rw [htext c htime] at hc
        cases hc
      · rcases List.mem_cons.mp hzone with rfl | hdigit
        · rw [hstop] at hsign
          cases hsign
        · rw [hafter c hdigit] at hc
          cases hc
    have hreverse : (text ++ (ZoneText.offset behind hours minutes).chars).reverse =
        (hours.chars ++ marked ':' minutes).reverse ++
          (if behind then '-' else '+') :: text.reverse := by
      rw [ZoneText.chars, List.reverse_append, List.reverse_cons, List.append_assoc]
      rfl
    rw [splitZone, if_neg]
    · rw [hreverse, List.dropWhile_append_of_pos hback, List.takeWhile_append_of_pos hback,
        List.dropWhile_cons_of_neg (by rw [hstop]; decide),
        List.takeWhile_cons_of_neg (by rw [hstop]; decide), List.append_nil, List.reverse_reverse]
      dsimp only
      rw [zoneMillis_eq hzone, List.reverse_reverse, ZoneText.millis]
      have hminutes : (minutes.map Digits.value).getD 0 ≤ 59 := by
        cases hcase : minutes with
        | none => exact Nat.zero_le 59
        | some digits => exact hzone.2 digits hcase
      have hhours : hours.value ≤ 23 := hzone.1
      cases behind with
      | false =>
        dsimp only
        rw [if_neg (by decide), Option.map_some, if_neg (by decide), Int.one_mul]
      | true =>
        dsimp only
        rw [if_pos rfl, if_pos rfl, wrapI64_of_le checks (by omega), Option.map_some, if_pos rfl,
          Int.neg_one_mul]
    · rintro (h | h)
      · exact hlast _ (by decide) (by decide) h
      · exact hlast _ (by decide) (by decide) h

/-- The fields of a time of a day. -/
def TimeText.clock (time : TimeText) : ClockTime where
  hour := time.hour.value
  minute := time.minute.value
  second := (time.seconds.map fun seconds ↦ seconds.whole.value).getD 0
  milli := ((time.seconds.bind fun seconds ↦ seconds.fraction).map Digits.thousandths).getD 0

private theorem splitOnce_seconds (seconds : SecondsText) :
    (splitOnce '.' (String.ofList seconds.chars)).getD (String.ofList seconds.chars, "0") =
      (String.ofList seconds.whole.chars,
        (seconds.fraction.map fun digits ↦ String.ofList digits.chars).getD "0") := by
  have hpoint : '.' ∉ seconds.whole.chars := seconds.whole.notMem (by decide)
  have hne : ∀ c ∈ seconds.whole.chars, decide (c ≠ '.') = true := by
    intro c hc
    rw [decide_eq_true_eq]
    rintro rfl
    exact hpoint hc
  rw [splitOnce, String.toList_ofList, SecondsText.chars]
  cases seconds.fraction with
  | none =>
    rw [marked, List.append_nil, if_neg hpoint]
    rfl
  | some digits =>
    rw [marked, if_pos (List.mem_append_right _ List.mem_cons_self),
      List.takeWhile_append_of_pos hne, List.dropWhile_append_of_pos hne,
      List.takeWhile_cons_of_neg (by decide), List.dropWhile_cons_of_neg (by decide),
      List.append_nil]
    rfl

private theorem readMilli_fraction (fraction : Option Digits) :
    readMilli ((fraction.map fun digits ↦ String.ofList digits.chars).getD "0").toList =
      some ((fraction.map Digits.thousandths).getD 0) := by
  cases fraction with
  | none => decide +kernel
  | some digits =>
    rw [Option.map_some, Option.getD_some, String.toList_ofList, digits.readMilli_eq]
    rfl

private theorem parseTime_eq {time : TimeText} (h : time.Valid) :
    parseTime time.chars = some time.clock := by
  obtain ⟨hhour, hminute, hsecond⟩ := h
  have hmax : u32Max = 2 ^ 32 - 1 := rfl
  have hne : time.chars ≠ [] := List.append_ne_nil_of_right_ne_nil _ (List.cons_ne_nil _ _)
  have hreadHour := time.hour.parseU32_eq (by omega)
  have hreadMinute := time.minute.parseU32_eq (by omega)
  rw [parseTime, if_neg hne, TimeText.clock]
  cases hseconds : time.seconds with
  | none =>
    have hfields : fieldsOf ':' time.chars =
        [String.ofList time.hour.chars, String.ofList time.minute.chars] := by
      rw [TimeText.chars, hseconds]
      dsimp only
      rw [List.append_nil, fieldsOf_cons (by decide), fieldsOf_digits (by decide)]
    have hzero : parseU32 "0" = some 0 := by decide +kernel
    have hmilli : readMilli "0".toList = some 0 := by decide +kernel
    have hwhole : splitOnce '.' "0" = none := by decide +kernel
    rw [hfields]
    dsimp only [Option.bind_eq_bind, List.getElem?_cons_zero, List.getElem?_cons_succ,
      List.getElem?_nil, fieldOr]
    rw [Option.bind_some, hreadHour, Option.bind_some, hreadMinute, Option.bind_some,
      Option.getD_none, hwhole, Option.getD_none]
    dsimp only
    rw [hzero, Option.bind_some, hmilli, Option.bind_some, if_pos]
    · rfl
    · exact ⟨Nat.le_succ 2, hhour, hminute, Nat.zero_le 60⟩
  | some seconds =>
    have hle := hsecond seconds hseconds
    have hfields : fieldsOf ':' time.chars = [String.ofList time.hour.chars,
        String.ofList time.minute.chars, String.ofList seconds.chars] := by
      have hmark : ':' ∉ seconds.chars := by
        intro hmem
        rcases List.mem_append.mp hmem with hwhole | hfraction
        · exact seconds.whole.notMem (by decide) hwhole
        · cases hcase : seconds.fraction with
          | none =>
            rw [hcase] at hfraction
            cases hfraction
          | some digits =>
            rw [hcase, marked] at hfraction
            exact digits.notMem (by decide) (List.mem_of_ne_of_mem (by decide) hfraction)
      rw [TimeText.chars, hseconds]
      dsimp only
      rw [fieldsOf_cons (by decide), fieldsOf_cons (by decide), fieldsOf,
        List.splitOn_eq_singleton hmark, List.map_singleton]
    have hreadSecond := seconds.whole.parseU32_eq (by omega)
    rw [hfields]
    dsimp only [Option.bind_eq_bind, List.getElem?_cons_zero, List.getElem?_cons_succ, fieldOr]
    rw [Option.bind_some, hreadHour, Option.bind_some, hreadMinute, Option.bind_some,
      Option.getD_some, splitOnce_seconds]
    dsimp only
    rw [hreadSecond, Option.bind_some, readMilli_fraction, Option.bind_some, if_pos]
    · rfl
    · exact ⟨Nat.le_refl 3, hhour, hminute, hle⟩

/-! ## Dates are read as they are written -/

namespace DateText

variable {date : DateText}

/-- The fields of a date. -/
def isoTime (date : DateText) : IsoTime where
  year := date.year.value
  month := date.month.value
  day := date.day.value
  clock := (date.time.map fun (_, time, _) ↦ time.clock).getD ⟨0, 0, 0, 0⟩
  offset := (date.time.map fun (_, _, zone) ↦ zone.millis).getD 0

private theorem not_isTimeMark : ∀ c ∈ date.dateChars, (!isTimeMark c) = true := by
  have hdigit : ∀ c, c.isDigit = true → (!isTimeMark c) = true := by
    intro c hc
    by_contra hmark
    rw [Bool.not_eq_true, Bool.not_eq_false', isTimeMark, Bool.or_eq_true, beq_iff_eq,
      beq_iff_eq] at hmark
    rcases hmark with rfl | rfl
    · exact absurd hc (by decide)
    · exact absurd hc (by decide)
  intro c hc
  rcases List.mem_append.mp hc with hyear | hc
  · exact hdigit c (date.year.isDigit c hyear)
  rcases List.mem_cons.mp hc with rfl | hc
  · rfl
  rcases List.mem_append.mp hc with hmonth | hc
  · exact hdigit c (date.month.isDigit c hmonth)
  rcases List.mem_cons.mp hc with rfl | hday
  · rfl
  · exact hdigit c (date.day.isDigit c hday)

private theorem split_chars :
    date.chars.takeWhile (!isTimeMark ·) = date.dateChars ∧
      (date.chars.dropWhile (!isTimeMark ·)).drop 1 = date.timeChars.drop 1 := by
  rw [chars, List.takeWhile_append_of_pos not_isTimeMark,
    List.dropWhile_append_of_pos not_isTimeMark]
  cases htime : date.time with
  | none =>
    rw [timeChars, htime]
    exact ⟨List.append_nil _, rfl⟩
  | some parts =>
    obtain ⟨lower, time, zone⟩ := parts
    rw [timeChars, htime]
    dsimp only
    have hmark : ¬ (!isTimeMark (if lower then 't' else 'T')) = true := by
      cases lower <;> decide
    rw [List.takeWhile_cons_of_neg (p := fun c ↦ !isTimeMark c) hmark,
      List.dropWhile_cons_of_neg (p := fun c ↦ !isTimeMark c) hmark, List.append_nil]
    exact ⟨rfl, rfl⟩

private theorem readIso_eq (h : date.Valid) (checks : Bool) : readIso checks date.chars =
    some (if date.year.value < 2 ^ 63 then some date.isoTime else none) := by
  rw [readIso, split_chars.1, split_chars.2, readDate_eq h]
  by_cases hyear : date.year.value < 2 ^ 63
  · rw [if_pos hyear, if_pos hyear, isoTime]
    dsimp only
    cases htime : date.time with
    | none =>
      have hzone := @splitZone_eq [] (by simp) .unnamed trivial checks
      rw [timeChars, htime]
      dsimp only
      rw [List.drop_nil, show ([] : List Char) = [] ++ ZoneText.unnamed.chars from rfl, hzone]
      rfl
    | some parts =>
      obtain ⟨lower, time, zone⟩ := parts
      obtain ⟨hclock, hzone⟩ := h.ofClock lower time zone htime
      rw [timeChars, htime]
      dsimp only
      rw [List.drop_succ_cons, List.drop_zero, splitZone_eq (isTimeChar_of_time time) hzone,
        Option.map_some, Option.bind_some]
      dsimp only
      rw [parseTime_eq hclock]
      rfl
  · rw [if_neg hyear, if_neg hyear]

private theorem filterForm_eq {text : String} (h : trimChars text.toList = date.chars) :
    filterForm text = .iso date.chars := by
  have htrim : trim text = String.ofList date.chars := by rw [trim, h]
  have hne : date.chars ≠ [] :=
    List.append_ne_nil_of_left_ne_nil (List.append_ne_nil_of_left_ne_nil date.year.ne_nil _) _
  obtain ⟨first, rest, hfirst⟩ := List.exists_cons_of_ne_nil date.year.ne_nil
  have hhead : date.chars = first :: (rest ++ '-' :: (date.month.chars ++ '-' :: date.day.chars) ++
      date.timeChars) := by
    rw [chars, dateChars, hfirst]
    rfl
  have hdigit : first.isDigit = true := by
    apply date.year.isDigit
    rw [hfirst]
    exact List.mem_cons_self
  have hdash : '-' ∈ date.chars :=
    List.mem_append_left _ (List.mem_append_right _ List.mem_cons_self)
  have hempty : ¬ String.ofList date.chars = "" := by
    intro he
    apply hne
    rw [← String.toList_ofList (l := date.chars), he]
    rfl
  have hstamp : stripPrefix? "unix-ms:" (String.ofList date.chars) = none := by
    have hlist : "unix-ms:".toList = 'u' :: "nix-ms:".toList := by decide +kernel
    have hu : ('u' == first) = false := by
      rw [beq_eq_false_iff_ne]
      rintro rfl
      exact absurd hdigit (by decide)
    rw [stripPrefix?, hlist, String.toList_ofList (l := date.chars), hhead, List.isPrefixOf?, hu]
    rfl
  have hall : ¬ (String.ofList date.chars).toList.all Char.isDigit = true := by
    intro hall
    rw [String.toList_ofList] at hall
    exact absurd (List.all_eq_true.mp hall '-' hdash) (by decide)
  rw [filterForm, htrim, if_neg hempty, hstamp]
  dsimp only
  rw [if_neg hall, String.toList_ofList]

private theorem clock_millis (time : TimeText) : time.clock.hour * 3600000 +
    time.clock.minute * 60000 + time.clock.second * 1000 + time.clock.milli = time.millis := by
  rw [TimeText.clock, TimeText.millis]
  cases time.seconds with
  | none =>
    dsimp only [Option.map_none, Option.getD_none, Option.bind_none]
  | some seconds =>
    dsimp only [Option.map_some, Option.getD_some, Option.bind_some]
    rw [SecondsText.millis]
    omega

private theorem localMillis_eq (date : DateText) : date.localMillis =
    ((date.dayNumber : Int) - 719528) * 86400000 + date.isoTime.clock.hour * 3600000 +
      date.isoTime.clock.minute * 60000 + date.isoTime.clock.second * 1000 +
        date.isoTime.clock.milli := by
  rw [localMillis, isoTime]
  cases date.time with
  | none =>
    dsimp only [Option.map_none, Option.getD_none]
    omega
  | some parts =>
    obtain ⟨lower, time, zone⟩ := parts
    have hclock := clock_millis time
    dsimp only [Option.map_some, Option.getD_some]
    omega

private theorem millis_isoTime {millis : Nat}
    (h : date.isoTime.millis ((date.dayNumber : Int) - 719528) = some millis) :
    (millis : Int) = date.millis := by
  have hlocal := localMillis_eq date
  have hoffset : date.isoTime.offset =
    (date.time.map fun (_, _, zone) ↦ zone.millis).getD 0 := rfl
  simp only [IsoTime.millis, Option.bind_eq_bind, Option.bind_eq_some_iff] at h
  obtain ⟨ofDays, hdays, ofHours, hhours, ofMinutes, hminutes, ofSeconds, hseconds, ofMillis,
    hmillis, utc, hutc, h⟩ := h
  have hd := checkedI64_eq_some hdays
  have hh := checkedI64_eq_some hhours
  have hm := checkedI64_eq_some hminutes
  have hs := checkedI64_eq_some hseconds
  have hf := checkedI64_eq_some hmillis
  have hu := checkedI64_eq_some hutc
  rw [DateText.millis, ← hoffset]
  split at h
  · cases h
    omega
  · cases h

private theorem isSome_millis_isoTime (hnonneg : 0 ≤ date.millis)
    (hlocal : date.localMillis < 2 ^ 63) (hfits : date.millis < 2 ^ 63) :
    (date.isoTime.millis ((date.dayNumber : Int) - 719528)).isSome = true := by
  have heq := localMillis_eq date
  have hoffset : date.isoTime.offset =
    (date.time.map fun (_, _, zone) ↦ zone.millis).getD 0 := rfl
  rw [DateText.millis, ← hoffset] at hnonneg hfits
  rw [IsoTime.millis]
  dsimp only [Option.bind_eq_bind]
  rw [checkedI64_of_fits (by omega), Option.bind_some, checkedI64_of_fits (by omega),
    Option.bind_some, checkedI64_of_fits (by omega), Option.bind_some,
    checkedI64_of_fits (by omega), Option.bind_some, checkedI64_of_fits (by omega),
    Option.bind_some, checkedI64_of_fits (by omega), Option.bind_some, if_pos (by omega)]
  rfl

private theorem le_localMillis (h : 2 ^ 63 ≤ date.year.value) : 2 ^ 63 ≤ date.localMillis := by
  have hbefore := CivilDate.daysBeforeYear_eq date.year.value
  rw [localMillis, dayNumber, CivilDate.dayNumber]
  omega

end DateText

/-- Whether a result is the milliseconds of a date, nothing where they do not fit. -/
structure ReadsAs (result : Option Nat) (date : DateText) : Prop where
  value : ∀ millis, result = some millis → (millis : Int) = date.millis
  found : 0 ≤ date.millis → date.localMillis < 2 ^ 63 → date.millis < 2 ^ 63 →
    result.isSome = true

/-- Whether a filter is read without an overflow, to the same in any build, and to the milliseconds
of the date that it is the writing of. -/
def FilterReads (text : String) : Prop :=
  ∃ result, (∀ checks, parseDateMs checks text = some result) ∧
    ∀ date : DateText, date.Valid → trimChars text.toList = date.chars → ReadsAs result date

private theorem readsAs_of_date {text : String} {result : Option Nat}
    (hresult : ∀ checks, parseDateMs checks text = some result) (hreach : ¬ BeyondReach text)
    {date : DateText} (hvalid : date.Valid) (hchars : trimChars text.toList = date.chars) :
    ReadsAs result date := by
  have hform := DateText.filterForm_eq hchars
  by_cases hyear : date.year.value < 2 ^ 63
  · have hread : ∀ checks, readIso checks date.chars = some (some date.isoTime) := by
      intro checks
      rw [DateText.readIso_eq hvalid, if_pos hyear]
    have hnumber : CivilDate.dayNumber date.isoTime.year.toNat date.isoTime.month
        date.isoTime.day = date.dayNumber := rfl
    have hfits : date.dayNumber < 2 ^ 63 + 60 := by
      by_contra hbeyond
      exact hreach ⟨_, _, hform, hread true, by rw [hnumber]; omega⟩
    have hmillis := parseDateMs_of_time hform hread (by rw [hnumber]; exact hfits) true
    rw [hresult, Option.some_inj, hnumber] at hmillis
    constructor
    · intro millis hsome
      exact DateText.millis_isoTime (hmillis.symm.trans hsome)
    · intro hnonneg hlocal hutc
      rw [hmillis]
      exact DateText.isSome_millis_isoTime hnonneg hlocal hutc
  · have hnone : result = none := by
      have hparse := hresult true
      rw [parseDateMs, hform] at hparse
      dsimp only at hparse
      rw [parseIsoMs_none (by rw [DateText.readIso_eq hvalid, if_neg hyear])] at hparse
      exact (Option.some.inj hparse).symm
    have hlarge := @DateText.le_localMillis date (by omega)
    constructor
    · intro millis hsome
      rw [hnone] at hsome
      cases hsome
    · intro _ hlocal
      omega

theorem filterReads_iff (text : String) : FilterReads text ↔ ¬ BeyondReach text := by
  constructor
  · rintro ⟨result, hresult, -⟩ hbeyond
    exact absurd ((parseDateMs_of_beyond hbeyond).symm.trans (hresult true)) nofun
  · intro hreach
    obtain ⟨result, hresult⟩ := parseDateMs_of_reach hreach
    exact ⟨result, hresult, fun _ hvalid hchars ↦ readsAs_of_date hresult hreach hvalid hchars⟩

/-- The calendars of the services agree on a day, on a date and on a text exactly where the days
since the first of March of the year zero are an `i64`. -/
theorem calendars_agree_iff (days : Nat) {year month day : Nat}
    (hdate : CivilDate.ValidDate year month day) (hyear : 1970 ≤ year ∧ year < 2 ^ 63)
    (text : String) : (DayRoundTrips days ↔ days + 719468 < 2 ^ 63) ∧
      (DateRoundTrips year month day ↔ CivilDate.dayNumber year month day < 2 ^ 63 + 60) ∧
      (FilterReads text ↔ ¬ BeyondReach text) :=
  ⟨dayRoundTrips_iff days, dateRoundTrips_iff hdate hyear, filterReads_iff text⟩

theorem calendars_agree_iff_leapDay : (DayRoundTrips 0 ↔ 0 + 719468 < 2 ^ 63) ∧
    (DateRoundTrips 2024 2 29 ↔ CivilDate.dayNumber 2024 2 29 < 2 ^ 63 + 60) ∧
    (FilterReads "2024-02-29" ↔ ¬ BeyondReach "2024-02-29") :=
  calendars_agree_iff 0 ⟨by decide, by decide⟩ (by decide) "2024-02-29"

/-- A date of a far year is a panic in a build with overflow checks, and a day of the year 2090 in
one without. -/
theorem far_year_overflows : parseDateMs true "50505469855535200-01-01" = none ∧
    parseDateMs false "50505469855535200-01-01" = some (some 3813868800000) ∧
    ¬ FilterReads "50505469855535200-01-01" := by
  have hpanic : parseDateMs true "50505469855535200-01-01" = none := by decide +kernel
  refine ⟨hpanic, by decide +kernel, ?_⟩
  rintro ⟨result, hresult, -⟩
  exact absurd (hpanic.symm.trans (hresult true)) nofun

end NullRouter.State
