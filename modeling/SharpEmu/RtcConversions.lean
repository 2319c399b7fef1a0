import SharpEmu.RtcExports

/-!
# Date-times and ticks

The date-times that pass the check are those of the calendar up to the year
9999, and each is that of one tick.  The tick of the date-time of a tick is the
tick again, and a date-time that was written to memory is read back.
-/

namespace SharpEmu

namespace Rtc

open Addressed

namespace RtcDateTime

variable {time : RtcDateTime}

/-! ## Valid date-times -/

def date (time : RtcDateTime) : Gregorian.Date :=
  ⟨time.year.toNat, time.month.toNat, time.day.toNat⟩

def timeOfDay (time : RtcDateTime) : Nat :=
  time.hour.toNat * 3600000000 + time.minute.toNat * 60000000 +
    time.second.toNat * 1000000 + time.microsecond.toNat

structure Valid (time : RtcDateTime) : Prop where
  date : time.date.Valid
  year_le : time.year.toNat ≤ 9999
  hour_le : time.hour.toNat ≤ 23
  minute_le : time.minute.toNat ≤ 59
  second_le : time.second.toNat ≤ 59
  microsecond_le : time.microsecond.toNat ≤ 999999

theorem check_eq_ok {failed : Prop} [Decidable failed] {code rest : UInt32} (isError : code ≠ ok) :
    (if failed then code else rest) = ok ↔ ¬ failed ∧ rest = ok := by
  split
  · next isFailed => exact iff_of_false isError fun both => both.1 isFailed
  · next isPassed => exact ⟨fun rest => ⟨isPassed, rest⟩, fun both => both.2⟩

theorem validate_eq_ok_iff : validateRtcDateTime time = ok ↔ time.Valid := by
  unfold validateRtcDateTime
  rw [check_eq_ok (by decide), check_eq_ok (by decide),
    check_eq_ok (by decide), check_eq_ok (by decide),
    check_eq_ok (by decide), check_eq_ok (by decide),
    check_eq_ok (by decide)]
  simp only [gt_iff_lt, UInt16.lt_iff_toNat_lt, UInt32.lt_iff_toNat_lt]
  constructor
  · rintro ⟨year, month, day, hour, minute, second, microsecond, -⟩
    simp only [UInt16.reduceToNat, UInt32.reduceToNat] at *
    constructor
    · constructor <;> simp only [date] <;> omega
    all_goals omega
  · rintro ⟨⟨yearPos, monthPos, monthLe, dayPos, dayLe⟩, yearLe, hourLe,
      minuteLe, secondLe, microsecondLe⟩
    simp only [date, UInt16.reduceToNat, UInt32.reduceToNat] at *
    exact ⟨by omega, by omega, by omega, by omega, by omega, by omega,
      by omega, trivial⟩

/-! ## Ticks -/

def tick (time : RtcDateTime) : Nat :=
  time.date.dayNumber * 86400000000 + time.timeOfDay

theorem Valid.timeOfDay_lt (valid : time.Valid) : time.timeOfDay < 86400000000 := by
  have := valid.hour_le
  have := valid.minute_le
  have := valid.second_le
  have := valid.microsecond_le
  unfold timeOfDay
  omega

theorem Valid.dayNumber_lt (valid : time.Valid) : time.date.dayNumber < 3652059 := by
  have isYear : Gregorian.daysBeforeYear 10000 = 3652059 := by decide +kernel
  rw [← isYear]
  exact valid.date.dayNumber_lt_year (Nat.lt_succ_of_le valid.year_le)

theorem Valid.tick_le (valid : time.Valid) : time.tick ≤ maxSupportedTick := by
  have := valid.timeOfDay_lt
  have := valid.dayNumber_lt
  unfold tick
  change _ ≤ 315537897599999999
  omega

theorem daysFromMarch : ∀ leap : Bool, ∀ month < 13, 3 ≤ month →
    59 + leap.toNat + (153 * (month - 3) + 2) / 5 = Gregorian.daysToMonth leap (month - 1) := by
  decide +kernel

theorem daysBeforeYear_centuries (year : Nat) :
    146097 * (year / 100) / 4 + 1461 * (year % 100) / 4 = Gregorian.daysBeforeYear (year + 1) := by
  have byCentury : 146097 * (year / 100) / 4 = 36524 * (year / 100) + year / 400 := by omega
  have byYear : 1461 * (year % 100) / 4 + 25 * (year / 100) =
      365 * (year % 100) + year / 4 := by omega
  unfold Gregorian.daysBeforeYear
  rw [Nat.add_sub_cancel]
  omega

theorem Valid.days_eq (valid : time.Valid) {month year : Nat}
    (fromMarch : if time.month.toNat > 2 then
        month = time.month.toNat - 3 ∧ year = time.year.toNat
      else month = time.month.toNat + 9 ∧ year = time.year.toNat - 1) :
    146097 * (year / 100) / 4 + 1461 * (year % 100) / 4 + (153 * month + 2) / 5 + time.day.toNat =
      time.date.dayNumber + 307 := by
  have yearPos := valid.date.year_pos
  have monthPos := valid.date.month_pos
  have monthLe := valid.date.month_le
  have dayPos := valid.date.day_pos
  simp only [RtcDateTime.date] at yearPos monthPos monthLe dayPos
  rw [daysBeforeYear_centuries]
  unfold Gregorian.Date.dayNumber Gregorian.Date.dayOfYear RtcDateTime.date
  dsimp only
  split at fromMarch
  · obtain ⟨rfl, rfl⟩ := fromMarch
    rw [Gregorian.daysBeforeYear_succ yearPos, Gregorian.daysInYear_eq,
      ← daysFromMarch _ _ (by omega) (by omega)]
    cases Gregorian.isLeapYear time.year.toNat <;>
      simp only [Bool.toNat_true, Bool.toNat_false, if_true, if_false, Bool.false_eq_true] <;> omega
  · obtain ⟨rfl, rfl⟩ := fromMarch
    rw [Nat.sub_add_cancel yearPos]
    have isMonth : time.month.toNat = 1 ∨ time.month.toNat = 2 := by omega
    rcases isMonth with isMonth | isMonth <;> rw [isMonth] <;>
      cases Gregorian.isLeapYear time.year.toNat <;>
      simp only [Gregorian.daysToMonth, if_true, if_false, Bool.false_eq_true] <;> simp <;> omega

theorem Valid.toNat_tick (valid : time.Valid) :
    (tryConvertRtcDateTimeToTick time).toNat = time.tick := by
  have dayNumberLt := valid.dayNumber_lt
  have timeOfDayLt := valid.timeOfDay_lt
  have yearPos := valid.date.year_pos
  have monthPos := valid.date.month_pos
  have monthLe := valid.date.month_le
  have yearLe := valid.year_le
  simp only [RtcDateTime.date] at yearPos monthPos monthLe
  obtain ⟨month, year, isMarch, fromMarch⟩ : ∃ month year : UInt16,
      (if time.month > 2 then (time.month - 3, time.year)
        else (time.month + 9, time.year - 1)) = (month, year) ∧
      if time.month.toNat > 2 then
        month.toNat = time.month.toNat - 3 ∧ year.toNat = time.year.toNat
      else month.toNat = time.month.toNat + 9 ∧ year.toNat = time.year.toNat - 1 := by
    by_cases later : time.month > 2
    · refine ⟨time.month - 3, time.year, if_pos later, ?_⟩
      have isLater : 2 < time.month.toNat := UInt16.lt_iff_toNat_lt.mp later
      rw [if_pos isLater]
      have isThree : (3 : UInt16) ≤ time.month :=
        UInt16.le_iff_toNat_le.mpr isLater
      refine ⟨?_, rfl⟩
      rw [UInt16.toNat_sub_of_le _ _ isThree]
      rfl
    · refine ⟨time.month + 9, time.year - 1, if_neg later, ?_⟩
      have isEarly : ¬ 2 < time.month.toNat :=
        fun lt => later (UInt16.lt_iff_toNat_lt.mpr lt)
      have isOne : (1 : UInt16) ≤ time.year :=
        UInt16.le_iff_toNat_le.mpr yearPos
      rw [if_neg isEarly]
      constructor
      · rw [UInt16.toNat_add]
        simp only [UInt16.reduceToNat]
        omega
      · rw [UInt16.toNat_sub_of_le _ _ isOne]
        rfl
  have isDays := valid.days_eq fromMarch
  have yearSmall : year.toNat ≤ 9999 := by
    split at fromMarch <;> omega
  have monthSmall : month.toNat ≤ 11 := by
    split at fromMarch <;> omega
  have dayLe : time.day.toNat ≤ 3652366 := by omega
  have isCentury : (year / 100).toUInt64.toNat = year.toNat / 100 := by
    rw [UInt16.toNat_toUInt64, UInt16.toNat_div]
    rfl
  have isYearOfCentury : (year - 100 * (year / 100)).toUInt64.toNat = year.toNat % 100 := by
    rw [UInt16.toNat_toUInt64, UInt16.toNat_sub, UInt16.toNat_mul, UInt16.toNat_div]
    simp only [UInt16.reduceToNat]
    omega
  unfold tryConvertRtcDateTimeToTick
  rw [isMarch]
  dsimp only
  generalize (year / 100).toUInt64 = century at *
  generalize (year - 100 * (year / 100)).toUInt64 = yearOfCentury at *
  have isDayNumber : ((146097 * century) >>> 2 + (1461 * yearOfCentury) >>> 2 +
      (153 * month.toUInt64 + 2) / 5 + time.day.toUInt64).toNat =
      time.date.dayNumber + 307 := by
    have ofCenturies : ((146097 * century) >>> 2).toNat = 146097 * (year.toNat / 100) / 4 := by
      rw [UInt64.toNat_shiftRight, UInt64.toNat_mul, isCentury,
        Nat.mod_eq_of_lt (by simp only [UInt64.reduceToNat]; omega)]
      exact Nat.shiftRight_eq_div_pow _ 2
    have ofYears : ((1461 * yearOfCentury) >>> 2).toNat = 1461 * (year.toNat % 100) / 4 := by
      rw [UInt64.toNat_shiftRight, UInt64.toNat_mul, isYearOfCentury,
        Nat.mod_eq_of_lt (by simp only [UInt64.reduceToNat]; omega)]
      exact Nat.shiftRight_eq_div_pow _ 2
    have ofMonths : ((153 * month.toUInt64 + 2) / 5).toNat = (153 * month.toNat + 2) / 5 := by
      rw [UInt64.toNat_div, UInt64.toNat_add, UInt64.toNat_mul, UInt16.toNat_toUInt64]
      simp only [UInt64.reduceToNat]
      have product : 153 * month.toNat % 2 ^ 64 = 153 * month.toNat :=
        Nat.mod_eq_of_lt (by omega)
      rw [product, Nat.mod_eq_of_lt (by omega)]
    rw [← isDays, UInt64.toNat_add, UInt64.toNat_add, UInt64.toNat_add,
      ofCenturies, ofYears, ofMonths, UInt16.toNat_toUInt64]
    omega
  generalize (146097 * century) >>> 2 + (1461 * yearOfCentury) >>> 2 +
    (153 * month.toUInt64 + 2) / 5 + time.day.toUInt64 = days at *
  unfold microsecondsPerDay microsecondsPerHour microsecondsPerMinute microsecondsPerSecond
  unfold timeOfDay at timeOfDayLt
  unfold tick timeOfDay
  simp only [UInt64.toNat_add, UInt64.toNat_mul, UInt64.toNat_sub,
    UInt64.reduceToNat, UInt16.toNat_toUInt64, UInt32.toNat_toUInt64]
  omega

variable {other : RtcDateTime}

theorem ext_toNat (sameDate : time.date = other.date) (hour : time.hour.toNat = other.hour.toNat)
    (minute : time.minute.toNat = other.minute.toNat)
    (second : time.second.toNat = other.second.toNat)
    (microsecond : time.microsecond.toNat = other.microsecond.toNat) :
    time = other := by
  obtain ⟨year, month, day⟩ := Gregorian.Date.mk.inj sameDate
  cases time
  cases other
  simp only [RtcDateTime.mk.injEq]
  exact ⟨UInt16.toNat_inj.mp year, UInt16.toNat_inj.mp month,
    UInt16.toNat_inj.mp day, UInt16.toNat_inj.mp hour,
    UInt16.toNat_inj.mp minute, UInt16.toNat_inj.mp second,
    UInt32.toNat_inj.mp microsecond⟩

theorem eq_of_tick_eq (valid : time.Valid)
    (otherValid : other.Valid) (same : time.tick = other.tick) :
    time = other := by
  have timeOfDayLt := valid.timeOfDay_lt
  have otherTimeOfDayLt := otherValid.timeOfDay_lt
  have sameDay : time.date.dayNumber = other.date.dayNumber := by
    unfold tick at same
    omega
  have sameTimeOfDay : time.timeOfDay = other.timeOfDay := by
    unfold tick at same
    omega
  obtain ⟨dateValid, -, hourLe, minuteLe, secondLe, microsecondLe⟩ := valid
  obtain ⟨otherDateValid, -, otherHourLe, otherMinuteLe, otherSecondLe,
    otherMicrosecondLe⟩ := otherValid
  unfold timeOfDay at sameTimeOfDay
  apply ext_toNat
  · exact Gregorian.Date.dayNumber_injective dateValid otherDateValid sameDay
  all_goals omega

end RtcDateTime

/-! ## Platform date-times -/

namespace DateTime

variable {ticks : Nat}

theorem ofTicks_of_le (inRange : ticks ≤ maxTicks) : ofTicks ticks = some ⟨ticks, inRange⟩ :=
  dif_pos inRange

theorem ofTicks_of_lt (outside : maxTicks < ticks) : ofTicks ticks = none :=
  dif_neg (Nat.not_le_of_lt outside)

variable (dateTime : DateTime)

theorem day_lt : dateTime.ticks / ticksPerDay < 3652059 := by
  have ticksLe := dateTime.ticks_le
  unfold maxTicks at ticksLe
  unfold ticksPerDay
  omega

theorem date_valid : dateTime.date.Valid :=
  (Gregorian.dateOf_spec _).1

theorem dayNumber_date : dateTime.date.dayNumber = dateTime.ticks / ticksPerDay :=
  (Gregorian.dateOf_spec _).2

theorem year_lt : dateTime.date.year < 10000 := by
  rw [← Gregorian.dayNumber_lt_iff dateTime.date_valid (by omega), dayNumber_date]
  exact dateTime.day_lt

end DateTime

section Conversion

variable (dateTime : DateTime)

theorem toRtcDateTime_date : (toRtcDateTime dateTime).date = dateTime.date := by
  have valid := dateTime.date_valid
  have yearLt := dateTime.year_lt
  have monthLe := valid.month_le
  have dayLe := valid.day_le_31
  unfold RtcDateTime.date toRtcDateTime
  simp only [UInt16.toNat_ofNat']
  rw [Nat.mod_eq_of_lt (by omega), Nat.mod_eq_of_lt (by omega), Nat.mod_eq_of_lt (by omega)]

theorem toRtcDateTime_hour : (toRtcDateTime dateTime).hour.toNat =
      dateTime.ticks / 36000000000 % 24 := by
  unfold toRtcDateTime DateTime.hour
  rw [UInt16.toNat_ofNat']
  omega

theorem toRtcDateTime_minute : (toRtcDateTime dateTime).minute.toNat =
      dateTime.ticks / 600000000 % 60 := by
  unfold toRtcDateTime DateTime.minute
  rw [UInt16.toNat_ofNat']
  omega

theorem toRtcDateTime_second : (toRtcDateTime dateTime).second.toNat =
      dateTime.ticks / 10000000 % 60 := by
  unfold toRtcDateTime DateTime.second ticksPerSecond
  rw [UInt16.toNat_ofNat']
  omega

theorem toRtcDateTime_microsecond : (toRtcDateTime dateTime).microsecond.toNat =
      dateTime.ticks % 10000000 / 10 := by
  unfold toRtcDateTime ticksPerSecond dateTimeTicksPerMicrosecond
  rw [UInt32.toNat_ofNat']
  omega

theorem toRtcDateTime_valid : (toRtcDateTime dateTime).Valid := by
  have yearLt := dateTime.year_lt
  have isDate := toRtcDateTime_date dateTime
  constructor
  · rw [isDate]
    exact dateTime.date_valid
  · have isYear : (toRtcDateTime dateTime).year.toNat = dateTime.date.year :=
      congrArg Gregorian.Date.year isDate
    omega
  · rw [toRtcDateTime_hour]
    omega
  · rw [toRtcDateTime_minute]
    omega
  · rw [toRtcDateTime_second]
    omega
  · rw [toRtcDateTime_microsecond]
    omega

theorem tick_toRtcDateTime : (toRtcDateTime dateTime).tick = dateTime.ticks / 10 := by
  unfold RtcDateTime.tick RtcDateTime.timeOfDay
  rw [toRtcDateTime_date, dateTime.dayNumber_date, toRtcDateTime_hour,
    toRtcDateTime_minute, toRtcDateTime_second, toRtcDateTime_microsecond]
  unfold ticksPerDay
  omega

end Conversion

/-! ## Date-times in memory -/

theorem wordOf_two (value : UInt16) : UInt16.ofNat (wordOf (bytesOf 2 value.toNat)) = value := by
  have small : value.toNat < 256 ^ 2 := value.toNat_lt
  rw [wordOf_bytesOf, Nat.mod_eq_of_lt small, UInt16.ofNat_toNat]

theorem wordOf_four (value : UInt32) : UInt32.ofNat (wordOf (bytesOf 4 value.toNat)) = value := by
  have small : value.toNat < 256 ^ 4 := value.toNat_lt
  rw [wordOf_bytesOf, Nat.mod_eq_of_lt small, UInt32.ofNat_toNat]

@[simp]
theorem RtcDateTime.length_bytes (time : RtcDateTime) : time.bytes.length = 16 := by
  simp [RtcDateTime.bytes]

@[simp]
theorem RtcDateTime.ofBytes_bytes (time : RtcDateTime) : RtcDateTime.ofBytes time.bytes = time := by
  have year := wordOf_two time.year
  have month := wordOf_two time.month
  have day := wordOf_two time.day
  have hour := wordOf_two time.hour
  have minute := wordOf_two time.minute
  have second := wordOf_two time.second
  have microsecond := wordOf_four time.microsecond
  cases time
  simp only [bytesOf] at year month day hour minute second microsecond
  simp only [RtcDateTime.ofBytes, RtcDateTime.bytes, bytesOf, List.cons_append,
    List.nil_append, List.take_succ_cons, List.take_zero, List.drop_succ_cons,
    List.drop_zero, year, month, day, hour, minute, second, microsecond]

variable {memory : GuardedMemory} {address : UInt64}

theorem tryReadRtcDateTime_of_write {after : GuardedMemory} {time : RtcDateTime}
    (written : tryWriteRtcDateTime memory address time = some after) :
    tryReadRtcDateTime after address = some time := by
  have stored : readBytes (storeBytes memory.bytes address time.bytes) address
      time.bytes.length = some time.bytes :=
    readBytes_storeBytes (by rw [RtcDateTime.length_bytes]; decide)
  unfold tryWriteRtcDateTime GuardedMemory.tryWrite Addressed.tryWrite at written
  split at written
  · split at written
    · cases written
      rw [RtcDateTime.length_bytes] at stored
      rw [tryReadRtcDateTime, stored, Option.map_some, RtcDateTime.ofBytes_bytes]
    · cases written
  · cases written

theorem isSome_tryWriteRtcDateTime {time : RtcDateTime} :
    (tryWriteRtcDateTime memory address time).isSome ↔ memory.CanWrite address 16 := by
  rw [tryWriteRtcDateTime, GuardedMemory.isSome_tryWrite, RtcDateTime.length_bytes]

end Rtc

end SharpEmu
