import SharpEmu.RtcTickAdditions

/-!
# The calendar additions of the clock

Adding months moves the date by exactly so many months, to the last day of the
month when the day does not exist there, and keeps the time of day.  Years are
twelve months each.  With the other exports this gives, for every call, the
arguments for which it does what it is to do.
-/

namespace SharpEmu

namespace Rtc

open Addressed

/-! ## Adding months -/

namespace DateTime

variable (dateTime : DateTime)

theorem years_eq (month : Int) : (if month > 0 then (month - 1) / 12 else month.tdiv 12 - 1) =
      (month - 1) / 12 := by
  split
  · rfl
  · next notPositive =>
    obtain ⟨before, rfl⟩ : ∃ before : Int, month = -before := ⟨-month, by omega⟩
    rw [Int.neg_tdiv, Int.tdiv_eq_ediv_of_nonneg (by omega)]
    omega

variable {months : Int}

theorem addMonths_of_not_inRange (outside : ¬MonthsInRange dateTime.date months) :
    dateTime.addMonths months = none := by
  have monthPos := dateTime.date_valid.month_pos
  have monthLe := dateTime.date_valid.month_le
  unfold addMonths
  split
  · rfl
  · next fits =>
    dsimp only
    rw [years_eq, if_pos]
    unfold MonthsInRange at outside
    dsimp only at outside
    omega

theorem withDate_of_valid {date : Gregorian.Date} (valid : date.Valid)
    (yearLt : date.year < 10000) :
    ∃ later, dateTime.withDate date.year date.month date.day = some later ∧ later.date = date ∧
      later.ticks % ticksPerDay = dateTime.ticks % ticksPerDay := by
  have dayNumberLt : date.dayNumber < 3652059 := by
    have isYear : Gregorian.daysBeforeYear 10000 = 3652059 := by decide +kernel
    rw [← isYear]
    exact valid.dayNumber_lt_year yearLt
  have inDay : dateTime.ticks % ticksPerDay < ticksPerDay :=
    Nat.mod_lt _ (by decide)
  have isDay : ticksPerDay = 864000000000 := rfl
  have inRange : date.dayNumber * ticksPerDay + dateTime.ticks % ticksPerDay ≤
      maxTicks := by
    unfold maxTicks
    rw [isDay] at inDay ⊢
    omega
  refine ⟨⟨_, inRange⟩, ofTicks_of_le inRange, ?_, ?_⟩
  · have isNumber : (date.dayNumber * ticksPerDay +
        dateTime.ticks % ticksPerDay) / ticksPerDay = date.dayNumber := by
      rw [isDay] at inDay ⊢
      omega
    rw [DateTime.date, isNumber, Gregorian.dateOf_dayNumber valid]
  · dsimp only
    rw [isDay]
    omega

theorem addMonths_of_inRange (inRange : MonthsInRange dateTime.date months) :
    ∃ later, dateTime.addMonths months = some later ∧
      (later.date.year * 12 + later.date.month : Int) =
        dateTime.date.year * 12 + dateTime.date.month + months ∧
      later.date.day = min dateTime.date.day
        (Gregorian.daysInMonth later.date.year later.date.month) ∧
      later.ticks % ticksPerDay = dateTime.ticks % ticksPerDay := by
  have dayPos := dateTime.date_valid.day_pos
  obtain ⟨monthsLe, totalGe, totalLt⟩ := inRange
  unfold addMonths
  rw [if_neg (by omega)]
  dsimp only
  rw [years_eq]
  generalize isYears : ((dateTime.date.month : Int) + months - 1) / 12 = years
  rw [if_neg (by omega)]
  obtain ⟨year, isYear⟩ : ∃ year : Nat, (dateTime.date.year : Int) + years = year :=
    ⟨((dateTime.date.year : Int) + years).toNat, by omega⟩
  obtain ⟨month, isMonth⟩ : ∃ month : Nat,
      (dateTime.date.month : Int) + months - years * 12 = month :=
    ⟨((dateTime.date.month : Int) + months - years * 12).toNat, by omega⟩
  rw [isYear, isMonth, Int.toNat_natCast, Int.toNat_natCast]
  have monthPos : 1 ≤ month := by omega
  have monthLe : month ≤ 12 := by omega
  have lastPos := Gregorian.daysInMonth_pos year monthPos monthLe
  have valid : Gregorian.Date.Valid ⟨year, month,
      min dateTime.date.day (Gregorian.daysInMonth year month)⟩ :=
    { year_pos := by
        dsimp only
        omega
      month_pos := monthPos
      month_le := monthLe
      day_pos := Nat.le_min.mpr ⟨dayPos, lastPos⟩
      day_le := Nat.min_le_right _ _ }
  obtain ⟨later, isLater, isDate, sameTime⟩ :=
    dateTime.withDate_of_valid valid (by dsimp only; omega)
  refine ⟨later, isLater, ?_, ?_, sameTime⟩
  · rw [isDate]
    dsimp only
    omega
  · rw [isDate]

theorem addYears_eq (years : Int) : dateTime.addYears years = dateTime.addMonths (years * 12) := by
  unfold addYears
  split
  · next outside =>
    rw [addMonths, if_pos (by omega)]
  · rfl

end DateTime

/-! ## The guest date-times of an addition -/

theorem timeOfDay_toRtcDateTime (dateTime : DateTime) :
    (toRtcDateTime dateTime).timeOfDay = dateTime.ticks % ticksPerDay / 10 := by
  unfold RtcDateTime.timeOfDay
  rw [toRtcDateTime_hour, toRtcDateTime_minute, toRtcDateTime_second, toRtcDateTime_microsecond]
  unfold ticksPerDay
  omega

theorem isMonthsLater_toRtcDateTime {source later : DateTime} {months : Int}
    (isMonths : (later.date.year * 12 + later.date.month : Int) =
      source.date.year * 12 + source.date.month + months)
    (isDay : later.date.day = min source.date.day
      (Gregorian.daysInMonth later.date.year later.date.month))
    (sameTime : later.ticks % ticksPerDay = source.ticks % ticksPerDay) :
    IsMonthsLater (toRtcDateTime source) (toRtcDateTime later) months := by
  have sourceDate := toRtcDateTime_date source
  have laterDate := toRtcDateTime_date later
  constructor
  · rw [← sourceDate, ← laterDate] at isMonths
    exact isMonths
  · rw [← sourceDate, ← laterDate] at isDay
    exact isDay
  · rw [timeOfDay_toRtcDateTime, timeOfDay_toRtcDateTime, sameTime]

theorem validate_toRtcDateTime (dateTime : DateTime) :
    validateRtcDateTime (toRtcDateTime dateTime) = ok :=
  RtcDateTime.validate_eq_ok_iff.mpr (toRtcDateTime_valid dateTime)

theorem eq_of_validate {first second : RtcDateTime} (firstOk : validateRtcDateTime first = ok)
    (secondOk : validateRtcDateTime second = ok)
    (same : tryConvertRtcDateTimeToTick first =
      tryConvertRtcDateTimeToTick second) : first = second := by
  have firstValid := RtcDateTime.validate_eq_ok_iff.mp firstOk
  have secondValid := RtcDateTime.validate_eq_ok_iff.mp secondOk
  apply RtcDateTime.eq_of_tick_eq firstValid secondValid
  rw [← firstValid.toNat_tick, ← secondValid.toNat_tick, same]

theorem tryConvertRtcDateTimeToTick_toRtcDateTime (dateTime : DateTime) :
    tryConvertRtcDateTimeToTick (toRtcDateTime dateTime) =
      .ofNat (dateTime.ticks / dateTimeTicksPerMicrosecond) := by
  have ticksLe := dateTime.ticks_le
  unfold maxTicks at ticksLe
  apply UInt64.toNat_inj.mp
  rw [(toRtcDateTime_valid dateTime).toNat_tick, tick_toRtcDateTime, UInt64.toNat_ofNat']
  exact (Nat.mod_eq_of_lt (by omega)).symm

variable {tick : UInt64}

theorem tryConvertTickToDateTime_none (unsupported : maxSupportedTick < tick.toNat) :
    tryConvertTickToDateTime tick = none :=
  if_pos unsupported

theorem tryConvertTickToDateTime_some (supported : tick.toNat ≤ maxSupportedTick) :
    ∃ source, tryConvertTickToDateTime tick = some source ∧ source.date = dateOfTick tick ∧
      tryConvertRtcDateTimeToTick (toRtcDateTime source) = tick := by
  have isMax := maxTicks_eq
  have inRange : tick.toNat * 10 ≤ maxTicks := by omega
  refine ⟨⟨tick.toNat * 10, inRange⟩, ?_, ?_, ?_⟩
  · rw [tryConvertTickToDateTime, if_neg (Nat.not_lt.mpr supported)]
    exact DateTime.ofTicks_of_le inRange
  · unfold DateTime.date dateOfTick ticksPerDay
    congr 1
    dsimp only
    omega
  · rw [tryConvertRtcDateTimeToTick_toRtcDateTime]
    unfold dateTimeTicksPerMicrosecond
    rw [Nat.mul_div_cancel _ (by decide)]
    exact UInt64.ofNat_toNat

/-! ## Calendar additions -/

section CalendarDelta

variable {memory : GuardedMemory}

theorem judged_addCalendarDelta_iff
    (destinationAddress sourceAddress : UInt64) (months wanted : Int) :
    Judged memory (fun after => ∃ tick time later, memory.tryReadUInt64 sourceAddress = some tick ∧
          validateRtcDateTime time = ok ∧
          tryConvertRtcDateTimeToTick time = tick ∧
          validateRtcDateTime later = ok ∧
          memory.tryWriteUInt64 destinationAddress
            (tryConvertRtcDateTimeToTick later) = some after ∧
          IsMonthsLater time later wanted)
        (.ok (addCalendarDelta memory destinationAddress sourceAddress (·.addMonths months))) ↔
      destinationAddress = 0 ∨ sourceAddress = 0 ∨
        ∀ tick, memory.tryReadUInt64 sourceAddress = some tick → tick.toNat ≤ maxSupportedTick →
          MonthsInRange (dateOfTick tick) months →
          memory.CanWrite destinationAddress 8 → months = wanted := by
  unfold addCalendarDelta
  by_cases isNull : destinationAddress = 0 ∨ sourceAddress = 0
  · rw [if_pos isNull]
    exact iff_of_true (judged_refused (by decide)) (or_assoc.mp (.inl isNull))
  rw [if_neg isNull, ← or_assoc, or_iff_right isNull]
  cases isRead : memory.tryReadUInt64 sourceAddress with
  | none =>
    exact iff_of_true (judged_refused (by decide)) fun tick isTick => by
      cases isTick
  | some tick =>
    simp only [Option.some.injEq, forall_eq']
    rcases Nat.lt_or_ge maxSupportedTick tick.toNat with large | supported
    · rw [tryConvertTickToDateTime_none large]
      exact iff_of_true (judged_refused (by decide))
        fun supported => absurd large (Nat.not_lt.mpr supported)
    obtain ⟨source, isSource, isDate, isTick⟩ :=
      tryConvertTickToDateTime_some supported
    rw [isSource]
    dsimp only
    by_cases inRange : MonthsInRange (dateOfTick tick) months
    · obtain ⟨later, isLater, isMonths, isDay, sameTime⟩ :=
        source.addMonths_of_inRange (by rw [isDate]; exact inRange)
      have isLaterBy := isMonthsLater_toRtcDateTime isMonths isDay sameTime
      rw [isLater]
      dsimp only
      rw [judged_answerWrite_iff, ← tryConvertRtcDateTimeToTick_toRtcDateTime later]
      constructor
      · intro writes _ _ writable
        have isWritten : (memory.tryWriteUInt64 destinationAddress
            (tryConvertRtcDateTimeToTick (toRtcDateTime later))).isSome :=
          isSome_tryWriteUInt64.mpr writable
        obtain ⟨after, written⟩ := Option.isSome_iff_exists.mp isWritten
        obtain ⟨_, time, result, rfl, timeOk, isTime, resultOk, isResult,
          isWanted⟩ := writes after written
        have sameSource : time = toRtcDateTime source :=
          eq_of_validate timeOk (validate_toRtcDateTime source) (isTime.trans isTick.symm)
        have sameResult : result = toRtcDateTime later :=
          eq_of_validate resultOk (validate_toRtcDateTime later)
            (eq_of_tryWriteUInt64_eq isResult written)
        rw [sameSource, sameResult] at isWanted
        have := isWanted.months
        have := isLaterBy.months
        omega
      · intro same after written
        have writable : memory.CanWrite destinationAddress 8 :=
          isSome_tryWriteUInt64.mp (by rw [written]; rfl)
        rw [same supported inRange writable] at isLaterBy
        exact ⟨tick, toRtcDateTime source, toRtcDateTime later, rfl,
          validate_toRtcDateTime source, isTick,
          validate_toRtcDateTime later, written, isLaterBy⟩
    · rw [source.addMonths_of_not_inRange (by rw [isDate]; exact inRange)]
      exact iff_of_true (judged_refused (by decide))
        fun _ isInRange => absurd isInRange inRange

theorem meets_tickAddMonths_iff (destinationAddress sourceAddress : UInt64) (months : Int64) :
    (Call.tickAddMonths destinationAddress sourceAddress months).Meets memory ↔
      (Call.tickAddMonths destinationAddress sourceAddress months).Admissible
        memory :=
  judged_addCalendarDelta_iff destinationAddress sourceAddress months.toInt32.toInt months.toInt

theorem meets_tickAddYears_iff (destinationAddress sourceAddress : UInt64) (years : Int64) :
    (Call.tickAddYears destinationAddress sourceAddress years).Meets memory ↔
      (Call.tickAddYears destinationAddress sourceAddress years).Admissible
        memory := by
  have twelvefold : years.toInt32.toInt * 12 = years.toInt * 12 ↔
      years.toInt32.toInt = years.toInt := by
    omega
  unfold Call.Meets Call.perform Call.Admissible rtcTickAddYears Call.Writes
  simp only [DateTime.addYears_eq, judged_addCalendarDelta_iff, twelvefold]

end CalendarDelta

/-! ## All calls -/

/-- Every call does what it is to do exactly for the admissible arguments. -/
theorem call_meets_iff (memory : GuardedMemory) (call : Call) :
    call.Meets memory ↔ call.Admissible memory := by
  cases call with
  | setTick timeAddress tickAddress =>
    exact meets_setTick_iff timeAddress tickAddress
  | setTimeT timeAddress timeSeconds =>
    exact meets_setTimeT_iff timeAddress timeSeconds
  | setWin32FileTime timeAddress fileTime =>
    exact meets_setWin32FileTime_iff timeAddress fileTime
  | tickAdd unit destinationAddress sourceAddress delta =>
    exact meets_tickAdd_iff unit destinationAddress sourceAddress delta
  | tickAddMonths destinationAddress sourceAddress months =>
    exact meets_tickAddMonths_iff destinationAddress sourceAddress months
  | tickAddYears destinationAddress sourceAddress years =>
    exact meets_tickAddYears_iff destinationAddress sourceAddress years

def filledMemory : GuardedMemory := ⟨fun _ => some 0xFF, fun _ => true⟩

/-- Setting the tick of set bits only leaves as an overflow. -/
theorem setTick_of_filledMemory_overflows :
    filledMemory.tryReadUInt64 0x2000 = some 0xFFFFFFFFFFFFFFFF ∧
      (Call.setTick 0x1000 0x2000).perform filledMemory = .error .overflow ∧
      ¬ (Call.setTick 0x1000 0x2000).Meets filledMemory := by
  have isRead : filledMemory.tryReadUInt64 0x2000 = some 0xFFFFFFFFFFFFFFFF := by
    decide +kernel
  have overflows : (Call.setTick 0x1000 0x2000).perform filledMemory = .error .overflow := by
    unfold Call.perform rtcSetTick writeConverted
    simp only [isRead]
    rw [if_neg (by decide), tryConvertTickToRtcDateTime_overflow (by decide)]
  refine ⟨isRead, overflows, ?_⟩
  unfold Call.Meets
  rw [overflows]
  exact id

end Rtc

end SharpEmu
