import SharpEmu.RtcConversions

/-!
# The ranges of the clock's setters and additions

Each export either answers an error and leaves guest memory alone, or writes a
valid date-time (or the tick of one) that converts back to its argument or is
the exact sum, exactly for the arguments that its guards were meant for.  The
others leave as an uncaught overflow, wrap to another instant, lose the last
digit of a file time, or become a tick after the year 9999.
-/

namespace SharpEmu

namespace Rtc

open Addressed

/-! ## Calls -/

inductive Call where
  | setTick (timeAddress tickAddress : UInt64)
  | setTimeT (timeAddress : UInt64) (timeSeconds : Int64)
  | setWin32FileTime (timeAddress : UInt64) (fileTime : Int64)
  | tickAdd (unit : TickUnit) (destinationAddress sourceAddress : UInt64)
      (delta : Int64)
  | tickAddMonths (destinationAddress sourceAddress : UInt64) (months : Int64)
  | tickAddYears (destinationAddress sourceAddress : UInt64) (years : Int64)

namespace Call

def perform (memory : GuardedMemory) : Call → Except RtcFault Answer
  | .setTick timeAddress tickAddress =>
      rtcSetTick memory timeAddress tickAddress
  | .setTimeT timeAddress timeSeconds =>
      rtcSetTimeT memory timeAddress timeSeconds
  | .setWin32FileTime timeAddress fileTime =>
      rtcSetWin32FileTime memory timeAddress fileTime
  | .tickAdd unit destinationAddress sourceAddress delta =>
      .ok (rtcTickAdd memory unit destinationAddress sourceAddress delta)
  | .tickAddMonths destinationAddress sourceAddress months =>
      .ok (rtcTickAddMonths memory destinationAddress sourceAddress months)
  | .tickAddYears destinationAddress sourceAddress years =>
      .ok (rtcTickAddYears memory destinationAddress sourceAddress years)

end Call

def rtcErrors : List UInt32 :=
  [memoryFault, invalidPointer, invalidValue, invalidArgument]

/-- One date-time is so many months after another: the months are counted
exactly, the day is that day or the last of its month, and the time of day is
the same. -/
structure IsMonthsLater (time later : RtcDateTime) (months : Int) : Prop where
  months : (later.year.toNat * 12 + later.month.toNat : Int) =
    time.year.toNat * 12 + time.month.toNat + months
  day : later.day.toNat = min time.day.toNat
    (Gregorian.daysInMonth later.year.toNat later.month.toNat)
  timeOfDay : later.timeOfDay = time.timeOfDay

/-- Memory after the call holds a valid date-time that converts back to the
argument, or the tick of one that is the exact sum. -/
def Call.Writes (memory after : GuardedMemory) : Call → Prop
  | .setTick timeAddress tickAddress =>
      ∃ tick time, memory.tryReadUInt64 tickAddress = some tick ∧ validateRtcDateTime time = ok ∧
        tryWriteRtcDateTime memory timeAddress time = some after ∧
        tryConvertRtcDateTimeToTick time = tick
  | .setTimeT timeAddress timeSeconds =>
      ∃ time, validateRtcDateTime time = ok ∧
        tryWriteRtcDateTime memory timeAddress time = some after ∧
        unixSeconds (tryConvertRtcDateTimeToTick time) = timeSeconds.toUInt64
  | .setWin32FileTime timeAddress fileTime =>
      ∃ time, validateRtcDateTime time = ok ∧
        tryWriteRtcDateTime memory timeAddress time = some after ∧
        win32Time (tryConvertRtcDateTimeToTick time) = fileTime.toUInt64
  | .tickAdd unit destinationAddress sourceAddress delta =>
      ∃ tick time, memory.tryReadUInt64 sourceAddress = some tick ∧ validateRtcDateTime time = ok ∧
        memory.tryWriteUInt64 destinationAddress (tryConvertRtcDateTimeToTick time) = some after ∧
        ((tryConvertRtcDateTimeToTick time).toNat : Int) =
          tick.toNat + delta.toInt * unit.length.toNat
  | .tickAddMonths destinationAddress sourceAddress months =>
      ∃ tick time later, memory.tryReadUInt64 sourceAddress = some tick ∧
        validateRtcDateTime time = ok ∧
        tryConvertRtcDateTimeToTick time = tick ∧
        validateRtcDateTime later = ok ∧
        memory.tryWriteUInt64 destinationAddress (tryConvertRtcDateTimeToTick later) = some after ∧
        IsMonthsLater time later months.toInt
  | .tickAddYears destinationAddress sourceAddress years =>
      ∃ tick time later, memory.tryReadUInt64 sourceAddress = some tick ∧
        validateRtcDateTime time = ok ∧
        tryConvertRtcDateTimeToTick time = tick ∧
        validateRtcDateTime later = ok ∧
        memory.tryWriteUInt64 destinationAddress (tryConvertRtcDateTimeToTick later) = some after ∧
        IsMonthsLater time later (years.toInt * 12)

/-- An answer is an error that leaves memory alone, or a write as wanted. -/
def Judged (memory : GuardedMemory) (writes : GuardedMemory → Prop) : Except RtcFault Answer → Prop
  | .error _ => False
  | .ok (code, after) =>
      (code ∈ rtcErrors ∧ after = memory) ∨ (code = ok ∧ writes after)

def Call.Meets (memory : GuardedMemory) (call : Call) : Prop :=
  Judged memory (fun after => call.Writes memory after) (call.perform memory)

/-! ## Conditions -/

def MonthsInRange (date : Gregorian.Date) (months : Int) : Prop :=
  let total := (date.year * 12 + date.month - 1 : Int) + months
  months.natAbs ≤ 120000 ∧ 12 ≤ total ∧ total < 120000

def dateOfTick (tick : UInt64) : Gregorian.Date :=
  Gregorian.dateOf (tick.toNat / 86400000000)

/-- The arguments for which a call does what it is to do.  The number
922337203685477580 is the last tick whose tenfold fits a `long`. -/
def Call.Admissible (memory : GuardedMemory) : Call → Prop
  | .setTick timeAddress tickAddress =>
      timeAddress = 0 ∨ tickAddress = 0 ∨ ∀ tick, memory.tryReadUInt64 tickAddress = some tick →
          tick.toNat ≤ 922337203685477580
  | .setTimeT timeAddress timeSeconds =>
      let sum := 62135596800000000 + timeSeconds.toInt.toNat * 1000000
      timeAddress = 0 ∨ timeSeconds < 0 ∨ (sum % 2 ^ 64 ≤ 922337203685477580 ∧
          (2 ^ 64 ≤ sum → sum % 2 ^ 64 ≤ maxSupportedTick → ¬ memory.CanWrite timeAddress 16))
  | .setWin32FileTime timeAddress fileTime =>
      let sum := 50491123200000000 + fileTime.toInt.toNat / 10
      timeAddress = 0 ∨ fileTime < 0 ∨ (sum ≤ 922337203685477580 ∧
          (sum ≤ maxSupportedTick → memory.CanWrite timeAddress 16 → fileTime.toInt.toNat % 10 = 0))
  | .tickAdd unit destinationAddress sourceAddress delta =>
      destinationAddress = 0 ∨ sourceAddress = 0 ∨
        ∀ tick, memory.tryReadUInt64 sourceAddress = some tick → tick.toNat < 2 ^ 63 →
          let sum := tick.toNat + delta.toInt * unit.length.toNat
          0 ≤ sum → sum < 2 ^ 63 → memory.CanWrite destinationAddress 8 → sum ≤ maxSupportedTick
  | .tickAddMonths destinationAddress sourceAddress months =>
      destinationAddress = 0 ∨ sourceAddress = 0 ∨
        ∀ tick, memory.tryReadUInt64 sourceAddress = some tick → tick.toNat ≤ maxSupportedTick →
          MonthsInRange (dateOfTick tick) months.toInt32.toInt →
          memory.CanWrite destinationAddress 8 → months.toInt32.toInt = months.toInt
  | .tickAddYears destinationAddress sourceAddress years =>
      destinationAddress = 0 ∨ sourceAddress = 0 ∨
        ∀ tick, memory.tryReadUInt64 sourceAddress = some tick → tick.toNat ≤ maxSupportedTick →
          MonthsInRange (dateOfTick tick) (years.toInt32.toInt * 12) →
          memory.CanWrite destinationAddress 8 → years.toInt32.toInt = years.toInt

/-! ## Answers -/

section Answers

variable {memory : GuardedMemory} {writes : GuardedMemory → Prop}

theorem judged_refused {code : UInt32} (isError : code ∈ rtcErrors) :
    Judged memory writes (.ok (code, memory)) :=
  .inl ⟨isError, rfl⟩

theorem judged_answerWrite_iff {write : Option GuardedMemory} :
    Judged memory writes (.ok (answerWrite memory write)) ↔
      ∀ after, write = some after → writes after := by
  cases write with
  | none =>
    exact iff_of_true (judged_refused (by decide)) fun after written => by
      cases written
  | some written =>
    constructor
    · intro judged after isWritten
      cases isWritten
      rcases judged with ⟨isError, -⟩ | ⟨-, isWanted⟩
      · exact absurd isError (by decide)
      · exact isWanted
    · intro wanted
      exact .inr ⟨rfl, wanted written rfl⟩

variable {after : GuardedMemory} {address : UInt64}

theorem eq_of_tryWriteUInt64_eq {first second : UInt64}
    (firstWritten : memory.tryWriteUInt64 address first = some after)
    (secondWritten : memory.tryWriteUInt64 address second = some after) :
    first = second := by
  have firstRead := tryReadUInt64_of_tryWriteUInt64 firstWritten
  rw [tryReadUInt64_of_tryWriteUInt64 secondWritten] at firstRead
  exact (Option.some.inj firstRead).symm

theorem eq_of_tryWriteRtcDateTime_eq {first second : RtcDateTime}
    (firstWritten : tryWriteRtcDateTime memory address first = some after)
    (secondWritten : tryWriteRtcDateTime memory address second = some after) :
    first = second := by
  have firstRead := tryReadRtcDateTime_of_write firstWritten
  rw [tryReadRtcDateTime_of_write secondWritten] at firstRead
  exact (Option.some.inj firstRead).symm

theorem isSome_tryWriteUInt64 {value : UInt64} :
    (memory.tryWriteUInt64 address value).isSome ↔ memory.CanWrite address 8 := by
  rw [GuardedMemory.tryWriteUInt64, GuardedMemory.isSome_tryWrite, length_bytesOf]

end Answers

/-! ## The date-time of a tick -/

theorem maxTicks_eq : maxTicks = maxSupportedTick * 10 + 9 := rfl

variable {tick : UInt64}

theorem tryConvertTickToRtcDateTime_overflow (large : 922337203685477580 < tick.toNat) :
    tryConvertTickToRtcDateTime tick = .error .overflow := by
  unfold tryConvertTickToRtcDateTime dateTimeTicksPerMicrosecond
  rw [if_neg (by omega)]

theorem tryConvertTickToRtcDateTime_none (after : maxSupportedTick < tick.toNat)
    (fits : tick.toNat ≤ 922337203685477580) :
    tryConvertTickToRtcDateTime tick = .ok none := by
  have isMax := maxTicks_eq
  unfold tryConvertTickToRtcDateTime dateTimeTicksPerMicrosecond
  rw [if_pos (by omega), DateTime.ofTicks_of_lt (by omega)]
  rfl

theorem tryConvertTickToRtcDateTime_some (supported : tick.toNat ≤ maxSupportedTick) :
    ∃ time, tryConvertTickToRtcDateTime tick = .ok (some time) ∧
      time.Valid ∧ tryConvertRtcDateTimeToTick time = tick := by
  have isMax := maxTicks_eq
  have small : tick.toNat ≤ 315537897599999999 := supported
  have valid := toRtcDateTime_valid ⟨tick.toNat * 10, by omega⟩
  refine ⟨toRtcDateTime ⟨tick.toNat * 10, by omega⟩, ?_, valid, ?_⟩
  · unfold tryConvertTickToRtcDateTime dateTimeTicksPerMicrosecond
    rw [if_pos (by omega), DateTime.ofTicks_of_le (by omega)]
    rfl
  · apply UInt64.toNat_inj.mp
    rw [valid.toNat_tick, tick_toRtcDateTime]
    dsimp only
    omega

theorem judged_writeConverted_iff {memory : GuardedMemory}
    {writes : GuardedMemory → Prop} {timeAddress : UInt64}
    {refused : UInt32} (isError : refused ∈ rtcErrors) :
    Judged memory writes (writeConverted memory timeAddress tick refused) ↔
      tick.toNat ≤ 922337203685477580 ∧
        ∀ time after, time.Valid → tryConvertRtcDateTimeToTick time = tick →
          tryWriteRtcDateTime memory timeAddress time = some after →
            writes after := by
  have unsupported {time : RtcDateTime} (valid : time.Valid)
      (isTick : tryConvertRtcDateTimeToTick time = tick) :
      tick.toNat ≤ maxSupportedTick := by
    rw [← isTick, valid.toNat_tick]
    exact valid.tick_le
  have isMax : maxSupportedTick = 315537897599999999 := rfl
  unfold writeConverted
  rcases Nat.lt_or_ge 922337203685477580 tick.toNat with large | fits
  · rw [tryConvertTickToRtcDateTime_overflow large]
    exact iff_of_false (fun judged => judged) fun both => by omega
  · rcases Nat.lt_or_ge maxSupportedTick tick.toNat with after | supported
    · rw [tryConvertTickToRtcDateTime_none after fits]
      exact iff_of_true (judged_refused isError) ⟨fits, by
        intro time _ valid isTick
        have := unsupported valid isTick
        omega⟩
    · obtain ⟨time, converts, valid, isTick⟩ :=
        tryConvertTickToRtcDateTime_some supported
      rw [converts]
      dsimp only
      rw [judged_answerWrite_iff]
      constructor
      · intro wanted
        refine ⟨fits, ?_⟩
        intro other after otherValid otherTick written
        have sameTick : other.tick = time.tick := by
          rw [← otherValid.toNat_tick, ← valid.toNat_tick, otherTick, isTick]
        rw [RtcDateTime.eq_of_tick_eq otherValid valid sameTick] at written
        exact wanted after written
      · rintro ⟨-, wanted⟩ after written
        exact wanted time after valid isTick written

/-! ## Setters -/

section Setters

variable {memory : GuardedMemory}

theorem meets_setTick_iff (timeAddress tickAddress : UInt64) :
    (Call.setTick timeAddress tickAddress).Meets memory ↔
      (Call.setTick timeAddress tickAddress).Admissible memory := by
  unfold Call.Meets Call.perform Call.Admissible rtcSetTick
  dsimp only
  by_cases isNull : timeAddress = 0 ∨ tickAddress = 0
  · rw [if_pos isNull]
    exact iff_of_true (judged_refused (by decide)) (or_assoc.mp (.inl isNull))
  · rw [if_neg isNull, ← or_assoc, or_iff_right isNull]
    cases isRead : memory.tryReadUInt64 tickAddress with
    | none =>
      exact iff_of_true (judged_refused (by decide)) fun tick isTick => by
        cases isTick
    | some tick =>
      dsimp only
      rw [judged_writeConverted_iff (by decide)]
      constructor
      · rintro ⟨fits, -⟩ other isOther
        rw [← Option.some.inj isOther]
        exact fits
      · intro fits
        refine ⟨fits tick rfl, ?_⟩
        intro time after valid isTick written
        exact ⟨tick, time, isRead, RtcDateTime.validate_eq_ok_iff.mpr valid, written, isTick⟩

theorem toNat_toUInt64_of_nonneg {value : Int64} (nonneg : ¬ value < 0) :
    value.toUInt64.toNat = value.toInt.toNat ∧ value.toInt.toNat < 2 ^ 63 := by
  have notNegative : (0 : Int) ≤ value.toInt := by
    by_contra negative
    exact nonneg (Int64.lt_iff_toInt_lt.mpr (by
      rw [Int64.toInt_zero]
      exact Int.lt_of_not_ge negative))
  have isInt : value.toInt = if 2 * value.toBitVec.toNat < 2 ^ 64
      then (value.toBitVec.toNat : Int)
      else value.toBitVec.toNat - (2 ^ 64 : Nat) :=
    BitVec.toInt_eq_toNat_cond _
  have isSame : value.toUInt64.toNat = value.toBitVec.toNat := rfl
  have small : value.toBitVec.toNat < 2 ^ 64 := value.toBitVec.isLt
  split at isInt
  all_goals omega

variable {tick : UInt64}

theorem judged_setter_iff {timeAddress value : UInt64} (convert : UInt64 → UInt64) :
    Judged memory (fun after => ∃ time, validateRtcDateTime time = ok ∧
          tryWriteRtcDateTime memory timeAddress time = some after ∧
          convert (tryConvertRtcDateTimeToTick time) = value)
        (writeConverted memory timeAddress tick invalidValue) ↔
      tick.toNat ≤ 922337203685477580 ∧
        (tick.toNat ≤ maxSupportedTick → memory.CanWrite timeAddress 16 →
          convert tick = value) := by
  rw [judged_writeConverted_iff (by decide)]
  apply and_congr_right
  intro _
  constructor
  · intro wanted supported writable
    obtain ⟨time, _, valid, isTick⟩ :=
      tryConvertTickToRtcDateTime_some supported
    have isWritten : (tryWriteRtcDateTime memory timeAddress time).isSome :=
      isSome_tryWriteRtcDateTime.mpr writable
    obtain ⟨after, written⟩ := Option.isSome_iff_exists.mp isWritten
    obtain ⟨other, _, otherWritten, converts⟩ :=
      wanted time after valid isTick written
    rw [eq_of_tryWriteRtcDateTime_eq otherWritten written, isTick] at converts
    exact converts
  · intro converts time after valid isTick written
    have supported : tick.toNat ≤ maxSupportedTick := by
      rw [← isTick, valid.toNat_tick]
      exact valid.tick_le
    have writable : memory.CanWrite timeAddress 16 :=
      isSome_tryWriteRtcDateTime.mp (by rw [written]; rfl)
    refine ⟨time, RtcDateTime.validate_eq_ok_iff.mpr valid, written, ?_⟩
    rw [isTick]
    exact converts supported writable

theorem toNat_unixSeconds (tick : UInt64) :
    (unixSeconds tick).toNat = (tick.toNat - 62135596800000000) / 1000000 := by
  unfold unixSeconds
  split
  · next before =>
    have : tick.toNat < 62135596800000000 := UInt64.lt_iff_toNat_lt.mp before
    rw [Nat.sub_eq_zero_of_le (Nat.le_of_lt this)]
    rfl
  · next after =>
    have notBefore : unixEpochTicks ≤ tick := UInt64.not_lt.mp after
    rw [UInt64.toNat_div, UInt64.toNat_sub_of_le _ _ notBefore]
    rfl

theorem meets_setTimeT_iff (timeAddress : UInt64) (timeSeconds : Int64) :
    (Call.setTimeT timeAddress timeSeconds).Meets memory ↔
      (Call.setTimeT timeAddress timeSeconds).Admissible memory := by
  unfold Call.Meets Call.perform Call.Admissible rtcSetTimeT Call.Writes
  dsimp only
  by_cases isNull : timeAddress = 0
  · rw [if_pos isNull]
    exact iff_of_true (judged_refused (by decide)) (.inl isNull)
  rw [if_neg isNull, or_iff_right isNull]
  by_cases isNegative : timeSeconds < 0
  · rw [if_pos isNegative]
    exact iff_of_true (judged_refused (by decide)) (.inl isNegative)
  rw [if_neg isNegative, or_iff_right isNegative, judged_setter_iff]
  obtain ⟨isSeconds, small⟩ := toNat_toUInt64_of_nonneg isNegative
  have isTick : (unixEpochTicks + timeSeconds.toUInt64 * microsecondsPerSecond).toNat =
      (62135596800000000 + timeSeconds.toInt.toNat * 1000000) % 2 ^ 64 := by
    rw [UInt64.toNat_add, UInt64.toNat_mul, isSeconds]
    exact Nat.add_mod_mod _ _ _
  rw [← UInt64.toNat_inj, toNat_unixSeconds, isTick, isSeconds]
  generalize timeSeconds.toInt.toNat = seconds at *
  apply and_congr_right
  intro fits
  have isMax : maxSupportedTick = 315537897599999999 := rfl
  constructor
  · intro converts wraps supported writable
    have := converts supported writable
    omega
  · intro refused supported writable
    have noWrap : 62135596800000000 + seconds * 1000000 < 2 ^ 64 := by
      by_contra wraps
      exact refused (Nat.le_of_not_lt wraps) supported writable
    rw [Nat.mod_eq_of_lt noWrap]
    omega

theorem toNat_win32Time (supported : tick.toNat ≤ maxSupportedTick) :
    (win32Time tick).toNat = (tick.toNat - 50491123200000000) * 10 := by
  have small : tick.toNat ≤ 315537897599999999 := supported
  unfold win32Time
  split
  · next before =>
    have : tick.toNat < 50491123200000000 := UInt64.lt_iff_toNat_lt.mp before
    rw [Nat.sub_eq_zero_of_le (Nat.le_of_lt this)]
    rfl
  · next after =>
    have notBefore : win32FileTimeEpochTicks ≤ tick := UInt64.not_lt.mp after
    rw [UInt64.toNat_mul, UInt64.toNat_sub_of_le _ _ notBefore]
    change (tick.toNat - 50491123200000000) * 10 % 2 ^ 64 = _
    omega

theorem meets_setWin32FileTime_iff (timeAddress : UInt64) (fileTime : Int64) :
    (Call.setWin32FileTime timeAddress fileTime).Meets memory ↔
      (Call.setWin32FileTime timeAddress fileTime).Admissible memory := by
  unfold Call.Meets Call.perform Call.Admissible rtcSetWin32FileTime Call.Writes
  dsimp only
  by_cases isNull : timeAddress = 0
  · rw [if_pos isNull]
    exact iff_of_true (judged_refused (by decide)) (.inl isNull)
  rw [if_neg isNull, or_iff_right isNull]
  by_cases isNegative : fileTime < 0
  · rw [if_pos isNegative]
    exact iff_of_true (judged_refused (by decide)) (.inl isNegative)
  rw [if_neg isNegative, or_iff_right isNegative, judged_setter_iff]
  obtain ⟨isValue, small⟩ := toNat_toUInt64_of_nonneg isNegative
  have isTick : (win32FileTimeEpochTicks + fileTime.toUInt64 / 10).toNat =
      50491123200000000 + fileTime.toInt.toNat / 10 := by
    rw [UInt64.toNat_add, UInt64.toNat_div, isValue]
    change (50491123200000000 + fileTime.toInt.toNat / 10) % 2 ^ 64 = _
    omega
  rw [isTick]
  apply and_congr_right
  intro fits
  apply forall_congr'
  intro supported
  apply forall_congr'
  intro writable
  rw [← UInt64.toNat_inj, toNat_win32Time (by rw [isTick]; exact supported), isTick, isValue]
  omega

end Setters

end Rtc

end SharpEmu
