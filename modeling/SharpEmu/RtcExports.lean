import Mathlib.Data.UInt
import SharpEmu.AddressedBytes
import SharpEmu.GregorianCalendar

/-!
# The real time clock

A tick counts microseconds from the start of year 1.  The exports convert
between ticks, date-times of seven fields in guest memory, Unix and Win32 times
and packed DOS times.  `DateTime` is that of the platform: hundred nanosecond
ticks up to the end of year 9999.  An export answers a result code and leaves
guest memory as it is or written; an overflow that nothing catches leaves it
with no answer.
-/

namespace SharpEmu

namespace Rtc

open Addressed

/-! ## Platform date-times -/

def ticksPerDay : Nat := 864000000000

def ticksPerSecond : Nat := 10000000

def dateTimeTicksPerMicrosecond : Nat := 10

def maxTicks : Nat := 3155378975999999999

structure DateTime where
  ticks : Nat
  ticks_le : ticks ≤ maxTicks
deriving DecidableEq

namespace DateTime

/-- The constructor, which refuses ticks after the year 9999. -/
def ofTicks (ticks : Nat) : Option DateTime :=
  if inRange : ticks ≤ maxTicks then some ⟨ticks, inRange⟩ else none

variable (dateTime : DateTime)

def date : Gregorian.Date := Gregorian.dateOf (dateTime.ticks / ticksPerDay)

def hour : Nat := dateTime.ticks / 36000000000 % 24

def minute : Nat := dateTime.ticks / 600000000 % 60

def second : Nat := dateTime.ticks / ticksPerSecond % 60

def withDate (year month day : Nat) : Option DateTime :=
  ofTicks (Gregorian.Date.dayNumber ⟨year, month, day⟩ * ticksPerDay + dateTime.ticks % ticksPerDay)

def addMonths (months : Int) : Option DateTime :=
  if months < -120000 ∨ months > 120000 then none
  else
    let date := dateTime.date
    let month := (date.month : Int) + months
    let years := if month > 0 then (month - 1) / 12 else month.tdiv 12 - 1
    let year := (date.year : Int) + years
    let month := month - years * 12
    if year < 1 ∨ year > 9999 then none
    else
      dateTime.withDate year.toNat month.toNat
        (min date.day (Gregorian.daysInMonth year.toNat month.toNat))

def addYears (years : Int) : Option DateTime :=
  if years < -10000 ∨ years > 10000 then none
  else dateTime.addMonths (years * 12)

end DateTime

/-! ## Guest date-times -/

structure RtcDateTime where
  year : UInt16
  month : UInt16
  day : UInt16
  hour : UInt16
  minute : UInt16
  second : UInt16
  microsecond : UInt32
deriving DecidableEq

namespace RtcDateTime

def bytes (time : RtcDateTime) : List UInt8 :=
  bytesOf 2 time.year.toNat ++ bytesOf 2 time.month.toNat ++
    bytesOf 2 time.day.toNat ++ bytesOf 2 time.hour.toNat ++
    bytesOf 2 time.minute.toNat ++ bytesOf 2 time.second.toNat ++
    bytesOf 4 time.microsecond.toNat

def ofBytes (buffer : List UInt8) : RtcDateTime where
  year := .ofNat (wordOf (buffer.take 2))
  month := .ofNat (wordOf ((buffer.drop 2).take 2))
  day := .ofNat (wordOf ((buffer.drop 4).take 2))
  hour := .ofNat (wordOf ((buffer.drop 6).take 2))
  minute := .ofNat (wordOf ((buffer.drop 8).take 2))
  second := .ofNat (wordOf ((buffer.drop 10).take 2))
  microsecond := .ofNat (wordOf ((buffer.drop 12).take 4))

end RtcDateTime

def tryReadRtcDateTime (memory : GuardedMemory) (address : UInt64) :
    Option RtcDateTime :=
  (readBytes memory.bytes address 16).map RtcDateTime.ofBytes

def tryWriteRtcDateTime (memory : GuardedMemory) (address : UInt64)
    (time : RtcDateTime) : Option GuardedMemory :=
  memory.tryWrite address time.bytes

def toRtcDateTime (dateTime : DateTime) : RtcDateTime where
  year := .ofNat dateTime.date.year
  month := .ofNat dateTime.date.month
  day := .ofNat dateTime.date.day
  hour := .ofNat dateTime.hour
  minute := .ofNat dateTime.minute
  second := .ofNat dateTime.second
  microsecond :=
    .ofNat (dateTime.ticks % ticksPerSecond / dateTimeTicksPerMicrosecond)

/-! ## Result codes -/

def ok : UInt32 := 0
def memoryFault : UInt32 := 0x80020101
def invalidPointer : UInt32 := 0x80B50002
def invalidValue : UInt32 := 0x80B50003
def invalidArgument : UInt32 := 0x80B50004
def invalidYear : UInt32 := 0x80B50008
def invalidMonth : UInt32 := 0x80B50009
def invalidDay : UInt32 := 0x80B5000A
def invalidHour : UInt32 := 0x80B5000B
def invalidMinute : UInt32 := 0x80B5000C
def invalidSecond : UInt32 := 0x80B5000D
def invalidMicrosecond : UInt32 := 0x80B5000E

def validateRtcDateTime (time : RtcDateTime) : UInt32 :=
  if time.year < 1 ∨ time.year > 9999 then invalidYear
  else if time.month < 1 ∨ time.month > 12 then invalidMonth
  else if time.day < 1 ∨ time.day.toNat > Gregorian.daysInMonth time.year.toNat time.month.toNat
    then invalidDay
  else if time.hour > 23 then invalidHour
  else if time.minute > 59 then invalidMinute
  else if time.second > 59 then invalidSecond
  else if time.microsecond > 999999 then invalidMicrosecond
  else ok

/-! ## Ticks -/

def microsecondsPerSecond : UInt64 := 1000000
def microsecondsPerMinute : UInt64 := 60000000
def microsecondsPerHour : UInt64 := 3600000000
def microsecondsPerDay : UInt64 := 86400000000
def microsecondsPerWeek : UInt64 := 604800000000
def unixEpochTicks : UInt64 := 62135596800000000
def win32FileTimeEpochTicks : UInt64 := 50491123200000000

def maxSupportedTick : Nat := maxTicks / dateTimeTicksPerMicrosecond

def tryConvertTickToDateTime (tick : UInt64) : Option DateTime :=
  if tick.toNat > maxSupportedTick then none
  else DateTime.ofTicks (tick.toNat * dateTimeTicksPerMicrosecond)

def tryConvertRtcDateTimeToTick (time : RtcDateTime) : UInt64 :=
  let (month, year) :=
    if time.month > 2 then (time.month - 3, time.year)
    else (time.month + 9, time.year - 1)
  let century := year / 100
  let yearOfCentury := year - 100 * century
  let days := ((146097 * century.toUInt64) >>> 2) + ((1461 * yearOfCentury.toUInt64) >>> 2) +
    (153 * month.toUInt64 + 2) / 5 + time.day.toUInt64
  let days := (days - 307) * microsecondsPerDay
  let timeOfDay := time.hour.toUInt64 * microsecondsPerHour +
    time.minute.toUInt64 * microsecondsPerMinute +
    time.second.toUInt64 * microsecondsPerSecond + time.microsecond.toUInt64
  days + timeOfDay

/-- What leaves an export uncaught. -/
inductive RtcFault where
  | overflow
deriving DecidableEq, Repr

/-- The date-time of a tick.  The product is checked and converted to a `long`
inside a `try` that only catches the range error of the constructor. -/
def tryConvertTickToRtcDateTime (tick : UInt64) : Except RtcFault (Option RtcDateTime) :=
  if tick.toNat * dateTimeTicksPerMicrosecond < 2 ^ 63 then
    .ok ((DateTime.ofTicks (tick.toNat * dateTimeTicksPerMicrosecond)).map toRtcDateTime)
  else .error .overflow

/-! ## Exports -/

/-- A result code and guest memory after the call. -/
abbrev Answer := UInt32 × GuardedMemory

/-- The end of an export that writes. -/
def answerWrite (memory : GuardedMemory) : Option GuardedMemory → Answer
  | none => (memoryFault, memory)
  | some after => (ok, after)

section

variable (memory : GuardedMemory)

def withRtcDateTime (timeAddress valueAddress : UInt64)
    (write : RtcDateTime → Option GuardedMemory) : Answer :=
  if timeAddress = 0 ∨ valueAddress = 0 then (invalidPointer, memory)
  else
    match tryReadRtcDateTime memory timeAddress with
    | none => (memoryFault, memory)
    | some time =>
        if validateRtcDateTime time ≠ ok then
          (validateRtcDateTime time, memory)
        else answerWrite memory (write time)

def rtcGetTick (timeAddress tickAddress : UInt64) : Answer :=
  withRtcDateTime memory timeAddress tickAddress fun time =>
    memory.tryWriteUInt64 tickAddress (tryConvertRtcDateTimeToTick time)

def unixSeconds (tick : UInt64) : UInt64 :=
  if tick < unixEpochTicks then 0
  else (tick - unixEpochTicks) / microsecondsPerSecond

def rtcGetTimeT (timeAddress timeTAddress : UInt64) : Answer :=
  withRtcDateTime memory timeAddress timeTAddress fun time =>
    memory.tryWriteUInt64 timeTAddress (unixSeconds (tryConvertRtcDateTimeToTick time))

def win32Time (tick : UInt64) : UInt64 :=
  if tick < win32FileTimeEpochTicks then 0
  else (tick - win32FileTimeEpochTicks) * 10

def rtcGetWin32FileTime (timeAddress fileTimeAddress : UInt64) : Answer :=
  withRtcDateTime memory timeAddress fileTimeAddress fun time =>
    memory.tryWriteUInt64 fileTimeAddress (win32Time (tryConvertRtcDateTimeToTick time))

def dosTimeOf (time : RtcDateTime) : UInt32 :=
  (time.second / 2 &&& 0x1F).toUInt32 ||| (time.minute &&& 0x3F).toUInt32 <<< 5 |||
    (time.hour &&& 0x1F).toUInt32 <<< 11 |||
    (time.day &&& 0x1F).toUInt32 <<< 16 |||
    (time.month &&& 0x0F).toUInt32 <<< 21 |||
    ((time.year.toUInt32 - 1980) &&& 0x7F) <<< 25

def rtcGetDosTime (timeAddress dosTimeAddress : UInt64) : Answer :=
  withRtcDateTime memory timeAddress dosTimeAddress fun time =>
    memory.tryWriteUInt32 dosTimeAddress (dosTimeOf time)

def timeOfDos (dosTime : UInt32) : RtcDateTime where
  year := ((1980 : UInt32) + ((dosTime >>> 25) &&& 0x7F)).toUInt16
  month := ((dosTime >>> 21) &&& 0x0F).toUInt16
  day := ((dosTime >>> 16) &&& 0x1F).toUInt16
  hour := ((dosTime >>> 11) &&& 0x1F).toUInt16
  minute := ((dosTime >>> 5) &&& 0x3F).toUInt16
  second := ((dosTime <<< 1) &&& 0x3E).toUInt16
  microsecond := 0

def rtcSetDosTime (timeAddress rsi : UInt64) : Answer :=
  if timeAddress = 0 then (invalidPointer, memory)
  else answerWrite memory (tryWriteRtcDateTime memory timeAddress (timeOfDos rsi.toUInt32))

def writeConverted (timeAddress tick : UInt64) (refused : UInt32) :
    Except RtcFault Answer :=
  match tryConvertTickToRtcDateTime tick with
  | .error fault => .error fault
  | .ok none => .ok (refused, memory)
  | .ok (some time) =>
      .ok (answerWrite memory (tryWriteRtcDateTime memory timeAddress time))

def rtcSetTick (timeAddress tickAddress : UInt64) : Except RtcFault Answer :=
  if timeAddress = 0 ∨ tickAddress = 0 then .ok (invalidPointer, memory)
  else
    match memory.tryReadUInt64 tickAddress with
    | none => .ok (memoryFault, memory)
    | some tickValue =>
        writeConverted memory timeAddress tickValue invalidArgument

def rtcSetTimeT (timeAddress : UInt64) (timeSeconds : Int64) :
    Except RtcFault Answer :=
  if timeAddress = 0 then .ok (invalidPointer, memory)
  else if timeSeconds < 0 then .ok (invalidValue, memory)
  else
    -- The product and the sum are unchecked.
    writeConverted memory timeAddress
      (unixEpochTicks + timeSeconds.toUInt64 * microsecondsPerSecond)
      invalidValue

def rtcSetWin32FileTime (timeAddress : UInt64) (fileTime : Int64) :
    Except RtcFault Answer :=
  if timeAddress = 0 then .ok (invalidPointer, memory)
  else if fileTime < 0 then .ok (invalidValue, memory)
  else
    writeConverted memory timeAddress
      (win32FileTimeEpochTicks + fileTime.toUInt64 / 10) invalidValue

/-- Checked `long` arithmetic, which fails when the `long` is another number. -/
def checkedLong (value : Int) : Option Int :=
  if (Int64.ofInt value).toInt = value then some value else none

def tickSum (sourceTick : UInt64) (delta : Int64) (microsecondsPerUnit : UInt64) : Option Int := do
  let source ← checkedLong sourceTick.toNat
  let product ← checkedLong (delta.toInt * microsecondsPerUnit.toNat)
  checkedLong (source + product)

def addTickDelta (destinationAddress sourceAddress : UInt64) (delta : Int64)
    (microsecondsPerUnit : UInt64) : Answer :=
  if destinationAddress = 0 ∨ sourceAddress = 0 then (invalidPointer, memory)
  else
    match memory.tryReadUInt64 sourceAddress with
    | none => (memoryFault, memory)
    | some sourceTick =>
        match tickSum sourceTick delta microsecondsPerUnit with
        | none => (invalidValue, memory)
        | some resultTick =>
            if resultTick < 0 then (invalidValue, memory)
            else answerWrite memory (memory.tryWriteUInt64 destinationAddress
                (.ofNat resultTick.toNat))

inductive TickUnit where
  | ticks
  | microseconds
  | seconds
  | minutes
  | hours
  | days
  | weeks
deriving DecidableEq

def TickUnit.length : TickUnit → UInt64
  | .ticks => 1
  | .microseconds => 1
  | .seconds => microsecondsPerSecond
  | .minutes => microsecondsPerMinute
  | .hours => microsecondsPerHour
  | .days => microsecondsPerDay
  | .weeks => microsecondsPerWeek

def rtcTickAdd (unit : TickUnit) (rdi rsi : UInt64) (rdx : Int64) : Answer :=
  addTickDelta memory rdi rsi rdx unit.length

def addCalendarDelta (destinationAddress sourceAddress : UInt64)
    (transform : DateTime → Option DateTime) : Answer :=
  if destinationAddress = 0 ∨ sourceAddress = 0 then (invalidPointer, memory)
  else
    match memory.tryReadUInt64 sourceAddress with
    | none => (memoryFault, memory)
    | some sourceTick =>
        match tryConvertTickToDateTime sourceTick with
        | none => (invalidValue, memory)
        | some sourceDateTime =>
            match transform sourceDateTime with
            | none => (invalidValue, memory)
            | some resultDateTime => answerWrite memory
                (memory.tryWriteUInt64 destinationAddress (.ofNat (resultDateTime.ticks /
                    dateTimeTicksPerMicrosecond)))

def rtcTickAddMonths (rdi rsi : UInt64) (rdx : Int64) : Answer :=
  addCalendarDelta memory rdi rsi (·.addMonths rdx.toInt32.toInt)

def rtcTickAddYears (rdi rsi : UInt64) (rdx : Int64) : Answer :=
  addCalendarDelta memory rdi rsi (·.addYears rdx.toInt32.toInt)

end

end Rtc

end SharpEmu
