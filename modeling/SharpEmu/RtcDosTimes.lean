import SharpEmu.RtcConversions

/-!
# DOS times

A DOS time packs a date-time into 32 bits: seven bits for the year from 1980
on, and the seconds halved.  For the years that fit, setting the packed time
gives the date-time at even seconds; for the others the packed year wraps and
nothing is refused.
-/

namespace SharpEmu

namespace Rtc

open Addressed

/-! ## Packing and unpacking -/

variable {shift : UInt32}

theorem toNat_or_shiftLeft {lower field : UInt32} {low value : Nat}
    (bits : Nat) (isShift : shift.toNat = bits) (isLow : lower.toNat = low)
    (isField : field.toNat = value) (bitsLt : bits < 32)
    (lowLt : low < 2 ^ bits) (fits : value * 2 ^ bits < 2 ^ 32) :
    (lower ||| field <<< shift).toNat = low + value * 2 ^ bits := by
  rw [UInt32.toNat_or, UInt32.toNat_shiftLeft, isShift, isLow, isField,
    Nat.mod_eq_of_lt bitsLt, Nat.shiftLeft_eq, Nat.mod_eq_of_lt fits,
    Nat.or_comm, ← Nat.shiftLeft_eq, ← Nat.shiftLeft_add_eq_or_of_lt lowLt,
    Nat.shiftLeft_eq, Nat.add_comm]

theorem toNat_and_mask (value : UInt16) (bits : Nat) {mask : UInt16}
    (isMask : mask.toNat = 2 ^ bits - 1) :
    (value &&& mask).toUInt32.toNat = value.toNat % 2 ^ bits := by
  rw [UInt16.toNat_toUInt32, UInt16.toNat_and, isMask, Nat.and_two_pow_sub_one_eq_mod]

variable {time : RtcDateTime}

theorem toNat_dosTimeOf (valid : time.Valid) : (dosTimeOf time).toNat =
      time.second.toNat / 2 + time.minute.toNat * 2 ^ 5 +
        time.hour.toNat * 2 ^ 11 + time.day.toNat * 2 ^ 16 +
        time.month.toNat * 2 ^ 21 +
        (time.year.toNat + 68) % 128 * 2 ^ 25 := by
  have monthLe := valid.date.month_le
  have dayLe := valid.date.day_le_31
  obtain ⟨-, -, hourLe, minuteLe, secondLe, -⟩ := valid
  simp only [RtcDateTime.date] at monthLe dayLe
  have second : (time.second / 2 &&& 0x1F).toUInt32.toNat = time.second.toNat / 2 := by
    rw [toNat_and_mask _ 5 rfl, UInt16.toNat_div]
    change time.second.toNat / 2 % 32 = _
    omega
  have minute : (time.minute &&& 0x3F).toUInt32.toNat = time.minute.toNat := by
    rw [toNat_and_mask _ 6 rfl]
    omega
  have hour : (time.hour &&& 0x1F).toUInt32.toNat = time.hour.toNat := by
    rw [toNat_and_mask _ 5 rfl]
    omega
  have day : (time.day &&& 0x1F).toUInt32.toNat = time.day.toNat := by
    rw [toNat_and_mask _ 5 rfl]
    omega
  have month : (time.month &&& 0x0F).toUInt32.toNat = time.month.toNat := by
    rw [toNat_and_mask _ 4 rfl]
    omega
  have year : ((time.year.toUInt32 - 1980) &&& 0x7F).toNat = (time.year.toNat + 68) % 128 := by
    rw [UInt32.toNat_and, UInt32.toNat_sub, UInt16.toNat_toUInt32]
    change _ &&& (2 ^ 7 - 1) = _
    rw [Nat.and_two_pow_sub_one_eq_mod]
    simp only [UInt32.reduceToNat]
    omega
  have minutes := toNat_or_shiftLeft 5 (show (5 : UInt32).toNat = 5 from rfl)
    second minute (by omega)
    (by omega) (by omega)
  have hours := toNat_or_shiftLeft 11 (show (11 : UInt32).toNat = 11 from rfl)
    minutes hour (by omega)
    (by omega) (by omega)
  have days := toNat_or_shiftLeft 16 (show (16 : UInt32).toNat = 16 from rfl)
    hours day (by omega) (by omega)
    (by omega)
  have months := toNat_or_shiftLeft 21 (show (21 : UInt32).toNat = 21 from rfl)
    days month (by omega) (by omega)
    (by omega)
  exact toNat_or_shiftLeft 25 (show (25 : UInt32).toNat = 25 from rfl)
    months year (by omega) (by omega) (by omega)

def RtcDateTime.evenSecond (time : RtcDateTime) : RtcDateTime :=
  { time with second := time.second / 2 * 2, microsecond := 0 }

theorem toNat_unpacked (value : UInt32) {mask : UInt32} (start bits : Nat)
    (isShift : shift.toNat = start) (startLt : start < 32)
    (isMask : mask.toNat = 2 ^ bits - 1) (bitsLe : bits ≤ 16) :
    ((value >>> shift) &&& mask).toUInt16.toNat = value.toNat / 2 ^ start % 2 ^ bits := by
  have small : value.toNat / 2 ^ start % 2 ^ bits < 2 ^ 16 :=
    Nat.lt_of_lt_of_le (Nat.mod_lt _ (Nat.two_pow_pos bits))
      (Nat.pow_le_pow_right (by omega) bitsLe)
  rw [UInt32.toNat_toUInt16, UInt32.toNat_and, UInt32.toNat_shiftRight,
    isShift, isMask, Nat.and_two_pow_sub_one_eq_mod,
    Nat.mod_eq_of_lt startLt, Nat.shiftRight_eq_div_pow,
    Nat.mod_eq_of_lt small]

theorem toNat_unpackedSecond (value : UInt32) :
    ((value <<< 1) &&& 0x3E).toUInt16.toNat = value.toNat % 32 * 2 := by
  have masked : (value <<< 1) &&& (0x3E : UInt32) = (value &&& 0x1F) <<< (1 : UInt32) := by
    rw [UInt32.shiftLeft_and]
    rfl
  have low : (value &&& 0x1F).toNat = value.toNat % 32 := by
    rw [UInt32.toNat_and]
    exact Nat.and_two_pow_sub_one_eq_mod _ 5
  rw [masked, UInt32.toNat_toUInt16, UInt32.toNat_shiftLeft, low]
  change (value.toNat % 32) <<< 1 % 2 ^ 32 % 2 ^ 16 = _
  rw [Nat.shiftLeft_eq]
  omega

theorem toNat_unpackedYear (value : UInt32) :
    ((1980 : UInt32) + ((value >>> 25) &&& 0x7F)).toUInt16.toNat =
      1980 + value.toNat / 2 ^ 25 % 2 ^ 7 := by
  have low : ((value >>> 25) &&& 0x7F).toNat = value.toNat / 2 ^ 25 % 2 ^ 7 := by
    rw [UInt32.toNat_and, UInt32.toNat_shiftRight]
    change value.toNat >>> 25 &&& (2 ^ 7 - 1) = _
    rw [Nat.and_two_pow_sub_one_eq_mod, Nat.shiftRight_eq_div_pow]
  rw [UInt32.toNat_toUInt16, UInt32.toNat_add, low]
  simp only [UInt32.reduceToNat]
  omega

theorem timeOfDos_dosTimeOf (valid : time.Valid) : timeOfDos (dosTimeOf time) =
      { time.evenSecond with
        year := .ofNat (1980 + (time.year.toNat + 68) % 128) } := by
  have monthLe := valid.date.month_le
  have dayLe := valid.date.day_le_31
  have packed := toNat_dosTimeOf valid
  obtain ⟨-, -, hourLe, minuteLe, secondLe, -⟩ := valid
  simp only [RtcDateTime.date] at monthLe dayLe
  generalize dosTimeOf time = dosTime at *
  apply RtcDateTime.ext_toNat
  · unfold timeOfDos RtcDateTime.date RtcDateTime.evenSecond
    dsimp only
    rw [toNat_unpackedYear, toNat_unpacked dosTime 21 4 rfl (by omega) rfl
      (by omega), toNat_unpacked dosTime 16 5 rfl (by omega) rfl (by omega),
      UInt16.toNat_ofNat', Gregorian.Date.mk.injEq]
    omega
  · unfold timeOfDos RtcDateTime.evenSecond
    dsimp only
    rw [toNat_unpacked dosTime 11 5 rfl (by omega) rfl (by omega)]
    omega
  · unfold timeOfDos RtcDateTime.evenSecond
    dsimp only
    rw [toNat_unpacked dosTime 5 6 rfl (by omega) rfl (by omega)]
    omega
  · unfold timeOfDos RtcDateTime.evenSecond
    dsimp only
    rw [toNat_unpackedSecond, UInt16.toNat_mul, UInt16.toNat_div]
    simp only [UInt16.reduceToNat]
    omega
  · rfl

/-- Packing is faithful exactly for the years of seven bits. -/
theorem timeOfDos_eq_evenSecond_iff (valid : time.Valid) :
    timeOfDos (dosTimeOf time) = time.evenSecond ↔
      1980 ≤ time.year.toNat ∧ time.year.toNat ≤ 2107 := by
  have yearPos := valid.date.year_pos
  have yearLe := valid.year_le
  simp only [RtcDateTime.date] at yearPos
  rw [timeOfDos_dosTimeOf valid]
  constructor
  · intro same
    have sameYear := congrArg (fun time => time.year.toNat) same
    simp only [RtcDateTime.evenSecond, UInt16.toNat_ofNat'] at sameYear
    omega
  · intro inRange
    have sameYear : UInt16.ofNat (1980 + (time.year.toNat + 68) % 128) =
        time.year := by
      apply UInt16.toNat_inj.mp
      rw [UInt16.toNat_ofNat']
      omega
    rw [sameYear]
    rfl

/-! ## The exports -/

/-- Getting the DOS time of a date-time in memory answers an error and leaves
memory alone, or writes a DOS time that sets the date-time at even seconds. -/
def DosTimeRoundTrips (time : RtcDateTime) : Prop :=
  ∀ (memory : GuardedMemory) (timeAddress dosTimeAddress : UInt64),
    tryReadRtcDateTime memory timeAddress = some time →
    (∃ code ≠ ok, rtcGetDosTime memory timeAddress dosTimeAddress = (code, memory)) ∨
    ∃ dosTime after, rtcGetDosTime memory timeAddress dosTimeAddress = (ok, after) ∧
      memory.tryWriteUInt32 dosTimeAddress dosTime = some after ∧
      ∀ (target : GuardedMemory) (address : UInt64), address ≠ 0 → target.CanWrite address 16 →
        ∃ final, rtcSetDosTime target address dosTime.toUInt64 = (ok, final) ∧
          tryReadRtcDateTime final address = some time.evenSecond

variable {address : UInt64}

theorem rtcSetDosTime_of_canWrite {target : GuardedMemory}
    (nonzero : address ≠ 0) (writable : target.CanWrite address 16)
    (dosTime : UInt32) :
    ∃ final, rtcSetDosTime target address dosTime.toUInt64 = (ok, final) ∧
      tryReadRtcDateTime final address = some (timeOfDos dosTime) := by
  obtain ⟨final, written⟩ := Option.isSome_iff_exists.mp (isSome_tryWriteRtcDateTime.mpr writable)
  refine ⟨final, ?_, tryReadRtcDateTime_of_write written⟩
  rw [rtcSetDosTime, if_neg nonzero, UInt32.toUInt32_toUInt64, written]
  rfl

theorem eq_of_tryWriteUInt32_eq {memory after : GuardedMemory} {first second : UInt32}
    (firstWritten : memory.tryWriteUInt32 address first = some after)
    (secondWritten : memory.tryWriteUInt32 address second = some after) :
    first = second := by
  have stored {value : UInt32} (written : memory.tryWriteUInt32 address value = some after) :
      storeBytes memory.bytes address (bytesOf 4 value.toNat) =
        after.bytes := by
    unfold GuardedMemory.tryWriteUInt32 GuardedMemory.tryWrite Addressed.tryWrite at written
    split at written
    · split at written
      · cases written
        rfl
      · cases written
    · cases written
  have sameBytes := eq_of_storeBytes_eq (by simp) (by simp)
    ((stored firstWritten).trans (stored secondWritten).symm)
  rw [← wordOf_four first, sameBytes, wordOf_four]

def openMemory : GuardedMemory := ⟨fun _ => some 0, fun _ => true⟩

theorem canWrite_openMemory (address : UInt64) (count : Nat) : openMemory.CanWrite address count :=
  fun _ _ => ⟨rfl, rfl⟩

theorem exists_memory_of_time (time : RtcDateTime) : ∃ memory : GuardedMemory,
      tryReadRtcDateTime memory 0x1000 = some time ∧
        ∀ dosTime, (memory.tryWriteUInt32 0x2000 dosTime).isSome := by
  obtain ⟨memory, written⟩ := Option.isSome_iff_exists.mp
    (isSome_tryWriteRtcDateTime.mpr (canWrite_openMemory 0x1000 16))
  refine ⟨memory, tryReadRtcDateTime_of_write written, ?_⟩
  intro dosTime
  have access := GuardedMemory.sameAccess_of_tryWrite written
  rw [GuardedMemory.tryWriteUInt32, GuardedMemory.isSome_tryWrite, access.canWrite_iff]
  exact canWrite_openMemory 0x2000 _

theorem evenSecond_of_roundTrips (valid : validateRtcDateTime time = ok)
    (roundTrips : DosTimeRoundTrips time) :
    timeOfDos (dosTimeOf time) = time.evenSecond := by
  obtain ⟨memory, stored, writable⟩ := exists_memory_of_time time
  obtain ⟨packed, written⟩ :=
    Option.isSome_iff_exists.mp (writable (dosTimeOf time))
  have answered : rtcGetDosTime memory 0x1000 0x2000 = (ok, packed) := by
    rw [rtcGetDosTime, withRtcDateTime, if_neg (by decide), stored]
    dsimp only
    rw [if_neg (not_not.mpr valid), written]
    rfl
  rcases roundTrips memory 0x1000 0x2000 stored with
    ⟨code, isError, refused⟩ | ⟨dosTime, after, isAnswer, isWritten, sets⟩
  · rw [answered] at refused
    exact absurd (congrArg Prod.fst refused).symm isError
  · rw [answered] at isAnswer
    cases isAnswer
    have sameDosTime := eq_of_tryWriteUInt32_eq isWritten written
    obtain ⟨final, isSet, isRead⟩ := sets openMemory 0x3000 (by decide) (canWrite_openMemory _ _)
    obtain ⟨other, isOther, otherRead⟩ := rtcSetDosTime_of_canWrite
      (show (0x3000 : UInt64) ≠ 0 by decide)
      (canWrite_openMemory 0x3000 16) dosTime
    rw [isSet] at isOther
    cases isOther
    rw [isRead, sameDosTime] at otherRead
    exact (Option.some.inj otherRead).symm

/-- Every valid date-time round trips through its DOS time exactly for the
years from 1980 to 2107. -/
theorem dosTime_round_trips_iff {time : RtcDateTime} (valid : validateRtcDateTime time = ok) :
    DosTimeRoundTrips time ↔ 1980 ≤ time.year.toNat ∧ time.year.toNat ≤ 2107 := by
  rw [← timeOfDos_eq_evenSecond_iff (RtcDateTime.validate_eq_ok_iff.mp valid)]
  constructor
  · exact evenSecond_of_roundTrips valid
  · intro faithful memory timeAddress dosTimeAddress stored
    unfold rtcGetDosTime withRtcDateTime
    by_cases isNull : timeAddress = 0 ∨ dosTimeAddress = 0
    · exact .inl ⟨invalidPointer, by decide, if_pos isNull⟩
    · rw [if_neg isNull, stored]
      dsimp only
      rw [if_neg (not_not.mpr valid)]
      cases written : memory.tryWriteUInt32 dosTimeAddress (dosTimeOf time) with
      | none => exact .inl ⟨memoryFault, by decide, rfl⟩
      | some after =>
        refine .inr ⟨dosTimeOf time, after, rfl, written, ?_⟩
        intro target address nonzero writable
        obtain ⟨final, isSet, isRead⟩ :=
          rtcSetDosTime_of_canWrite nonzero writable (dosTimeOf time)
        exact ⟨final, isSet, by rw [isRead, faithful]⟩

def noon2026 : RtcDateTime := ⟨2026, 2, 28, 12, 0, 1, 5⟩

theorem dosTime_round_trips_noon2026 : DosTimeRoundTrips noon2026 ↔
      1980 ≤ noon2026.year.toNat ∧ noon2026.year.toNat ≤ 2107 :=
  dosTime_round_trips_iff (by decide)

/-- The last day of 1979. -/
def newYearsEve1979 : RtcDateTime := ⟨1979, 12, 31, 0, 0, 0, 0⟩

/-- It is packed as the last day of 2107. -/
theorem newYearsEve1979_does_not_round_trip : validateRtcDateTime newYearsEve1979 = ok ∧
      dosTimeOf newYearsEve1979 = 0xFF9F0000 ∧
      timeOfDos 0xFF9F0000 = ⟨2107, 12, 31, 0, 0, 0, 0⟩ ∧
      ¬ DosTimeRoundTrips newYearsEve1979 := by
  refine ⟨by decide, by decide, by decide, ?_⟩
  intro roundTrips
  have faithful := evenSecond_of_roundTrips (by decide) roundTrips
  revert faithful
  decide

end Rtc

end SharpEmu
