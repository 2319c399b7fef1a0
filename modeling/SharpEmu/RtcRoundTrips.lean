import SharpEmu.RtcTickRanges
import SharpEmu.MachineWords

/-!
# Getting what was set

After a tick was set as a date-time, the getters give this tick, as it is and as
Unix and Win32 time.  Setting the tick of a date-time writes the date-time again.
-/

namespace SharpEmu

namespace Rtc

open Addressed

variable {memory after last : GuardedMemory}
variable {timeAddress tickAddress valueAddress otherAddress : UInt64}

theorem refused_ne_ok {code : UInt32} (isError : code ≠ ok) : (code, memory) ≠ (ok, after) :=
  fun same => isError (congrArg Prod.fst same)

theorem eq_some_of_answerWrite {write : Option GuardedMemory}
    (answered : answerWrite memory write = (ok, after)) : write = some after := by
  cases write with
  | none => exact absurd answered (refused_ne_ok (by decide))
  | some written =>
    cases answered
    rfl

theorem rtcSetTick_eq_ok (isSet : rtcSetTick memory timeAddress tickAddress = .ok (ok, after)) :
    timeAddress ≠ 0 ∧ ∃ tick time, memory.tryReadUInt64 tickAddress = some tick ∧
      tryReadRtcDateTime after timeAddress = some time ∧ time.Valid ∧
      tryConvertRtcDateTimeToTick time = tick := by
  unfold rtcSetTick at isSet
  split at isSet
  · exact absurd (Except.ok.inj isSet) (refused_ne_ok (by decide))
  · next notNull =>
    split at isSet
    · exact absurd (Except.ok.inj isSet) (refused_ne_ok (by decide))
    · next tick isTick =>
      refine ⟨fun isNull => notNull (.inl isNull), tick, ?_⟩
      unfold writeConverted at isSet
      rcases Nat.lt_or_ge 922337203685477580 tick.toNat with large | fits
      · rw [tryConvertTickToRtcDateTime_overflow large] at isSet
        cases isSet
      · rcases Nat.lt_or_ge maxSupportedTick tick.toNat with beyond | supported
        · rw [tryConvertTickToRtcDateTime_none beyond fits] at isSet
          exact absurd (Except.ok.inj isSet) (refused_ne_ok (by decide))
        · obtain ⟨time, converts, valid, isSame⟩ :=
            tryConvertTickToRtcDateTime_some supported
          rw [converts] at isSet
          have written := eq_some_of_answerWrite (Except.ok.inj isSet)
          exact ⟨time, isTick, tryReadRtcDateTime_of_write written, valid, isSame⟩

theorem withRtcDateTime_eq_answerWrite {time : RtcDateTime}
    (isRead : tryReadRtcDateTime memory timeAddress = some time)
    (valid : time.Valid) (notNull : ¬(timeAddress = 0 ∨ valueAddress = 0))
    (write : RtcDateTime → Option GuardedMemory) :
    withRtcDateTime memory timeAddress valueAddress write = answerWrite memory (write time) := by
  rw [withRtcDateTime, if_neg notNull, isRead]
  exact if_neg (not_not.mpr (RtcDateTime.validate_eq_ok_iff.mpr valid))

theorem rtcGetTick_eq_ok (isGotten : rtcGetTick memory timeAddress tickAddress = (ok, after)) :
    ∃ time, tryReadRtcDateTime memory timeAddress = some time ∧ time.Valid ∧
      after.tryReadUInt64 tickAddress = some (tryConvertRtcDateTimeToTick time) := by
  unfold rtcGetTick withRtcDateTime at isGotten
  split at isGotten
  · exact absurd isGotten (refused_ne_ok (by decide))
  · split at isGotten
    · exact absurd isGotten (refused_ne_ok (by decide))
    · next time isTime =>
      split at isGotten
      · next invalid => exact absurd isGotten (refused_ne_ok invalid)
      · next valid =>
        have written := eq_some_of_answerWrite isGotten
        exact ⟨time, isTime, RtcDateTime.validate_eq_ok_iff.mp (not_not.mp valid),
          tryReadUInt64_of_tryWriteUInt64 written⟩

/-- The getters see the tick that was set. -/
theorem getters_after_rtcSetTick
    (isSet : rtcSetTick memory timeAddress tickAddress = .ok (ok, after))
    (notNull : valueAddress ≠ 0) :
    ∃ tick, memory.tryReadUInt64 tickAddress = some tick ∧
      rtcGetTick after timeAddress valueAddress =
        answerWrite after (after.tryWriteUInt64 valueAddress tick) ∧
      rtcGetTimeT after timeAddress valueAddress = answerWrite after
        (after.tryWriteUInt64 valueAddress (unixSeconds tick)) ∧
      rtcGetWin32FileTime after timeAddress valueAddress = answerWrite after
        (after.tryWriteUInt64 valueAddress (win32Time tick)) := by
  obtain ⟨timeNotNull, tick, time, isTick, isRead, valid, rfl⟩ :=
    rtcSetTick_eq_ok isSet
  have neither : ¬(timeAddress = 0 ∨ valueAddress = 0) :=
    not_or.mpr ⟨timeNotNull, notNull⟩
  have gets := withRtcDateTime_eq_answerWrite isRead valid neither
  exact ⟨_, isTick, gets _, gets _, gets _⟩

/-- All of it can be written, and it holds 29 February 2024, 23:00, and a tick
of 1998. -/
def calendarMemory : GuardedMemory where
  bytes address := some ((List.lookup address
    [(0x1000, 0xE8), (0x1001, 7), (0x1002, 2), (0x1004, 29), (0x1006, 23), (0x2006, 0xE0)]).getD 0)
  writable _ := true

theorem exists_of_answers_ok {answer : Except RtcFault Answer}
    (isOk : answer.toOption.map Prod.fst = some ok) :
    ∃ after, answer = .ok (ok, after) := by
  rcases answer with _ | ⟨code, after⟩
  · cases isOk
  · cases isOk
    exact ⟨after, rfl⟩

theorem getters_after_rtcSetTick_sample : ∃ after, rtcGetTick after 0x3000 0x4000 =
      answerWrite after (after.tryWriteUInt64 0x4000 0xE0000000000000) := by
  obtain ⟨after, isSet⟩ : ∃ after, rtcSetTick calendarMemory 0x3000 0x2000 = .ok (ok, after) :=
    exists_of_answers_ok (by decide +kernel)
  obtain ⟨tick, isTick, gets, -⟩ :=
    getters_after_rtcSetTick isSet (by decide : (0x4000 : UInt64) ≠ 0)
  have isStored : calendarMemory.tryReadUInt64 0x2000 = some 0xE0000000000000 := by
    decide +kernel
  cases isStored.symm.trans isTick
  exact ⟨after, gets⟩

/-- A date-time whose tick is gotten and set elsewhere is copied. -/
theorem rtcSetTick_after_rtcGetTick
    (isGotten : rtcGetTick memory timeAddress tickAddress = (ok, after))
    (isSet : rtcSetTick after otherAddress tickAddress = .ok (ok, last)) :
    tryReadRtcDateTime last otherAddress =
      tryReadRtcDateTime memory timeAddress := by
  obtain ⟨time, isTime, valid, isTick⟩ := rtcGetTick_eq_ok isGotten
  obtain ⟨-, tick, copy, isRead, isCopy, copyValid, isSame⟩ :=
    rtcSetTick_eq_ok isSet
  rw [isTick] at isRead
  rw [isTime, isCopy, RtcDateTime.eq_of_tick_eq copyValid valid]
  rw [← copyValid.toNat_tick, ← valid.toNat_tick, isSame, Option.some.inj isRead]

theorem rtcSetTick_after_rtcGetTick_leapDay : ∃ last, tryReadRtcDateTime last 0x3000 =
      tryReadRtcDateTime calendarMemory 0x1000 := by
  let gotten := rtcGetTick calendarMemory 0x1000 0x2000
  have isOk : gotten.1 = ok := by decide +kernel
  obtain ⟨last, isSet⟩ : ∃ last, rtcSetTick gotten.2 0x3000 0x2000 = .ok (ok, last) :=
    exists_of_answers_ok (by decide +kernel)
  exact ⟨last, rtcSetTick_after_rtcGetTick (Prod.ext isOk rfl) isSet⟩

end Rtc

end SharpEmu
