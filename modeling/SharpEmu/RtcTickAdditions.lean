import SharpEmu.RtcTickRanges

/-!
# The sums of the clock's additions

A tick addition writes the exact sum whenever it fits a `long`, also where no
date-time has it.  A calendar addition counts whole months from the date of its
tick; the months themselves are the low half of the argument.
-/

namespace SharpEmu

namespace Rtc

open Addressed

variable {memory : GuardedMemory}

/-! ## Tick sums -/

theorem checkedLong_of_inRange {value : Int} (lower : -2 ^ 63 ≤ value)
    (upper : value < 2 ^ 63) : checkedLong value = some value :=
  if_pos (Int64.toInt_ofInt_of_le lower upper)

theorem checkedLong_eq_some {value result : Int} (isSome : checkedLong value = some result) :
    result = value ∧ value < 2 ^ 63 := by
  unfold checkedLong at isSome
  split at isSome
  · next isLong =>
    cases isSome
    refine ⟨rfl, ?_⟩
    rw [← isLong]
    exact Int64.toInt_lt _
  · cases isSome

theorem tickSum_of_fits {tick : UInt64} {delta : Int64} {unit : UInt64}
    (tickLt : tick.toNat < 2 ^ 63)
    (nonneg : 0 ≤ tick.toNat + delta.toInt * unit.toNat)
    (sumLt : tick.toNat + delta.toInt * unit.toNat < 2 ^ 63) :
    tickSum tick delta unit = some (tick.toNat + delta.toInt * unit.toNat) := by
  unfold tickSum
  generalize delta.toInt * unit.toNat = product at *
  rw [checkedLong_of_inRange (by omega) (by omega), checkedLong_of_inRange (by omega) (by omega)]
  exact checkedLong_of_inRange (by omega) sumLt

theorem tickSum_eq_some {tick : UInt64} {delta : Int64} {unit : UInt64}
    {sum : Int} (isSome : tickSum tick delta unit = some sum) :
    tick.toNat < 2 ^ 63 ∧ sum = tick.toNat + delta.toInt * unit.toNat ∧ sum < 2 ^ 63 := by
  unfold tickSum at isSome
  obtain ⟨source, isSource, isSome⟩ := Option.bind_eq_some_iff.mp isSome
  obtain ⟨product, isProduct, isSome⟩ := Option.bind_eq_some_iff.mp isSome
  obtain ⟨rfl, sourceLt⟩ := checkedLong_eq_some isSource
  obtain ⟨rfl, -⟩ := checkedLong_eq_some isProduct
  obtain ⟨rfl, sumLt⟩ := checkedLong_eq_some isSome
  exact ⟨by omega, rfl, sumLt⟩

section TickDelta

variable {destinationAddress sourceAddress tick : UInt64} {delta : Int64}
  {unit : UInt64}

theorem addTickDelta_of_sum {sum : Int} (notNull : ¬(destinationAddress = 0 ∨ sourceAddress = 0))
    (isRead : memory.tryReadUInt64 sourceAddress = some tick)
    (isSum : tickSum tick delta unit = some sum) (nonneg : 0 ≤ sum) :
    addTickDelta memory destinationAddress sourceAddress delta unit =
      answerWrite memory (memory.tryWriteUInt64 destinationAddress (.ofNat sum.toNat)) := by
  unfold addTickDelta
  rw [if_neg notNull, isRead]
  dsimp only
  rw [isSum]
  dsimp only
  rw [if_neg (Int.not_lt.mpr nonneg)]

theorem addTickDelta_of_no_sum (notNull : ¬(destinationAddress = 0 ∨ sourceAddress = 0))
    (isRead : memory.tryReadUInt64 sourceAddress = some tick)
    (noSum : ∀ sum, tickSum tick delta unit = some sum → sum < 0) :
    addTickDelta memory destinationAddress sourceAddress delta unit = (invalidValue, memory) := by
  unfold addTickDelta
  rw [if_neg notNull, isRead]
  dsimp only
  cases isSum : tickSum tick delta unit with
  | none => rfl
  | some sum =>
    dsimp only
    rw [if_pos (noSum sum isSum)]

end TickDelta

theorem exists_time_of_tick_iff {tick : UInt64} : (∃ time, validateRtcDateTime time = ok ∧
      tryConvertRtcDateTimeToTick time = tick) ↔
      tick.toNat ≤ maxSupportedTick := by
  constructor
  · rintro ⟨time, isOk, rfl⟩
    have valid := RtcDateTime.validate_eq_ok_iff.mp isOk
    rw [valid.toNat_tick]
    exact valid.tick_le
  · intro supported
    obtain ⟨time, -, valid, isTick⟩ :=
      tryConvertTickToRtcDateTime_some supported
    exact ⟨time, RtcDateTime.validate_eq_ok_iff.mpr valid, isTick⟩

theorem writes_sum_iff (address : UInt64) {sum : Int} (nonneg : 0 ≤ sum) (sumLt : sum < 2 ^ 63) :
    (∀ after, memory.tryWriteUInt64 address (.ofNat sum.toNat) = some after →
        ∃ time, validateRtcDateTime time = ok ∧
          memory.tryWriteUInt64 address (tryConvertRtcDateTimeToTick time) = some after ∧
          ((tryConvertRtcDateTimeToTick time).toNat : Int) = sum) ↔
      (memory.CanWrite address 8 → sum ≤ maxSupportedTick) := by
  have isNat : (UInt64.ofNat sum.toNat).toNat = sum.toNat := by
    rw [UInt64.toNat_ofNat']
    exact Nat.mod_eq_of_lt (by omega)
  constructor
  · intro wanted writable
    have isWritten : (memory.tryWriteUInt64 address (.ofNat sum.toNat)).isSome :=
      isSome_tryWriteUInt64.mpr writable
    obtain ⟨after, written⟩ := Option.isSome_iff_exists.mp isWritten
    obtain ⟨time, isOk, -, isSum⟩ := wanted after written
    have supported := exists_time_of_tick_iff.mp ⟨time, isOk, rfl⟩
    omega
  · intro supported after written
    have writable : memory.CanWrite address 8 :=
      isSome_tryWriteUInt64.mp (by rw [written]; rfl)
    have sumLe : (UInt64.ofNat sum.toNat).toNat ≤ maxSupportedTick := by
      have := supported writable
      omega
    obtain ⟨time, isOk, isTick⟩ := exists_time_of_tick_iff.mpr sumLe
    refine ⟨time, isOk, ?_, ?_⟩
    · rw [isTick]
      exact written
    · rw [isTick, isNat]
      exact Int.toNat_of_nonneg nonneg

theorem meets_tickAdd_iff (unit : TickUnit)
    (destinationAddress sourceAddress : UInt64) (delta : Int64) :
    (Call.tickAdd unit destinationAddress sourceAddress delta).Meets memory ↔
      (Call.tickAdd unit destinationAddress sourceAddress delta).Admissible
        memory := by
  unfold Call.Meets Call.perform Call.Admissible rtcTickAdd Call.Writes
  dsimp only
  by_cases isNull : destinationAddress = 0 ∨ sourceAddress = 0
  · rw [addTickDelta, if_pos isNull]
    exact iff_of_true (judged_refused (by decide)) (or_assoc.mp (.inl isNull))
  rw [← or_assoc, or_iff_right isNull]
  cases isRead : memory.tryReadUInt64 sourceAddress with
  | none =>
    rw [addTickDelta, if_neg isNull, isRead]
    exact iff_of_true (judged_refused (by decide)) fun tick isTick => by
      cases isTick
  | some tick =>
    simp only [Option.some.injEq, forall_eq']
    by_cases fits : tick.toNat < 2 ^ 63 ∧ 0 ≤ tick.toNat + delta.toInt * unit.length.toNat ∧
        tick.toNat + delta.toInt * unit.length.toNat < 2 ^ 63
    · have isSum := tickSum_of_fits fits.1 fits.2.1 fits.2.2
      rw [addTickDelta_of_sum isNull isRead isSum fits.2.1, judged_answerWrite_iff]
      constructor
      · intro wanted _ _ _
        apply (writes_sum_iff destinationAddress fits.2.1 fits.2.2).mp
        intro after written
        obtain ⟨_, time, rfl, isTime⟩ := wanted after written
        exact ⟨time, isTime⟩
      · intro supported after written
        obtain ⟨time, isTime⟩ :=
          (writes_sum_iff destinationAddress fits.2.1 fits.2.2).mpr
            (supported fits.1 fits.2.1 fits.2.2) after written
        exact ⟨tick, time, rfl, isTime⟩
    · have noSum : ∀ sum, tickSum tick delta unit.length = some sum → sum < 0 := by
        intro sum isSum
        obtain ⟨tickLt, rfl, sumLt⟩ := tickSum_eq_some isSum
        by_contra nonneg
        exact fits ⟨tickLt, Int.not_lt.mp nonneg, sumLt⟩
      rw [addTickDelta_of_no_sum isNull isRead noSum]
      exact iff_of_true (judged_refused (by decide))
        fun tickLt nonneg sumLt => absurd ⟨tickLt, nonneg, sumLt⟩ fits

end Rtc

end SharpEmu
