import Mathlib.Algebra.Order.Field.Basic
import Mathlib.Algebra.Order.Field.Rat
import Mathlib.Tactic.Positivity
import SharpEmu.HalfRounding

/-!
# Half precision

The values of both formats as rational numbers.  Narrowing gives the nearest
half-precision number with ties to even, or infinity from the middle between the
largest one and the next power of two on, and widening can be undone.
-/

namespace SharpEmu.Gen5Spirv

open Spirv NearestEven

/-! ## Formats -/

def signed (negative : ℕ) (magnitude : ℚ) : ℚ :=
  if negative = 0 then magnitude else -magnitude

def magnitude32 (bits : Word) : ℕ := bits.toNat % 2 ^ 31

def IsNan32 (bits : Word) : Prop := 0x7F800000 < magnitude32 bits

def IsInfinite32 (bits : Word) : Prop := magnitude32 bits = 0x7F800000

def IsFinite32 (bits : Word) : Prop := magnitude32 bits < 0x7F800000

def value32 (bits : Word) : ℚ :=
  signed (bits.toNat / 2 ^ 31) (units 23 (magnitude32 bits) / 2 ^ 149)

def magnitude16 (half : Word) : ℕ := half.toNat % 2 ^ 15

def IsNan16 (half : Word) : Prop := 0x7C00 < magnitude16 half

def IsInfinite16 (half : Word) : Prop := magnitude16 half = 0x7C00

def IsFinite16 (half : Word) : Prop := magnitude16 half < 0x7C00

def value16 (half : Word) : ℚ :=
  signed (half.toNat / 2 ^ 15 % 2) (units 10 (magnitude16 half) / 2 ^ 24)

/-- A half-precision number is the one that a number is rounded to. -/
structure Narrows (bits half : Word) : Prop where
  sign : half.toNat / 2 ^ 15 = bits.toNat / 2 ^ 31
  nan : IsNan32 bits → IsNan16 half
  infinite : IsInfinite32 bits → IsInfinite16 half
  overflow : IsFinite32 bits → 65520 ≤ |value32 bits| → IsInfinite16 half
  finite : IsFinite32 bits → |value32 bits| < 65520 → IsFinite16 half
  nearest : IsFinite32 bits → |value32 bits| < 65520 →
    ∀ other, IsFinite16 other →
      |value32 bits - value16 half| ≤ |value32 bits - value16 other| ∧
        (|value32 bits - value16 half| = |value32 bits - value16 other| →
          value16 other = value16 half ∨ half.toNat % 2 = 0)

/-! ## Magnitudes -/

variable {absolute : ℕ}

theorem units_of_exponent (pos : 1 ≤ absolute / 2 ^ 23) : units 23 absolute =
      (2 ^ 23 + absolute % 2 ^ 23) * 2 ^ (absolute / 2 ^ 23 - 1) := by
  have isAbsolute : (absolute / 2 ^ 23 - 1 + 1) * 2 ^ 23 + absolute % 2 ^ 23 =
      absolute := by
    omega
  have mantissaLt := Nat.mod_lt absolute (Nat.two_pow_pos 23)
  calc units 23 absolute = units 23 ((absolute / 2 ^ 23 - 1 + 1) * 2 ^ 23 +
          absolute % 2 ^ 23) := by rw [isAbsolute]
    _ = _ := units_eq mantissaLt

structure Spaced (absolute exponent : ℕ) : Prop where
  isUnits : units 10 (narrowed absolute) * 2 ^ 125 =
    roundShift (units 23 absolute) (exponent + 125) * 2 ^ (exponent + 125)
  isEven : roundShift (units 23 absolute) (exponent + 125) % 2 = 0 →
    narrowed absolute % 2 = 0
  isNormal : exponent = 0 ∨ 2 ^ (10 + exponent + 125) ≤ units 23 absolute

variable {rounded : ℕ}

theorem units_rounded (bound : rounded ≤ 2 ^ 10) : units 10 rounded = rounded := by
  rcases bound.lt_or_eq with small | rfl
  · exact units_of_lt small
  · rfl

theorem roundShift_subnormal (small : absolute / 2 ^ 23 ≤ 112) :
    roundShift (2 ^ 23 + absolute % 2 ^ 23) (min 25 (126 - absolute / 2 ^ 23)) =
      roundShift (units 23 absolute) 125 := by
  have restLt := Nat.mod_lt absolute (Nat.two_pow_pos 23)
  by_cases isZero : absolute / 2 ^ 23 = 0
  · have isSmall : absolute < 2 ^ 23 := by omega
    rw [isZero, units_of_lt isSmall, roundShift_eq_zero, roundShift_eq_zero]
    · exact lt_of_lt_of_le (by omega : 2 * absolute < 2 ^ 24)
        (Nat.pow_le_pow_right (by decide) (by decide))
    · change 2 * (2 ^ 23 + absolute % 2 ^ 23) < 2 ^ 25
      omega
  · rw [units_of_exponent (by omega)]
    by_cases near : 101 ≤ absolute / 2 ^ 23
    · have isCount : 125 = min 25 (126 - absolute / 2 ^ 23) + (absolute / 2 ^ 23 - 1) := by
        omega
      rw [isCount, roundShift_mul_pow]
    · have isMin : min 25 (126 - absolute / 2 ^ 23) = 25 := by omega
      rw [isMin, roundShift_eq_zero (by omega), roundShift_eq_zero]
      calc 2 * ((2 ^ 23 + absolute % 2 ^ 23) * 2 ^ (absolute / 2 ^ 23 - 1))
          < 2 * (2 ^ 24 * 2 ^ (absolute / 2 ^ 23 - 1)) := by
            apply Nat.mul_lt_mul_of_pos_left _ (by decide)
            exact Nat.mul_lt_mul_of_pos_right (by omega) (Nat.two_pow_pos _)
        _ ≤ 2 * (2 ^ 24 * 2 ^ 100) := by
            apply Nat.mul_le_mul_left
            apply Nat.mul_le_mul_left
            exact Nat.pow_le_pow_right (by decide) (by omega)
        _ ≤ 2 ^ 125 := by decide

theorem units_of_rounded {exponent : ℕ} (above : 2 ^ 10 ≤ rounded) (below : rounded ≤ 2 ^ 11) :
    units 10 ((exponent + 1) * 2 ^ 10 + (rounded - 2 ^ 10)) = rounded * 2 ^ exponent := by
  rcases below.lt_or_eq with small | rfl
  · rw [units_eq (by omega), Nat.add_sub_cancel' above]
  · have isNext : (exponent + 1) * 2 ^ 10 + (2 ^ 11 - 2 ^ 10) =
        (exponent + 1 + 1) * 2 ^ 10 + 0 := by
      omega
    rw [isNext, units_eq (by decide), pow_succ]
    ring

theorem exists_spaced (finite : absolute < 0x7F800000) (noOverflow : narrowed absolute < 0x7C00) :
    ∃ exponent, Spaced absolute exponent := by
  have restLt := Nat.mod_lt absolute (Nat.two_pow_pos 23)
  have isNarrowed := narrowed_of_finite finite
  by_cases subnormal : absolute / 2 ^ 23 ≤ 112
  · rw [if_pos subnormal, roundShift_subnormal subnormal] at isNarrowed
    have bound : roundShift (units 23 absolute) 125 ≤ 2 ^ 10 := by
      rw [← roundShift_subnormal subnormal]
      exact roundShift_subnormal_le subnormal
    refine ⟨0, ?_, ?_, .inl rfl⟩
    · rw [isNarrowed, units_rounded bound, Nat.zero_add]
    · rw [isNarrowed, Nat.zero_add]
      exact id
  · rw [if_neg subnormal] at isNarrowed
    have isExponent : absolute / 2 ^ 23 - 113 + 125 = 13 + (absolute / 2 ^ 23 - 1) := by
      omega
    have isRounded : roundShift (units 23 absolute) (absolute / 2 ^ 23 - 113 + 125) =
          roundShift (2 ^ 23 + absolute % 2 ^ 23) 13 := by
      rw [units_of_exponent (by omega), isExponent, roundShift_mul_pow]
    have above := le_roundShift (2 ^ 23 + absolute % 2 ^ 23) 13
    have below := roundShift_le (2 ^ 23 + absolute % 2 ^ 23) 13
    refine ⟨absolute / 2 ^ 23 - 113, ?_, ?_, .inr ?_⟩
    · have isMagnitude : narrowed absolute = (absolute / 2 ^ 23 - 113 + 1) * 2 ^ 10 +
            (roundShift (2 ^ 23 + absolute % 2 ^ 23) 13 - 2 ^ 10) := by
        omega
      rw [isRounded, isMagnitude, units_of_rounded (by omega) (by omega), Nat.mul_assoc, ← pow_add]
    · rw [isRounded]
      omega
    · rw [units_of_exponent (by omega)]
      calc 2 ^ (10 + (absolute / 2 ^ 23 - 113) + 125) = 2 ^ 23 * 2 ^ (absolute / 2 ^ 23 - 1) := by
            rw [← pow_add]
            congr 1
            omega
        _ ≤ _ := Nat.mul_le_mul_right _ (Nat.le_add_right _ _)

theorem narrowed_nearest (finite : absolute < 0x7F800000)
    (noOverflow : narrowed absolute < 0x7C00) (pattern : ℕ) :
    distance (units 23 absolute) (units 10 (narrowed absolute) * 2 ^ 125) ≤
        distance (units 23 absolute) (units 10 pattern * 2 ^ 125) ∧
      (distance (units 23 absolute) (units 10 (narrowed absolute) * 2 ^ 125) =
          distance (units 23 absolute) (units 10 pattern * 2 ^ 125) →
        units 10 pattern * 2 ^ 125 = units 10 (narrowed absolute) * 2 ^ 125 ∨
          narrowed absolute % 2 = 0) := by
  obtain ⟨exponent, spaced⟩ := exists_spaced finite noOverflow
  obtain ⟨isNearest, tie⟩ := units_nearest spaced.isNormal pattern
  rw [spaced.isUnits]
  exact ⟨isNearest, fun same => (tie same).imp_right spaced.isEven⟩

theorem narrowed_lt_iff (finite : absolute < 0x7F800000) :
    narrowed absolute < 0x7C00 ↔ units 23 absolute < 65520 * 2 ^ 149 := by
  have restLt := Nat.mod_lt absolute (Nat.two_pow_pos 23)
  rw [narrowed_of_finite finite]
  have above := le_roundShift (2 ^ 23 + absolute % 2 ^ 23) 13
  have below := roundShift_le (2 ^ 23 + absolute % 2 ^ 23) 13
  rcases Nat.lt_trichotomy (absolute / 2 ^ 23) 142 with less | isLast | greater
  · apply iff_of_true
    · split
      · next subnormal =>
        exact lt_of_le_of_lt (roundShift_subnormal_le subnormal) (by decide)
      · omega
    · by_cases isZero : absolute / 2 ^ 23 = 0
      · rw [units_of_lt (by omega : absolute < 2 ^ 23)]
        exact lt_of_lt_of_le (by omega : absolute < 2 ^ 24) (by decide)
      · rw [units_of_exponent (by omega)]
        calc (2 ^ 23 + absolute % 2 ^ 23) * 2 ^ (absolute / 2 ^ 23 - 1)
            < 2 ^ 24 * 2 ^ (absolute / 2 ^ 23 - 1) :=
              Nat.mul_lt_mul_of_pos_right (by omega) (Nat.two_pow_pos _)
          _ ≤ 2 ^ 24 * 2 ^ 140 :=
              Nat.mul_le_mul_left _ (Nat.pow_le_pow_right (by decide) (by omega))
          _ ≤ 65520 * 2 ^ 149 := by decide
  · have isScale : 65520 * 2 ^ 149 = 16773120 * 2 ^ 141 := by decide
    rw [units_of_exponent (by omega), isScale, isLast, if_neg (by decide : ¬142 ≤ 112),
      Nat.mul_lt_mul_right (Nat.two_pow_pos 141)]
    by_cases up : RoundsUp (2 ^ 23 + absolute % 2 ^ 23) 13
    · unfold roundShift
      rw [if_pos up]
      unfold RoundsUp at up
      omega
    · unfold roundShift
      rw [if_neg up]
      unfold RoundsUp at up
      omega
  · apply iff_of_false
    · rw [if_neg (by omega)]
      omega
    · rw [units_of_exponent (by omega), Nat.not_lt]
      calc 65520 * 2 ^ 149 ≤ 2 ^ 23 * 2 ^ 142 := by decide
        _ ≤ 2 ^ 23 * 2 ^ (absolute / 2 ^ 23 - 1) :=
            Nat.mul_le_mul_left _ (Nat.pow_le_pow_right (by decide) (by omega))
        _ ≤ _ := Nat.mul_le_mul_right _ (Nat.le_add_right _ _)

/-! ## Values -/

theorem abs_signed (negative : ℕ) {magnitude : ℚ} (nonneg : 0 ≤ magnitude) :
    |signed negative magnitude| = magnitude := by
  unfold signed
  split
  · exact abs_of_nonneg nonneg
  · rw [abs_neg, abs_of_nonneg nonneg]

theorem abs_value32 (bits : Word) :
    |value32 bits| = units 23 (magnitude32 bits) / 2 ^ 149 :=
  abs_signed _ (by positivity)

theorem value16_eq (half : Word) : value16 half = signed (half.toNat / 2 ^ 15 % 2)
      ((units 10 (magnitude16 half) * 2 ^ 125 : ℕ) / 2 ^ 149) := by
  unfold value16
  congr 1
  push_cast
  ring

theorem abs_signed_sub_same (negative first second : ℕ) :
    |signed negative (first / 2 ^ 149) - signed negative (second / 2 ^ 149)| =
      (distance first second : ℚ) / 2 ^ 149 := by
  have isMagnitude : |(first : ℚ) / 2 ^ 149 - second / 2 ^ 149| =
      (distance first second : ℚ) / 2 ^ 149 := by
    unfold distance
    rw [← sub_div, abs_div, abs_of_pos (by positivity : (0 : ℚ) < 2 ^ 149)]
    push_cast
    rfl
  unfold signed
  split
  · exact isMagnitude
  · rw [neg_sub_neg, abs_sub_comm, isMagnitude]

variable {negative other : ℕ}

theorem abs_signed_sub_different (first second : ℕ) (different : negative = 0 ↔ other ≠ 0) :
    |signed negative (first / 2 ^ 149) - signed other (second / 2 ^ 149)| =
      ((first + second : ℕ) : ℚ) / 2 ^ 149 := by
  have isSum : |(first : ℚ) / 2 ^ 149 + second / 2 ^ 149| =
      ((first + second : ℕ) : ℚ) / 2 ^ 149 := by
    rw [Nat.cast_add, add_div]
    exact abs_of_nonneg (by positivity)
  unfold signed
  by_cases isZero : negative = 0
  · rw [if_pos isZero, if_neg (different.mp isZero), sub_neg_eq_add, isSum]
  · have otherZero : other = 0 := not_not.mp (different.not.mp isZero)
    rw [if_neg isZero, if_pos otherZero, ← isSum, ← abs_neg]
    congr 1
    ring

theorem distance_zero (value : ℕ) : distance value 0 = value := by
  unfold distance
  rw [Nat.cast_zero, sub_zero]
  exact abs_of_nonneg (Int.natCast_nonneg value)

theorem signed_zero (negative : ℕ) : signed negative 0 = 0 := by
  unfold signed
  rw [neg_zero, ite_self]

theorem signed_nearest {value nearest candidate : ℕ} {tie : Prop}
    (toCandidate : distance value nearest ≤ distance value candidate ∧
      (distance value nearest = distance value candidate → candidate = nearest ∨ tie))
    (toZero : distance value nearest ≤ distance value 0 ∧
      (distance value nearest = distance value 0 → 0 = nearest ∨ tie)) :
    |signed negative (value / 2 ^ 149) - signed negative (nearest / 2 ^ 149)| ≤
        |signed negative (value / 2 ^ 149) -
          signed other (candidate / 2 ^ 149)| ∧
      (|signed negative (value / 2 ^ 149) - signed negative (nearest / 2 ^ 149)| =
          |signed negative (value / 2 ^ 149) -
            signed other (candidate / 2 ^ 149)| →
        signed other (candidate / 2 ^ 149) = signed negative (nearest / 2 ^ 149) ∨ tie) := by
  have pos : (0 : ℚ) < 2 ^ 149 := by positivity
  by_cases sameSign : negative = 0 ↔ other = 0
  · have isSame : signed other = signed negative := by
      funext magnitude
      unfold signed
      simp only [sameSign]
    rw [isSame, abs_signed_sub_same, abs_signed_sub_same,
      div_le_div_iff_of_pos_right pos, div_left_inj' pos.ne', Int.cast_le,
      Int.cast_inj]
    refine ⟨toCandidate.1, fun same => ?_⟩
    exact (toCandidate.2 same).imp_left fun isNearest => by rw [isNearest]
  · have different : negative = 0 ↔ other ≠ 0 := by tauto
    rw [distance_zero] at toZero
    rw [abs_signed_sub_same, abs_signed_sub_different value candidate different,
      div_le_div_iff_of_pos_right pos, div_left_inj' pos.ne',
      ← Int.cast_natCast, Int.cast_le, Int.cast_inj]
    refine ⟨toZero.1.trans (by omega), fun same => ?_⟩
    have isZero : candidate = 0 := by omega
    refine (toZero.2 (by omega)).imp_left fun isNearest => ?_
    rw [isZero, ← isNearest, Nat.cast_zero, zero_div, signed_zero, signed_zero]

/-! ## Narrowing -/

theorem narrows_emitFloatToHalf {bits half : Word}
    (isHalf : half.toNat = bits.toNat / 2 ^ 31 * 2 ^ 15 + narrowed (magnitude32 bits)) :
    Narrows bits half := by
  have magnitudeLt := narrowed_lt (magnitude32 bits)
  have bitsLt := bits.isLt
  have isSign : half.toNat / 2 ^ 15 = bits.toNat / 2 ^ 31 := by omega
  have isMagnitude : magnitude16 half = narrowed (magnitude32 bits) := by
    unfold magnitude16
    omega
  have noOverflow (isFinite : IsFinite32 bits) :
      |value32 bits| < 65520 ↔ narrowed (magnitude32 bits) < 0x7C00 := by
    rw [abs_value32, narrowed_lt_iff isFinite, div_lt_iff₀ (by positivity : (0 : ℚ) < 2 ^ 149)]
    norm_cast
  constructor
  · exact isSign
  · intro isNan
    have above : 0x7F800000 < magnitude32 bits := isNan
    unfold IsNan16
    rw [isMagnitude, narrowed, if_pos above.le, if_pos above]
    decide
  · intro isInfinite
    have isLast : magnitude32 bits = 0x7F800000 := isInfinite
    unfold IsInfinite16
    rw [isMagnitude, isLast]
    rfl
  · intro isFinite large
    have overflows := (noOverflow isFinite).not.mp large.not_gt
    unfold IsInfinite16
    rw [isMagnitude]
    exact le_antisymm (narrowed_le_of_finite isFinite) (Nat.not_lt.mp overflows)
  · intro isFinite small
    unfold IsFinite16
    rw [isMagnitude]
    exact (noOverflow isFinite).mp small
  · intro isFinite small other otherFinite
    have isNearest := narrowed_nearest isFinite ((noOverflow isFinite).mp small)
    have isEven : half.toNat % 2 = 0 ↔ narrowed (magnitude32 bits) % 2 = 0 := by
      omega
    have sameSign : half.toNat / 2 ^ 15 % 2 = bits.toNat / 2 ^ 31 := by omega
    rw [value16_eq half, value16_eq other, isMagnitude, sameSign, isEven]
    unfold value32
    exact signed_nearest (isNearest (magnitude16 other)) (by simpa [units] using isNearest 0)

/-! ## Widening and narrowing -/

theorem narrowed_widened_subnormal {mantissa : ℕ} (nonzero : mantissa ≠ 0)
    (small : mantissa < 2 ^ 10) :
    narrowed ((mantissa.log2 + 103) * 2 ^ 23 +
      mantissa * 2 ^ (23 - mantissa.log2) % 2 ^ 23) = mantissa := by
  have logLt : mantissa.log2 < 10 := (Nat.log2_lt nonzero).mpr small
  have isPower : 2 ^ mantissa.log2 * 2 ^ (23 - mantissa.log2) = 2 ^ 23 := by
    rw [← pow_add]
    congr 1
    omega
  have above : 2 ^ 23 ≤ mantissa * 2 ^ (23 - mantissa.log2) := by
    rw [← isPower]
    exact Nat.mul_le_mul_right _ (Nat.log2_self_le nonzero)
  have below : mantissa * 2 ^ (23 - mantissa.log2) < 2 * 2 ^ 23 := by
    rw [← isPower, ← Nat.mul_assoc, ← pow_succ']
    exact Nat.mul_lt_mul_of_pos_right Nat.lt_log2_self (Nat.two_pow_pos _)
  have isRest : mantissa * 2 ^ (23 - mantissa.log2) % 2 ^ 23 =
      mantissa * 2 ^ (23 - mantissa.log2) - 2 ^ 23 := by
    omega
  rw [isRest, narrowed_of_finite (by omega), if_pos (by omega)]
  have isShift : min 25 (126 - ((mantissa.log2 + 103) * 2 ^ 23 +
      (mantissa * 2 ^ (23 - mantissa.log2) - 2 ^ 23)) / 2 ^ 23) = 23 - mantissa.log2 := by
    omega
  have isSignificand : 2 ^ 23 + ((mantissa.log2 + 103) * 2 ^ 23 +
      (mantissa * 2 ^ (23 - mantissa.log2) - 2 ^ 23)) % 2 ^ 23 =
        mantissa * 2 ^ (23 - mantissa.log2) := by
    omega
  rw [isShift, isSignificand, roundShift_multiple]

variable {magnitude : ℕ}

theorem narrowed_widened (notNan : magnitude ≤ 0x7C00) :
    narrowed (widened magnitude) = magnitude := by
  unfold widened
  dsimp only
  by_cases isZero : magnitude / 2 ^ 10 = 0
  · rw [if_pos isZero]
    by_cases noMantissa : magnitude % 2 ^ 10 = 0
    · rw [if_pos noMantissa]
      have isNull : magnitude = 0 := by omega
      rw [isNull]
      decide
    · rw [if_neg noMantissa, narrowed_widened_subnormal noMantissa (Nat.mod_lt _ (by decide))]
      omega
  · rw [if_neg isZero]
    by_cases isLast : magnitude / 2 ^ 10 = 31
    · have isInfinite : magnitude = 0x7C00 := by omega
      rw [isInfinite]
      decide
    · rw [if_neg isLast, narrowed_of_finite (by omega), if_neg (by omega)]
      have isSignificand : 2 ^ 23 + ((magnitude / 2 ^ 10 + 112) * 2 ^ 23 +
          magnitude % 2 ^ 10 * 2 ^ 13) % 2 ^ 23 = (2 ^ 10 + magnitude % 2 ^ 10) * 2 ^ 13 := by
        omega
      rw [isSignificand, roundShift_multiple]
      omega

theorem narrowed_widened_nan (isNan : 0x7C00 < magnitude) (small : magnitude < 2 ^ 15) :
    narrowed (widened magnitude) = 0x7E00 := by
  have isExponent : magnitude / 2 ^ 10 = 31 := by omega
  have nonzero : magnitude % 2 ^ 10 ≠ 0 := by omega
  unfold widened
  rw [isExponent, if_neg (by decide), if_pos rfl]
  unfold narrowed
  rw [if_pos (by omega), if_pos (by omega)]

/-- Every number of single precision is narrowed to the nearest of half
precision, and a number that is widened and narrowed is the same, or again not a
number of the same sign. -/
theorem half_conversions : (∀ bits, ∃ half, emitFloatToHalf bits = some half ∧ Narrows bits half) ∧
      ∀ half, ∃ float back, emitHalfToFloat half = some float ∧ emitFloatToHalf float = some back ∧
        (¬IsNan16 half → back = half &&& 0xFFFF) ∧
        (IsNan16 half → IsNan16 back ∧ back.toNat / 2 ^ 15 % 2 = half.toNat / 2 ^ 15 % 2) := by
  constructor
  · intro bits
    obtain ⟨half, isEmitted, isHalf⟩ := emitFloatToHalf_eq bits
    exact ⟨half, isEmitted, narrows_emitFloatToHalf isHalf⟩
  · intro half
    obtain ⟨float, isFloat, floatValue⟩ := emitHalfToFloat_eq half
    obtain ⟨back, isBack, backValue⟩ := emitFloatToHalf_eq float
    have magnitudeLt : magnitude16 half < 2 ^ 15 := Nat.mod_lt _ (by decide)
    have widenedLt := widened_lt (magnitude16 half) magnitudeLt
    have isMagnitude : float.toNat % 2 ^ 31 = widened (magnitude16 half) := by
      rw [floatValue, Nat.mul_comm, Nat.mul_add_mod]
      exact Nat.mod_eq_of_lt widenedLt
    have isSign : float.toNat / 2 ^ 31 = half.toNat / 2 ^ 15 % 2 := by
      change _ = _ + widened (magnitude16 half) at floatValue
      omega
    rw [isMagnitude, isSign] at backValue
    refine ⟨float, back, isFloat, isBack, fun notNan => ?_, fun isNan => ?_⟩
    · rw [narrowed_widened (Nat.not_lt.mp notNan)] at backValue
      apply BitVec.eq_of_toNat_eq
      rw [backValue, toNat_and_low _ _ 16 rfl]
      unfold magnitude16
      omega
    · rw [narrowed_widened_nan isNan magnitudeLt] at backValue
      unfold IsNan16 magnitude16
      omega

end SharpEmu.Gen5Spirv
