import Mathlib.Algebra.Order.Ring.Abs
import Mathlib.Algebra.Order.Ring.Int
import Mathlib.Algebra.Order.Ring.Nat
import Mathlib.Tactic.Linarith
import Mathlib.Tactic.Ring

/-!
# Rounding to the nearest binary number

Binary floating-point numbers without their signs are the natural numbers, in
multiples of the smallest of them, that a pattern of exponent and mantissa
denotes.  Dropping low bits with ties to even gives the nearest multiple of a
power of two, and where that power is the spacing of the numbers around, the
nearest number.
-/

namespace SharpEmu.NearestEven

/-! ## Dropping low bits -/

/-- The low bits are above one half, or one half below an odd quotient. -/
def RoundsUp (value count : ℕ) : Prop :=
  2 ^ count < 2 * (value % 2 ^ count) ∨
    2 ^ count = 2 * (value % 2 ^ count) ∧ value / 2 ^ count % 2 = 1

instance (value count : ℕ) : Decidable (RoundsUp value count) :=
  inferInstanceAs (Decidable (_ ∨ _))

/-- Drop low bits, rounding to the nearest with ties to even. -/
def roundShift (value count : ℕ) : ℕ :=
  if RoundsUp value count then value / 2 ^ count + 1 else value / 2 ^ count

theorem roundShift_le (value count : ℕ) : roundShift value count ≤ value / 2 ^ count + 1 := by
  unfold roundShift
  split <;> omega

theorem le_roundShift (value count : ℕ) : value / 2 ^ count ≤ roundShift value count := by
  unfold roundShift
  split <;> omega

theorem roundShift_eq_zero {value count : ℕ} (small : 2 * value < 2 ^ count) :
    roundShift value count = 0 := by
  have isZero : value / 2 ^ count = 0 := Nat.div_eq_of_lt (by omega)
  have isSelf : value % 2 ^ count = value := Nat.mod_eq_of_lt (by omega)
  have down : ¬RoundsUp value count := by
    unfold RoundsUp
    rw [isSelf]
    omega
  unfold roundShift
  rw [if_neg down, isZero]

/-- Common factors do not matter. -/
theorem roundShift_mul_pow (value count extra : ℕ) :
    roundShift (value * 2 ^ extra) (count + extra) = roundShift value count := by
  have pos : 0 < 2 ^ extra := Nat.two_pow_pos extra
  have isRest : value * 2 ^ extra % 2 ^ (count + extra) = value % 2 ^ count * 2 ^ extra := by
    rw [pow_add, Nat.mul_mod_mul_right]
  have isQuotient : value * 2 ^ extra / 2 ^ (count + extra) = value / 2 ^ count := by
    rw [pow_add, Nat.mul_div_mul_right _ _ pos]
  have sameRounding : RoundsUp (value * 2 ^ extra) (count + extra) ↔
      RoundsUp value count := by
    unfold RoundsUp
    rw [isRest, isQuotient, pow_add, ← Nat.mul_assoc,
      Nat.mul_lt_mul_right pos, Nat.mul_left_inj pos.ne']
  unfold roundShift
  simp only [sameRounding, isQuotient]

theorem roundShift_multiple (value count : ℕ) : roundShift (value * 2 ^ count) count = value := by
  have down : ¬RoundsUp value 0 := by
    unfold RoundsUp
    omega
  have isZero : count = 0 + count := (Nat.zero_add count).symm
  calc roundShift (value * 2 ^ count) count
      = roundShift (value * 2 ^ count) (0 + count) := by rw [← isZero]
    _ = roundShift value 0 := roundShift_mul_pow value 0 count
    _ = value := by
        unfold roundShift
        rw [if_neg down, pow_zero, Nat.div_one]

def distance (value other : ℕ) : ℤ :=
  |(value : ℤ) - other|

theorem roundShift_within (value count : ℕ) :
    2 * distance value (roundShift value count * 2 ^ count) ≤ 2 ^ count ∧
      (2 * distance value (roundShift value count * 2 ^ count) = 2 ^ count →
        roundShift value count % 2 = 0) := by
  have isSum : (value : ℤ) = 2 ^ count * (value / 2 ^ count : ℕ) + (value % 2 ^ count : ℕ) := by
    exact_mod_cast (Nat.div_add_mod value (2 ^ count)).symm
  have restLt : ((value % 2 ^ count : ℕ) : ℤ) < 2 ^ count := by
    exact_mod_cast Nat.mod_lt value (Nat.two_pow_pos count)
  by_cases up : RoundsUp value count
  · have isDistance : distance value (roundShift value count * 2 ^ count) =
        2 ^ count - (value % 2 ^ count : ℕ) := by
      unfold distance roundShift
      rw [if_pos up, abs_of_nonpos]
      · rw [isSum]
        simp only [Nat.cast_mul, Nat.cast_add, Nat.cast_pow, Nat.cast_ofNat, Nat.cast_one]
        ring
      · rw [isSum]
        simp only [Nat.cast_mul, Nat.cast_add, Nat.cast_pow, Nat.cast_ofNat, Nat.cast_one]
        linarith
    have half : (2 : ℤ) ^ count ≤ 2 * (value % 2 ^ count : ℕ) ∧
        ((2 : ℤ) ^ count = 2 * (value % 2 ^ count : ℕ) → value / 2 ^ count % 2 = 1) := by
      unfold RoundsUp at up
      norm_cast
      omega
    rw [isDistance]
    refine ⟨by linarith, fun isHalf => ?_⟩
    have isOdd := half.2 (by linarith)
    unfold roundShift
    rw [if_pos up]
    omega
  · have isDistance : distance value (roundShift value count * 2 ^ count) =
        (value % 2 ^ count : ℕ) := by
      unfold distance roundShift
      rw [if_neg up, abs_of_nonneg]
      · rw [isSum]
        simp only [Nat.cast_mul, Nat.cast_pow, Nat.cast_ofNat]
        ring
      · rw [isSum]
        simp only [Nat.cast_mul, Nat.cast_pow, Nat.cast_ofNat]
        linarith
    have half : 2 * ((value % 2 ^ count : ℕ) : ℤ) ≤ 2 ^ count ∧
        (2 * ((value % 2 ^ count : ℕ) : ℤ) = 2 ^ count → value / 2 ^ count % 2 = 0) := by
      unfold RoundsUp at up
      norm_cast
      omega
    rw [isDistance]
    refine ⟨half.1, fun isHalf => ?_⟩
    unfold roundShift
    rw [if_neg up]
    exact half.2 isHalf

theorem roundShift_nearest (value count other : ℕ) :
    distance value (roundShift value count * 2 ^ count) ≤ distance value (other * 2 ^ count) ∧
      (distance value (roundShift value count * 2 ^ count) = distance value (other * 2 ^ count) →
        other = roundShift value count ∨ roundShift value count % 2 = 0) := by
  obtain ⟨within, tie⟩ := roundShift_within value count
  by_cases isOther : other = roundShift value count
  · exact ⟨by rw [isOther], fun _ => .inl isOther⟩
  · have pos : (0 : ℤ) < 2 ^ count := by positivity
    have apart : (2 : ℤ) ^ count ≤ distance value (other * 2 ^ count) +
          distance value (roundShift value count * 2 ^ count) := by
      have isDifference : ((other * 2 ^ count : ℕ) : ℤ) - (roundShift value count * 2 ^ count : ℕ) =
          ((other : ℤ) - roundShift value count) * 2 ^ count := by
        push_cast
        ring
      have isOne : (1 : ℤ) ≤ |(other : ℤ) - roundShift value count| :=
        Int.one_le_abs (by omega)
      calc (2 : ℤ) ^ count ≤ |(other : ℤ) - roundShift value count| * 2 ^ count := by nlinarith
        _ = |((other * 2 ^ count : ℕ) : ℤ) - (roundShift value count * 2 ^ count : ℕ)| := by
            rw [isDifference, abs_mul, abs_of_pos pos]
        _ ≤ distance value (other * 2 ^ count) +
              distance value (roundShift value count * 2 ^ count) := by
            unfold distance
            rw [abs_sub_comm (value : ℤ)]
            exact abs_sub_le _ (value : ℤ) _
    exact ⟨by linarith, fun same => .inr (tie (by linarith))⟩

/-! ## Binary numbers -/

/-- What a pattern of exponent and mantissa denotes, as a multiple of the
smallest number. -/
def units (mantissaBits pattern : ℕ) : ℕ :=
  if pattern < 2 ^ mantissaBits then pattern
  else (2 ^ mantissaBits + pattern % 2 ^ mantissaBits) * 2 ^ (pattern / 2 ^ mantissaBits - 1)

theorem units_of_lt {mantissaBits pattern : ℕ} (small : pattern < 2 ^ mantissaBits) :
    units mantissaBits pattern = pattern :=
  if_pos small

theorem units_eq {mantissaBits exponent mantissa : ℕ} (small : mantissa < 2 ^ mantissaBits) :
    units mantissaBits ((exponent + 1) * 2 ^ mantissaBits + mantissa) =
      (2 ^ mantissaBits + mantissa) * 2 ^ exponent := by
  have isExponent : ((exponent + 1) * 2 ^ mantissaBits + mantissa) /
      2 ^ mantissaBits = exponent + 1 := by
    rw [Nat.mul_comm, Nat.mul_add_div (Nat.two_pow_pos _), Nat.div_eq_of_lt small, Nat.add_zero]
  have isMantissa : ((exponent + 1) * 2 ^ mantissaBits + mantissa) %
      2 ^ mantissaBits = mantissa := by
    rw [Nat.mul_comm, Nat.mul_add_mod, Nat.mod_eq_of_lt small]
  have large : 2 ^ mantissaBits ≤ (exponent + 1) * 2 ^ mantissaBits + mantissa := by
    rw [Nat.succ_mul]
    omega
  unfold units
  rw [if_neg (Nat.not_lt.mpr large), isExponent, isMantissa, Nat.add_sub_cancel]

/-- A number from some power on is a multiple of its spacing there. -/
theorem dvd_units_or_lt (mantissaBits pattern exponent : ℕ) :
    2 ^ exponent ∣ units mantissaBits pattern ∨
      units mantissaBits pattern < 2 ^ (mantissaBits + exponent) := by
  unfold units
  split
  · next small =>
    right
    exact lt_of_lt_of_le small (Nat.pow_le_pow_right (by decide) (Nat.le_add_right _ _))
  · by_cases large : exponent ≤ pattern / 2 ^ mantissaBits - 1
    · exact .inl ((pow_dvd_pow 2 large).mul_left _)
    · right
      have mantissaLt := Nat.mod_lt pattern (Nat.two_pow_pos mantissaBits)
      calc (2 ^ mantissaBits + pattern % 2 ^ mantissaBits) * 2 ^ (pattern / 2 ^ mantissaBits - 1)
          < 2 ^ (mantissaBits + 1) * 2 ^ (pattern / 2 ^ mantissaBits - 1) := by
            apply Nat.mul_lt_mul_of_pos_right _ (Nat.two_pow_pos _)
            rw [pow_succ]
            omega
        _ = 2 ^ (mantissaBits + 1 + (pattern / 2 ^ mantissaBits - 1)) :=
            (pow_add 2 _ _).symm
        _ ≤ 2 ^ (mantissaBits + exponent) :=
            Nat.pow_le_pow_right (by decide) (by omega)

theorem units_nearest {mantissaBits exponent extra value : ℕ}
    (normal : exponent = 0 ∨ 2 ^ (mantissaBits + exponent + extra) ≤ value)
    (pattern : ℕ) :
    let rounded := roundShift value (exponent + extra)
    let nearest := rounded * 2 ^ (exponent + extra)
    let other := units mantissaBits pattern * 2 ^ extra
    distance value nearest ≤ distance value other ∧ (distance value nearest = distance value other →
        other = nearest ∨ rounded % 2 = 0) := by
  intro rounded nearest other
  by_cases isMultiple : 2 ^ exponent ∣ units mantissaBits pattern
  · obtain ⟨count, isCount⟩ := isMultiple
    have isOther : other = count * 2 ^ (exponent + extra) := by
      change units mantissaBits pattern * 2 ^ extra = _
      rw [isCount, pow_add]
      ring
    obtain ⟨isNearest, tie⟩ :=
      roundShift_nearest value (exponent + extra) count
    rw [isOther]
    refine ⟨isNearest, fun same => ?_⟩
    exact (tie same).imp_left fun isRounded => by rw [isRounded]
  · -- Smaller numbers lie below the power itself, which is a multiple.
    have small := (dvd_units_or_lt mantissaBits pattern exponent).resolve_left isMultiple
    have large : 2 ^ (mantissaBits + exponent + extra) ≤ value := by
      apply normal.resolve_left
      rintro rfl
      exact isMultiple (one_dvd _)
    have isPower : 2 ^ mantissaBits * 2 ^ (exponent + extra) =
        2 ^ (mantissaBits + exponent + extra) := by
      rw [← pow_add, Nat.add_assoc]
    have below : other < 2 ^ (mantissaBits + exponent + extra) := by
      rw [pow_add]
      exact Nat.mul_lt_mul_of_pos_right small (Nat.two_pow_pos extra)
    have farther : distance value (2 ^ mantissaBits * 2 ^ (exponent + extra)) <
          distance value other := by
      rw [isPower]
      unfold distance
      rw [abs_of_nonneg (by omega), abs_of_nonneg (by omega)]
      omega
    have isNearest := (roundShift_nearest value (exponent + extra) (2 ^ mantissaBits)).1
    exact ⟨(isNearest.trans_lt farther).le,
      fun same => absurd same (isNearest.trans_lt farther).ne⟩

end SharpEmu.NearestEven
