import Mathlib.Data.Nat.Bitwise
import SharpEmu.HalfConversions
import SharpEmu.NearestEven

/-!
# What the conversions compute

The emitted sequences as functions on numbers.  All of their shifts are defined,
and the bits that they cut off decide how they round.
-/

namespace SharpEmu.Gen5Spirv

open Spirv NearestEven

/-! ## Narrowing -/

/-- The magnitude of the half-precision number for one of single precision. -/
def narrowed (absolute : ℕ) : ℕ :=
  if 0x7F800000 ≤ absolute then
    if 0x7F800000 < absolute then 0x7E00 else 0x7C00
  else
    let exponent := absolute / 2 ^ 23
    let significand := 2 ^ 23 + absolute % 2 ^ 23
    if exponent ≤ 112 then
      roundShift significand (min 25 (126 - exponent))
    else
      min 0x7C00 ((exponent - 112) * 2 ^ 10 + (roundShift significand 13 - 2 ^ 10))

theorem toNat_sign (bits : Word) :
    ((bits >>> 16) &&& 0x8000).toNat = bits.toNat / 2 ^ 31 * 2 ^ 15 := by
  have bound := bits.isLt
  have isBit : (bits.toNat / 2 ^ 16).testBit 15 = decide (bits.toNat / 2 ^ 31 = 1) := by
    rw [Nat.testBit_eq_decide_div_mod_eq, Nat.div_div_eq_div_mul]
    have isLess : bits.toNat / 2 ^ 31 < 2 := by omega
    rw [← pow_add, Nat.mod_eq_of_lt isLess]
  rw [BitVec.toNat_and, toNat_shiftRight]
  change bits.toNat / 2 ^ 16 &&& 2 ^ 15 = _
  rw [Nat.and_two_pow, isBit]
  by_cases isNegative : bits.toNat / 2 ^ 31 = 1
  · rw [isNegative]
    rfl
  · have isZero : bits.toNat / 2 ^ 31 = 0 := by omega
    rw [isZero]
    rfl

/-- Adding one less than a half and the lowest bit that is kept rounds to the
nearest even. -/
theorem toNat_rounded {significand : Word} (small : significand.toNat < 2 ^ 24) :
    ((significand + 0xFFF + ((significand >>> 13) &&& 1)) >>> 13).toNat =
      roundShift significand.toNat 13 := by
  have isBit : ((significand >>> 13) &&& (1 : Word)).toNat = significand.toNat / 2 ^ 13 % 2 := by
    rw [toNat_and_one, toNat_shiftRight]
  have isSum : (significand + 0xFFF + ((significand >>> 13) &&& 1)).toNat =
      significand.toNat + 0xFFF + significand.toNat / 2 ^ 13 % 2 := by
    rw [BitVec.toNat_add, BitVec.toNat_add, isBit]
    change (((significand.toNat + 0xFFF) % 2 ^ 32) + _) % 2 ^ 32 = _
    omega
  rw [toNat_shiftRight, isSum]
  by_cases up : RoundsUp significand.toNat 13
  · unfold roundShift
    rw [if_pos up]
    unfold RoundsUp at up
    omega
  · unfold roundShift
    rw [if_neg up]
    unfold RoundsUp at up
    omega

/-- The bits below the quotient, compared with the half way, decide the
rounding. -/
theorem toNat_subnormal (significand : Word) {shift : Word}
    (pos : 1 ≤ shift.toNat) (small : shift.toNat ≤ 25) :
    let lowBits := significand &&& ((1 : Word) <<< shift.toNat - 1)
    let halfWay := (1 : Word) <<< (shift - 1).toNat
    let quotient := significand >>> shift.toNat
    let roundUp : Bool := halfWay < lowBits || lowBits = halfWay && quotient &&& 1 ≠ 0
    (quotient + select roundUp 1 0).toNat = roundShift significand.toNat shift.toNat := by
  intro lowBits halfWay quotient roundUp
  have valueLt := significand.isLt
  have isPower : ((1 : Word) <<< shift.toNat).toNat = 2 ^ shift.toNat := by
    rw [toNat_shiftLeft_of_lt]
    · exact Nat.one_mul _
    · exact lt_of_le_of_lt (Nat.mul_le_mul_left 1 (Nat.pow_le_pow_right (by decide) small))
        (by decide)
  have isShift : (shift - 1).toNat = shift.toNat - 1 :=
    BitVec.toNat_sub_of_le (BitVec.le_def.mpr pos)
  have isDouble : 2 ^ shift.toNat = 2 * 2 ^ (shift.toNat - 1) := by
    rw [← Nat.pow_succ']
    congr 1
    omega
  have isHalfWay : halfWay.toNat = 2 ^ (shift.toNat - 1) := by
    change ((1 : Word) <<< (shift - 1).toNat).toNat = _
    rw [isShift, toNat_shiftLeft_of_lt]
    · exact Nat.one_mul _
    · exact lt_of_le_of_lt (Nat.mul_le_mul_left 1 (Nat.pow_le_pow_right (by decide)
          ((Nat.sub_le _ 1).trans small)))
        (by decide)
  have isMask : ((1 : Word) <<< shift.toNat - 1).toNat = 2 ^ shift.toNat - 1 := by
    rw [BitVec.toNat_sub_of_le, isPower]
    · rfl
    · rw [BitVec.le_def, isPower]
      exact Nat.one_le_two_pow
  have isLow : lowBits.toNat = significand.toNat % 2 ^ shift.toNat :=
    toNat_and_low _ _ _ isMask
  have isQuotient : quotient.toNat = significand.toNat / 2 ^ shift.toNat :=
    toNat_shiftRight _ _
  have isOdd : quotient &&& 1 ≠ 0 ↔ significand.toNat / 2 ^ shift.toNat % 2 = 1 := by
    rw [ne_eq, ← BitVec.toNat_inj, toNat_and_one, isQuotient]
    change ¬(_ = 0) ↔ _
    omega
  have isUp : roundUp = true ↔ RoundsUp significand.toNat shift.toNat := by
    change (decide (halfWay < lowBits) || (decide (lowBits = halfWay) &&
      decide (quotient &&& 1 ≠ 0))) = true ↔ _
    rw [Bool.or_eq_true, Bool.and_eq_true, decide_eq_true_iff,
      decide_eq_true_iff, decide_eq_true_iff, isOdd, BitVec.lt_def,
      ← BitVec.toNat_inj, isHalfWay, isLow]
    unfold RoundsUp
    rw [isDouble]
    omega
  have quotientLt : quotient.toNat < 2 ^ 31 := by
    rw [isQuotient, isDouble, ← Nat.div_div_eq_div_mul]
    exact lt_of_le_of_lt (Nat.div_le_self _ _) (by omega)
  by_cases up : RoundsUp significand.toNat shift.toNat
  · unfold roundShift
    rw [isUp.mpr up, if_pos up, select_true, BitVec.toNat_add, ← isQuotient]
    exact Nat.mod_eq_of_lt (by change quotient.toNat + 1 < _; omega)
  · unfold roundShift
    rw [Bool.eq_false_iff.mpr (isUp.not.mpr up), if_neg up, select_false, ← isQuotient]
    exact congrArg BitVec.toNat (BitVec.add_zero quotient)

theorem toNat_significand (absolute : Word) : ((absolute &&& 0x7FFFFF) ||| 0x800000).toNat =
      2 ^ 23 + absolute.toNat % 2 ^ 23 := by
  have isMantissa := toNat_and_low absolute 0x7FFFFF 23 rfl
  have isLow : (absolute &&& 0x7FFFFF).toNat < 2 ^ 23 := by
    rw [isMantissa]
    exact Nat.mod_lt _ (by decide)
  have isHigh : 2 ^ 23 ∣ (0x800000 : Word).toNat := by decide
  rw [BitVec.or_comm, toNat_or_low isHigh isLow, isMantissa]
  rfl

theorem narrowed_of_finite {absolute : ℕ} (finite : absolute < 0x7F800000) : narrowed absolute =
      if absolute / 2 ^ 23 ≤ 112 then
        roundShift (2 ^ 23 + absolute % 2 ^ 23) (min 25 (126 - absolute / 2 ^ 23))
      else
        min 0x7C00 ((absolute / 2 ^ 23 - 112) * 2 ^ 10 +
          (roundShift (2 ^ 23 + absolute % 2 ^ 23) 13 - 2 ^ 10)) :=
  if_neg (by omega)

theorem roundShift_subnormal_le {absolute : ℕ} (small : absolute / 2 ^ 23 ≤ 112) :
    roundShift (2 ^ 23 + absolute % 2 ^ 23) (min 25 (126 - absolute / 2 ^ 23)) ≤ 2 ^ 10 := by
  have below := roundShift_le (2 ^ 23 + absolute % 2 ^ 23) (min 25 (126 - absolute / 2 ^ 23))
  have divides : (2 ^ 23 + absolute % 2 ^ 23) / 2 ^ min 25 (126 - absolute / 2 ^ 23) ≤
      (2 ^ 23 + absolute % 2 ^ 23) / 2 ^ 14 :=
    Nat.div_le_div_left (Nat.pow_le_pow_right (by decide) (by omega)) (by decide)
  omega

theorem narrowed_le_of_finite {absolute : ℕ}
    (finite : absolute < 0x7F800000) : narrowed absolute ≤ 0x7C00 := by
  rw [narrowed_of_finite finite]
  split
  · next subnormal =>
    exact (roundShift_subnormal_le subnormal).trans (by decide)
  · exact min_le_left _ _

theorem narrowed_lt (absolute : ℕ) : narrowed absolute < 2 ^ 15 := by
  by_cases finite : absolute < 0x7F800000
  · exact lt_of_le_of_lt (narrowed_le_of_finite finite) (by decide)
  · unfold narrowed
    rw [if_pos (Nat.not_lt.mp finite)]
    split <;> decide

section Cases

variable {absolute exponent : Word}

theorem toNat_shift (isSubnormal : exponent.toNat ≤ 112) :
    (select (decide (25 < 126 - exponent)) 25 (126 - exponent)).toNat =
      min 25 (126 - exponent.toNat) := by
  have isDistance : (126 - exponent).toNat = 126 - exponent.toNat :=
    BitVec.toNat_sub_of_le (BitVec.le_def.mpr (isSubnormal.trans (by decide)))
  by_cases far : (25 : Word) < 126 - exponent
  · rw [decide_eq_true far, select_true]
    rw [BitVec.lt_def, isDistance] at far
    change 25 < 126 - exponent.toNat at far
    exact (Nat.min_eq_left far.le).symm
  · rw [decide_eq_false far, select_false, isDistance]
    rw [BitVec.lt_def, isDistance] at far
    change ¬25 < 126 - exponent.toNat at far
    exact (Nat.min_eq_right (Nat.not_lt.mp far)).symm

theorem toNat_normal {significand : Word}
    (isNormal : 113 ≤ exponent.toNat) (exponentLt : exponent.toNat < 256)
    (large : 2 ^ 23 ≤ significand.toNat) (small : significand.toNat < 2 ^ 24) :
    let rounded := (significand + 4095 + (significand >>> 13 &&& 1)) >>> 13
    let normalBits := (exponent - 112) <<< 10 + (rounded - 1024)
    (select (decide (31744 ≤ normalBits)) 31744 normalBits).toNat =
      min 0x7C00 ((exponent.toNat - 112) * 2 ^ 10 +
        (roundShift significand.toNat 13 - 2 ^ 10)) := by
  intro rounded normalBits
  have isRounded : rounded.toNat = roundShift significand.toNat 13 :=
    toNat_rounded small
  have above := le_roundShift significand.toNat 13
  have below := roundShift_le significand.toNat 13
  have isExponent : (exponent - 112).toNat = exponent.toNat - 112 :=
    BitVec.toNat_sub_of_le (BitVec.le_def.mpr (le_trans (by decide) isNormal))
  have isHigh : ((exponent - 112) <<< 10).toNat = (exponent.toNat - 112) * 2 ^ 10 := by
    rw [toNat_shiftLeft_of_lt, isExponent]
    rw [isExponent]
    omega
  have isLow : (rounded - 1024).toNat = roundShift significand.toNat 13 - 2 ^ 10 := by
    rw [BitVec.toNat_sub_of_le, isRounded]
    · rfl
    · rw [BitVec.le_def, isRounded]
      change 1024 ≤ _
      omega
  have isBits : normalBits.toNat = (exponent.toNat - 112) * 2 ^ 10 +
      (roundShift significand.toNat 13 - 2 ^ 10) := by
    change ((exponent - 112) <<< 10 + (rounded - 1024)).toNat = _
    rw [BitVec.toNat_add, isHigh, isLow]
    apply Nat.mod_eq_of_lt
    omega
  by_cases overflow : (31744 : Word) ≤ normalBits
  · rw [decide_eq_true overflow, select_true]
    rw [BitVec.le_def, isBits] at overflow
    exact (Nat.min_eq_left overflow).symm
  · rw [decide_eq_false overflow, select_false, isBits]
    rw [BitVec.le_def, isBits] at overflow
    exact (Nat.min_eq_right (Nat.not_le.mp overflow).le).symm

end Cases

theorem emitFloatToHalf_eq (bits : Word) : ∃ half, emitFloatToHalf bits = some half ∧
      half.toNat = bits.toNat / 2 ^ 31 * 2 ^ 15 + narrowed (bits.toNat % 2 ^ 31) := by
  unfold emitFloatToHalf
  simp only [shiftRightLogical_eq, shiftLeftLogical_eq, Option.pure_def,
    Option.bind_eq_bind, Option.bind_some, BitVec.reduceToNat,
    Nat.reduceMod]
  refine ⟨_, rfl, ?_⟩
  have isAbsolute := toNat_and_low bits 0x7FFFFFFF 31 rfl
  have absoluteLt : (bits &&& 0x7FFFFFFF).toNat < 2 ^ 31 := by
    rw [isAbsolute]
    exact Nat.mod_lt _ (by decide)
  have isSign := toNat_sign bits
  have isHigh : 2 ^ 15 ∣ (bits >>> 16 &&& 0x8000).toNat :=
    ⟨_, isSign.trans (Nat.mul_comm _ _)⟩
  rw [← isAbsolute, ← isSign]
  generalize bits &&& 0x7FFFFFFF = absolute at *
  generalize bits >>> 16 &&& 0x8000 = sign at *
  have isSignificand := toNat_significand absolute
  have isExponent := toNat_shiftRight absolute 23
  have magnitudeLt := narrowed_lt absolute.toNat
  by_cases infinite : (0x7F800000 : Word) ≤ absolute
  · rw [decide_eq_true infinite, select_true, BitVec.or_assoc]
    rw [BitVec.le_def] at infinite
    change 0x7F800000 ≤ absolute.toNat at infinite
    unfold narrowed at magnitudeLt ⊢
    rw [if_pos infinite] at magnitudeLt ⊢
    by_cases isNan : (0x7F800000 : Word) < absolute
    · rw [decide_eq_true isNan, select_true]
      rw [BitVec.lt_def] at isNan
      change 0x7F800000 < absolute.toNat at isNan
      rw [if_pos isNan]
      exact toNat_or_low isHigh (by decide)
    · rw [decide_eq_false isNan, select_false]
      rw [BitVec.lt_def] at isNan
      change ¬0x7F800000 < absolute.toNat at isNan
      rw [if_neg isNan]
      exact toNat_or_low isHigh (by decide)
  · rw [decide_eq_false infinite, select_false]
    rw [BitVec.le_def] at infinite
    have finite : absolute.toNat < 0x7F800000 := Nat.not_le.mp infinite
    rw [narrowed_of_finite finite, ← isExponent, ← isSignificand] at magnitudeLt ⊢
    generalize (absolute &&& 0x7FFFFF) ||| 0x800000 = significand at *
    generalize absolute >>> 23 = exponent at *
    by_cases isSubnormal : exponent ≤ (112 : Word)
    · rw [decide_eq_true isSubnormal, select_true]
      rw [BitVec.le_def] at isSubnormal
      change exponent.toNat ≤ 112 at isSubnormal
      have isShift := toNat_shift isSubnormal
      rw [if_pos isSubnormal, ← isShift] at magnitudeLt ⊢
      generalize select (decide (25 < 126 - exponent)) 25 (126 - exponent) = shift at *
      have pos : 1 ≤ shift.toNat := by omega
      have small : shift.toNat ≤ 25 := by omega
      have isLess : (shift - 1).toNat = shift.toNat - 1 :=
        BitVec.toNat_sub_of_le (BitVec.le_def.mpr pos)
      have isAmount : shift.toNat % 32 = shift.toNat :=
        Nat.mod_eq_of_lt (by omega)
      have isLessAmount : (shift - 1).toNat % 32 = (shift - 1).toNat :=
        Nat.mod_eq_of_lt (by omega)
      have isRounded := toNat_subnormal significand pos small
      rw [isAmount, isLessAmount]
      rw [← isRounded] at magnitudeLt ⊢
      exact toNat_or_low isHigh magnitudeLt
    · rw [decide_eq_false isSubnormal, select_false]
      rw [BitVec.le_def] at isSubnormal
      change ¬exponent.toNat ≤ 112 at isSubnormal
      have isNormal : 113 ≤ exponent.toNat := Nat.not_le.mp isSubnormal
      have isLarge : (113 : Word) ≤ exponent := BitVec.le_def.mpr isNormal
      have isRounded := toNat_normal isNormal (by omega)
        (by omega : 2 ^ 23 ≤ significand.toNat) (by omega)
      rw [if_neg isSubnormal, ← isRounded] at magnitudeLt ⊢
      rw [decide_eq_true isLarge, select_true]
      exact toNat_or_low isHigh magnitudeLt

/-! ## Widening -/

/-- The magnitude of the number of single precision for one of half
precision. -/
def widened (magnitude : ℕ) : ℕ :=
  let exponent := magnitude / 2 ^ 10
  let mantissa := magnitude % 2 ^ 10
  if exponent = 0 then
    if mantissa = 0 then 0
    else (mantissa.log2 + 103) * 2 ^ 23 + mantissa * 2 ^ (23 - mantissa.log2) % 2 ^ 23
  else if exponent = 31 then 0x7F800000 + mantissa * 2 ^ 13
  else (exponent + 112) * 2 ^ 23 + mantissa * 2 ^ 13

theorem toNat_signBit (halfBits : Word) : ((halfBits &&& 0x8000) <<< 16).toNat =
      halfBits.toNat / 2 ^ 15 % 2 * 2 ^ 31 := by
  have isBit : (halfBits &&& 0x8000).toNat = halfBits.toNat / 2 ^ 15 % 2 * 2 ^ 15 := by
    rw [BitVec.toNat_and]
    change halfBits.toNat &&& 2 ^ 15 = _
    rw [Nat.and_two_pow, Nat.testBit_eq_decide_div_mod_eq]
    rcases Nat.mod_two_eq_zero_or_one (halfBits.toNat / 2 ^ 15) with
      isZero | isOne
    · rw [isZero]
      rfl
    · rw [isOne]
      rfl
  rw [toNat_shiftLeft_of_lt, isBit]
  · omega
  · rw [isBit]
    omega

theorem log2_or_one {mantissa : ℕ} (nonzero : mantissa ≠ 0) :
    (mantissa ||| 1).log2 = mantissa.log2 := by
  have above : 2 ^ mantissa.log2 ≤ mantissa ||| 1 :=
    (Nat.log2_self_le nonzero).trans Nat.left_le_or
  have below : mantissa ||| 1 < 2 ^ (mantissa.log2 + 1) :=
    Nat.or_lt_two_pow Nat.lt_log2_self (Nat.one_lt_two_pow (by omega))
  have stillNonzero : mantissa ||| 1 ≠ 0 :=
    (lt_of_lt_of_le (Nat.two_pow_pos _) above).ne'
  exact (Nat.log2_eq_iff stillNonzero).mpr ⟨above, below⟩

theorem toNat_normalised {mantissa : Word} (nonzero : mantissa.toNat ≠ 0)
    (small : mantissa.toNat < 2 ^ 10) :
    ((findUMsb (mantissa ||| 1) + 103) <<< 23 |||
        mantissa <<< ((23 - findUMsb (mantissa ||| 1)).toNat % 32) &&& 0x7FFFFF).toNat =
      (mantissa.toNat.log2 + 103) * 2 ^ 23 +
        mantissa.toNat * 2 ^ (23 - mantissa.toNat.log2) % 2 ^ 23 := by
  have logLt : mantissa.toNat.log2 < 10 :=
    (Nat.log2_lt nonzero).mpr small
  have isOr : (mantissa ||| 1).toNat = mantissa.toNat ||| 1 :=
    BitVec.toNat_or mantissa 1
  have orNonzero : mantissa ||| 1 ≠ 0 := by
    intro isZero
    have isZero := congrArg BitVec.toNat isZero
    rw [isOr] at isZero
    have above : mantissa.toNat ≤ mantissa.toNat ||| 1 := Nat.left_le_or
    change (mantissa.toNat ||| 1) = 0 at isZero
    omega
  have isBit : (findUMsb (mantissa ||| 1)).toNat = mantissa.toNat.log2 := by
    unfold findUMsb
    rw [if_neg orNonzero, isOr, log2_or_one nonzero, BitVec.toNat_ofNat]
    exact Nat.mod_eq_of_lt (by omega)
  have isExponent : (findUMsb (mantissa ||| 1) + 103).toNat = mantissa.toNat.log2 + 103 := by
    rw [BitVec.toNat_add, isBit]
    exact Nat.mod_eq_of_lt (by change mantissa.toNat.log2 + 103 < _; omega)
  have isShift : (23 - findUMsb (mantissa ||| 1)).toNat = 23 - mantissa.toNat.log2 := by
    rw [BitVec.toNat_sub_of_le, isBit]
    · rfl
    · rw [BitVec.le_def, isBit]
      change _ ≤ 23
      omega
  have isHigh : ((findUMsb (mantissa ||| 1) + 103) <<< 23).toNat =
      (mantissa.toNat.log2 + 103) * 2 ^ 23 := by
    rw [toNat_shiftLeft_of_lt, isExponent]
    rw [isExponent]
    omega
  have isLow : (mantissa <<< ((23 - findUMsb (mantissa ||| 1)).toNat % 32) &&& 0x7FFFFF).toNat =
        mantissa.toNat * 2 ^ (23 - mantissa.toNat.log2) % 2 ^ 23 := by
    rw [isShift, Nat.mod_eq_of_lt (by omega : 23 - mantissa.toNat.log2 < 32),
      toNat_and_low _ _ 23 rfl, BitVec.toNat_shiftLeft, Nat.shiftLeft_eq]
    exact Nat.mod_mod_of_dvd _ (pow_dvd_pow 2 (by decide))
  rw [toNat_or_low (isHigh ▸ Nat.dvd_mul_left _ _ :
    2 ^ 23 ∣ ((findUMsb (mantissa ||| 1) + 103) <<< 23).toNat), isHigh, isLow]
  rw [isLow]
  exact Nat.mod_lt _ (by decide)

theorem widened_lt (magnitude : ℕ) (small : magnitude < 2 ^ 15) : widened magnitude < 2 ^ 31 := by
  unfold widened
  dsimp only
  have mantissaLt := Nat.mod_lt magnitude (by decide : 0 < 2 ^ 10)
  split
  · split
    · decide
    · next nonzero =>
      have logLt := (Nat.log2_lt nonzero).mpr mantissaLt
      have restLt := Nat.mod_lt (magnitude % 2 ^ 10 *
        2 ^ (23 - (magnitude % 2 ^ 10).log2)) (by decide : 0 < 2 ^ 23)
      omega
  · split
    · omega
    · omega

theorem emitHalfToFloat_eq (halfBits : Word) : ∃ float, emitHalfToFloat halfBits = some float ∧
      float.toNat = halfBits.toNat / 2 ^ 15 % 2 * 2 ^ 31 + widened (halfBits.toNat % 2 ^ 15) := by
  unfold emitHalfToFloat
  simp only [shiftRightLogical_eq, shiftLeftLogical_eq, Option.pure_def,
    Option.bind_eq_bind, Option.bind_some, BitVec.reduceToNat,
    Nat.reduceMod]
  refine ⟨_, rfl, ?_⟩
  have isSign := toNat_signBit halfBits
  have isHigh : 2 ^ 31 ∣ ((halfBits &&& 0x8000) <<< 16).toNat :=
    ⟨_, isSign.trans (Nat.mul_comm _ _)⟩
  have isMantissa : (halfBits &&& 1023).toNat = halfBits.toNat % 2 ^ 15 % 2 ^ 10 := by
    rw [toNat_and_low _ _ 10 rfl, Nat.mod_mod_of_dvd _ (pow_dvd_pow 2 (by decide))]
  have isExponent : (halfBits >>> 10 &&& 31).toNat = halfBits.toNat % 2 ^ 15 / 2 ^ 10 := by
    rw [toNat_and_low _ _ 5 rfl, toNat_shiftRight]
    omega
  have magnitudeLt := widened_lt (halfBits.toNat % 2 ^ 15) (Nat.mod_lt _ (by decide))
  rw [← isSign]
  unfold widened at magnitudeLt ⊢
  rw [← isMantissa, ← isExponent] at magnitudeLt ⊢
  have mantissaLt : (halfBits &&& 1023).toNat < 2 ^ 10 := by
    rw [isMantissa]
    exact Nat.mod_lt _ (by decide)
  generalize (halfBits &&& 0x8000) <<< 16 = sign at *
  generalize halfBits &&& 1023 = mantissa at *
  generalize halfBits >>> 10 &&& 31 = exponent at *
  have isFraction : (mantissa <<< 13).toNat = mantissa.toNat * 2 ^ 13 :=
    toNat_shiftLeft_of_lt (by omega)
  have exponentLt : exponent.toNat < 32 := by
    rw [isExponent]
    omega
  by_cases isZero : exponent = 0
  · rw [decide_eq_true isZero, select_true]
    have isZero : exponent.toNat = 0 := congrArg BitVec.toNat isZero
    rw [if_pos isZero] at magnitudeLt ⊢
    by_cases nonzero : mantissa ≠ 0
    · rw [decide_eq_true nonzero, select_true]
      have nonzero : mantissa.toNat ≠ 0 :=
        fun isZero => nonzero (BitVec.eq_of_toNat_eq isZero)
      rw [if_neg nonzero, ← toNat_normalised nonzero mantissaLt] at magnitudeLt ⊢
      exact toNat_or_low isHigh magnitudeLt
    · rw [decide_eq_false nonzero, select_false]
      have isZero : mantissa.toNat = 0 :=
        congrArg BitVec.toNat (not_not.mp nonzero)
      rw [if_pos isZero]
      exact congrArg BitVec.toNat (BitVec.or_zero (x := sign))
  · rw [decide_eq_false isZero, select_false]
    have notZero : exponent.toNat ≠ 0 :=
      fun same => isZero (BitVec.eq_of_toNat_eq same)
    rw [if_neg notZero] at magnitudeLt ⊢
    by_cases isLast : exponent = 31
    · rw [decide_eq_true isLast, select_true]
      have isLast : exponent.toNat = 31 := congrArg BitVec.toNat isLast
      have isInfinite : ((2139095040 : Word) ||| mantissa <<< 13).toNat =
          0x7F800000 + mantissa.toNat * 2 ^ 13 := by
        rw [toNat_or_low (by decide : 2 ^ 23 ∣ (2139095040 : Word).toNat) (by omega), isFraction]
        rfl
      rw [if_pos isLast, ← isInfinite] at magnitudeLt ⊢
      exact toNat_or_low isHigh magnitudeLt
    · rw [decide_eq_false isLast, select_false]
      have notLast : exponent.toNat ≠ 31 :=
        fun same => isLast (BitVec.eq_of_toNat_eq same)
      have isSum : (exponent + 112).toNat = exponent.toNat + 112 := by
        rw [BitVec.toNat_add]
        exact Nat.mod_eq_of_lt (by change exponent.toNat + 112 < _; omega)
      have isShifted : ((exponent + 112) <<< 23).toNat = (exponent.toNat + 112) * 2 ^ 23 := by
        rw [toNat_shiftLeft_of_lt, isSum]
        rw [isSum]
        omega
      have isNormal : ((exponent + 112) <<< 23 ||| mantissa <<< 13).toNat =
          (exponent.toNat + 112) * 2 ^ 23 + mantissa.toNat * 2 ^ 13 := by
        rw [toNat_or_low ⟨_, isShifted.trans (Nat.mul_comm _ _)⟩ (by omega), isShifted, isFraction]
      rw [if_neg notLast, ← isNormal] at magnitudeLt ⊢
      exact toNat_or_low isHigh magnitudeLt

end SharpEmu.Gen5Spirv
