import SharpEmu.SpirvWords
import Mathlib.Data.Nat.ModEq
import Mathlib.Order.Lattice

/-!
# Integer instructions

More of the integer instructions of the shading language: extrema, bits that are
counted, found or reversed, and products of twice the width.  Each is related to the
numbers that its words stand for.
-/

namespace SharpEmu.Spirv

/-! ## Instructions -/

section Extrema

variable (left right : Word)

def uMin : Word := if right < left then right else left

def uMax : Word := if left < right then right else left

def sMin : Word := if right.slt left then right else left

def sMax : Word := if left.slt right then right else left

end Extrema

def bitCount (value : Word) : Word :=
  .ofNat 32 ((List.range 32).countP (value.getLsbD ·))

def bitReverse (value : Word) : Word := value.reverse

/-- The position of the lowest bit that is set, or all ones. -/
def findILsb (value : Word) : Word :=
  ((List.range 32).find? (value.getLsbD ·)).elim (BitVec.allOnes 32) (.ofNat 32 ·)

def bitFieldUExtract (base offset count : Word) : Option Word :=
  if offset.toNat + count.toNat ≤ 32 then
    some ((base.extractLsb' offset.toNat count.toNat).setWidth 32)
  else none

/-- The middle one of three. -/
def median {Value : Type} [LinearOrder Value] (first second third : Value) :
    Value :=
  if max (max first second) third = first then max second third
  else if max (max first second) third = second then max first third
  else max first second

/-! ## Extrema as numbers -/

theorem median_eq {Value : Type} [LinearOrder Value] (first second third : Value) :
    max (min first second) (min (max first second) third) =
      median first second third := by
  unfold median
  rcases le_total first second with below | below <;>
    rcases le_total second third with next | next <;>
    rcases le_total first third with outer | outer <;>
    simp only [max_eq_left, max_eq_right, min_eq_left, min_eq_right, below, next, outer] <;>
    grind

theorem toNat_uMin (left right : Word) : (uMin left right).toNat = min left.toNat right.toNat := by
  unfold uMin
  split <;> simp only [BitVec.lt_def] at * <;> omega

theorem toNat_uMax (left right : Word) : (uMax left right).toNat = max left.toNat right.toNat := by
  unfold uMax
  split <;> simp only [BitVec.lt_def] at * <;> omega

theorem toInt_sMin (left right : Word) : (sMin left right).toInt = min left.toInt right.toInt := by
  unfold sMin
  split <;> simp only [BitVec.slt_iff_toInt_lt] at * <;> omega

theorem toInt_sMax (left right : Word) : (sMax left right).toInt = max left.toInt right.toInt := by
  unfold sMax
  split <;> simp only [BitVec.slt_iff_toInt_lt] at * <;> omega

variable {value : Word}

theorem eq_ofNat_of_toNat {number : ℕ}
    (isNumber : value.toNat = number) : value = .ofNat 32 number := by
  rw [← isNumber, BitVec.ofNat_toNat, BitVec.setWidth_eq]

theorem eq_ofInt_of_toInt {number : ℤ}
    (isNumber : value.toInt = number) : value = .ofInt 32 number := by
  rw [← isNumber, BitVec.ofInt_toInt]

/-! ## Sums, differences and products -/

theorem add_eq_ofNat (left right : Word) : left + right = .ofNat 32 (left.toNat + right.toNat) := by
  apply BitVec.eq_of_toNat_eq
  rw [BitVec.toNat_add, BitVec.toNat_ofNat]

theorem sub_eq_ofInt (left right : Word) : left - right = .ofInt 32 (left.toNat - right.toNat) := by
  apply BitVec.eq_of_toNat_eq
  rw [BitVec.toNat_sub, BitVec.toNat_ofInt]
  have leftLt := left.isLt
  have rightLt := right.isLt
  omega

theorem mul_eq_ofNat (left right : Word) : left * right = .ofNat 32 (left.toNat * right.toNat) := by
  apply BitVec.eq_of_toNat_eq
  rw [BitVec.toNat_mul, BitVec.toNat_ofNat]

theorem mul_lt_wide (left right : Word) : left.toNat * right.toNat ≤ (2 ^ 32 - 1) * (2 ^ 32 - 1) :=
  Nat.mul_le_mul (Nat.le_pred_of_lt left.isLt) (Nat.le_pred_of_lt right.isLt)

theorem toNat_wideMul (left right : Word) :
    (left.setWidth 64 * right.setWidth 64).toNat = left.toNat * right.toNat := by
  have small := mul_lt_wide left right
  have leftLt := left.isLt
  have rightLt := right.isLt
  rw [BitVec.toNat_mul, BitVec.toNat_setWidth_of_le (by decide),
    BitVec.toNat_setWidth_of_le (by decide), Nat.mod_eq_of_lt (by omega)]

/-- The lower half of a wide word. -/
theorem setWidth_eq_ofInt (value : BitVec 64) : value.setWidth 32 = .ofInt 32 value.toInt := by
  apply BitVec.eq_of_toInt_eq
  rw [← BitVec.signExtend_eq_setWidth_of_le _ (by decide), BitVec.toInt_signExtend,
    BitVec.toInt_ofInt]
  rfl

theorem toInt_wideMul (left right : Word) :
    (left.signExtend 64 * right.signExtend 64).toInt = left.toInt * right.toInt := by
  have lower : -2 ^ (32 * 2 - 2) ≤ left.toInt * right.toInt :=
    BitVec.le_toInt_mul_toInt
  have upper : left.toInt * right.toInt ≤ 2 ^ (32 * 2 - 2) :=
    BitVec.toInt_mul_toInt_le
  rw [BitVec.toInt_mul, BitVec.toInt_signExtend_of_le (by decide),
    BitVec.toInt_signExtend_of_le (by decide)]
  apply Int.bmod_eq_of_le <;> omega

/-! ## Shifted words -/

theorem shiftLeft_eq_ofNat (value : Word) (count : ℕ) :
    value <<< count = .ofNat 32 (value.toNat * 2 ^ count) := by
  apply BitVec.eq_of_toNat_eq
  rw [BitVec.toNat_shiftLeft, BitVec.toNat_ofNat, Nat.shiftLeft_eq]

theorem shiftRight_eq_ofNat (value : Word) (count : ℕ) :
    value >>> count = .ofNat 32 (value.toNat / 2 ^ count) :=
  eq_ofNat_of_toNat (toNat_shiftRight value count)

theorem sshiftRight_eq_ofInt (value : Word) (count : ℕ) :
    value.sshiftRight count = .ofInt 32 (value.toInt / 2 ^ count) := by
  apply eq_ofInt_of_toInt
  rw [BitVec.toInt_sshiftRight, Int.shiftRight_eq_div_pow]
  rfl

theorem bitFieldUExtract_of_le (base : Word) {offset count : Word}
    (inside : offset.toNat + count.toNat ≤ 32) :
    bitFieldUExtract base offset count =
      some (.ofNat 32 (base.toNat / 2 ^ offset.toNat % 2 ^ count.toNat)) := by
  unfold bitFieldUExtract
  rw [if_pos inside]
  congr 1
  apply BitVec.eq_of_toNat_eq
  rw [BitVec.toNat_setWidth, BitVec.extractLsb'_toNat, BitVec.toNat_ofNat,
    Nat.shiftRight_eq_div_pow]

end SharpEmu.Spirv
