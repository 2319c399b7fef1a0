import Mathlib.Tactic.Common
import Mathlib.Logic.Function.Iterate

/-!
# Reflected cyclic redundancy checks

A check takes in the bits of its input one at a time, least significant first: it
is shifted, and a bit that falls out adds the polynomial.  Since the steps are
linear, all bits of a byte may be taken in at once with a table.
-/

namespace SharpEmu.ReflectedChecks

variable {width : ℕ} (polynomial : BitVec width)

def bitStep (check : BitVec width) : BitVec width :=
  if check.getLsbD 0 then polynomial ^^^ (check >>> 1) else check >>> 1

def byteStep (check : BitVec width) (byte : BitVec 8) : BitVec width :=
  (bitStep polynomial)^[8] (check ^^^ byte.setWidth width)

theorem bitStep_xor (left right : BitVec width) : bitStep polynomial (left ^^^ right) =
      bitStep polynomial left ^^^ bitStep polynomial right := by
  unfold bitStep
  rw [BitVec.getLsbD_xor, BitVec.ushiftRight_xor_distrib]
  cases left.getLsbD 0 <;> cases right.getLsbD 0 <;>
    simp only [Bool.xor_true, Bool.xor_false, Bool.not_true, Bool.not_false,
      Bool.false_eq_true, if_true, if_false]
  case false.true => ac_rfl
  case true.false => ac_rfl
  case true.true =>
    calc left >>> 1 ^^^ right >>> 1
      _ = (polynomial ^^^ polynomial) ^^^ (left >>> 1 ^^^ right >>> 1) := by
        rw [BitVec.xor_self, BitVec.zero_xor]
      _ = polynomial ^^^ left >>> 1 ^^^ (polynomial ^^^ right >>> 1) := by
        ac_rfl

theorem bitSteps_xor (count : ℕ) (left right : BitVec width) :
    (bitStep polynomial)^[count] (left ^^^ right) = (bitStep polynomial)^[count] left ^^^
        (bitStep polynomial)^[count] right := by
  induction count generalizing left right with
  | zero => rfl
  | succ count ih =>
    rw [Function.iterate_succ_apply, Function.iterate_succ_apply,
      Function.iterate_succ_apply, bitStep_xor, ih]

theorem bitSteps_of_zeros (count : ℕ) (check : BitVec width)
    (zeros : ∀ index < count, check.getLsbD index = false) :
    (bitStep polynomial)^[count] check = check >>> count := by
  induction count generalizing check with
  | zero => exact (BitVec.ushiftRight_zero check).symm
  | succ count ih =>
    have isShift : bitStep polynomial check = check >>> 1 := by
      rw [bitStep, zeros 0 (by omega)]
      rfl
    rw [Function.iterate_succ_apply, isShift, ih, ← BitVec.shiftRight_add, Nat.add_comm]
    intro index before
    rw [BitVec.getLsbD_ushiftRight]
    exact zeros _ (by omega)

theorem byteStep_eq_table (check : BitVec width) (byte : BitVec 8) :
    byteStep polynomial check byte = (bitStep polynomial)^[8]
          (((check ^^^ byte.setWidth width).setWidth 8).setWidth width) ^^^
        (check >>> 8) := by
  have isSplit : check ^^^ byte.setWidth width =
      ((check ^^^ byte.setWidth width).setWidth 8).setWidth width ^^^ ((check >>> 8) <<< 8) := by
    apply BitVec.eq_of_getLsbD_eq
    intro index inside
    simp only [BitVec.getLsbD_xor, BitVec.getLsbD_setWidth,
      BitVec.getLsbD_shiftLeft, BitVec.getLsbD_ushiftRight]
    by_cases low : index < 8
    · simp [low, inside]
    · have above : byte.getLsbD index = false :=
        BitVec.getLsbD_of_ge byte index (by omega)
      simp [low, inside, above, Nat.add_sub_of_le (Nat.le_of_not_lt low)]
  have isShift : (bitStep polynomial)^[8] ((check >>> 8) <<< 8) = check >>> 8 := by
    rw [bitSteps_of_zeros]
    · apply BitVec.eq_of_getLsbD_eq
      intro index inside
      simp only [BitVec.getLsbD_ushiftRight, BitVec.getLsbD_shiftLeft]
      by_cases reaches : 8 + index < width
      · simp [reaches]
      · simp [reaches, BitVec.getLsbD_of_ge check (8 + index) (by omega)]
    · intro index low
      rw [BitVec.getLsbD_shiftLeft]
      simp [low]
  calc byteStep polynomial check byte
    _ = (bitStep polynomial)^[8] (((check ^^^ byte.setWidth width).setWidth 8).setWidth width ^^^
            ((check >>> 8) <<< 8)) := by rw [byteStep, ← isSplit]
    _ = _ := by rw [bitSteps_xor, isShift]

end SharpEmu.ReflectedChecks
