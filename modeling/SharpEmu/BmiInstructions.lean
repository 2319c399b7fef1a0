import SharpEmu.BitSelections
import Mathlib.Tactic.SplitIfs

/-!
# Software bit-manipulation instructions

A host without BMI1, BMI2 or ABM raises an illegal-instruction fault on the
guest's bit-manipulation opcodes, and `BmiInstructionEmulator` computes them on
plain 64-bit integers instead.  A function takes its operands as they stand in
the full registers, masks them to the operand width and returns the result
zero-extended, together with the flags word it leaves.
-/

namespace SharpEmu

inductive GprOperandSize
  | bits32
  | bits64
  deriving DecidableEq, Repr

namespace GprOperandSize

def widthBits : GprOperandSize → ℕ
  | bits32 => 32
  | bits64 => 64

theorem widthBits_le (size : GprOperandSize) : size.widthBits ≤ 64 := by
  cases size <;> decide

theorem widthBits_pos (size : GprOperandSize) : 0 < size.widthBits := by
  cases size <;> decide

def narrow (size : GprOperandSize) (value : BitVec 64) : BitVec size.widthBits :=
  value.setWidth size.widthBits

/-- A result of the operand's width, zero-extended to the full register. -/
def widen (size : GprOperandSize) (value : BitVec size.widthBits) :
    BitVec 64 :=
  value.setWidth 64

end GprOperandSize

namespace BmiInstructionEmulator

open GprOperandSize

def flagCarry : BitVec 32 := 1#32 <<< 0
def flagZero : BitVec 32 := 1#32 <<< 6
def flagSign : BitVec 32 := 1#32 <<< 7
def flagOverflow : BitVec 32 := 1#32 <<< 11

def widthMask : GprOperandSize → BitVec 64
  | bits64 => BitVec.allOnes 64
  | bits32 => 0xFFFFFFFF#64

def signSet (value : BitVec 64) : GprOperandSize → Bool
  | bits64 => value >>> 63 != 0#64
  | bits32 => value &&& 0x80000000#64 != 0#64

def withFlag (eflags flag : BitVec 32) (set : Bool) : BitVec 32 :=
  if set then eflags ||| flag else eflags &&& ~~~flag

def applyLogicFlags (eflags : BitVec 32) (result : BitVec 64)
    (size : GprOperandSize) (carry : Bool) : BitVec 32 :=
  let eflags := withFlag eflags flagCarry carry
  let eflags := withFlag eflags flagZero (result == 0#64)
  let eflags := withFlag eflags flagSign (signSet result size)
  withFlag eflags flagOverflow false

-- No shift below reaches the width of its operand, so the reduction of shift
-- counts modulo 64 that the language makes is never seen.

def andn (src1 src2 : BitVec 64) (size : GprOperandSize)
    (eflags : BitVec 32) : BitVec 64 × BitVec 32 :=
  let result := (~~~src1 &&& src2) &&& widthMask size
  (result, applyLogicFlags eflags result size false)

def blsi (src : BitVec 64) (size : GprOperandSize) (eflags : BitVec 32) : BitVec 64 × BitVec 32 :=
  let s := src &&& widthMask size
  let result := ((0#64 - s) &&& s) &&& widthMask size
  (result, applyLogicFlags eflags result size (s != 0#64))

def blsmsk (src : BitVec 64) (size : GprOperandSize) (eflags : BitVec 32) : BitVec 64 × BitVec 32 :=
  let s := src &&& widthMask size
  let result := ((s - 1#64) ^^^ s) &&& widthMask size
  (result, applyLogicFlags eflags result size (s == 0#64))

def blsr (src : BitVec 64) (size : GprOperandSize) (eflags : BitVec 32) : BitVec 64 × BitVec 32 :=
  let s := src &&& widthMask size
  let result := ((s - 1#64) &&& s) &&& widthMask size
  (result, applyLogicFlags eflags result size (s == 0#64))

def bextr (src control : BitVec 64) (size : GprOperandSize)
    (eflags : BitVec 32) : BitVec 64 × BitVec 32 :=
  let bits := size.widthBits
  let start := (control &&& 0xFF#64).toNat
  let length := ((control >>> 8) &&& 0xFF#64).toNat
  let selected :=
    if bits ≤ start then 0#64
    else
      let shifted := (src &&& widthMask size) >>> start
      if length = 0 then 0#64
      else if bits ≤ length then shifted
      else shifted &&& ((1#64 <<< length) - 1#64)
  let result := selected &&& widthMask size
  let eflags := withFlag eflags flagZero (result == 0#64)
  let eflags := withFlag eflags flagCarry false
  (result, withFlag eflags flagOverflow false)

def bzhi (src index : BitVec 64) (size : GprOperandSize)
    (eflags : BitVec 32) : BitVec 64 × BitVec 32 :=
  let bits := size.widthBits
  let s := src &&& widthMask size
  let n := (index &&& 0xFF#64).toNat
  let result := if bits ≤ n then s else s &&& ((1#64 <<< n) - 1#64)
  (result, applyLogicFlags eflags result size (decide (bits ≤ n)))

def applyCountFlags (eflags : BitVec 32) (result : BitVec 64) (carry : Bool) :
    BitVec 32 :=
  let eflags := withFlag eflags flagCarry carry
  withFlag eflags flagZero (result == 0#64)

def tzcnt (src : BitVec 64) (size : GprOperandSize) (eflags : BitVec 32) : BitVec 64 × BitVec 32 :=
  let s := src &&& widthMask size
  let result :=
    if s = 0#64 then BitVec.ofNat 64 size.widthBits
    else
      match size with
      | bits64 => s.ctz
      | bits32 => (s.setWidth 32).ctz.setWidth 64
  (result, applyCountFlags eflags result (s == 0#64))

def lzcnt (src : BitVec 64) (size : GprOperandSize) (eflags : BitVec 32) : BitVec 64 × BitVec 32 :=
  let s := src &&& widthMask size
  let result :=
    if s = 0#64 then BitVec.ofNat 64 size.widthBits
    else
      match size with
      | bits64 => s.clz
      | bits32 => (s.setWidth 32).clz.setWidth 64
  (result, applyCountFlags eflags result (s == 0#64))

def maskedCount (count : BitVec 32) (size : GprOperandSize) : ℕ :=
  (count &&& BitVec.ofNat 32 (size.widthBits - 1)).toNat

def rorx (src : BitVec 64) (count : BitVec 32) (size : GprOperandSize) :
    BitVec 64 :=
  let s := src &&& widthMask size
  let rotate := maskedCount count size
  if rotate = 0 then s
  else
    ((s >>> rotate) ||| (s <<< (size.widthBits - rotate))) &&& widthMask size

def sarx (src : BitVec 64) (count : BitVec 32) (size : GprOperandSize) :
    BitVec 64 :=
  let shift := maskedCount count size
  match size with
  | bits64 => src.sshiftRight shift
  | bits32 =>
      ((src.setWidth 32).sshiftRight shift).setWidth 64 &&& widthMask size

def shlx (src : BitVec 64) (count : BitVec 32) (size : GprOperandSize) :
    BitVec 64 :=
  (src <<< maskedCount count size) &&& widthMask size

def shrx (src : BitVec 64) (count : BitVec 32) (size : GprOperandSize) :
    BitVec 64 :=
  (src &&& widthMask size) >>> maskedCount count size

def pdepStep (src selector : BitVec 64) (state : BitVec 64 × ℕ) (i : ℕ) : BitVec 64 × ℕ :=
  let position := 1#64 <<< i
  if selector &&& position != 0#64 then
    (if (src >>> state.2) &&& 1#64 != 0#64 then state.1 ||| position
      else state.1,
      state.2 + 1)
  else state

def pdep (src mask : BitVec 64) (size : GprOperandSize) : BitVec 64 :=
  let selector := mask &&& widthMask size
  let loop := (List.range size.widthBits).foldl (pdepStep src selector) (0#64, 0)
  loop.1 &&& widthMask size

def pextStep (src selector : BitVec 64) (state : BitVec 64 × ℕ) (i : ℕ) : BitVec 64 × ℕ :=
  if selector &&& (1#64 <<< i) != 0#64 then
    (if (src >>> i) &&& 1#64 != 0#64 then state.1 ||| (1#64 <<< state.2)
      else state.1,
      state.2 + 1)
  else state

def pext (src mask : BitVec 64) (size : GprOperandSize) : BitVec 64 :=
  let selector := mask &&& widthMask size
  let loop := (List.range size.widthBits).foldl (pextStep src selector) (0#64, 0)
  loop.1 &&& widthMask size

example : pdep 0x2D#64 0xF0F0#64 bits64 = 0x20D0#64 := by decide

example : pext 0x20D0#64 0xF0F0#64 bits32 = 0x2D#64 := by decide

/-! ### Masks and single bits -/

theorem and_widthMask (value : BitVec 64) (size : GprOperandSize) :
    value &&& widthMask size = size.widen (size.narrow value) := by
  cases size with
  | bits64 =>
    simp only [widthMask, widen, narrow, widthBits, BitVec.setWidth_eq]
    exact BitVec.and_allOnes
  | bits32 =>
    have mask : (0xFFFFFFFF#64 : BitVec 64) = (BitVec.allOnes 32).setWidth 64 := by decide
    simp only [widthMask, widen, narrow, widthBits, mask]
    apply BitVec.eq_of_getLsbD_eq
    intro i inside
    simp only [BitVec.getLsbD_and, BitVec.getLsbD_setWidth,
      BitVec.getLsbD_allOnes, inside, decide_true, Bool.true_and]
    exact Bool.and_comm _ _

@[simp]
theorem narrow_widen (size : GprOperandSize)
    (value : BitVec size.widthBits) : size.narrow (size.widen value) = value := by
  simp only [narrow, widen]
  rw [BitVec.setWidth_setWidth_of_le _ size.widthBits_le, BitVec.setWidth_eq]

@[simp]
theorem widen_eq_zero {size : GprOperandSize} {value : BitVec size.widthBits} :
    size.widen value = 0#64 ↔ value = 0#(size.widthBits) := by
  constructor
  · intro zero
    have := congrArg size.narrow zero
    rw [narrow_widen] at this
    rw [this]
    simp [narrow]
  · intro zero
    simp [zero, widen]

theorem beq_zero_widen (size : GprOperandSize) (value : BitVec size.widthBits) :
    (size.widen value == 0#64) = (value == 0#(size.widthBits)) := by
  rw [Bool.eq_iff_iff, beq_iff_eq, beq_iff_eq, widen_eq_zero]

theorem getLsbD_widen (size : GprOperandSize) (value : BitVec size.widthBits)
    (i : ℕ) : (size.widen value).getLsbD i = value.getLsbD i := by
  rw [widen, BitVec.getLsbD_setWidth]
  by_cases inside : i < 64
  · rw [decide_eq_true inside, Bool.true_and]
  · have := size.widthBits_le
    rw [decide_eq_false inside, Bool.false_and, BitVec.getLsbD_of_ge value i (by omega)]

theorem getLsbD_narrow (size : GprOperandSize) (value : BitVec 64) {i : ℕ}
    (inside : i < size.widthBits) :
    (size.narrow value).getLsbD i = value.getLsbD i := by
  rw [narrow, BitVec.getLsbD_setWidth, decide_eq_true inside, Bool.true_and]

theorem and_position_ne_zero (value : BitVec 64) {i : ℕ} (inside : i < 64) :
    (value &&& (1#64 <<< i) != 0#64) = value.getLsbD i := by
  have nonzero : BitVec.twoPow 64 i ≠ 0#64 := by
    intro zero
    have bit := congrArg (·.getLsbD i) zero
    simp [inside] at bit
  rw [← BitVec.twoPow_eq, BitVec.and_twoPow]
  cases value.getLsbD i with
  | false => simp
  | true => simpa using nonzero

theorem shifted_bit_ne_zero (value : BitVec 64) (i : ℕ) :
    ((value >>> i) &&& 1#64 != 0#64) = value.getLsbD i := by
  have bit := and_position_ne_zero (value >>> i) (i := 0) (by decide)
  rw [BitVec.shiftLeft_zero, BitVec.getLsbD_ushiftRight, Nat.add_zero] at bit
  exact bit

theorem signSet_widen (size : GprOperandSize) (value : BitVec size.widthBits) :
    signSet (size.widen value) size = value.msb := by
  rw [BitVec.msb_eq_getLsbD_last]
  cases size with
  | bits64 =>
    have shifted := shifted_bit_ne_zero (widen bits64 value) 63
    have mask : widen bits64 value >>> 63 &&& 1#64 = widen bits64 value >>> 63 := by
      apply BitVec.eq_of_getLsbD_eq
      intro i _
      rw [BitVec.getLsbD_and, BitVec.getLsbD_ushiftRight, BitVec.getLsbD_one]
      rcases Nat.eq_zero_or_pos i with rfl | positive
      · simp
      · rw [BitVec.getLsbD_of_ge _ (63 + i) (by omega), Bool.false_and]
    rw [mask, getLsbD_widen] at shifted
    exact shifted
  | bits32 =>
    have position := and_position_ne_zero (widen bits32 value) (i := 31) (by decide)
    rw [getLsbD_widen] at position
    exact position

end BmiInstructionEmulator

end SharpEmu
