import Mathlib.Data.UInt

/-!
# Instructions on words

The integer instructions of the shading language on words of 32 bits.  The result
of some is undefined for some operands; there is none for these.
-/

namespace SharpEmu.Spirv

/-- A value of the unsigned or the signed integer type. -/
abbrev Word := BitVec 32

/-! ## Instructions that define every result -/

def select {Value : Type} (condition : Bool) (whenTrue whenFalse : Value) :
    Value :=
  if condition then whenTrue else whenFalse

@[simp]
theorem select_true {Value : Type} (whenTrue whenFalse : Value) :
    select true whenTrue whenFalse = whenTrue := rfl

@[simp]
theorem select_false {Value : Type} (whenTrue whenFalse : Value) :
    select false whenTrue whenFalse = whenFalse := rfl

/-- The position of the highest bit that is set, or all ones. -/
def findUMsb (value : Word) : Word :=
  if value = 0 then BitVec.allOnes 32 else .ofNat 32 value.toNat.log2

/-! ## Instructions with undefined results -/

section Shifts

variable {width : ℕ} (base amount : BitVec width)

/-- Undefined from the width of the base on. -/
def shiftLeftLogical : Option (BitVec width) :=
  if amount.toNat < width then some (base <<< amount) else none

def shiftRightLogical : Option (BitVec width) :=
  if amount.toNat < width then some (base >>> amount) else none

def shiftRightArithmetic : Option (BitVec width) :=
  if amount.toNat < width then some (base.sshiftRight' amount) else none

end Shifts

/-- The bits of a field, extended by its highest one; undefined for a field that
reaches beyond the word. -/
def bitFieldSExtract (base offset count : Word) : Option Word :=
  if offset.toNat + count.toNat ≤ 32 then
    some (((base.extractLsb' offset.toNat count.toNat)).signExtend 32)
  else none

section Defined

variable {width : ℕ} {base amount : BitVec width} (small : amount.toNat < width)

include small

theorem shiftLeftLogical_of_lt : shiftLeftLogical base amount = some (base <<< amount.toNat) :=
  if_pos small

theorem shiftRightLogical_of_lt : shiftRightLogical base amount = some (base >>> amount.toNat) :=
  if_pos small

end Defined

/-! ## Words as numbers -/

theorem toNat_and_low (value mask : Word) (count : ℕ) (isMask : mask.toNat = 2 ^ count - 1) :
    (value &&& mask).toNat = value.toNat % 2 ^ count := by
  rw [BitVec.toNat_and, isMask, Nat.and_two_pow_sub_one_eq_mod]

theorem toNat_and_one (value : Word) : (value &&& 1).toNat = value.toNat % 2 :=
  toNat_and_low value 1 1 rfl

variable {count : ℕ}

/-- Words without common bits are put together by addition. -/
theorem toNat_or_low {high low : Word}
    (isHigh : 2 ^ count ∣ high.toNat) (isLow : low.toNat < 2 ^ count) :
    (high ||| low).toNat = high.toNat + low.toNat := by
  obtain ⟨factor, isFactor⟩ := isHigh
  rw [BitVec.toNat_or, isFactor, ← Nat.two_pow_add_eq_or_of_lt isLow]

theorem toNat_shiftRight (value : Word) (count : ℕ) :
    (value >>> count).toNat = value.toNat / 2 ^ count := by
  rw [BitVec.toNat_ushiftRight, Nat.shiftRight_eq_div_pow]

theorem toNat_shiftLeft_of_lt {value : Word} (fits : value.toNat * 2 ^ count < 2 ^ 32) :
    (value <<< count).toNat = value.toNat * 2 ^ count := by
  rw [BitVec.toNat_shiftLeft, Nat.shiftLeft_eq, Nat.mod_eq_of_lt fits]

end SharpEmu.Spirv
