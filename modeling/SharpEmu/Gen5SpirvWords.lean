import SharpEmu.SpirvWords

/-!
# Words in emitted code

The translator's helpers for integer instructions.  It masks the amounts of the
shifts that it emits, so that all of them are defined.
-/

namespace SharpEmu.Gen5Spirv

open Spirv

def shiftLeftLogical (left right : Word) : Option Word :=
  Spirv.shiftLeftLogical left (right &&& 31)

def shiftRightLogical (left right : Word) : Option Word :=
  Spirv.shiftRightLogical left (right &&& 31)

def shiftRightArithmetic (left right : Word) : Option Word :=
  Spirv.shiftRightArithmetic left (right &&& 31)

theorem toNat_maskedAmount (amount : Word) : (amount &&& 31).toNat = amount.toNat % 32 :=
  toNat_and_low amount 31 5 rfl

theorem shiftLeftLogical_eq (left right : Word) :
    shiftLeftLogical left right = some (left <<< (right.toNat % 32)) := by
  unfold shiftLeftLogical
  rw [shiftLeftLogical_of_lt, toNat_maskedAmount]
  rw [toNat_maskedAmount]
  exact Nat.mod_lt _ (by decide)

theorem shiftRightLogical_eq (left right : Word) :
    shiftRightLogical left right = some (left >>> (right.toNat % 32)) := by
  unfold shiftRightLogical
  rw [shiftRightLogical_of_lt, toNat_maskedAmount]
  rw [toNat_maskedAmount]
  exact Nat.mod_lt _ (by decide)

variable {left right : Word} {count : ℕ}

theorem shiftLeftLogical_of_amount (isCount : right.toNat = count) (small : count < 32) :
    shiftLeftLogical left right = some (left <<< count) := by
  rw [shiftLeftLogical_eq, isCount, Nat.mod_eq_of_lt small]

theorem shiftRightLogical_of_amount (isCount : right.toNat = count) (small : count < 32) :
    shiftRightLogical left right = some (left >>> count) := by
  rw [shiftRightLogical_eq, isCount, Nat.mod_eq_of_lt small]

end SharpEmu.Gen5Spirv
