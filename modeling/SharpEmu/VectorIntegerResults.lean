import SharpEmu.VectorIntegers
import Mathlib.Tactic.Ring

/-!
# Results of the integer instructions

What each integer instruction of the vector unit computes, as numbers, and when the
emitted code computes it.
-/

namespace SharpEmu.Gen5Spirv.VectorAlu

open Spirv

/-! ## Prescribed results -/

/-- The number of bits that are set among those of some positions. -/
def countBits (value : Word) (counted : ℕ → Bool) : ℕ :=
  (List.range 32).countP fun position =>
    counted position && value.getLsbD position

def sumOutcome (sum : ℕ) : Outcome :=
  { result := .ofNat 32 sum, carryOut := some (2 ^ 32 ≤ sum) }

def differenceOutcome (left right : ℕ) : Outcome :=
  { result := .ofInt 32 (left - right), carryOut := some (left < right) }

def wideOutcome (number : ℕ) : Outcome :=
  { result := .ofNat 32 number
    high := some (.ofNat 32 (number / 2 ^ 32))
    carryOut := some (2 ^ 64 ≤ number) }

/-- The instruction set's result, with the sources as unsigned and as signed
numbers. -/
def prescribed (operands : Operands) (opcode : Opcode) : Outcome :=
  let unsigned0 := operands.source0.toNat
  let unsigned1 := operands.source1.toNat
  let unsigned2 := operands.source2.toNat
  let signed0 := operands.source0.toInt
  let signed1 := operands.source1.toInt
  let signed2 := operands.source2.toInt
  match opcode with
  | .vAndB32 => { result := operands.source0 &&& operands.source1 }
  | .vOrB32 => { result := operands.source0 ||| operands.source1 }
  | .vXorB32 => { result := operands.source0 ^^^ operands.source1 }
  | .vXnorB32 => { result := ~~~ (operands.source0 ^^^ operands.source1) }
  | .vNotB32 => { result := ~~~ operands.source0 }
  | .vBfrevB32 => { result := operands.source0.reverse }
  | .vFfblB32 => { result := findILsb operands.source0 }
  | .vAddI32 | .vAddU32 => { result := .ofNat 32 (unsigned0 + unsigned1) }
  | .vAddcU32 | .vAddCoCiU32 =>
      sumOutcome (unsigned0 + unsigned1 + operands.carryMask.toNat)
  | .vSubI32 | .vSubU32 => { result := .ofInt 32 (unsigned0 - unsigned1) }
  | .vSubrevI32 | .vSubrevU32 => { result := .ofInt 32 (unsigned1 - unsigned0) }
  | .vSubbU32 =>
      differenceOutcome unsigned0 (unsigned1 + operands.carryMask.toNat)
  | .vSubbrevU32 =>
      differenceOutcome unsigned1 (unsigned0 + operands.carryMask.toNat)
  | .vMulLoU32 | .vMulLoI32 => { result := .ofNat 32 (unsigned0 * unsigned1) }
  | .vMulU32U24 =>
      { result := .ofNat 32 (unsigned0 % 2 ^ 24 * (unsigned1 % 2 ^ 24)) }
  | .vMulHiU32 => { result := .ofNat 32 (unsigned0 * unsigned1 / 2 ^ 32) }
  | .vMulHiU32U24 =>
      { result :=
          .ofNat 32 (unsigned0 % 2 ^ 24 * (unsigned1 % 2 ^ 24) / 2 ^ 32) }
  | .vMulHiI32 => { result := .ofInt 32 (signed0 * signed1 / 2 ^ 32) }
  | .vBcntU32B32 =>
      { result := .ofNat 32 (countBits operands.source0 (fun _ => true) + unsigned1) }
  | .vMbcntHiU32B32 =>
      { result := .ofNat 32 (unsigned1 + countBits operands.source0
          fun position => position + 32 < operands.guestLane) }
  | .vMbcntLoU32B32 =>
      { result := .ofNat 32 (unsigned1 + countBits operands.source0
          fun position => position < operands.guestLane) }
  | .vBfmB32 =>
      { result :=
          .ofNat 32 ((2 ^ (unsigned0 % 32) - 1) * 2 ^ (unsigned1 % 32)) }
  | .vMadU32U24 =>
      { result :=
          .ofNat 32 (unsigned0 % 2 ^ 24 * (unsigned1 % 2 ^ 24) + unsigned2) }
  | .vMadU32U16 =>
      { result :=
          .ofNat 32 (unsigned0 % 2 ^ 16 * (unsigned1 % 2 ^ 16) + unsigned2) }
  | .vLshrB32 => { result := .ofNat 32 (unsigned0 / 2 ^ (unsigned1 % 32)) }
  | .vLshrrevB32 => { result := .ofNat 32 (unsigned1 / 2 ^ (unsigned0 % 32)) }
  | .vLshlB32 => { result := .ofNat 32 (unsigned0 * 2 ^ (unsigned1 % 32)) }
  | .vLshlrevB32 => { result := .ofNat 32 (unsigned1 * 2 ^ (unsigned0 % 32)) }
  | .vAshrI32 => { result := .ofInt 32 (signed0 / 2 ^ (unsigned1 % 32)) }
  | .vAshrrevI32 => { result := .ofInt 32 (signed1 / 2 ^ (unsigned0 % 32)) }
  | .vLshlAddU32 =>
      { result := .ofNat 32 (unsigned0 * 2 ^ (unsigned1 % 32) + unsigned2) }
  | .vLshlOrU32 =>
      { result :=
          .ofNat 32 (unsigned0 * 2 ^ (unsigned1 % 32)) ||| operands.source2 }
  | .vAndOrB32 =>
      { result := (operands.source0 &&& operands.source1) ||| operands.source2 }
  | .vOr3U32 =>
      { result := operands.source0 ||| operands.source1 ||| operands.source2 }
  | .vAddLshlU32 =>
      { result := .ofNat 32 ((unsigned0 + unsigned1) * 2 ^ (unsigned2 % 32)) }
  | .vAdd3U32 => { result := .ofNat 32 (unsigned0 + unsigned1 + unsigned2) }
  | .vMinU32 => { result := .ofNat 32 (min unsigned0 unsigned1) }
  | .vMaxU32 => { result := .ofNat 32 (max unsigned0 unsigned1) }
  | .vMin3U32 =>
      { result := .ofNat 32 (min (min unsigned0 unsigned1) unsigned2) }
  | .vMax3U32 =>
      { result := .ofNat 32 (max (max unsigned0 unsigned1) unsigned2) }
  | .vMinI32 => { result := .ofInt 32 (min signed0 signed1) }
  | .vMaxI32 => { result := .ofInt 32 (max signed0 signed1) }
  | .vMin3I32 => { result := .ofInt 32 (min (min signed0 signed1) signed2) }
  | .vMax3I32 => { result := .ofInt 32 (max (max signed0 signed1) signed2) }
  | .vMed3U32 => { result := .ofNat 32 (median unsigned0 unsigned1 unsigned2) }
  | .vMed3I32 => { result := .ofInt 32 (median signed0 signed1 signed2) }
  | .vAddCoU32 => sumOutcome (unsigned0 + unsigned1)
  | .vSubCoU32 => differenceOutcome unsigned0 unsigned1
  | .vSubrevCoU32 => differenceOutcome unsigned1 unsigned0
  | .vMadU64U32 =>
      wideOutcome (unsigned0 * unsigned1 + operands.wideSource2.toNat)
  | .vBfeU32 =>
      { result :=
          .ofNat 32 (unsigned0 / 2 ^ (unsigned1 % 32) % 2 ^ (unsigned2 % 32)) }
  | .vBfiB32 =>
      { result := (operands.source0 &&& operands.source1) |||
          (~~~ operands.source0 &&& operands.source2) }

/-- The emitted code computes the result and all of its instructions are defined. -/
def Computes (operands : Operands) (opcode : Opcode) : Prop :=
  tryEmitVectorAlu operands opcode = some (prescribed operands opcode)

/-! ## Single results -/

variable {value expected : Word}

theorem leaves_congr (same : value = expected) : leaves value = some { result := expected } := by
  rw [same]
  rfl

theorem destinationOnly_congr {value : Option Word} (same : value = some expected) :
    destinationOnly value = some { result := expected } := by
  rw [same]
  rfl

/-- The code of a sum leaves the low bits of the exact sum. -/
theorem add_ofNat (left : ℕ) (right : Word) :
    .ofNat 32 left + right = .ofNat 32 (left + right.toNat) := by
  apply BitVec.eq_of_toNat_eq
  rw [BitVec.toNat_add, BitVec.toNat_ofNat, BitVec.toNat_ofNat, Nat.mod_add_mod]

theorem toNat_and_24 (value : Word) : (value &&& 0x00FFFFFF).toNat = value.toNat % 2 ^ 24 :=
  toNat_and_low value _ 24 rfl

theorem toNat_and_16 (value : Word) : (value &&& 0xFFFF).toNat = value.toNat % 2 ^ 16 :=
  toNat_and_low value _ 16 rfl

theorem emitMulHigh_eq (left right : Word) :
    emitMulHigh left right = .ofNat 32 (left.toNat * right.toNat / 2 ^ 32) := by
  unfold emitMulHigh
  apply BitVec.eq_of_toNat_eq
  rw [BitVec.toNat_setWidth, BitVec.toNat_ushiftRight, toNat_wideMul,
    BitVec.toNat_ofNat, Nat.shiftRight_eq_div_pow]

theorem emitSignedMulHigh_eq (left right : Word) : emitSignedMulHigh left right =
      .ofInt 32 (left.toInt * right.toInt / 2 ^ 32) := by
  unfold emitSignedMulHigh
  rw [setWidth_eq_ofInt, BitVec.toInt_sshiftRight, toInt_wideMul, Int.shiftRight_eq_div_pow]
  rfl

theorem shiftRightArithmetic_eq (left right : Word) : shiftRightArithmetic left right =
      some (.ofInt 32 (left.toInt / 2 ^ (right.toNat % 32))) := by
  unfold shiftRightArithmetic Spirv.shiftRightArithmetic
  rw [if_pos, BitVec.sshiftRight_eq', toNat_maskedAmount, sshiftRight_eq_ofInt]
  rw [toNat_maskedAmount]
  exact Nat.mod_lt _ (by decide)

theorem shiftLeftLogical_and_31 (left right : Word) : shiftLeftLogical left (right &&& 31) =
      some (.ofNat 32 (left.toNat * 2 ^ (right.toNat % 32))) := by
  rw [shiftLeftLogical_eq, toNat_maskedAmount, Nat.mod_mod, shiftLeft_eq_ofNat]

theorem ofNat_shiftLeft (number count : ℕ) :
    BitVec.ofNat 32 number <<< count = .ofNat 32 (number * 2 ^ count) := by
  apply BitVec.eq_of_toNat_eq
  rw [shiftLeft_eq_ofNat, BitVec.toNat_ofNat, BitVec.toNat_ofNat,
    BitVec.toNat_ofNat, Nat.mod_mul_mod]

theorem emitBfm_eq (operands : Operands) : emitBfm operands =
      some (.ofNat 32 ((2 ^ (operands.source0.toNat % 32) - 1) *
        2 ^ (operands.source1.toNat % 32))) := by
  have isMask : (BitVec.ofNat 32 ((1 : Word).toNat * 2 ^ (operands.source0.toNat % 32)) - 1).toNat =
        2 ^ (operands.source0.toNat % 32) - 1 := by
    have below : operands.source0.toNat % 32 ≤ 31 :=
      Nat.le_of_lt_succ (Nat.mod_lt _ (by decide))
    have small : 2 ^ (operands.source0.toNat % 32) ≤ 2 ^ 31 :=
      Nat.pow_le_pow_right (by decide) below
    have positive := Nat.two_pow_pos (operands.source0.toNat % 32)
    have one : (1 : Word).toNat = 1 := rfl
    rw [BitVec.toNat_sub, BitVec.toNat_ofNat, one, Nat.one_mul]
    generalize 2 ^ (operands.source0.toNat % 32) = power at small positive
    omega
  unfold emitBfm
  rw [shiftLeftLogical_and_31, Option.bind_eq_bind, Option.bind_some,
    shiftLeftLogical_eq, shiftLeft_eq_ofNat, isMask]

/-! ## Counted bits -/

theorem bitCount_eq (value : Word) :
    bitCount value = .ofNat 32 (countBits value fun _ => true) := by
  unfold bitCount countBits
  simp only [Bool.true_and]

theorem bitCount_and {mask : Word} {counted : ℕ → Bool}
    (isMask : ∀ position < 32, mask.getLsbD position = counted position) :
    bitCount (value &&& mask) = .ofNat 32 (countBits value counted) := by
  unfold bitCount countBits
  congr 1
  apply List.countP_congr
  intro position member
  rw [BitVec.getLsbD_and, isMask position (List.mem_range.mp member), Bool.and_comm]

theorem add_ofNat_right (left : Word) (right : ℕ) :
    left + .ofNat 32 right = .ofNat 32 (left.toNat + right) := by
  rw [BitVec.add_comm, add_ofNat, Nat.add_comm]

def laneMask (lane : Fin 64) : Word := .ofNat 32 (2 ^ (lane.val % 32)) - 1

theorem partialMask_eq (operands : Operands) :
    partialMask operands = some (laneMask operands.guestLane) := by
  have masks : ∀ lane : Fin 64, (shiftLeftLogical 1 (BitVec.ofNat 32 lane &&& 31)).map (· - 1) =
        some (laneMask lane) := by
    decide +kernel
  rw [← masks]
  unfold partialMask
  dsimp only
  rw [shiftLeftLogical_eq]
  rfl

theorem getLsbD_lowMask (lane : Fin 64) : ∀ position < 32,
      (select (decide ((32 : Word) ≤ BitVec.ofNat 32 lane)) 0xFFFFFFFF
        (laneMask lane)).getLsbD position = decide (position < lane) := by
  revert lane
  decide +kernel

theorem getLsbD_highMask (lane : Fin 64) : ∀ position < 32,
      (select (decide ((32 : Word) ≤ BitVec.ofNat 32 lane)) (laneMask lane)
        0).getLsbD position = decide (position + 32 < lane) := by
  revert lane
  decide +kernel

theorem emitMbcntLo_eq (operands : Operands) : emitMbcntLo operands =
      some (.ofNat 32 (operands.source1.toNat + countBits operands.source0
        fun position => position < operands.guestLane)) := by
  unfold emitMbcntLo isUpperHalf
  rw [partialMask_eq, Option.bind_eq_bind, Option.bind_some,
    bitCount_and (getLsbD_lowMask operands.guestLane), add_ofNat_right]
  rfl

theorem emitMbcntHi_eq (operands : Operands) : emitMbcntHi operands =
      some (.ofNat 32 (operands.source1.toNat + countBits operands.source0
        fun position => position + 32 < operands.guestLane)) := by
  have counts : select (isUpperHalf operands)
      (bitCount (operands.source0 &&& laneMask operands.guestLane)) 0 =
        bitCount (operands.source0 &&&
          select (isUpperHalf operands) (laneMask operands.guestLane) 0) := by
    cases isUpperHalf operands with
    | true => rfl
    | false =>
      have isZero : operands.source0 &&& 0 = 0 := BitVec.and_zero
      rw [select_false, select_false, isZero]
      decide +kernel
  unfold emitMbcntHi
  rw [partialMask_eq, Option.bind_eq_bind, Option.bind_some, counts]
  unfold isUpperHalf
  rw [bitCount_and (getLsbD_highMask operands.guestLane), add_ofNat_right]
  rfl

/-! ## Carries -/

theorem toNat_carryIn (operands : Operands) :
    (select operands.carryMask (1 : Word) 0).toNat = operands.carryMask.toNat := by
  cases operands.carryMask <;> rfl

theorem emitAddWithCarry_eq (operands : Operands) : emitAddWithCarry operands =
      sumOutcome (operands.source0.toNat + operands.source1.toNat + operands.carryMask.toNat) := by
  have isCarry := toNat_carryIn operands
  have carryLe := Bool.toNat_le operands.carryMask
  have leftLt := operands.source0.isLt
  have rightLt := operands.source1.isLt
  have isSum : operands.source0 + operands.source1 + select operands.carryMask (1 : Word) 0 =
        .ofNat 32 (operands.source0.toNat + operands.source1.toNat + operands.carryMask.toNat) := by
    rw [add_eq_ofNat operands.source0 operands.source1, add_ofNat, isCarry]
  unfold emitAddWithCarry sumOutcome
  dsimp only
  rw [Outcome.mk.injEq]
  refine ⟨isSum, rfl, ?_⟩
  congr 1
  rw [← Bool.decide_or, decide_eq_decide]
  simp only [BitVec.lt_def, BitVec.toNat_add, isCarry]
  omega

theorem borrowed_eq (left right borrowIn : Word) (small : borrowIn.toNat ≤ 1) :
    ({ result := left - right - borrowIn
       carryOut := some (left < right || left - right < borrowIn) } : Outcome) =
      differenceOutcome left.toNat (right.toNat + borrowIn.toNat) := by
  have leftLt := left.isLt
  have rightLt := right.isLt
  unfold differenceOutcome
  rw [Outcome.mk.injEq]
  refine ⟨?_, rfl, ?_⟩
  · apply BitVec.eq_of_toNat_eq
    rw [BitVec.toNat_sub, BitVec.toNat_sub, BitVec.toNat_ofInt]
    omega
  · congr 1
    rw [← Bool.decide_or, decide_eq_decide]
    simp only [BitVec.lt_def, BitVec.toNat_sub]
    omega

theorem emitSubtractWithBorrow_eq (operands : Operands) (reverse : Bool) :
    emitSubtractWithBorrow operands reverse =
      if reverse then
        differenceOutcome operands.source1.toNat (operands.source0.toNat + operands.carryMask.toNat)
      else
        differenceOutcome operands.source0.toNat
          (operands.source1.toNat + operands.carryMask.toNat) := by
  have small : (select operands.carryMask (1 : Word) 0).toNat ≤ 1 := by
    rw [toNat_carryIn]
    exact Bool.toNat_le _
  rw [← toNat_carryIn]
  cases reverse with
  | true => exact borrowed_eq operands.source1 operands.source0 _ small
  | false => exact borrowed_eq operands.source0 operands.source1 _ small

theorem difference_eq (left right : Word) :
    ({ result := left - right, carryOut := some (left < right) } : Outcome) =
      differenceOutcome left.toNat right.toNat := by
  rw [sub_eq_ofInt]
  rfl

theorem emitAddCo_eq (left right : Word) :
    ({ result := left + right, carryOut := some (left + right < left) } : Outcome) =
      sumOutcome (left.toNat + right.toNat) := by
  have leftLt := left.isLt
  have rightLt := right.isLt
  unfold sumOutcome
  rw [Outcome.mk.injEq]
  refine ⟨add_eq_ofNat left right, rfl, ?_⟩
  congr 1
  rw [decide_eq_decide, BitVec.lt_def, BitVec.toNat_add]
  omega

theorem emitMadU64U32_eq (operands : Operands) : emitMadU64U32 operands =
      wideOutcome (operands.source0.toNat * operands.source1.toNat +
        operands.wideSource2.toNat) := by
  have isProduct := toNat_wideMul operands.source0 operands.source1
  have productLe := mul_lt_wide operands.source0 operands.source1
  have addendLt := operands.wideSource2.isLt
  unfold emitMadU64U32 wideOutcome
  dsimp only
  rw [Outcome.mk.injEq]
  refine ⟨?_, ?_, ?_⟩
  · apply BitVec.eq_of_toNat_eq
    rw [BitVec.toNat_setWidth, BitVec.toNat_add, isProduct, BitVec.toNat_ofNat]
    omega
  · congr 1
    apply BitVec.eq_of_toNat_eq
    rw [BitVec.toNat_setWidth, BitVec.toNat_ushiftRight, BitVec.toNat_add,
      isProduct, BitVec.toNat_ofNat, Nat.shiftRight_eq_div_pow]
    omega
  · congr 1
    rw [decide_eq_decide]
    simp only [BitVec.lt_def, BitVec.toNat_add, isProduct]
    omega

/-! ## Products and fields that are not masked -/

/-- The full product agrees with the product of the low 24 bits when what the high
bytes add to it is beyond the word. -/
theorem mul_mod_iff (left right : ℕ) :
    left * right % 2 ^ 32 = left % 2 ^ 24 * (right % 2 ^ 24) % 2 ^ 32 ↔
      (left / 2 ^ 24 * right + right / 2 ^ 24 * left) % 256 = 0 := by
  have products : left * right + 2 ^ 48 * (left / 2 ^ 24 * (right / 2 ^ 24)) =
      left % 2 ^ 24 * (right % 2 ^ 24) +
        2 ^ 24 * (left / 2 ^ 24 * right + right / 2 ^ 24 * left) := by
    have isLeft := Nat.div_add_mod left (2 ^ 24)
    have isRight := Nat.div_add_mod right (2 ^ 24)
    generalize left / 2 ^ 24 = leftHigh at *
    generalize right / 2 ^ 24 = rightHigh at *
    generalize left % 2 ^ 24 = leftLow at *
    generalize right % 2 ^ 24 = rightLow at *
    subst isLeft isRight
    ring
  generalize left * right = product at *
  generalize left % 2 ^ 24 * (right % 2 ^ 24) = lowProduct at *
  generalize left / 2 ^ 24 * (right / 2 ^ 24) = highProduct at *
  generalize left / 2 ^ 24 * _ + right / 2 ^ 24 * _ = mixed at *
  omega

theorem computes_vMulU32U24_iff (operands : Operands) : Computes operands .vMulU32U24 ↔
      (operands.source0.toNat / 2 ^ 24 * operands.source1.toNat +
        operands.source1.toNat / 2 ^ 24 * operands.source0.toNat) % 256 = 0 := by
  rw [← mul_mod_iff, ← BitVec.toNat_ofNat, ← BitVec.toNat_ofNat, ← mul_eq_ofNat, BitVec.toNat_inj]
  constructor
  · intro computes
    exact congrArg Outcome.result (Option.some.inj computes)
  · intro same
    exact leaves_congr same

theorem computes_vBfeU32_iff (operands : Operands) : Computes operands .vBfeU32 ↔
      operands.source1.toNat % 32 + operands.source2.toNat % 32 ≤ 32 := by
  have isOffset := toNat_maskedAmount operands.source1
  have isCount := toNat_maskedAmount operands.source2
  rw [← isOffset, ← isCount]
  constructor
  · intro computes
    by_contra beyond
    have undefinedField : bitFieldUExtract operands.source0 (operands.source1 &&& 31)
        (operands.source2 &&& 31) = none := if_neg beyond
    have isNone : tryEmitVectorAlu operands .vBfeU32 = none := by
      rw [tryEmitVectorAlu, undefinedField]
      rfl
    cases isNone.symm.trans computes
  · intro inside
    have isField := bitFieldUExtract_of_le operands.source0 inside
    rw [isOffset, isCount] at isField
    exact destinationOnly_congr isField

/-! ## All instructions -/

/-- The high bytes of the sources of a product of 24 bits do not reach the result, and
a field that is extracted lies within the word. -/
def IsWithinRange (operands : Operands) : Opcode → Prop
  | .vMulU32U24 =>
      (operands.source0.toNat / 2 ^ 24 * operands.source1.toNat +
        operands.source1.toNat / 2 ^ 24 * operands.source0.toNat) % 256 = 0
  | .vBfeU32 => operands.source1.toNat % 32 + operands.source2.toNat % 32 ≤ 32
  | _ => True

/-- The emitted code computes the result exactly when its operands are within range. -/
theorem integer_results_iff (operands : Operands) (opcode : Opcode) :
    Computes operands opcode ↔ IsWithinRange operands opcode := by
  cases opcode with
  | vMulU32U24 => exact computes_vMulU32U24_iff operands
  | vBfeU32 => exact computes_vBfeU32_iff operands
  | vAndB32 | vOrB32 | vXorB32 | vXnorB32 | vNotB32 | vBfrevB32 | vFfblB32
  | vAndOrB32 | vOr3U32 | vBfiB32 => exact iff_of_true rfl trivial
  | vAddI32 | vAddU32 => exact iff_of_true (leaves_congr (add_eq_ofNat _ _)) trivial
  | vSubI32 | vSubU32 | vSubrevI32 | vSubrevU32 =>
    exact iff_of_true (leaves_congr (sub_eq_ofInt _ _)) trivial
  | vMulLoU32 | vMulLoI32 =>
    exact iff_of_true (leaves_congr (mul_eq_ofNat _ _)) trivial
  | vAddcU32 | vAddCoCiU32 =>
    exact iff_of_true (congrArg some (emitAddWithCarry_eq operands)) trivial
  | vSubbU32 =>
    exact iff_of_true (congrArg some (emitSubtractWithBorrow_eq operands false)) trivial
  | vSubbrevU32 =>
    exact iff_of_true (congrArg some (emitSubtractWithBorrow_eq operands true)) trivial
  | vAddCoU32 => exact iff_of_true (congrArg some (emitAddCo_eq _ _)) trivial
  | vSubCoU32 | vSubrevCoU32 =>
    exact iff_of_true (congrArg some (difference_eq _ _)) trivial
  | vMadU64U32 => exact iff_of_true (congrArg some (emitMadU64U32_eq operands)) trivial
  | vMulHiU32 => exact iff_of_true (leaves_congr (emitMulHigh_eq _ _)) trivial
  | vMulHiU32U24 =>
    refine iff_of_true (leaves_congr ?_) trivial
    rw [emitMulHigh_eq, toNat_and_24, toNat_and_24]
  | vMulHiI32 => exact iff_of_true (leaves_congr (emitSignedMulHigh_eq _ _)) trivial
  | vBcntU32B32 =>
    refine iff_of_true (leaves_congr ?_) trivial
    rw [bitCount_eq, add_ofNat]
  | vMbcntHiU32B32 =>
    exact iff_of_true (destinationOnly_congr (emitMbcntHi_eq operands)) trivial
  | vMbcntLoU32B32 =>
    exact iff_of_true (destinationOnly_congr (emitMbcntLo_eq operands)) trivial
  | vBfmB32 => exact iff_of_true (destinationOnly_congr (emitBfm_eq operands)) trivial
  | vMadU32U24 =>
    refine iff_of_true (leaves_congr ?_) trivial
    rw [mul_eq_ofNat, add_ofNat, toNat_and_24, toNat_and_24]
  | vMadU32U16 =>
    refine iff_of_true (leaves_congr ?_) trivial
    rw [mul_eq_ofNat, add_ofNat, toNat_and_16, toNat_and_16]
  | vLshrB32 | vLshrrevB32 =>
    refine iff_of_true (destinationOnly_congr ?_) trivial
    exact (shiftRightLogical_eq _ _).trans (congrArg some (shiftRight_eq_ofNat _ _))
  | vLshlB32 | vLshlrevB32 =>
    refine iff_of_true (destinationOnly_congr ?_) trivial
    exact (shiftLeftLogical_eq _ _).trans (congrArg some (shiftLeft_eq_ofNat _ _))
  | vAshrI32 | vAshrrevI32 =>
    exact iff_of_true (destinationOnly_congr (shiftRightArithmetic_eq _ _)) trivial
  | vLshlAddU32 =>
    refine iff_of_true (destinationOnly_congr ?_) trivial
    rw [shiftLeftLogical_and_31, Option.map_some, add_ofNat]
  | vLshlOrU32 =>
    refine iff_of_true (destinationOnly_congr ?_) trivial
    rw [shiftLeftLogical_and_31, Option.map_some]
  | vAddLshlU32 =>
    refine iff_of_true (destinationOnly_congr ?_) trivial
    rw [shiftLeftLogical_eq, add_eq_ofNat, ofNat_shiftLeft]
  | vAdd3U32 =>
    refine iff_of_true (leaves_congr ?_) trivial
    rw [add_eq_ofNat operands.source0, add_ofNat]
  | vMinU32 => exact iff_of_true (leaves_congr (eq_ofNat_of_toNat (toNat_uMin _ _))) trivial
  | vMaxU32 => exact iff_of_true (leaves_congr (eq_ofNat_of_toNat (toNat_uMax _ _))) trivial
  | vMinI32 => exact iff_of_true (leaves_congr (eq_ofInt_of_toInt (toInt_sMin _ _))) trivial
  | vMaxI32 => exact iff_of_true (leaves_congr (eq_ofInt_of_toInt (toInt_sMax _ _))) trivial
  | vMin3U32 | vMax3U32 | vMed3U32 =>
    refine iff_of_true (leaves_congr (eq_ofNat_of_toNat ?_)) trivial
    simp only [toNat_uMin, toNat_uMax, median_eq]
  | vMin3I32 | vMax3I32 | vMed3I32 =>
    refine iff_of_true (leaves_congr (eq_ofInt_of_toInt ?_)) trivial
    simp only [toInt_sMin, toInt_sMax, median_eq]

/-- A product of 24 bits whose source has a high byte. -/
theorem product_reads_high_byte : ¬ ∀ operands opcode, Computes operands opcode := by
  intro computes
  have wrong := computes ⟨0x01000001, 1, 0, 0, none, false, 0⟩ .vMulU32U24
  revert wrong
  unfold Computes
  decide +kernel

end SharpEmu.Gen5Spirv.VectorAlu
