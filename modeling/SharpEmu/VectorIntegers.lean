import SharpEmu.Gen5SpirvWords
import SharpEmu.SpirvIntegers

/-!
# Integer instructions of the vector unit

The code that the translator emits for each integer instruction, on the operands of
one lane.
-/

namespace SharpEmu.Gen5Spirv.VectorAlu

open Spirv

/-- The integer instructions that are translated. -/
inductive Opcode where
  | vAndB32 | vOrB32 | vXorB32 | vXnorB32 | vNotB32 | vBfrevB32 | vFfblB32
  | vAddI32 | vAddU32 | vAddcU32 | vAddCoCiU32
  | vSubI32 | vSubU32 | vSubrevI32 | vSubrevU32 | vSubbU32 | vSubbrevU32
  | vMulLoU32 | vMulLoI32 | vMulU32U24 | vMulHiU32 | vMulHiU32U24 | vMulHiI32
  | vBcntU32B32 | vMbcntHiU32B32 | vMbcntLoU32B32 | vBfmB32
  | vMadU32U24 | vMadU32U16
  | vLshrB32 | vLshrrevB32 | vLshlB32 | vLshlrevB32 | vAshrI32 | vAshrrevI32
  | vLshlAddU32 | vLshlOrU32 | vAndOrB32 | vOr3U32 | vAddLshlU32 | vAdd3U32
  | vMinU32 | vMaxU32 | vMin3U32 | vMax3U32
  | vMinI32 | vMaxI32 | vMin3I32 | vMax3I32 | vMed3U32 | vMed3I32
  | vAddCoU32 | vSubCoU32 | vSubrevCoU32 | vMadU64U32
  | vBfeU32 | vBfiB32
deriving DecidableEq

/-- What an instruction reads in one lane: its sources, the third of them also as 64
bits and as a mask, if there is one. -/
structure Operands where
  source0 : Word
  source1 : Word
  source2 : Word
  wideSource2 : BitVec 64
  maskSource2 : Option Bool
  vcc : Bool
  guestLane : Fin 64

/-- What an instruction leaves in one lane: the destination, the register behind it
and the bit of the carry mask, where it writes these. -/
structure Outcome where
  result : Word
  high : Option Word := none
  carryOut : Option Bool := none
deriving DecidableEq

inductive SpirvOp where
  | bitwiseAnd | bitwiseOr | bitwiseXor | iAdd | iSub | iMul
  | shiftLeftLogical | shiftRightLogical

def addInstruction (operation : SpirvOp) (left right : Word) : Option Word :=
  match operation with
  | .bitwiseAnd => some (left &&& right)
  | .bitwiseOr => some (left ||| right)
  | .bitwiseXor => some (left ^^^ right)
  | .iAdd => some (left + right)
  | .iSub => some (left - right)
  | .iMul => some (left * right)
  | .shiftLeftLogical => shiftLeftLogical left right
  | .shiftRightLogical => shiftRightLogical left right

def emitIntegerBinary (operands : Operands) (operation : SpirvOp) (reverse : Bool) : Option Word :=
  if reverse then addInstruction operation operands.source1 operands.source0
  else addInstruction operation operands.source0 operands.source1

/-- The bit of the lane in the mask that is the third source, or in VCC. -/
def Operands.carryMask (operands : Operands) : Bool :=
  operands.maskSource2.getD operands.vcc

def emitAddWithCarry (operands : Operands) : Outcome :=
  let left := operands.source0
  let right := operands.source1
  let carryIn := select operands.carryMask (1 : Word) 0
  let sum := left + right
  let result := sum + carryIn
  { result, carryOut := some (sum < left || result < sum) }

def emitSubtractWithBorrow (operands : Operands) (reverse : Bool) : Outcome :=
  let left := if reverse then operands.source1 else operands.source0
  let right := if reverse then operands.source0 else operands.source1
  let borrowIn := select operands.carryMask (1 : Word) 0
  let difference := left - right
  { result := difference - borrowIn
    carryOut := some (left < right || difference < borrowIn) }

def emitSubtractWithBorrowOut (operands : Operands) (reverse : Bool) : Outcome :=
  let left := if reverse then operands.source1 else operands.source0
  let right := if reverse then operands.source0 else operands.source1
  { result := left - right, carryOut := some (left < right) }

/-- The upper half of the product of two words. -/
def emitMulHigh (left right : Word) : Word :=
  ((left.setWidth 64 * right.setWidth 64) >>> 32).setWidth 32

def emitSignedMulHigh (left right : Word) : Word :=
  ((left.signExtend 64 * right.signExtend 64).sshiftRight 32).setWidth 32

def emitMadU64U32 (operands : Operands) : Outcome :=
  let product := operands.source0.setWidth 64 * operands.source1.setWidth 64
  let wideResult := product + operands.wideSource2
  { result := wideResult.setWidth 32
    high := some ((wideResult >>> 32).setWidth 32)
    carryOut := some (wideResult < operands.wideSource2) }

/-- The bits below that of the lane, in its half of the wave. -/
def partialMask (operands : Operands) : Option Word := do
  let lane := BitVec.ofNat 32 operands.guestLane &&& 31
  return (← shiftLeftLogical 1 lane) - 1

def isUpperHalf (operands : Operands) : Bool :=
  (32 : Word) ≤ BitVec.ofNat 32 operands.guestLane

def emitMbcntHi (operands : Operands) : Option Word := do
  let mask ← partialMask operands
  return operands.source1 + select (isUpperHalf operands) (bitCount (operands.source0 &&& mask)) 0

def emitMbcntLo (operands : Operands) : Option Word := do
  let mask ← partialMask operands
  return operands.source1 + bitCount (operands.source0 &&&
      select (isUpperHalf operands) 0xFFFFFFFF mask)

def emitBfm (operands : Operands) : Option Word := do
  let lowMask := (← shiftLeftLogical 1 (operands.source0 &&& 31)) - 1
  shiftLeftLogical lowMask operands.source1

def leaves (result : Word) : Option Outcome := some { result }

def destinationOnly (result : Option Word) : Option Outcome := result.bind leaves

/-- The emitted code; undefined where one of its instructions is. -/
def tryEmitVectorAlu (operands : Operands) : Opcode → Option Outcome
  | .vAndB32 => destinationOnly (emitIntegerBinary operands .bitwiseAnd false)
  | .vOrB32 => destinationOnly (emitIntegerBinary operands .bitwiseOr false)
  | .vXorB32 => destinationOnly (emitIntegerBinary operands .bitwiseXor false)
  | .vXnorB32 =>
      destinationOnly ((emitIntegerBinary operands .bitwiseXor false).map (~~~ ·))
  | .vNotB32 => leaves (~~~ operands.source0)
  | .vBfrevB32 => leaves (bitReverse operands.source0)
  | .vFfblB32 => leaves (findILsb operands.source0)
  | .vAddI32 | .vAddU32 =>
      destinationOnly (emitIntegerBinary operands .iAdd false)
  | .vAddcU32 | .vAddCoCiU32 => some (emitAddWithCarry operands)
  | .vSubI32 | .vSubU32 =>
      destinationOnly (emitIntegerBinary operands .iSub false)
  | .vSubrevI32 | .vSubrevU32 =>
      destinationOnly (emitIntegerBinary operands .iSub true)
  | .vSubbU32 => some (emitSubtractWithBorrow operands false)
  | .vSubbrevU32 => some (emitSubtractWithBorrow operands true)
  | .vMulLoU32 | .vMulLoI32 | .vMulU32U24 =>
      destinationOnly (emitIntegerBinary operands .iMul false)
  | .vMulHiU32 =>
      leaves (emitMulHigh operands.source0 operands.source1)
  | .vMulHiU32U24 =>
      leaves (emitMulHigh (operands.source0 &&& 0x00FFFFFF) (operands.source1 &&& 0x00FFFFFF))
  | .vMulHiI32 =>
      leaves (emitSignedMulHigh operands.source0 operands.source1)
  | .vBcntU32B32 =>
      leaves (bitCount operands.source0 + operands.source1)
  | .vMbcntHiU32B32 => destinationOnly (emitMbcntHi operands)
  | .vMbcntLoU32B32 => destinationOnly (emitMbcntLo operands)
  | .vBfmB32 => destinationOnly (emitBfm operands)
  | .vMadU32U24 =>
      leaves ((operands.source0 &&& 0x00FFFFFF) * (operands.source1 &&& 0x00FFFFFF) +
          operands.source2)
  | .vMadU32U16 =>
      leaves ((operands.source0 &&& 0xFFFF) * (operands.source1 &&& 0xFFFF) + operands.source2)
  | .vLshrB32 =>
      destinationOnly (emitIntegerBinary operands .shiftRightLogical false)
  | .vLshrrevB32 =>
      destinationOnly (emitIntegerBinary operands .shiftRightLogical true)
  | .vLshlB32 =>
      destinationOnly (emitIntegerBinary operands .shiftLeftLogical false)
  | .vLshlrevB32 =>
      destinationOnly (emitIntegerBinary operands .shiftLeftLogical true)
  | .vAshrI32 =>
      destinationOnly (shiftRightArithmetic operands.source0 operands.source1)
  | .vAshrrevI32 =>
      destinationOnly (shiftRightArithmetic operands.source1 operands.source0)
  | .vLshlAddU32 =>
      destinationOnly ((shiftLeftLogical operands.source0 (operands.source1 &&& 31)).map
          (· + operands.source2))
  | .vLshlOrU32 =>
      destinationOnly ((shiftLeftLogical operands.source0 (operands.source1 &&& 31)).map
          (· ||| operands.source2))
  | .vAndOrB32 =>
      leaves ((operands.source0 &&& operands.source1) ||| operands.source2)
  | .vOr3U32 =>
      leaves ((operands.source0 ||| operands.source1) ||| operands.source2)
  | .vAddLshlU32 =>
      destinationOnly (shiftLeftLogical (operands.source0 + operands.source1) operands.source2)
  | .vAdd3U32 =>
      leaves (operands.source0 + operands.source1 + operands.source2)
  | .vMinU32 => leaves (uMin operands.source0 operands.source1)
  | .vMaxU32 => leaves (uMax operands.source0 operands.source1)
  | .vMin3U32 =>
      leaves (uMin (uMin operands.source0 operands.source1) operands.source2)
  | .vMax3U32 =>
      leaves (uMax (uMax operands.source0 operands.source1) operands.source2)
  | .vMinI32 => leaves (sMin operands.source0 operands.source1)
  | .vMaxI32 => leaves (sMax operands.source0 operands.source1)
  | .vMin3I32 =>
      leaves (sMin (sMin operands.source0 operands.source1) operands.source2)
  | .vMax3I32 =>
      leaves (sMax (sMax operands.source0 operands.source1) operands.source2)
  | .vMed3U32 =>
      leaves (uMax (uMin operands.source0 operands.source1)
          (uMin (uMax operands.source0 operands.source1) operands.source2))
  | .vMed3I32 =>
      leaves (sMax (sMin operands.source0 operands.source1)
          (sMin (sMax operands.source0 operands.source1) operands.source2))
  | .vAddCoU32 =>
      let result := operands.source0 + operands.source1
      some { result, carryOut := some (result < operands.source0) }
  | .vSubCoU32 => some (emitSubtractWithBorrowOut operands false)
  | .vSubrevCoU32 => some (emitSubtractWithBorrowOut operands true)
  | .vMadU64U32 => some (emitMadU64U32 operands)
  | .vBfeU32 =>
      destinationOnly (bitFieldUExtract operands.source0 (operands.source1 &&& 31)
          (operands.source2 &&& 31))
  | .vBfiB32 =>
      leaves ((operands.source0 &&& operands.source1) |||
          (~~~ operands.source0 &&& operands.source2))

end SharpEmu.Gen5Spirv.VectorAlu
