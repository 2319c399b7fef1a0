import SharpEmu.Gen5SpirvWords

/-!
# Half-precision conversions

The instruction sequences that widen a half-precision number and narrow a number
of single precision.  They compute all cases and select one at the end.
-/

namespace SharpEmu.Gen5Spirv

open Spirv

def emitHalfToFloat (halfBits : Word) : Option Word := do
  let sign ← shiftLeftLogical (halfBits &&& 0x8000) 16
  let exponent := (← shiftRightLogical halfBits 10) &&& 0x1F
  let mantissa := halfBits &&& 0x3FF
  let normal := (← shiftLeftLogical (exponent + 112) 23) ||| (← shiftLeftLogical mantissa 13)
  let infinityNan := 0x7F800000 ||| (← shiftLeftLogical mantissa 13)
  let highBit := findUMsb (mantissa ||| 1)
  let shift := 23 - highBit
  let subFraction := (← shiftLeftLogical mantissa shift) &&& 0x7FFFFF
  let subnormal := select (mantissa ≠ 0) ((← shiftLeftLogical (highBit + 103) 23) ||| subFraction) 0
  let magnitude := select (exponent = 0) subnormal (select (exponent = 31) infinityNan normal)
  return sign ||| magnitude

def emitFloatToHalf (bits : Word) : Option Word := do
  let sign := (← shiftRightLogical bits 16) &&& 0x8000
  let absolute := bits &&& 0x7FFFFFFF
  let isInfinityNan : Bool := 0x7F800000 ≤ absolute
  let isNan : Bool := 0x7F800000 < absolute
  let infinityNan := (sign ||| 0x7C00) ||| select isNan 0x200 0
  let exponent ← shiftRightLogical absolute 23
  let mantissa := absolute &&& 0x7FFFFF
  let significand := mantissa ||| 0x800000
  let roundBit := (← shiftRightLogical significand 13) &&& 1
  let rounded ← shiftRightLogical (significand + 0xFFF + roundBit) 13
  let halfExponent := exponent - 112
  let normalBits := (← shiftLeftLogical halfExponent 10) + (rounded - 0x400)
  let normal := select (113 ≤ exponent) (select (0x7C00 ≤ normalBits) 0x7C00 normalBits) 0
  let distance := 126 - exponent
  let shift := select (25 < distance) 25 distance
  let shiftMask := (← shiftLeftLogical 1 shift) - 1
  let halfWay ← shiftLeftLogical 1 (shift - 1)
  let lowBits := significand &&& shiftMask
  let quotient ← shiftRightLogical significand shift
  let roundUp : Bool := halfWay < lowBits || lowBits = halfWay && quotient &&& 1 ≠ 0
  let subnormal := quotient + select roundUp 1 0
  let isSubnormal : Bool := exponent ≤ 112
  let finite := select isSubnormal subnormal normal
  return select isInfinityNan infinityNan (sign ||| finite)

example : emitFloatToHalf 0x3F800000 = some 0x3C00 := by decide

example : emitHalfToFloat 0x0001 = some 0x33800000 := by decide

example : emitFloatToHalf 0x33800000 = some 0x0001 := by decide

end SharpEmu.Gen5Spirv
