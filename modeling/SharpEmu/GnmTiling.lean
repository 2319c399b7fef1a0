import Mathlib.Data.Int.Basic
import Mathlib.Data.Nat.Digits.Defs
import Mathlib.Tactic.Common

/-!
# Tiled surfaces

Textures are stored in power-of-two swizzle blocks.  The source offset of an
element is the offset of its block plus an offset inside the block, given by an
address equation of the swizzle mode or by interleaving coordinate bits.
Lengths and coordinates are `int` and offsets are `long`, both unchecked.
-/

namespace SharpEmu

namespace GnmTiling

/-! ## Address equations -/

structure AddressBit where
  xMask : Nat
  yMask : Nat

namespace AddressBit

def zero : AddressBit := ⟨0, 0⟩

def x (bit : Nat) : AddressBit := ⟨1 <<< bit, 0⟩

def y (bit : Nat) : AddressBit := ⟨0, 1 <<< bit⟩

def xy (xBit yBit : Nat) : AddressBit := ⟨1 <<< xBit, 1 <<< yBit⟩

def xyy (xBit yBit1 yBit2 : Nat) : AddressBit :=
  ⟨1 <<< xBit, 1 <<< yBit1 ||| 1 <<< yBit2⟩

end AddressBit

section Tables

open AddressBit

def rbPlus64KRenderX : List (List AddressBit) :=
  [[x 0, x 1, x 2, x 3, y 0, y 1, y 2, y 3, xyy 7 4 7, xy 4 4,
    xy 6 5, xy 5 6, x 6, y 6, xy 7 8, xy 8 7],
   [zero, x 0, x 1, x 2, y 0, y 1, y 2, x 3, xyy 7 4 7, xy 4 4,
    xy 6 5, xy 5 6, y 3, x 6, xy 7 7, xy 8 6],
   [zero, zero, x 0, x 1, y 0, y 1, x 2, y 2, xyy 7 4 7, xy 4 4,
    xy 6 5, xy 5 6, x 3, y 3, xy 6 7, xy 7 6],
   [zero, zero, zero, x 0, y 0, x 1, x 2, y 1, xyy 7 4 7, xy 4 4,
    xy 6 5, xy 5 6, y 2, x 3, xy 7 3, xy 6 6],
   [zero, zero, zero, zero, x 0, y 0, x 1, y 1, xyy 7 4 7, xy 4 4,
    xy 6 5, xy 5 6, x 2, y 2, xy 6 3, xy 3 6]]

def rbPlus64KDepthX : List (List AddressBit) :=
  [[x 0, y 0, x 1, y 1, x 2, y 2, x 3, y 3, xyy 7 4 7, xy 4 4,
    xy 6 5, xy 5 6, x 6, y 6, xy 7 8, xy 8 7],
   [zero, x 0, y 0, x 1, y 1, x 2, y 2, x 3, xyy 7 4 7, xy 4 4,
    xy 6 5, xy 5 6, y 3, x 6, xy 7 7, xy 8 6],
   [zero, zero, x 0, y 0, x 1, y 1, x 2, y 2, xyy 7 4 7, xy 4 4,
    xy 6 5, xy 5 6, x 3, y 3, xy 6 7, xy 7 6],
   [zero, zero, zero, x 0, y 0, x 1, y 1, x 2, xyy 7 4 7, xy 4 4,
    xy 6 5, xy 5 6, y 2, x 3, xy 7 3, xy 6 6],
   [zero, zero, zero, zero, x 0, y 0, x 1, y 1, xyy 7 4 7, xy 4 4,
    xy 6 5, xy 5 6, x 2, y 2, xy 6 3, xy 3 6]]

def rbPlus64KStandard : List (List AddressBit) :=
  [[x 0, x 1, x 2, x 3, y 0, y 1, y 2, y 3, y 4, x 4, y 5, x 5, y 6, x 6, y 7, x 7],
   [zero, x 0, x 1, x 2, y 0, y 1, y 2, x 3, y 3, x 4, y 4, x 5, y 5, x 6, y 6, x 7],
   [zero, zero, x 0, x 1, y 0, y 1, y 2, x 2, y 3, x 3, y 4, x 4, y 5, x 5, y 6, x 6],
   [zero, zero, zero, x 0, y 0, y 1, x 1, x 2, y 2, x 3, y 3, x 4, y 4, x 5, y 5, x 6],
   [zero, zero, zero, zero, y 0, y 1, x 0, x 1, y 2, x 2, y 3, x 3, y 4, x 4, y 5, x 5]]

def standard4K : List (List AddressBit) :=
  [[x 0, x 1, x 2, x 3, y 0, y 1, y 2, y 3, y 4, x 4, y 5, x 5],
   [zero, x 0, x 1, x 2, y 0, y 1, y 2, x 3, y 3, x 4, y 4, x 5],
   [zero, zero, x 0, x 1, y 0, y 1, y 2, x 2, y 3, x 3, y 4, x 4],
   [zero, zero, zero, x 0, y 0, y 1, x 1, x 2, y 2, x 3, y 3, x 4],
   [zero, zero, zero, zero, y 0, y 1, x 0, x 1, y 2, x 2, y 3, x 3]]

end Tables

/-- The set bits of a `uint`. -/
def popCount (value : Nat) : Nat :=
  (List.range 32).countP value.testBit

def AddressBit.parity (equation : AddressBit) (x y : Nat) : Nat :=
  (popCount (x &&& equation.xMask) + popCount (y &&& equation.yMask)) &&& 1

def patternOffsetFrom (x y : Nat) : Nat → List AddressBit → Nat
  | _, [] => 0
  | bit, equation :: pattern =>
      equation.parity x y <<< bit ||| patternOffsetFrom x y (bit + 1) pattern

def computePatternOffset (x y : Nat) (pattern : List AddressBit) : Nat :=
  patternOffsetFrom x y 0 pattern

def tryGetExactXorPattern (swizzleMode bytesPerElementLog2 : Nat) : Option (List AddressBit) :=
  match swizzleMode with
  | 5 => standard4K[bytesPerElementLog2]?
  | 9 => rbPlus64KStandard[bytesPerElementLog2]?
  | 24 => rbPlus64KDepthX[bytesPerElementLog2]?
  | 27 => rbPlus64KRenderX[bytesPerElementLog2]?
  | _ => none

/-! ## Swizzle blocks -/

inductive SwizzleKind where
  | standard
  | zOrder
deriving DecidableEq

/-- The element order and the block size of a mode. -/
def tryGetSwizzleKind (swizzleMode : Nat) : Option (SwizzleKind × Nat) :=
  let kind : Option SwizzleKind :=
    match swizzleMode with
    | 4 | 8 | 16 | 20 | 24 => some .zOrder
    | 1 | 2 | 3 | 5 | 6 | 7 | 9 | 10 | 11 | 17 | 18 | 19 | 21 | 22 | 23 | 25
    | 26 | 27 => some .standard
    | _ => none
  let blockBytes :=
    if 1 ≤ swizzleMode ∧ swizzleMode ≤ 3 then 256
    else if 4 ≤ swizzleMode ∧ swizzleMode ≤ 7 then 4096
    else if 20 ≤ swizzleMode ∧ swizzleMode ≤ 23 then 4096
    else 65536
  kind.map fun kind => (kind, blockBytes)

def trailingZeroCount (value : Nat) : Nat :=
  ((List.range 32).find? value.testBit).getD 32

/-- The exponent of a power of two; the code answers -1 for other values. -/
def bitLog2 (value : Nat) : Option Nat :=
  if value = 0 ∨ value &&& (value - 1) ≠ 0 then none
  else some (trailingZeroCount value)

def squareBlockDimensions (blockElements : Nat) : Nat × Nat :=
  match bitLog2 blockElements with
  | none => (0, 0)
  | some totalBits =>
      let widthBits := (totalBits + 1) / 2
      let heightBits := totalBits - widthBits
      (1 <<< widthBits, 1 <<< heightBits)

/-- The rounds of the interleaving loop: each round takes the next bit of the
first coordinate and then of the second, where they have one left.  Both have
run out after as many rounds as the longer one has bits. -/
def interleaveRounds (first second firstBits secondBits : Nat) :
    Nat → (firstBit secondBit outBit offset : Nat) → Nat
  | 0, _, _, _, offset => offset
  | rounds + 1, firstBit, secondBit, outBit, offset =>
      let (offset, outBit, firstBit) :=
        if firstBit < firstBits then
          (offset ||| ((first >>> firstBit) &&& 1) <<< outBit, outBit + 1, firstBit + 1)
        else (offset, outBit, firstBit)
      let (offset, outBit, secondBit) :=
        if secondBit < secondBits then
          (offset ||| ((second >>> secondBit) &&& 1) <<< outBit, outBit + 1, secondBit + 1)
        else (offset, outBit, secondBit)
      interleaveRounds first second firstBits secondBits rounds firstBit secondBit outBit offset

/-- Interleave the bits of two coordinates below powers of two, the first one
taking the low bit. -/
def interleave (first second firstSize secondSize : Nat) : Nat :=
  let firstBits := (bitLog2 firstSize).getD 0
  let secondBits := (bitLog2 secondSize).getD 0
  interleaveRounds first second firstBits secondBits (max firstBits secondBits) 0 0 0 0

def standardSwizzleOffset (x y blockWidth blockHeight : Nat) : Nat :=
  interleave x y blockWidth blockHeight

def mortonInterleave (x y blockWidth blockHeight : Nat) : Nat :=
  interleave y x blockHeight blockWidth

/-! ## Surfaces -/

/-- The value of the environment variable that selects detiling. -/
abbrev DetileSetting := Option String

/-- The base modes whose equations are exact. -/
def isTrustedByDefault (swizzleMode : Nat) : Bool :=
  [1, 4, 5, 8, 9, 24, 27].contains swizzleMode

def shouldDetile (setting : DetileSetting) (swizzleMode : Nat) : Bool :=
  swizzleMode ≠ 0 && !(setting == some "0") &&
    (setting == some "1" || isTrustedByDefault swizzleMode)

structure Surface where
  swizzleMode : Nat
  elementsWide : Nat
  elementsHigh : Nat
  bytesPerElement : Nat
  kind : SwizzleKind
  blockBytes : Nat
  bppLog2 : Nat
  blockElements : Nat
  blockWidth : Nat
  blockHeight : Nat
deriving DecidableEq

/-- The checks that `tryGetTiledByteCount` and `tryDetile` begin with. -/
def trySurface (setting : DetileSetting) (swizzleMode : UInt32)
    (elementsWide elementsHigh bytesPerElement : Int32) : Option Surface :=
  if !shouldDetile setting swizzleMode.toNat || elementsWide.toInt ≤ 0 ||
      elementsHigh.toInt ≤ 0 || bytesPerElement.toInt ≤ 0 then none
  else
    match tryGetSwizzleKind swizzleMode.toNat with
    | none => none
    | some (kind, blockBytes) =>
        match bitLog2 bytesPerElement.toInt.toNat with
        | none => none
        | some bppLog2 =>
            let blockElements := blockBytes >>> bppLog2
            let (blockWidth, blockHeight) := squareBlockDimensions blockElements
            if blockWidth = 0 ∨ blockHeight = 0 then none
            else some
              { swizzleMode := swizzleMode.toNat
                elementsWide := elementsWide.toInt.toNat
                elementsHigh := elementsHigh.toInt.toNat
                bytesPerElement := bytesPerElement.toInt.toNat
                kind, blockBytes, bppLog2, blockElements, blockWidth,
                blockHeight }

namespace Surface

variable (surface : Surface)

def blockBytesTotal : Nat :=
  let blocksWide :=
    (surface.elementsWide + surface.blockWidth - 1) / surface.blockWidth
  let blocksHigh :=
    (surface.elementsHigh + surface.blockHeight - 1) / surface.blockHeight
  blocksWide * blocksHigh * surface.blockBytes

end Surface

def tryGetTiledByteCount (setting : DetileSetting) (swizzleMode : UInt32)
    (elementsWide elementsHigh bytesPerElement : Int32) : Option Nat :=
  match trySurface setting swizzleMode elementsWide elementsHigh
      bytesPerElement with
  | none => none
  | some surface =>
      -- A product beyond `ulong` is caught and answered with `false`.
      if surface.blockBytesTotal < 2 ^ 64 then some surface.blockBytesTotal
      else none

/-! ## Detiling -/

def toInt (value : Int) : Int := value.bmod (2 ^ 32)

def toLong (value : Int) : Int := value.bmod (2 ^ 64)

namespace Surface

variable (surface : Surface)

def blocksPerRow : Int :=
  (toInt (toInt (surface.elementsWide + surface.blockWidth) - 1)).tdiv surface.blockWidth

/-- The offset of a position inside its block, for modes without an address
equation. -/
def blockTable (x y : Nat) : Nat :=
  match surface.kind with
  | .zOrder => mortonInterleave x y surface.blockWidth surface.blockHeight
  | .standard =>
      standardSwizzleOffset x y surface.blockWidth surface.blockHeight

/-- The offset of an element in the tiled bytes. -/
def sourceByte (x y : Nat) : Int :=
  let blockY := y / surface.blockHeight
  let inBlockY := y % surface.blockHeight
  let rowBlockBase := toLong (blockY * surface.blocksPerRow)
  let blockX := x / surface.blockWidth
  let inBlockX := x % surface.blockWidth
  let blockIndex := toLong (rowBlockBase + blockX)
  match tryGetExactXorPattern surface.swizzleMode surface.bppLog2 with
  | some xorPattern =>
      toLong (toLong (blockIndex * surface.blockBytes) + computePatternOffset x y xorPattern)
  | none =>
      toLong (toLong (toLong (blockIndex * surface.blockElements) +
        surface.blockTable inBlockX inBlockY) * surface.bytesPerElement)

/-- The offset of an element in the linear bytes. -/
def destByte (x y : Nat) : Int :=
  let destRowBase :=
    toLong (toLong ((y : Int) * surface.elementsWide) * surface.bytesPerElement)
  toLong (destRowBase + toLong ((x : Int) * surface.bytesPerElement))

def requiredLinear : Int :=
  toLong (toLong ((surface.elementsWide : Int) * surface.elementsHigh) * surface.bytesPerElement)

end Surface

/-- What detiling can throw. -/
inductive DetileFault where
  | argumentOutOfRange
deriving DecidableEq, Repr

def slice (span : List UInt8) (start : Int) (length : Nat) : Except DetileFault (List UInt8) :=
  if 0 ≤ start ∧ start + length ≤ span.length then
    .ok ((span.drop start.toNat).take length)
  else .error .argumentOutOfRange

def copyTo (bytes span : List UInt8) (start : Nat) : List UInt8 :=
  span.take start ++ bytes ++ span.drop (start + bytes.length)

/-- The linear bytes so far, and the slices of the tiled bytes read for them. -/
structure Detiling where
  linear : List UInt8
  reads : List (Int × Nat)

namespace Surface

variable (surface : Surface) (tiled : List UInt8)

def detileElement (detiling : Detiling) (x y : Nat) :
    Except DetileFault Detiling :=
  let sourceByte := surface.sourceByte x y
  let destByte := surface.destByte x y
  if toLong (sourceByte + surface.bytesPerElement) > tiled.length ∨
      toLong (destByte + surface.bytesPerElement) > detiling.linear.length then
    .ok detiling
  else do
    let bytes ← slice tiled (toInt sourceByte) surface.bytesPerElement
    let _ ← slice detiling.linear (toInt destByte) surface.bytesPerElement
    .ok
      { linear := copyTo bytes detiling.linear (toInt destByte).toNat
        reads := detiling.reads ++ [(toInt sourceByte, surface.bytesPerElement)] }

def detileRow (detiling : Detiling) (y : Nat) : Except DetileFault Detiling :=
  (List.range surface.elementsWide).foldlM
    (fun detiling x => surface.detileElement tiled detiling x y) detiling

def detileRows (detiling : Detiling) : Except DetileFault Detiling :=
  (List.range surface.elementsHigh).foldlM
    (fun detiling y => surface.detileRow tiled detiling y) detiling

end Surface

def tryDetile (setting : DetileSetting) (tiled linear : List UInt8) (swizzleMode : UInt32)
    (elementsWide elementsHigh bytesPerElement : Int32) :
    Except DetileFault (Option Detiling) :=
  match trySurface setting swizzleMode elementsWide elementsHigh
      bytesPerElement with
  | none => .ok none
  | some surface =>
      if (linear.length : Int) < surface.requiredLinear then .ok none
      else some <$> surface.detileRows tiled ⟨linear, []⟩

end GnmTiling

end SharpEmu
