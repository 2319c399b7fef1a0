import Mathlib.Data.Int.Order.Lemmas
import SharpEmu.GnmTilingPatterns

/-!
# The address map of a tiled surface

The offset that detiling computes for an element is the offset of a block
layout, as long as its `int` and `long` arithmetic is exact.  Under that
condition the map is injective and aligned and stays inside the byte count, and
detiling reads each element once; otherwise some offset is negative.
-/

namespace SharpEmu

namespace GnmTiling

/-! ## Machine arithmetic -/

variable {value : Int}

theorem toLong_of_bounds (lower : -2 ^ 63 ≤ value)
    (upper : value < 2 ^ 63) : toLong value = value := by
  rw [toLong, Int.bmod_def]
  split <;> omega

theorem toInt_of_bounds (lower : -2 ^ 31 ≤ value)
    (upper : value < 2 ^ 31) : toInt value = value := by
  rw [toInt, Int.bmod_def]
  split <;> omega

theorem toLong_natCast {value : Nat} (small : value < 2 ^ 63) : toLong value = value := by
  apply toLong_of_bounds <;> omega

theorem toInt_natCast {value : Nat} (small : value < 2 ^ 31) : toInt value = value := by
  apply toInt_of_bounds <;> omega

theorem toLong_add_toLong (first second : Int) :
    toLong (toLong first + second) = toLong (first + second) :=
  Int.bmod_add_bmod

theorem toLong_toLong_mul (first second : Int) :
    toLong (toLong first * second) = toLong (first * second) :=
  Int.bmod_mul_bmod

theorem toLong_mul_add (value factor rest : Int) :
    toLong (toLong value * factor + rest) = toLong (value * factor + rest) := by
  rw [← toLong_add_toLong, toLong_toLong_mul, toLong_add_toLong]

theorem toLong_of_wrapped (lower : 2 ^ 63 ≤ value) (upper : value < 2 ^ 64) : toLong value < 0 := by
  rw [toLong, Int.bmod_def]
  split <;> omega

/-! ## The block layout of a surface -/

namespace Surface

variable {surface : Surface}

/-- The offset of a position inside its block. -/
def within (surface : Surface) (x y : Nat) : Nat :=
  match tryGetExactXorPattern surface.swizzleMode surface.bppLog2 with
  | some xorPattern => computePatternOffset x y xorPattern
  | none =>
      surface.blockTable (x % surface.blockWidth) (y % surface.blockHeight) *
        surface.bytesPerElement

theorem Valid.width_pos (valid : surface.Valid) : 0 < surface.blockWidth := by
  rw [valid.blockWidth]
  exact Nat.two_pow_pos _

theorem Valid.height_pos (valid : surface.Valid) : 0 < surface.blockHeight := by
  rw [valid.blockHeight]
  exact Nat.two_pow_pos _

theorem Valid.blockElements_mul (valid : surface.Valid) :
    surface.blockElements * surface.bytesPerElement = surface.blockBytes := by
  rw [valid.blockElements, valid.bytesPerElement, valid.blockBytes,
    ← Nat.pow_add, Nat.sub_add_cancel valid.bppLog2_le]

theorem widthBits_add_heightBits (blockBits bppLog2 : Nat) :
    blockWidthBits blockBits bppLog2 + blockHeightBits blockBits bppLog2 = blockBits - bppLog2 := by
  unfold blockWidthBits blockHeightBits
  omega

theorem Valid.bits_lt (valid : surface.Valid) :
    blockWidthBits surface.blockBits surface.bppLog2 < 32 ∧
      blockHeightBits surface.blockBits surface.bppLog2 < 32 := by
  have := valid.blockBits_le
  unfold blockWidthBits blockHeightBits
  omega

theorem Valid.equationFits (valid : surface.Valid) {pattern : List AddressBit}
    (isPattern : tryGetExactXorPattern surface.swizzleMode surface.bppLog2 = some pattern) :
    EquationFits pattern surface.blockBits surface.bppLog2
      (blockWidthBits surface.blockBits surface.bppLog2)
      (blockHeightBits surface.blockBits surface.bppLog2) := by
  have isKind := valid.kind
  have fits (mode : Nat) (isMode : surface.swizzleMode = mode)
      (carries : mode ∈ [5, 9, 24, 27]) (small : surface.bppLog2 < 5)
      (isBits : surface.blockBits = if mode = 5 then 12 else 16) :
      EquationFits pattern surface.blockBits surface.bppLog2
        (blockWidthBits surface.blockBits surface.bppLog2)
        (blockHeightBits surface.blockBits surface.bppLog2) := by
    rw [isMode] at isPattern
    apply equations_fit mode carries _ small _ _ _ pattern isPattern
    · rw [isBits]
      split <;> simp
    · rw [isBits]
      split <;> simp_all
  have small {table : List (List AddressBit)} (length : table.length = 5)
      (isEntry : table[surface.bppLog2]? = some pattern) :
      surface.bppLog2 < 5 := by
    rw [← length]
    exact (List.getElem?_eq_some_iff.mp isEntry).1
  have blockBits {mode bytes : Nat} (isMode : surface.swizzleMode = mode)
      (isBytes : (tryGetSwizzleKind mode).map Prod.snd = some bytes) :
      surface.blockBits = bytes.log2 := by
    rw [← isMode, isKind] at isBytes
    rw [Surface.blockBits, ← Option.some.inj isBytes]
  unfold tryGetExactXorPattern at isPattern
  split at isPattern
  · next isMode =>
    exact fits 5 isMode (by decide) (small rfl isPattern) (blockBits isMode rfl)
  · next isMode =>
    exact fits 9 isMode (by decide) (small rfl isPattern) (blockBits isMode rfl)
  · next isMode =>
    exact fits 24 isMode (by decide) (small rfl isPattern) (blockBits isMode rfl)
  · next isMode =>
    exact fits 27 isMode (by decide) (small rfl isPattern) (blockBits isMode rfl)
  · cases isPattern

theorem Valid.blockTable_lt (valid : surface.Valid) (x y : Nat) :
    surface.blockTable x y < surface.blockElements := by
  obtain ⟨widthLt, heightLt⟩ := valid.bits_lt
  unfold blockTable
  rw [valid.blockElements, valid.blockWidth, valid.blockHeight, ← widthBits_add_heightBits]
  cases surface.kind with
  | zOrder =>
    rw [Nat.add_comm]
    exact interleave_lt heightLt widthLt
  | standard => exact interleave_lt widthLt heightLt

theorem Valid.blockTable_injective (valid : surface.Valid)
    {x y other below : Nat} (columnLt : x < surface.blockWidth)
    (rowLt : y < surface.blockHeight) (otherLt : other < surface.blockWidth)
    (belowLt : below < surface.blockHeight)
    (same : surface.blockTable x y = surface.blockTable other below) :
    x = other ∧ y = below := by
  obtain ⟨widthLt, heightLt⟩ := valid.bits_lt
  unfold blockTable at same
  rw [valid.blockWidth] at columnLt otherLt same
  rw [valid.blockHeight] at rowLt belowLt same
  cases isKind : surface.kind with
  | zOrder =>
    rw [isKind] at same
    exact (interleave_injective heightLt widthLt rowLt columnLt belowLt otherLt same).symm
  | standard =>
    rw [isKind] at same
    exact interleave_injective widthLt heightLt columnLt rowLt otherLt belowLt same

def layout (valid : surface.Valid) : BlockLayout where
  blockWidth := surface.blockWidth
  blockHeight := surface.blockHeight
  blockBytes := surface.blockBytes
  elementBytes := surface.bytesPerElement
  within := surface.within
  width_pos := valid.width_pos
  height_pos := valid.height_pos
  element_pos := by
    rw [valid.bytesPerElement]
    exact Nat.two_pow_pos _
  element_dvd := ⟨surface.blockElements, by
    rw [Nat.mul_comm, valid.blockElements_mul]⟩
  within_lt := by
    intro x y
    unfold within
    split
    · next isPattern =>
      rw [valid.blockBytes]
      exact (valid.equationFits isPattern).offset_lt x y
    · rw [← valid.blockElements_mul]
      apply Nat.mul_lt_mul_of_pos_right (valid.blockTable_lt _ _)
      rw [valid.bytesPerElement]
      exact Nat.two_pow_pos _
  within_dvd := by
    intro x y
    unfold within
    split
    · next isPattern =>
      rw [valid.bytesPerElement]
      exact (valid.equationFits isPattern).dvd_offset valid.bppLog2_le x y
    · exact Nat.dvd_mul_left _ _
  within_injective := by
    intro x y other below sameColumn sameRow same
    unfold within at same
    split at same
    · next isPattern =>
      rw [valid.blockWidth] at sameColumn
      rw [valid.blockHeight] at sameRow
      exact (valid.equationFits isPattern).offset_injective sameColumn sameRow same
    · have elementPos : 0 < surface.bytesPerElement := by
        rw [valid.bytesPerElement]
        exact Nat.two_pow_pos _
      obtain ⟨restColumn, restRow⟩ := valid.blockTable_injective
        (Nat.mod_lt _ valid.width_pos) (Nat.mod_lt _ valid.height_pos)
        (Nat.mod_lt _ valid.width_pos) (Nat.mod_lt _ valid.height_pos)
        (Nat.eq_of_mul_eq_mul_right elementPos same)
      constructor
      · rw [← Nat.div_add_mod x surface.blockWidth, sameColumn, restColumn, Nat.div_add_mod]
      · rw [← Nat.div_add_mod y surface.blockHeight, sameRow, restRow, Nat.div_add_mod]

/-! ## Source offsets -/

/-- The nested wrapping of an offset is one wrapping of its exact value. -/
theorem Valid.sourceByte_eq (valid : surface.Valid) (x y : Nat) : surface.sourceByte x y =
      toLong ((((y / surface.blockHeight : Nat) : Int) * surface.blocksPerRow +
        ((x / surface.blockWidth : Nat) : Int)) * surface.blockBytes +
        surface.within x y) := by
  unfold sourceByte within
  cases tryGetExactXorPattern surface.swizzleMode surface.bppLog2 with
  | some xorPattern =>
    simp only [toLong_add_toLong, toLong_mul_add]
  | none =>
    simp only [toLong_add_toLong, toLong_toLong_mul]
    rw [← valid.blockElements_mul]
    apply congrArg toLong
    push_cast
    ring

/-- The map is exact when the blocks per row do not wrap, or no second row of
blocks uses them, and the surface has at most 2^63 bytes. -/
def Exact (surface : Surface) : Prop :=
  (surface.elementsHigh ≤ surface.blockHeight ∨
    surface.elementsWide + surface.blockWidth ≤ 2 ^ 31) ∧
  surface.blockBytesTotal ≤ 2 ^ 63

theorem Valid.blockBytesTotal_eq (valid : surface.Valid) : surface.blockBytesTotal =
      (layout valid).paddedBytes surface.elementsWide surface.elementsHigh :=
  rfl

theorem Valid.blocksPerRow_eq (valid : surface.Valid)
    (noWrap : surface.elementsWide + surface.blockWidth ≤ 2 ^ 31) :
    surface.blocksPerRow =
      (BlockLayout.blocksOver surface.elementsWide surface.blockWidth : Nat) := by
  have widePos := valid.wide_pos
  have widthPos := valid.width_pos
  have isSum : toInt (toInt (surface.elementsWide + surface.blockWidth) - 1) =
      ((surface.elementsWide + surface.blockWidth - 1 : Nat) : Int) := by
    unfold toInt
    rw [Int.sub_eq_add_neg, Int.bmod_add_bmod, ← Int.sub_eq_add_neg]
    change toInt _ = _
    rw [toInt_of_bounds (by omega) (by omega)]
    omega
  unfold blocksPerRow BlockLayout.blocksOver
  rw [isSum]
  exact Int.ofNat_tdiv _ _ |>.symm

/-- With wrapping, they are negative. -/
theorem Valid.blocksPerRow_neg (valid : surface.Valid)
    (wraps : 2 ^ 31 < surface.elementsWide + surface.blockWidth) :
    -2 ^ 31 ≤ surface.blocksPerRow ∧ surface.blocksPerRow < 0 := by
  have wideLt := valid.wide_lt
  have widthLe : surface.blockWidth ≤ 2 ^ 8 := by
    rw [valid.blockWidth]
    apply Nat.pow_le_pow_right (by omega)
    have := valid.blockBits_le
    unfold blockWidthBits
    omega
  have widthPos := valid.width_pos
  have isSum : toInt (toInt (surface.elementsWide + surface.blockWidth) - 1) =
      -((2 ^ 32 + 1 - surface.elementsWide - surface.blockWidth : Nat) : Int) := by
    unfold toInt
    rw [Int.sub_eq_add_neg, Int.bmod_add_bmod, ← Int.sub_eq_add_neg, Int.bmod_def]
    split <;> omega
  unfold blocksPerRow
  rw [isSum, Int.neg_tdiv]
  have isDiv := Int.ofNat_tdiv (2 ^ 32 + 1 - surface.elementsWide - surface.blockWidth)
    surface.blockWidth
  have quotientPos : 0 < (2 ^ 32 + 1 - surface.elementsWide -
      surface.blockWidth) / surface.blockWidth :=
    Nat.div_pos (by omega) widthPos
  have quotientLe := Nat.div_le_self (2 ^ 32 + 1 - surface.elementsWide - surface.blockWidth)
    surface.blockWidth
  omega

end Surface

end GnmTiling

end SharpEmu
