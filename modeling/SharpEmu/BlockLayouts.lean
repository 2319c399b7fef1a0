import Mathlib.Algebra.Order.Group.Nat
import Mathlib.Tactic.Common
import Mathlib.Tactic.Ring

/-!
# Block layouts

A block layout cuts a grid into blocks of one size, stores the blocks one after
another in row order, and gives each position of the grid an offset inside its
block.  When the offsets inside one block are apart, aligned and inside the
block, so are the offsets of the whole grid.
-/

namespace SharpEmu

structure BlockLayout where
  blockWidth : Nat
  blockHeight : Nat
  blockBytes : Nat
  elementBytes : Nat
  within : Nat → Nat → Nat
  width_pos : 0 < blockWidth
  height_pos : 0 < blockHeight
  element_pos : 0 < elementBytes
  element_dvd : elementBytes ∣ blockBytes
  within_lt : ∀ x y, within x y < blockBytes
  within_dvd : ∀ x y, elementBytes ∣ within x y
  within_injective : ∀ x y other below,
    x / blockWidth = other / blockWidth →
    y / blockHeight = below / blockHeight →
    within x y = within other below → x = other ∧ y = below

namespace BlockLayout

variable (layout : BlockLayout)

def blocksOver (length block : Nat) : Nat :=
  (length + block - 1) / block

def offset (blocksPerRow x y : Nat) : Nat :=
  (y / layout.blockHeight * blocksPerRow + x / layout.blockWidth) *
    layout.blockBytes + layout.within x y

def paddedBytes (width height : Nat) : Nat :=
  blocksOver width layout.blockWidth * blocksOver height layout.blockHeight * layout.blockBytes

variable {layout}

variable {length block : Nat}

theorem div_lt_blocksOver {index : Nat} (positive : 0 < block)
    (inside : index < length) : index / block < blocksOver length block := by
  unfold blocksOver
  rw [Nat.div_lt_iff_lt_mul positive]
  have := Nat.div_add_mod (length + block - 1) block
  have := Nat.mod_lt (length + block - 1) positive
  rw [Nat.mul_comm]
  omega

theorem blocksOver_pos (positive : 0 < block)
    (nonempty : 0 < length) : 0 < blocksOver length block :=
  Nat.zero_lt_of_lt (div_lt_blocksOver positive nonempty)

theorem lastBlock_lt (positive : 0 < block) (nonempty : 0 < length) :
    (blocksOver length block - 1) * block < length := by
  have isPos := blocksOver_pos positive nonempty
  have := Nat.div_mul_le_self (length + block - 1) block
  change blocksOver length block * block ≤ _ at this
  rw [Nat.sub_one_mul]
  have : block ≤ blocksOver length block * block :=
    Nat.le_mul_of_pos_left _ isPos
  omega

variable {width height x y : Nat}

theorem blockIndex_lt (column : x < width) (row : y < height) :
    y / layout.blockHeight * blocksOver width layout.blockWidth + x / layout.blockWidth <
      blocksOver width layout.blockWidth * blocksOver height layout.blockHeight := by
  have columnBlock := div_lt_blocksOver layout.width_pos column
  have rowBlock := div_lt_blocksOver layout.height_pos row
  calc y / layout.blockHeight * blocksOver width layout.blockWidth + x / layout.blockWidth
      < (y / layout.blockHeight + 1) * blocksOver width layout.blockWidth := by
        rw [Nat.add_one_mul]
        omega
    _ ≤ blocksOver height layout.blockHeight * blocksOver width layout.blockWidth :=
        Nat.mul_le_mul_right _ rowBlock
    _ = _ := Nat.mul_comm _ _

theorem elementBytes_dvd_offset (blocksPerRow x y : Nat) :
    layout.elementBytes ∣ layout.offset blocksPerRow x y :=
  Nat.dvd_add (Dvd.dvd.mul_left layout.element_dvd _) (layout.within_dvd x y)

variable {size : Nat}

/-- A multiple of the element size below another one leaves room for an
element. -/
theorem add_le_of_dvd {lower upper : Nat} (lowerDvd : size ∣ lower)
    (upperDvd : size ∣ upper) (lt : lower < upper) : lower + size ≤ upper := by
  obtain ⟨first, rfl⟩ := lowerDvd
  obtain ⟨second, rfl⟩ := upperDvd
  rw [← Nat.mul_add_one]
  exact Nat.mul_le_mul_left size (Nat.lt_of_mul_lt_mul_left lt)

theorem offset_add_le (column : x < width) (row : y < height) :
    layout.offset (blocksOver width layout.blockWidth) x y + layout.elementBytes ≤
      layout.paddedBytes width height := by
  apply add_le_of_dvd (elementBytes_dvd_offset _ _ _) (Dvd.dvd.mul_left layout.element_dvd _)
  have block := layout.blockIndex_lt column row
  calc layout.offset (blocksOver width layout.blockWidth) x y
      < (y / layout.blockHeight * blocksOver width layout.blockWidth +
          x / layout.blockWidth + 1) * layout.blockBytes := by
        unfold offset
        rw [Nat.add_one_mul]
        exact Nat.add_lt_add_left (layout.within_lt x y) _
    _ ≤ _ := Nat.mul_le_mul_right _ block

variable {other : Nat}

/-- A quotient and a remainder are determined by the number they make. -/
theorem eq_of_mul_add_eq {first second rest : Nat} (lt : rest < size) (otherLt : other < size)
    (same : first * size + rest = second * size + other) :
    first = second ∧ rest = other := by
  have positive : 0 < size := Nat.zero_lt_of_lt lt
  have quotient := congrArg (· / size) same
  rw [Nat.mul_comm first, Nat.mul_comm second, Nat.mul_add_div positive,
    Nat.mul_add_div positive, Nat.div_eq_of_lt lt, Nat.div_eq_of_lt otherLt]
    at quotient
  have sameQuotient : first = second := quotient
  subst sameQuotient
  exact ⟨rfl, Nat.add_left_cancel same⟩

theorem offset_injective {below : Nat} (column : x < width) (otherColumn : other < width)
    (same : layout.offset (blocksOver width layout.blockWidth) x y =
      layout.offset (blocksOver width layout.blockWidth) other below) :
    x = other ∧ y = below := by
  have firstBlock := div_lt_blocksOver layout.width_pos column
  have secondBlock := div_lt_blocksOver layout.width_pos otherColumn
  obtain ⟨sameBlock, sameWithin⟩ := eq_of_mul_add_eq
    (layout.within_lt x y) (layout.within_lt other below) same
  obtain ⟨sameRow, sameColumn⟩ :=
    eq_of_mul_add_eq firstBlock secondBlock sameBlock
  exact layout.within_injective x y other below sameColumn sameRow sameWithin

end BlockLayout

end SharpEmu
