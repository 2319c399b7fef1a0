import SharpEmu.GnmTilingSurfaces

/-!
# Detiling a surface

On a surface whose arithmetic is exact the source offsets are injective and
aligned and end inside the byte count, and detiling from a buffer of that many
bytes reads each element once, in row order.  The condition is exact: on every
other surface the offset of some element is negative or there is no byte count.
-/

namespace SharpEmu

namespace GnmTiling

namespace Surface

variable {surface : Surface}

/-! ## Exact offsets -/

theorem Valid.sourceByte_exact (valid : surface.Valid) (exact : surface.Exact)
    {x y : Nat} (column : x < surface.elementsWide)
    (row : y < surface.elementsHigh) :
    surface.sourceByte x y = ((layout valid).offset
        (BlockLayout.blocksOver surface.elementsWide surface.blockWidth) x y :
        Nat) := by
  have inside := (layout valid).offset_add_le column row
  have elementPos := (layout valid).element_pos
  have small := exact.2
  rw [valid.blockBytesTotal_eq] at small
  have isExact : (((y / surface.blockHeight : Nat) : Int) *
        surface.blocksPerRow + ((x / surface.blockWidth : Nat) : Int)) *
        surface.blockBytes + surface.within x y =
      ((layout valid).offset (BlockLayout.blocksOver surface.elementsWide surface.blockWidth) x y :
        Nat) := by
    unfold BlockLayout.offset
    cases exact.1 with
    | inl oneRow =>
      have isZero : y / surface.blockHeight = 0 :=
        Nat.div_eq_of_lt (Nat.lt_of_lt_of_le row oneRow)
      simp [layout, isZero]
    | inr noWrap =>
      rw [valid.blocksPerRow_eq noWrap]
      simp [layout]
  rw [valid.sourceByte_eq, isExact]
  change (layout valid).offset (BlockLayout.blocksOver surface.elementsWide
    surface.blockWidth) x y + _ ≤ _ at inside
  apply toLong_of_bounds <;> omega

theorem Valid.sourceByte_neg_of_wraps (valid : surface.Valid)
    (wraps : 2 ^ 31 < surface.elementsWide + surface.blockWidth) :
    surface.sourceByte 0 surface.blockHeight < 0 := by
  obtain ⟨lower, isNeg⟩ := valid.blocksPerRow_neg wraps
  have withinLt := (layout valid).within_lt 0 surface.blockHeight
  change surface.within 0 surface.blockHeight < surface.blockBytes at withinLt
  have bytesLe : surface.blockBytes ≤ 2 ^ 16 := by
    rw [valid.blockBytes]
    exact Nat.pow_le_pow_right (by omega) valid.blockBits_le
  have upperProduct : surface.blocksPerRow * surface.blockBytes ≤ -1 * surface.blockBytes :=
    Int.mul_le_mul_of_nonneg_right (by omega) (by omega)
  have lowerProduct : -2 ^ 31 * 2 ^ 16 ≤ surface.blocksPerRow * surface.blockBytes := by
    calc (-2 ^ 31 * 2 ^ 16 : Int) ≤ -2 ^ 31 * surface.blockBytes := by omega
      _ ≤ _ := Int.mul_le_mul_of_nonneg_right lower (by omega)
  rw [valid.sourceByte_eq, Nat.div_self valid.height_pos, Nat.zero_div,
    Int.natCast_one, Int.one_mul, Int.natCast_zero, Int.add_zero,
    toLong_of_bounds (by omega) (by omega)]
  omega

theorem Valid.sourceByte_neg_of_large (valid : surface.Valid)
    (noWrap : surface.elementsWide + surface.blockWidth ≤ 2 ^ 31)
    (large : 2 ^ 63 < surface.blockBytesTotal)
    (counted : surface.blockBytesTotal < 2 ^ 64) :
    surface.sourceByte ((BlockLayout.blocksOver surface.elementsWide surface.blockWidth - 1) *
        surface.blockWidth)
      ((BlockLayout.blocksOver surface.elementsHigh surface.blockHeight - 1) *
        surface.blockHeight) < 0 := by
  have columns := BlockLayout.blocksOver_pos valid.width_pos valid.wide_pos
  have rows := BlockLayout.blocksOver_pos valid.height_pos valid.high_pos
  have total : surface.blockBytesTotal =
      BlockLayout.blocksOver surface.elementsWide surface.blockWidth *
        BlockLayout.blocksOver surface.elementsHigh surface.blockHeight *
        surface.blockBytes := rfl
  have room : 2 ^ 63 + surface.blockBytes ≤ surface.blockBytesTotal := by
    apply BlockLayout.add_le_of_dvd _ ⟨_, by rw [total, Nat.mul_comm]⟩ large
    rw [valid.blockBytes]
    exact Nat.pow_dvd_pow 2 (by have := valid.blockBits_le; omega)
  have withinLt := (layout valid).within_lt
    ((BlockLayout.blocksOver surface.elementsWide surface.blockWidth - 1) * surface.blockWidth)
    ((BlockLayout.blocksOver surface.elementsHigh surface.blockHeight - 1) * surface.blockHeight)
  change surface.within _ _ < surface.blockBytes at withinLt
  rw [valid.sourceByte_eq, valid.blocksPerRow_eq noWrap,
    Nat.mul_div_cancel _ valid.width_pos, Nat.mul_div_cancel _ valid.height_pos]
  generalize BlockLayout.blocksOver surface.elementsWide surface.blockWidth = blocksWide at *
  generalize BlockLayout.blocksOver surface.elementsHigh surface.blockHeight = blocksHigh at *
  generalize surface.within _ _ = withinBytes at *
  have lastBlock : (((blocksHigh - 1 : Nat) : Int) * (blocksWide : Nat) +
        ((blocksWide - 1 : Nat) : Int)) * surface.blockBytes =
      surface.blockBytesTotal - surface.blockBytes := by
    rw [total]
    push_cast [rows, columns]
    ring
  rw [lastBlock]
  apply toLong_of_wrapped <;> omega

theorem Valid.blockBytesTotal_of_oneRow (valid : surface.Valid)
    (oneRow : surface.elementsHigh ≤ surface.blockHeight) :
    surface.blockBytesTotal ≤ 2 ^ 63 := by
  have highPos := valid.high_pos
  have isOne : BlockLayout.blocksOver surface.elementsHigh surface.blockHeight = 1 :=
    Nat.div_eq_of_lt_le (by omega) (by omega)
  have lastColumn := BlockLayout.lastBlock_lt valid.width_pos valid.wide_pos
  have columnsLe : BlockLayout.blocksOver surface.elementsWide surface.blockWidth ≤ 2 ^ 31 := by
    have := Nat.le_mul_of_pos_right
      (BlockLayout.blocksOver surface.elementsWide surface.blockWidth - 1)
      valid.width_pos
    have := valid.wide_lt
    omega
  have bytesLe : surface.blockBytes ≤ 2 ^ 16 := by
    rw [valid.blockBytes]
    exact Nat.pow_le_pow_right (by omega) valid.blockBits_le
  calc surface.blockBytesTotal = BlockLayout.blocksOver surface.elementsWide surface.blockWidth *
          surface.blockBytes := by
        change _ * BlockLayout.blocksOver surface.elementsHigh surface.blockHeight * _ = _
        rw [isOne, Nat.mul_one]
        rfl
    _ ≤ 2 ^ 31 * 2 ^ 16 := Nat.mul_le_mul columnsLe bytesLe
    _ ≤ 2 ^ 63 := by omega

/-! ## Detiling -/

def elements (surface : Surface) : List (Nat × Nat) :=
  (List.range surface.elementsHigh).flatMap fun y =>
    (List.range surface.elementsWide).map fun x => (x, y)

def elementBytes (surface : Surface) (tiled : List UInt8) (x y : Nat) :
    List UInt8 :=
  (tiled.drop (surface.sourceByte x y).toNat).take surface.bytesPerElement

section Loop

variable {tiled linear : List UInt8}

structure Buffers (surface : Surface) (tiled linear : List UInt8) : Prop where
  tiled_lt : tiled.length < 2 ^ 31
  linear_lt : linear.length < 2 ^ 31
  source : ∀ x < surface.elementsWide, ∀ y < surface.elementsHigh,
    0 ≤ surface.sourceByte x y ∧
      surface.sourceByte x y + surface.bytesPerElement ≤ tiled.length
  dest : surface.elementsWide * surface.elementsHigh *
    surface.bytesPerElement ≤ linear.length

variable (buffers : Buffers surface tiled linear)

include buffers

variable {x y : Nat}

theorem Buffers.dest_le (column : x < surface.elementsWide) (row : y < surface.elementsHigh) :
    (y * surface.elementsWide + x + 1) * surface.bytesPerElement ≤
      linear.length := by
  calc (y * surface.elementsWide + x + 1) * surface.bytesPerElement
      ≤ ((y + 1) * surface.elementsWide) * surface.bytesPerElement := by
        apply Nat.mul_le_mul_right
        rw [Nat.add_one_mul]
        omega
    _ ≤ (surface.elementsHigh * surface.elementsWide) *
          surface.bytesPerElement :=
        Nat.mul_le_mul_right _ (Nat.mul_le_mul_right _ row)
    _ ≤ linear.length := by
        rw [Nat.mul_comm surface.elementsHigh]
        exact buffers.dest

theorem Buffers.destByte_eq (column : x < surface.elementsWide) (row : y < surface.elementsHigh) :
    surface.destByte x y = ((y * surface.elementsWide + x) * surface.bytesPerElement : Nat) := by
  have inside := buffers.dest_le column row
  have small := buffers.linear_lt
  rw [Nat.add_one_mul] at inside
  unfold destByte
  rw [toLong_toLong_mul, toLong_add_toLong, Int.add_comm, toLong_add_toLong]
  have isExact : (x : Int) * surface.bytesPerElement +
        (y : Int) * surface.elementsWide * surface.bytesPerElement =
      ((y * surface.elementsWide + x) * surface.bytesPerElement : Nat) := by
    push_cast
    ring
  rw [isExact]
  apply toLong_of_bounds <;> omega

variable {before : List UInt8}

theorem Buffers.detileElement_eq
    (column : x < surface.elementsWide) (row : y < surface.elementsHigh)
    (reads : List (Int × Nat))
    (length : before.length = (y * surface.elementsWide + x) * surface.bytesPerElement) :
    surface.detileElement tiled ⟨before ++ linear.drop before.length, reads⟩ x y = .ok
        ⟨before ++ surface.elementBytes tiled x y ++
            linear.drop (before.length + surface.bytesPerElement),
          reads ++ [(surface.sourceByte x y, surface.bytesPerElement)]⟩ := by
  obtain ⟨sourceLower, sourceUpper⟩ := buffers.source x column y row
  obtain ⟨source, isSource⟩ := Int.eq_ofNat_of_zero_le sourceLower
  have isDest : surface.destByte x y = before.length := by
    rw [buffers.destByte_eq column row, length]
  have destEnds : before.length + surface.bytesPerElement ≤ linear.length := by
    rw [length, ← Nat.add_one_mul]
    exact buffers.dest_le column row
  have sourceEnds : source + surface.bytesPerElement ≤ tiled.length := by
    rw [isSource] at sourceUpper
    exact_mod_cast sourceUpper
  have spanLength : (before ++ linear.drop before.length).length = linear.length := by
    rw [List.length_append, List.length_drop, Nat.add_sub_cancel' (Nat.le_of_add_right_le destEnds)]
  have bytesLength : (surface.elementBytes tiled x y).length =
      surface.bytesPerElement := by
    rw [elementBytes, isSource, List.length_take, List.length_drop, Int.toNat_natCast]
    exact Nat.min_eq_left (Nat.le_sub_of_add_le' sourceEnds)
  have endLong {start size : Nat} (lt : size < 2 ^ 31)
      (ends : start + surface.bytesPerElement ≤ size) :
      toLong ((start : Int) + surface.bytesPerElement) =
        (start + surface.bytesPerElement : Nat) := by
    rw [← Int.natCast_add]
    exact toLong_natCast (by omega)
  have startInt {start size : Nat} (lt : size < 2 ^ 31)
      (ends : start + surface.bytesPerElement ≤ size) :
      toInt (start : Int) = start :=
    toInt_natCast (by omega)
  have sliceOk {span : List UInt8} {start : Nat}
      (ends : start + surface.bytesPerElement ≤ span.length) :
      slice span start surface.bytesPerElement =
        .ok ((span.drop start).take surface.bytesPerElement) := by
    rw [slice, if_pos ⟨Int.natCast_nonneg start, by exact_mod_cast ends⟩]
    rfl
  have copied : copyTo (surface.elementBytes tiled x y)
      (before ++ linear.drop before.length) before.length =
      before ++ surface.elementBytes tiled x y ++
        linear.drop (before.length + surface.bytesPerElement) := by
    rw [copyTo, bytesLength, List.take_left, List.drop_append,
      List.drop_eq_nil_of_le (Nat.le_add_right _ _), List.nil_append,
      List.drop_drop, Nat.add_sub_cancel_left]
  unfold detileElement
  simp only [isDest, isSource, spanLength, endLong buffers.tiled_lt sourceEnds,
    endLong buffers.linear_lt destEnds, startInt buffers.tiled_lt sourceEnds,
    startInt buffers.linear_lt destEnds]
  rw [if_neg (by
      push Not
      exact ⟨by exact_mod_cast sourceEnds, by exact_mod_cast destEnds⟩),
    sliceOk sourceEnds, sliceOk (by rw [spanLength]; exact destEnds), ← copied,
    elementBytes, isSource]
  rfl

omit buffers in
theorem ok_bind {Value Result : Type} (value : Value) (next : Value → Except DetileFault Result) :
    (Except.ok value >>= next) = next value :=
  rfl

theorem Buffers.detileColumns_eq (row : y < surface.elementsHigh) (reads : List (Int × Nat))
    (length : before.length = y * surface.elementsWide * surface.bytesPerElement)
    (columns : Nat) (columnsLe : columns ≤ surface.elementsWide) :
    let copied := before ++ (List.range columns).flatMap fun x =>
      surface.elementBytes tiled x y
    copied.length = (y * surface.elementsWide + columns) * surface.bytesPerElement ∧
      (List.range columns).foldlM (fun detiling x => surface.detileElement tiled detiling x y)
        ⟨before ++ linear.drop before.length, reads⟩ =
      .ok ⟨copied ++ linear.drop copied.length, reads ++ (List.range columns).map fun x =>
            (surface.sourceByte x y, surface.bytesPerElement)⟩ := by
  induction columns with
  | zero => simpa using ⟨length, rfl⟩
  | succ columns ih =>
    obtain ⟨copiedLength, copies⟩ := ih (Nat.le_of_succ_le columnsLe)
    have bytesLength : (surface.elementBytes tiled columns y).length =
        surface.bytesPerElement := by
      have := buffers.source columns columnsLe y row
      rw [elementBytes, List.length_take, List.length_drop]
      omega
    have isCopied : before ++ (List.range (columns + 1)).flatMap (fun x =>
          surface.elementBytes tiled x y) =
        before ++ (List.range columns).flatMap (fun x =>
          surface.elementBytes tiled x y) ++
          surface.elementBytes tiled columns y := by
      simp [List.range_succ]
    dsimp only
    rw [isCopied]
    generalize before ++ (List.range columns).flatMap (fun x =>
      surface.elementBytes tiled x y) = copied at *
    constructor
    · rw [List.length_append, copiedLength, bytesLength]
      ring
    · rw [List.range_succ, List.foldlM_append, copies, ok_bind,
        List.foldlM_cons, buffers.detileElement_eq columnsLe row _
          copiedLength, ok_bind, List.foldlM_nil, List.map_append,
        List.append_assoc reads, List.length_append, bytesLength]
      rfl

theorem Buffers.detileRows_eq (rows : Nat) (rowsLe : rows ≤ surface.elementsHigh) :
    let copied := (List.range rows).flatMap fun y =>
      (List.range surface.elementsWide).flatMap fun x =>
        surface.elementBytes tiled x y
    copied.length = rows * surface.elementsWide * surface.bytesPerElement ∧ (List.range rows).foldlM
        (fun detiling y => surface.detileRow tiled detiling y)
        ⟨linear, []⟩ =
      .ok ⟨copied ++ linear.drop copied.length, (List.range rows).flatMap fun y =>
            (List.range surface.elementsWide).map fun x =>
              (surface.sourceByte x y, surface.bytesPerElement)⟩ := by
  induction rows with
  | zero => simp [pure, Except.pure]
  | succ rows ih =>
    obtain ⟨copiedLength, copies⟩ := ih (Nat.le_of_succ_le rowsLe)
    obtain ⟨rowLength, rowCopies⟩ := buffers.detileColumns_eq rowsLe
      ((List.range rows).flatMap fun y =>
        (List.range surface.elementsWide).map fun x =>
          (surface.sourceByte x y, surface.bytesPerElement))
      copiedLength surface.elementsWide le_rfl
    dsimp only
    rw [List.range_succ, List.flatMap_append, List.flatMap_singleton,
      List.flatMap_append, List.flatMap_singleton]
    constructor
    · rw [rowLength]
      ring
    · rw [List.foldlM_append, copies, ok_bind, List.foldlM_cons]
      unfold detileRow
      rw [rowCopies]
      simp [List.foldlM_nil]

theorem Buffers.detileRows_elements : surface.detileRows tiled ⟨linear, []⟩ = .ok
        ⟨(surface.elements.flatMap fun position =>
            surface.elementBytes tiled position.1 position.2) ++
            linear.drop (surface.elementsWide * surface.elementsHigh * surface.bytesPerElement),
          surface.elements.map fun position =>
            (surface.sourceByte position.1 position.2, surface.bytesPerElement)⟩ := by
  obtain ⟨copiedLength, copies⟩ :=
    buffers.detileRows_eq surface.elementsHigh le_rfl
  unfold detileRows
  rw [copies, copiedLength, Nat.mul_comm surface.elementsHigh]
  simp [elements, List.flatMap_assoc, List.flatMap_map, List.map_flatMap, Function.comp_def]

end Loop

end Surface

/-! ## The address map -/

def Surface.Contains (surface : Surface) (x y : Nat) : Prop :=
  x < surface.elementsWide ∧ y < surface.elementsHigh

/-- What addressing and detiling a surface is to give: element spans that are
apart, aligned and inside the byte count, and a detiling that reads each of
them once. -/
structure Addressed (setting : DetileSetting) (swizzleMode : UInt32)
    (elementsWide elementsHigh bytesPerElement : Int32) (surface : Surface) :
    Prop where
  inside : ∃ byteCount, tryGetTiledByteCount setting swizzleMode elementsWide
      elementsHigh bytesPerElement = some byteCount ∧
    ∀ x y, surface.Contains x y → 0 ≤ surface.sourceByte x y ∧
      surface.sourceByte x y + surface.bytesPerElement ≤ byteCount
  injective : ∀ x y other below, surface.Contains x y →
    surface.Contains other below →
    surface.sourceByte x y = surface.sourceByte other below →
    x = other ∧ y = below
  aligned : ∀ x y, surface.Contains x y →
    (surface.bytesPerElement : Int) ∣ surface.sourceByte x y
  disjoint : ∀ x y other below, surface.Contains x y →
    surface.Contains other below → (x, y) ≠ (other, below) →
    surface.sourceByte x y + surface.bytesPerElement ≤
        surface.sourceByte other below ∨
      surface.sourceByte other below + surface.bytesPerElement ≤
        surface.sourceByte x y
  detiled : ∀ tiled linear : List UInt8,
    tryGetTiledByteCount setting swizzleMode elementsWide elementsHigh
      bytesPerElement = some tiled.length →
    tiled.length < 2 ^ 31 → linear.length < 2 ^ 31 →
    surface.elementsWide * surface.elementsHigh * surface.bytesPerElement ≤
      linear.length →
    tryDetile setting tiled linear swizzleMode elementsWide elementsHigh
        bytesPerElement =
      .ok (some
        { linear := (surface.elements.flatMap fun position =>
              surface.elementBytes tiled position.1 position.2) ++
            linear.drop (surface.elementsWide * surface.elementsHigh *
              surface.bytesPerElement)
          reads := surface.elements.map fun position =>
            (surface.sourceByte position.1 position.2,
              surface.bytesPerElement) })

section Addressing

variable {setting : DetileSetting} {swizzleMode : UInt32}
  {elementsWide elementsHigh bytesPerElement : Int32} {surface : Surface}

theorem tryGetTiledByteCount_of_surface
    (isSurface : trySurface setting swizzleMode elementsWide elementsHigh
      bytesPerElement = some surface) :
    tryGetTiledByteCount setting swizzleMode elementsWide elementsHigh bytesPerElement =
      if surface.blockBytesTotal < 2 ^ 64 then some surface.blockBytesTotal
      else none := by
  rw [tryGetTiledByteCount, isSurface]

theorem tryDetile_of_buffers (isSurface : trySurface setting swizzleMode elementsWide elementsHigh
      bytesPerElement = some surface)
    {tiled linear : List UInt8} (buffers : surface.Buffers tiled linear) :
    tryDetile setting tiled linear swizzleMode elementsWide elementsHigh bytesPerElement = .ok (some
        { linear := (surface.elements.flatMap fun position =>
              surface.elementBytes tiled position.1 position.2) ++
            linear.drop (surface.elementsWide * surface.elementsHigh * surface.bytesPerElement)
          reads := surface.elements.map fun position =>
            (surface.sourceByte position.1 position.2, surface.bytesPerElement) }) := by
  have dest := buffers.dest
  have linearLt := buffers.linear_lt
  have required : surface.requiredLinear = (surface.elementsWide * surface.elementsHigh *
        surface.bytesPerElement : Nat) := by
    unfold Surface.requiredLinear
    rw [toLong_toLong_mul, ← Int.natCast_mul, ← Int.natCast_mul]
    exact toLong_natCast (by omega)
  unfold tryDetile
  rw [isSurface]
  dsimp only
  rw [required, if_neg (by
    rw [not_lt]
    exact_mod_cast dest), buffers.detileRows_elements]
  rfl

theorem addressed_of_exact (isSurface : trySurface setting swizzleMode elementsWide elementsHigh
      bytesPerElement = some surface) (exact : surface.Exact) :
    Addressed setting swizzleMode elementsWide elementsHigh bytesPerElement
      surface := by
  have valid := trySurface_valid isSurface
  have isOffset {x y : Nat} (contains : surface.Contains x y) :=
    valid.sourceByte_exact exact contains.1 contains.2
  have counted : tryGetTiledByteCount setting swizzleMode elementsWide
      elementsHigh bytesPerElement = some surface.blockBytesTotal := by
    have := exact.2
    rw [tryGetTiledByteCount_of_surface isSurface, if_pos (by omega)]
  have inside {x y : Nat} (contains : surface.Contains x y) : 0 ≤ surface.sourceByte x y ∧
        surface.sourceByte x y + surface.bytesPerElement ≤
          surface.blockBytesTotal := by
    have ends := (Surface.layout valid).offset_add_le contains.1 contains.2
    rw [isOffset contains]
    exact ⟨Int.natCast_nonneg _, by exact_mod_cast ends⟩
  have injective {x y other below : Nat} (contains : surface.Contains x y)
      (otherContains : surface.Contains other below)
      (same : surface.sourceByte x y = surface.sourceByte other below) :
      x = other ∧ y = below := by
    rw [isOffset contains, isOffset otherContains] at same
    exact (Surface.layout valid).offset_injective contains.1 otherContains.1
      (by exact_mod_cast same)
  have aligned (x y : Nat) : surface.bytesPerElement ∣
      (Surface.layout valid).offset (BlockLayout.blocksOver
        surface.elementsWide surface.blockWidth) x y :=
    BlockLayout.elementBytes_dvd_offset _ x y
  exact
    { inside := ⟨_, counted, fun x y => inside⟩
      injective := fun x y other below => injective
      aligned := by
        intro x y contains
        rw [isOffset contains]
        exact_mod_cast aligned x y
      disjoint := by
        intro x y other below contains otherContains apart
        have offsetsApart : surface.sourceByte x y ≠ surface.sourceByte other below := by
          intro same
          obtain ⟨rfl, rfl⟩ := injective contains otherContains same
          exact apart rfl
        rw [isOffset contains, isOffset otherContains] at offsetsApart ⊢
        rcases lt_or_gt_of_ne offsetsApart with lower | upper
        · left
          exact_mod_cast BlockLayout.add_le_of_dvd (aligned x y)
            (aligned other below) (by exact_mod_cast lower)
        · right
          exact_mod_cast BlockLayout.add_le_of_dvd (aligned other below)
            (aligned x y) (by exact_mod_cast upper)
      detiled := by
        intro tiled linear isCount tiledLt linearLt dest
        rw [counted] at isCount
        have isLength := Option.some.inj isCount
        apply tryDetile_of_buffers isSurface
        exact
          { tiled_lt := tiledLt
            linear_lt := linearLt
            source := by
              intro x column y row
              rw [← isLength]
              exact inside ⟨column, row⟩
            dest } }

theorem exact_of_addressed (isSurface : trySurface setting swizzleMode elementsWide elementsHigh
      bytesPerElement = some surface)
    (addressed : Addressed setting swizzleMode elementsWide elementsHigh
      bytesPerElement surface) : surface.Exact := by
  have valid := trySurface_valid isSurface
  obtain ⟨byteCount, isCount, inside⟩ := addressed.inside
  have counted : surface.blockBytesTotal < 2 ^ 64 := by
    rw [tryGetTiledByteCount_of_surface isSurface] at isCount
    by_contra large
    rw [if_neg large] at isCount
    cases isCount
  by_cases oneRow : surface.elementsHigh ≤ surface.blockHeight
  · exact ⟨.inl oneRow, valid.blockBytesTotal_of_oneRow oneRow⟩
  · have noWrap : surface.elementsWide + surface.blockWidth ≤ 2 ^ 31 := by
      by_contra wraps
      have isNeg := valid.sourceByte_neg_of_wraps (Nat.lt_of_not_le wraps)
      have := (inside 0 surface.blockHeight ⟨valid.wide_pos, Nat.lt_of_not_le oneRow⟩).1
      omega
    refine ⟨.inr noWrap, ?_⟩
    by_contra large
    have isNeg := valid.sourceByte_neg_of_large noWrap (Nat.lt_of_not_le large) counted
    have := (inside _ _ ⟨BlockLayout.lastBlock_lt valid.width_pos valid.wide_pos,
        BlockLayout.lastBlock_lt valid.height_pos valid.high_pos⟩).1
    omega

end Addressing

/-- The offsets of a supported surface are apart, aligned and inside its byte
count exactly when they are computed without wrapping. -/
theorem addressed_iff {setting : DetileSetting} {swizzleMode : UInt32}
    {elementsWide elementsHigh bytesPerElement : Int32} {surface : Surface}
    (isSurface : trySurface setting swizzleMode elementsWide elementsHigh
      bytesPerElement = some surface) :
    Addressed setting swizzleMode elementsWide elementsHigh bytesPerElement surface ↔
      (surface.elementsHigh ≤ surface.blockHeight ∨
        surface.elementsWide + surface.blockWidth ≤ 2 ^ 31) ∧
      surface.blockBytesTotal ≤ 2 ^ 63 :=
  ⟨exact_of_addressed isSurface, addressed_of_exact isSurface⟩

/-- A 64 KiB depth surface of 200 by 3 4-byte elements, two blocks wide. -/
theorem addressed_iff_twoBlocks : ∃ surface, trySurface none 8 200 3 4 = some surface ∧
      (Addressed none 8 200 3 4 surface ↔ (surface.elementsHigh ≤ surface.blockHeight ∨
          surface.elementsWide + surface.blockWidth ≤ 2 ^ 31) ∧
        surface.blockBytesTotal ≤ 2 ^ 63) :=
  ⟨⟨8, 200, 3, 4, .zOrder, 65536, 2, 16384, 128, 128⟩, by decide +kernel,
    addressed_iff (by decide +kernel)⟩

/-- A surface of 2147483647 by 65537 elements of 64 KiB has a byte count below
2^64, and the element at (65536, 65536) has a negative source offset. -/
theorem wrapped_surface_not_addressed : ∃ surface,
      trySurface none 8 2147483647 65537 65536 = some surface ∧
      tryGetTiledByteCount none 8 2147483647 65537 65536 = some 9223512770048098304 ∧
      surface.requiredLinear < 0 ∧
      surface.sourceByte 65536 65536 = -2 ^ 63 ∧
      ¬ Addressed none 8 2147483647 65537 65536 surface := by
  refine ⟨⟨8, 2147483647, 65537, 65536, .zOrder, 65536, 16, 1, 1, 1⟩,
    by decide +kernel, by decide +kernel, by decide +kernel,
    by decide +kernel, ?_⟩
  intro addressed
  obtain ⟨byteCount, _, inside⟩ := addressed.inside
  have isNeg := (inside 65536 65536 ⟨by decide, by decide⟩).1
  revert isNeg
  decide +kernel

end GnmTiling

end SharpEmu
