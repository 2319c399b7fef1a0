import Mathlib.Data.Set.Lattice
import Mathlib.Data.UInt
import Mathlib.Algebra.Order.Group.Int

/-!
# Scissor rectangles

`DecodeScissor` intersects the screen, window, generic and viewport scissors of
the context registers with the render target, after moving the window and
generic rectangles by the signed window offset, and clamps the outcome to the
target.  For the targets the 32-bit conversions take, what it returns is the
rectangle of the target's pixels that lie in every enabled scissor.
-/

namespace SharpEmu.Scissors

abbrev Registers := UInt32 → Option UInt32

def paScScreenScissorTl : UInt32 := 0x0C
def paScScreenScissorBr : UInt32 := 0x0D
def paScWindowOffset : UInt32 := 0x80
def paScWindowScissorTl : UInt32 := 0x81
def paScWindowScissorBr : UInt32 := 0x82
def paScGenericScissorTl : UInt32 := 0x90
def paScGenericScissorBr : UInt32 := 0x91
def paScVportScissor0Tl : UInt32 := 0x94
def paScVportScissor0Br : UInt32 := 0x95
def paScModeCntl0 : UInt32 := 0x292

structure GuestRect where
  x : ℤ
  y : ℤ
  width : ℕ
  height : ℕ
  deriving DecidableEq, Repr

/-- The exceptions of the checked conversions and of a clamp whose bounds are
inverted. -/
inductive ScissorFault
  | overflow
  | argument
  deriving DecidableEq, Repr

/-- Two corners, the first inside and the second outside. -/
structure Bounds where
  left : ℤ
  top : ℤ
  right : ℤ
  bottom : ℤ
  deriving DecidableEq, Repr

/-- Unchecked 32-bit signed arithmetic. -/
def int (value : ℤ) : ℤ := value.bmod (2 ^ 32)

def checkedInt (value : ℕ) : Except ScissorFault ℤ :=
  if value < 2 ^ 31 then .ok value else .error .overflow

def checkedUint (value : ℤ) : Except ScissorFault ℕ :=
  if 0 ≤ value ∧ value < 2 ^ 32 then .ok value.toNat else .error .overflow

def intMaxValue : ℕ := 2 ^ 31 - 1

def clamp (value low high : ℤ) : Except ScissorFault ℤ :=
  if high < low then .error .argument
  else if value < low then .ok low
  else if high < value then .ok high
  else .ok value

/-- The conversion of the low half of a word to a signed 16-bit integer. -/
def short (value : UInt32) : ℤ := (value.toBitVec.setWidth 16).toInt

variable (registers : Registers)

def tryDecodeScissorPair (tlRegister brRegister : UInt32) : Option (Bounds × Bool) := do
  let tl ← registers tlRegister
  let br ← registers brRegister
  let corners : Bounds :=
    { left := (tl &&& 0x7FFF).toNat
      top := ((tl >>> 16) &&& 0x7FFF).toNat
      right := (br &&& 0x7FFF).toNat
      bottom := ((br >>> 16) &&& 0x7FFF).toNat }
  return (corners, decide (tl = 0 ∧ br = 0))

def intersectScissorPair (tlRegister brRegister : UInt32) (bounds : Bounds)
    (offset : ℤ × ℤ) (ignoreAllZeroPair : Bool) : Bounds :=
  match tryDecodeScissorPair registers tlRegister brRegister with
  | none => bounds
  | some (pair, allZero) =>
      if ignoreAllZeroPair ∧ allZero then bounds
      else
        { left := max bounds.left (int (pair.left + offset.1))
          top := max bounds.top (int (pair.top + offset.2))
          right := min bounds.right (int (pair.right + offset.1))
          bottom := min bounds.bottom (int (pair.bottom + offset.2)) }

def windowOffset : ℤ × ℤ :=
  let enableWindowOffset :=
    match registers paScWindowScissorTl with
    | some windowScissorTl => decide (windowScissorTl &&& 0x80000000 = 0)
    | none => true
  match enableWindowOffset, registers paScWindowOffset with
  | true, some offset => (short (offset &&& 0xFFFF), short (offset >>> 16))
  | _, _ => (0, 0)

def vportScissorEnabled : Bool :=
  match registers paScModeCntl0 with
  | some modeControl => decide ((modeControl >>> 1) &&& 1 ≠ 0)
  | none => true

/-- The bounds after the four scissor pairs. -/
def intersectAll (bounds : Bounds) : Bounds :=
  let offset := windowOffset registers
  -- Reset-state blocks can carry an all-zero screen scissor as a placeholder:
  -- only that exact value counts as absent.
  let bounds := intersectScissorPair registers paScScreenScissorTl
    paScScreenScissorBr bounds (0, 0) true
  let bounds := intersectScissorPair registers paScWindowScissorTl
    paScWindowScissorBr bounds offset false
  let bounds := intersectScissorPair registers paScGenericScissorTl
    paScGenericScissorBr bounds offset false
  if vportScissorEnabled registers then
    intersectScissorPair registers paScVportScissor0Tl paScVportScissor0Br bounds (0, 0) false
  else bounds

def clampToTarget (bounds : Bounds) (targetWidth targetHeight : UInt32) :
    Except ScissorFault (Option GuestRect) := do
  let width ← checkedInt targetWidth.toNat
  let left ← clamp bounds.left 0 width
  let height ← checkedInt targetHeight.toNat
  let top ← clamp bounds.top 0 height
  let right ← clamp bounds.right left width
  let bottom ← clamp bounds.bottom top height
  if left = 0 ∧ top = 0 ∧ right = width ∧ bottom = height then return none
  else
    let rectWidth ← checkedUint (int (right - left))
    let rectHeight ← checkedUint (int (bottom - top))
    return some ⟨left, top, rectWidth, rectHeight⟩

def decodeScissor (targetWidth targetHeight : UInt32) : Except ScissorFault (Option GuestRect) :=
  if targetWidth = 0 ∨ targetHeight = 0 then .ok (some ⟨0, 0, 0, 0⟩)
  else do
    let right ← checkedInt (min targetWidth.toNat intMaxValue)
    let bottom ← checkedInt (min targetHeight.toNat intMaxValue)
    clampToTarget (intersectAll registers ⟨0, 0, right, bottom⟩) targetWidth targetHeight

/-! ### The pixels a scissor state leaves visible -/

abbrev Pixel := ℤ × ℤ

namespace Bounds

def pixels (bounds : Bounds) : Set Pixel :=
  {pixel | (bounds.left ≤ pixel.1 ∧ pixel.1 < bounds.right) ∧
    (bounds.top ≤ pixel.2 ∧ pixel.2 < bounds.bottom)}

def shift (bounds : Bounds) (offset : ℤ × ℤ) : Bounds where
  left := bounds.left + offset.1
  top := bounds.top + offset.2
  right := bounds.right + offset.1
  bottom := bounds.bottom + offset.2

end Bounds

def scissorRectangle (tlRegister brRegister : UInt32) : Option Bounds := do
  let tl ← registers tlRegister
  let br ← registers brRegister
  return {
    left := (tl.toNat % 2 ^ 15 : ℕ)
    top := (tl.toNat / 2 ^ 16 % 2 ^ 15 : ℕ)
    right := (br.toNat % 2 ^ 15 : ℕ)
    bottom := (br.toNat / 2 ^ 16 % 2 ^ 15 : ℕ) }

def screenScissor : Option Bounds :=
  if registers paScScreenScissorTl = some 0 ∧ registers paScScreenScissorBr = some 0 then none
  else scissorRectangle registers paScScreenScissorTl paScScreenScissorBr

/-- A sixteen-bit field in two's complement. -/
def signedField (field : ℕ) : ℤ :=
  if field < 2 ^ 15 then field else field - 2 ^ 16

/-- The window offset in force: its halves are signed, and the top bit of the
window scissor's first register turns it off. -/
def offsetInForce : ℤ × ℤ :=
  if (registers paScWindowScissorTl).any (2 ^ 31 ≤ ·.toNat) then (0, 0)
  else
    (registers paScWindowOffset).elim (0, 0) fun word =>
      (signedField (word.toNat % 2 ^ 16), signedField (word.toNat / 2 ^ 16))

/-- The second bit of the mode register turns the viewport scissor on, and so does
a mode register that is not set. -/
def viewportInForce : Bool :=
  (registers paScModeCntl0).all (·.toNat / 2 % 2 = 1)

/-- The rectangles in force: the window and generic ones moved by the window
offset, the viewport's as long as the mode register does not disable it. -/
def enabledScissors : List Bounds :=
  let offset := offsetInForce registers
  (screenScissor registers).toList ++
    ((scissorRectangle registers paScWindowScissorTl paScWindowScissorBr).map
      (·.shift offset)).toList ++
    ((scissorRectangle registers paScGenericScissorTl
      paScGenericScissorBr).map (·.shift offset)).toList ++
    if viewportInForce registers then
      (scissorRectangle registers paScVportScissor0Tl paScVportScissor0Br).toList
    else []

def targetPixels (targetWidth targetHeight : UInt32) : Set Pixel :=
  Bounds.pixels ⟨0, 0, targetWidth.toNat, targetHeight.toNat⟩

def visiblePixels (targetWidth targetHeight : UInt32) : Set Pixel :=
  {pixel ∈ targetPixels targetWidth targetHeight |
    ∀ bounds ∈ enabledScissors registers, pixel ∈ bounds.pixels}

/-- What a decoded scissor lets through: nothing given is the whole target. -/
def scissorPixels (targetWidth targetHeight : UInt32) : Option GuestRect → Set Pixel
  | none => targetPixels targetWidth targetHeight
  | some rect =>
      Bounds.pixels ⟨rect.x, rect.y, rect.x + rect.width, rect.y + rect.height⟩

def Exact (targetWidth targetHeight : UInt32) : Prop :=
  ∃ result, decodeScissor registers targetWidth targetHeight = .ok result ∧
    scissorPixels targetWidth targetHeight result =
      visiblePixels registers targetWidth targetHeight ∧
    (result = none ↔ visiblePixels registers targetWidth targetHeight =
      targetPixels targetWidth targetHeight)

/-! ### One scissor pair -/

variable {registers}

theorem short_bounds (value : UInt32) : -2 ^ 15 ≤ short value ∧ short value < 2 ^ 15 := by
  have low := BitVec.le_toInt (value.toBitVec.setWidth 16)
  have high : (value.toBitVec.setWidth 16).toInt < 2 ^ (16 - 1) :=
    BitVec.toInt_lt
  exact ⟨low, high⟩

theorem short_eq (value : UInt32) : short value = signedField (value.toNat % 2 ^ 16) := by
  rw [short, BitVec.toInt_eq_toNat_cond, BitVec.toNat_setWidth, signedField, UInt32.toNat_toBitVec]
  split <;> split <;> omega

theorem windowOffset_eq (registers : Registers) :
    windowOffset registers = offsetInForce registers := by
  have halves (word : UInt32) : (short (word &&& 0xFFFF), short (word >>> 16)) =
        (signedField (word.toNat % 2 ^ 16), signedField (word.toNat / 2 ^ 16)) := by
    have low : (word &&& 0xFFFF).toNat = word.toNat % 2 ^ 16 := by
      rw [UInt32.toNat_and]
      exact Nat.and_two_pow_sub_one_eq_mod word.toNat 16
    have high : (word >>> 16).toNat = word.toNat / 2 ^ 16 := by
      rw [UInt32.toNat_shiftRight, Nat.shiftRight_eq_div_pow]
      rfl
    have bound := word.toNat_lt
    rw [short_eq, short_eq, low, high, Nat.mod_mod,
      Nat.mod_eq_of_lt (show word.toNat / 2 ^ 16 < 2 ^ 16 by omega)]
  have disabled (word : UInt32) : word &&& 0x80000000 = 0 ↔ ¬ 2 ^ 31 ≤ word.toNat := by
    have top : word.toBitVec.getLsbD 31 = decide (2 ^ 31 ≤ word.toNat) :=
      BitVec.msb_eq_getLsbD_last word.toBitVec ▸ BitVec.msb_eq_decide word.toBitVec
    rw [← UInt32.toBitVec_inj, UInt32.toBitVec_and]
    change word.toBitVec &&& BitVec.twoPow 32 31 = 0#32 ↔ _
    rw [BitVec.and_twoPow, top]
    by_cases isTop : 2 ^ 31 ≤ word.toNat
    · simp only [isTop, decide_true, if_true, not_true, iff_false]
      decide
    · simp only [isTop, decide_false, Bool.false_eq_true, if_false, not_false_eq_true]
  unfold windowOffset offsetInForce
  cases registers paScWindowScissorTl with
  | none =>
    cases registers paScWindowOffset with
    | none => rfl
    | some word => exact halves word
  | some tl =>
    by_cases top : 2 ^ 31 ≤ tl.toNat
    · simp only [disabled, top, not_true, decide_false, Option.any_some, decide_true, if_true]
    · simp only [disabled, top, not_false_eq_true, decide_true, Option.any_some,
        decide_false, Bool.false_eq_true, if_false]
      cases registers paScWindowOffset with
      | none => rfl
      | some word => exact halves word

theorem vportScissorEnabled_eq (registers : Registers) :
    vportScissorEnabled registers = viewportInForce registers := by
  unfold vportScissorEnabled viewportInForce
  cases registers paScModeCntl0 with
  | none => rfl
  | some mode =>
    have bit : ((mode >>> 1) &&& 1).toNat = mode.toNat / 2 % 2 := by
      rw [UInt32.toNat_and, UInt32.toNat_shiftRight, Nat.shiftRight_eq_div_pow]
      exact Nat.and_one_is_mod _
    rw [Option.all_some, decide_eq_decide, ne_eq, ← UInt32.toNat_inj, bit, UInt32.toNat_zero]
    omega

theorem windowOffset_bounds (registers : Registers) : (-2 ^ 15 ≤ (windowOffset registers).1 ∧
      (windowOffset registers).1 < 2 ^ 15) ∧
    (-2 ^ 15 ≤ (windowOffset registers).2 ∧ (windowOffset registers).2 < 2 ^ 15) := by
  rw [windowOffset]
  split
  next => exact ⟨short_bounds _, short_bounds _⟩
  next => exact ⟨⟨by decide, by decide⟩, by decide, by decide⟩

theorem toNat_field (value : UInt32) : (value &&& 0x7FFF).toNat = value.toNat % 2 ^ 15 := by
  rw [UInt32.toNat_and]
  exact Nat.and_two_pow_sub_one_eq_mod value.toNat 15

theorem toNat_highField (value : UInt32) :
    ((value >>> 16) &&& 0x7FFF).toNat = value.toNat / 2 ^ 16 % 2 ^ 15 := by
  rw [toNat_field, UInt32.toNat_shiftRight, Nat.shiftRight_eq_div_pow]
  rfl

theorem tryDecodeScissorPair_eq (tlRegister brRegister : UInt32) :
    tryDecodeScissorPair registers tlRegister brRegister =
      (scissorRectangle registers tlRegister brRegister).map fun corners =>
        (corners, decide (registers tlRegister = some 0 ∧ registers brRegister = some 0)) := by
  rw [tryDecodeScissorPair, scissorRectangle]
  cases registers tlRegister with
  | none => rfl
  | some tl =>
    cases registers brRegister with
    | none => rfl
    | some br =>
      simp only [Option.bind_eq_bind, Option.bind_some, Option.pure_def,
        Option.map_some, Option.some.injEq, toNat_highField]
      simp only [toNat_field]

variable {value : ℤ}

theorem int_of_small (low : -2 ^ 31 ≤ value) (high : value < 2 ^ 31) : int value = value :=
  Int.bmod_eq_of_le (by omega) (by omega)

theorem scissorRectangle_bounds {tlRegister brRegister : UInt32} {corners : Bounds}
    (decoded : scissorRectangle registers tlRegister brRegister = some corners) :
    (0 ≤ corners.left ∧ corners.left < 2 ^ 15) ∧ (0 ≤ corners.top ∧ corners.top < 2 ^ 15) ∧
      (0 ≤ corners.right ∧ corners.right < 2 ^ 15) ∧
      (0 ≤ corners.bottom ∧ corners.bottom < 2 ^ 15) := by
  simp only [scissorRectangle, Option.bind_eq_bind, Option.pure_def,
    Option.bind_eq_some_iff, Option.some.injEq] at decoded
  obtain ⟨tl, -, br, -, rfl⟩ := decoded
  dsimp only
  omega

theorem pixels_intersectScissorPair (tlRegister brRegister : UInt32)
    (bounds : Bounds) {offset : ℤ × ℤ} (ignoreAllZeroPair : Bool)
    (small : (-2 ^ 15 ≤ offset.1 ∧ offset.1 < 2 ^ 15) ∧
      (-2 ^ 15 ≤ offset.2 ∧ offset.2 < 2 ^ 15)) (pixel : Pixel) :
    pixel ∈ (intersectScissorPair registers tlRegister brRegister bounds offset
        ignoreAllZeroPair).pixels ↔
      pixel ∈ bounds.pixels ∧ ∀ rect ∈ (if ignoreAllZeroPair ∧ registers tlRegister = some 0 ∧
            registers brRegister = some 0 then none
          else (scissorRectangle registers tlRegister brRegister).map
            (·.shift offset)), pixel ∈ rect.pixels := by
  rw [intersectScissorPair, tryDecodeScissorPair_eq]
  cases decoded : scissorRectangle registers tlRegister brRegister with
  | none => simp
  | some corners =>
    have fields := scissorRectangle_bounds decoded
    simp only [Option.map_some, decide_eq_true_eq]
    split
    next => simp
    next =>
      rw [int_of_small (by omega) (by omega), int_of_small (by omega) (by omega),
        int_of_small (by omega) (by omega),
        int_of_small (by omega) (by omega)]
      simp only [Option.mem_def, Option.some.injEq, forall_eq',
        Bounds.pixels, Bounds.shift, Set.mem_ofPred_eq, max_le_iff,
        lt_min_iff]
      tauto

/-- Bounds that stay inside a rectangle at the origin. -/
structure Bounds.Within (bounds : Bounds) (width height : ℤ) : Prop where
  left : 0 ≤ bounds.left
  top : 0 ≤ bounds.top
  right : bounds.right ≤ width
  bottom : bounds.bottom ≤ height

variable {bounds : Bounds} {width height : ℤ}

theorem Bounds.Within.intersectScissorPair
    (within : bounds.Within width height) (tlRegister brRegister : UInt32)
    (offset : ℤ × ℤ) (ignoreAllZeroPair : Bool) :
    (intersectScissorPair registers tlRegister brRegister bounds offset
      ignoreAllZeroPair).Within width height := by
  rw [Scissors.intersectScissorPair]
  split
  next => exact within
  next =>
    split
    next => exact within
    next =>
      exact ⟨le_max_of_le_left within.left, le_max_of_le_left within.top,
        min_le_of_left_le within.right, min_le_of_left_le within.bottom⟩

/-! ### All of them -/

theorem Bounds.Within.intersectAll (within : bounds.Within width height) :
    (intersectAll registers bounds).Within width height := by
  rw [Scissors.intersectAll]
  split
  next =>
    exact (((within.intersectScissorPair _ _ _ _).intersectScissorPair
      _ _ _ _).intersectScissorPair _ _ _ _).intersectScissorPair _ _ _ _
  next =>
    exact ((within.intersectScissorPair _ _ _ _).intersectScissorPair
      _ _ _ _).intersectScissorPair _ _ _ _

theorem shift_zero (bounds : Bounds) : bounds.shift (0, 0) = bounds := by
  simp [Bounds.shift]

theorem pixels_intersectAll (bounds : Bounds) (pixel : Pixel) :
    pixel ∈ (intersectAll registers bounds).pixels ↔ pixel ∈ bounds.pixels ∧
        ∀ rect ∈ enabledScissors registers, pixel ∈ rect.pixels := by
  have none : (-2 ^ 15 ≤ ((0, 0) : ℤ × ℤ).1 ∧ ((0, 0) : ℤ × ℤ).1 < 2 ^ 15) ∧
      (-2 ^ 15 ≤ ((0, 0) : ℤ × ℤ).2 ∧ ((0, 0) : ℤ × ℤ).2 < 2 ^ 15) := by
    decide
  have offset := windowOffset_bounds registers
  simp only [intersectAll, enabledScissors, screenScissor,
    ← windowOffset_eq, ← vportScissorEnabled_eq]
  split
  next =>
    rw [pixels_intersectScissorPair _ _ _ _ none, pixels_intersectScissorPair _ _ _ _ offset,
      pixels_intersectScissorPair _ _ _ _ offset,
      pixels_intersectScissorPair _ _ _ _ none]
    simp only [shift_zero, Option.map_id', List.mem_append, Option.mem_toList, Option.mem_def,
      Bool.false_eq_true, false_and, if_false, true_and, or_imp, forall_and,
      and_assoc]
  next =>
    rw [pixels_intersectScissorPair _ _ _ _ offset, pixels_intersectScissorPair _ _ _ _ offset,
      pixels_intersectScissorPair _ _ _ _ none]
    simp only [shift_zero, Option.map_id', List.mem_append, Option.mem_toList, Option.mem_def,
      Bool.false_eq_true, false_and, if_false, true_and, or_imp, forall_and,
      and_assoc, List.not_mem_nil, false_imp_iff, and_true]

/-! ### Clamping -/

theorem clamp_eq {low high : ℤ} (ordered : low ≤ high) :
    clamp value low high = .ok (max low (min value high)) := by
  rw [clamp, if_neg (by omega)]
  split
  next => rw [max_eq_left (by omega)]
  next =>
    split
    next => rw [min_eq_right (by omega), max_eq_right ordered]
    next => rw [min_eq_left (by omega), max_eq_right (by omega)]

def Bounds.clamped (bounds : Bounds) (width height : ℤ) : Bounds :=
  let left := max 0 (min bounds.left width)
  let top := max 0 (min bounds.top height)
  { left := left
    top := top
    right := max left (min bounds.right width)
    bottom := max top (min bounds.bottom height) }

theorem Bounds.Within.pixels_clamped (within : bounds.Within width height) (wide : 0 ≤ width)
    (high : 0 ≤ height) :
    (bounds.clamped width height).pixels = bounds.pixels := by
  obtain ⟨left, top, right, bottom⟩ := within
  ext ⟨x, y⟩
  simp only [Bounds.clamped, Bounds.pixels, Set.mem_ofPred_eq]
  omega

theorem Bounds.clamped_ordered (bounds : Bounds) (wide : 0 ≤ width) (high : 0 ≤ height) :
    (0 ≤ (bounds.clamped width height).left ∧ (bounds.clamped width height).left ≤
        (bounds.clamped width height).right ∧
      (bounds.clamped width height).right ≤ width) ∧
    (0 ≤ (bounds.clamped width height).top ∧ (bounds.clamped width height).top ≤
        (bounds.clamped width height).bottom ∧
      (bounds.clamped width height).bottom ≤ height) := by
  simp only [Bounds.clamped]
  omega

/-- The rectangle between two corners, left out when it is the whole target. -/
def Bounds.rectangle (bounds : Bounds) (width height : ℤ) : Option GuestRect :=
  if bounds.left = 0 ∧ bounds.top = 0 ∧ bounds.right = width ∧ bounds.bottom = height then none
  else some ⟨bounds.left, bounds.top, (bounds.right - bounds.left).toNat,
    (bounds.bottom - bounds.top).toNat⟩

theorem checkedUint_int_of_small (low : 0 ≤ value)
    (high : value < 2 ^ 31) : checkedUint (int value) = .ok value.toNat := by
  rw [int_of_small (by omega) high, checkedUint, if_pos ⟨low, by omega⟩]

variable {targetWidth targetHeight : UInt32}

theorem clampToTarget_eq (bounds : Bounds) (narrow : targetWidth.toNat ≤ intMaxValue)
    (short : targetHeight.toNat ≤ intMaxValue) :
    clampToTarget bounds targetWidth targetHeight =
      .ok ((bounds.clamped targetWidth.toNat targetHeight.toNat).rectangle
        targetWidth.toNat targetHeight.toNat) := by
  have wide : (0 : ℤ) ≤ targetWidth.toNat := Int.natCast_nonneg _
  have high : (0 : ℤ) ≤ targetHeight.toNat := Int.natCast_nonneg _
  have ordered := bounds.clamped_ordered wide high
  simp only [intMaxValue] at narrow short
  have width : checkedInt targetWidth.toNat = .ok targetWidth.toNat :=
    if_pos (by omega)
  have height : checkedInt targetHeight.toNat = .ok targetHeight.toNat :=
    if_pos (by omega)
  have leftSide : max 0 (min bounds.left targetWidth.toNat) ≤ (targetWidth.toNat : ℤ) := by omega
  have topSide : max 0 (min bounds.top targetHeight.toNat) ≤ (targetHeight.toNat : ℤ) := by omega
  simp only [clampToTarget, width, height, clamp_eq wide, clamp_eq high,
    clamp_eq leftSide, clamp_eq topSide, bind, Except.bind]
  by_cases whole : max 0 (min bounds.left targetWidth.toNat) = 0 ∧
      max 0 (min bounds.top targetHeight.toNat) = 0 ∧
      (bounds.clamped targetWidth.toNat targetHeight.toNat).right = targetWidth.toNat ∧
      (bounds.clamped targetWidth.toNat targetHeight.toNat).bottom = targetHeight.toNat
  · have named : (bounds.clamped targetWidth.toNat
        targetHeight.toNat).rectangle targetWidth.toNat targetHeight.toNat =
        none := if_pos whole
    rw [named]
    exact if_pos whole
  · have drawn : (bounds.clamped targetWidth.toNat
        targetHeight.toNat).rectangle targetWidth.toNat targetHeight.toNat =
        some _ := if_neg whole
    rw [drawn]
    refine (if_neg whole).trans ?_
    simp only [Bounds.clamped] at ordered ⊢
    rw [checkedUint_int_of_small (by omega) (by omega),
      checkedUint_int_of_small (by omega) (by omega)]
    rfl

/-! ### The decoded scissor -/

theorem scissorPixels_rectangle (bounds : Bounds) (targetWidth targetHeight : UInt32)
    (horizontal : 0 ≤ bounds.left ∧ bounds.left ≤ bounds.right)
    (vertical : 0 ≤ bounds.top ∧ bounds.top ≤ bounds.bottom) :
    scissorPixels targetWidth targetHeight (bounds.rectangle targetWidth.toNat targetHeight.toNat) =
      bounds.pixels := by
  obtain ⟨left, top, right, bottom⟩ := bounds
  dsimp only at horizontal vertical
  simp only [Bounds.rectangle]
  split
  next whole =>
    obtain ⟨rfl, rfl, rfl, rfl⟩ := whole
    rfl
  next =>
    have across : left + ((right - left).toNat : ℤ) = right := by omega
    have down : top + ((bottom - top).toNat : ℤ) = bottom := by omega
    simp only [scissorPixels, across, down]

theorem rectangle_eq_none_iff (inside : bounds.Within targetWidth.toNat targetHeight.toNat)
    (wide : 0 < targetWidth.toNat) (high : 0 < targetHeight.toNat) :
    bounds.rectangle targetWidth.toNat targetHeight.toNat = none ↔
      bounds.pixels = targetPixels targetWidth targetHeight := by
  obtain ⟨left, top, right, bottom⟩ := bounds
  obtain ⟨leftInside, topInside, rightInside, bottomInside⟩ := inside
  simp only [Bounds.rectangle]
  constructor
  · intro whole
    split at whole
    next corners =>
      obtain ⟨rfl, rfl, rfl, rfl⟩ := corners
      rfl
    next => cases whole
  · intro same
    -- The first and the last pixel of the target fix the corners.
    have first : ((0, 0) : Pixel) ∈ Bounds.pixels ⟨left, top, right, bottom⟩ := by
      rw [same]
      simp only [targetPixels, Bounds.pixels, Set.mem_ofPred_eq]
      omega
    have last : ((targetWidth.toNat - 1, targetHeight.toNat - 1) : Pixel) ∈
        Bounds.pixels ⟨left, top, right, bottom⟩ := by
      rw [same]
      simp only [targetPixels, Bounds.pixels, Set.mem_ofPred_eq]
      omega
    simp only [Bounds.pixels, Set.mem_ofPred_eq] at first last
    dsimp only at leftInside topInside rightInside bottomInside
    rw [if_pos]
    omega

theorem decodeScissor_of_target (narrow : targetWidth.toNat ≤ intMaxValue)
    (short : targetHeight.toNat ≤ intMaxValue)
    (wide : 0 < targetWidth.toNat) (high : 0 < targetHeight.toNat) :
    Exact registers targetWidth targetHeight := by
  have within : (⟨0, 0, targetWidth.toNat, targetHeight.toNat⟩ : Bounds).Within
      targetWidth.toNat targetHeight.toNat :=
    ⟨le_rfl, le_rfl, le_rfl, le_rfl⟩
  have all : (intersectAll registers _).Within _ _ := within.intersectAll
  have widthNonneg : (0 : ℤ) ≤ targetWidth.toNat := Int.natCast_nonneg _
  have heightNonneg : (0 : ℤ) ≤ targetHeight.toNat := Int.natCast_nonneg _
  set bounds := intersectAll registers
    ⟨0, 0, targetWidth.toNat, targetHeight.toNat⟩ with intersected
  have ordered := bounds.clamped_ordered widthNonneg heightNonneg
  have visible : (bounds.clamped targetWidth.toNat targetHeight.toNat).pixels =
      visiblePixels registers targetWidth targetHeight := by
    rw [all.pixels_clamped widthNonneg heightNonneg]
    ext pixel
    rw [intersected, pixels_intersectAll]
    rfl
  refine ⟨(bounds.clamped targetWidth.toNat targetHeight.toNat).rectangle
    targetWidth.toNat targetHeight.toNat, ?_, ?_, ?_⟩
  · have widthFits : checkedInt (min targetWidth.toNat intMaxValue) = .ok targetWidth.toNat := by
      rw [min_eq_left narrow]
      exact if_pos (by simp only [intMaxValue] at narrow; omega)
    have heightFits : checkedInt (min targetHeight.toNat intMaxValue) = .ok targetHeight.toNat := by
      rw [min_eq_left short]
      exact if_pos (by simp only [intMaxValue] at short; omega)
    have nonempty : ¬(targetWidth = 0 ∨ targetHeight = 0) := by
      rintro (rfl | rfl)
      · exact absurd wide (by decide)
      · exact absurd high (by decide)
    rw [decodeScissor, if_neg nonempty, widthFits, heightFits]
    exact clampToTarget_eq _ narrow short
  · rw [scissorPixels_rectangle _ _ _ ⟨ordered.1.1, ordered.1.2.1⟩
      ⟨ordered.2.1, ordered.2.2.1⟩, visible]
  · rw [rectangle_eq_none_iff ⟨ordered.1.1, ordered.2.1, ordered.1.2.2, ordered.2.2.2⟩ wide high,
      visible]

/-- The decoded scissor is the visible rectangle, and is left out exactly when
all of the target is visible. -/
theorem decodeScissor_exact_of_int (registers : Registers) (targetWidth targetHeight : UInt32)
    (narrow : targetWidth.toNat ≤ intMaxValue)
    (short : targetHeight.toNat ≤ intMaxValue) :
    (∃ result, decodeScissor registers targetWidth targetHeight = .ok result ∧
      scissorPixels targetWidth targetHeight result =
        visiblePixels registers targetWidth targetHeight ∧
      (targetWidth ≠ 0 → targetHeight ≠ 0 →
        (result = none ↔ visiblePixels registers targetWidth targetHeight =
          targetPixels targetWidth targetHeight)) ∧
      (targetWidth = 0 ∨ targetHeight = 0 → result = some ⟨0, 0, 0, 0⟩)) := by
  by_cases empty : targetWidth = 0 ∨ targetHeight = 0
  · refine ⟨some ⟨0, 0, 0, 0⟩, if_pos empty, ?_, ?_, fun _ => rfl⟩
    · have nothing : targetPixels targetWidth targetHeight = ∅ := by
        ext pixel
        simp only [targetPixels, Bounds.pixels, Set.mem_ofPred_eq,
          Set.mem_empty_iff_false, iff_false]
        rcases empty with rfl | rfl
        · rintro ⟨⟨low, below⟩, -⟩
          exact absurd (low.trans_lt below) (by decide)
        · rintro ⟨-, low, below⟩
          exact absurd (low.trans_lt below) (by decide)
      ext pixel
      simp only [scissorPixels, visiblePixels, nothing, Bounds.pixels,
        Set.mem_ofPred_eq, Set.mem_empty_iff_false, false_and, iff_false]
      omega
    · intro wide high
      exact (empty.elim wide high).elim
  · rw [not_or] at empty
    have positive {size : UInt32} (nonzero : size ≠ 0) : 0 < size.toNat := by
      rw [Nat.pos_iff_ne_zero]
      intro zero
      exact nonzero (UInt32.toNat_inj.mp zero)
    obtain ⟨result, decoded, pixels, whole⟩ : Exact registers _ _ :=
      decodeScissor_of_target narrow short (positive empty.1) (positive empty.2)
    refine ⟨result, decoded, pixels, fun _ _ => whole, ?_⟩
    rintro (wide | high)
    · exact (empty.1 wide).elim
    · exact (empty.2 high).elim

/-- With no scissor set, a target without pixels is not left out, and a target
wider than the signed range throws. -/
theorem decodeScissor_not_exact :
    ¬Exact (fun _ => none) 0 1 ∧ ¬Exact (fun _ => none) 0x80000000 1 := by
  constructor
  · rintro ⟨result, decoded, -, whole⟩
    obtain rfl : some ⟨0, 0, 0, 0⟩ = result := Except.ok.inj decoded
    have nothing : visiblePixels (fun _ => none) 0 1 = targetPixels 0 1 := by
      ext pixel
      simp only [visiblePixels, targetPixels, Bounds.pixels, Set.mem_ofPred_eq]
      constructor
      · exact And.left
      · rintro ⟨⟨low, below⟩, -⟩
        exact absurd (low.trans_lt below) (by decide)
    cases whole.mpr nothing
  · rintro ⟨result, decoded, -⟩
    have thrown : decodeScissor (fun _ => none) 0x80000000 1 = .error .overflow := by decide +kernel
    rw [thrown] at decoded
    cases decoded

/-- A target under a window scissor that the window offset moves over its
edge. -/
def offsetRegisters : Registers := fun register =>
  if register = paScWindowScissorTl then some 0x00100010
  else if register = paScWindowScissorBr then some 0x04000400
  else if register = paScWindowOffset then some 0xFFE0FFE0
  else none

theorem decodeScissor_exact_of_int_offset :
    ∃ result, decodeScissor offsetRegisters 1920 1080 = .ok result ∧
      scissorPixels 1920 1080 result = visiblePixels offsetRegisters 1920 1080 ∧
      ((1920 : UInt32) ≠ 0 → (1080 : UInt32) ≠ 0 →
        (result = none ↔ visiblePixels offsetRegisters 1920 1080 = targetPixels 1920 1080)) ∧
      ((1920 : UInt32) = 0 ∨ (1080 : UInt32) = 0 → result = some ⟨0, 0, 0, 0⟩) :=
  decodeScissor_exact_of_int offsetRegisters 1920 1080 (by decide) (by decide)

end SharpEmu.Scissors
