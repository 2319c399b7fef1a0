import SharpEmu.SoftwarePresents
import Mathlib.Algebra.BigOperators.Group.List.Basic
import Mathlib.Data.List.Forall2

/-!
# Presented surfaces

What a display buffer is to hold after a present: for each of its pixels the scaled
and converted pixel of the texture, whose rows begin at multiples of 256 bytes.  A
copy that ends well leaves these pixels, if the rows of the texture lie one after the
other.
-/

namespace SharpEmu.SoftwarePresenter

open Addressed

/-! ## Prescribed pixels -/

def linearTexturePitch (source : TextureDescriptor) : ℕ :=
  (max source.width source.pitch * 4 + 255) / 256 * 256 / 4

def sourcePixel (memory : GuardedMemory) (source : TextureDescriptor)
    (sourceY sourceX : ℕ) : Option (List UInt8) :=
  if sourceY < source.height ∧ sourceX < source.width then
    readBytes memory.bytes (source.address + .ofNat
        ((sourceY * linearTexturePitch source + sourceX) * 4)) 4
  else none

def convertBytes (format : VideoOutPixelFormat) : List UInt8 → Option (List UInt8)
  | [red, green, blue, alpha] => some (convertPixel format red green blue alpha)
  | _ => none

def expectedPixel (memory : GuardedMemory) (source : TextureDescriptor)
    (destination : DisplayBufferInfo) (y x : ℕ) : Option (List UInt8) :=
  (sourcePixel memory source (y * source.height / destination.height)
      (x * source.width / destination.width)).bind
    (convertBytes destination.pixelFormat)

def heldPixel (memory : GuardedMemory) (destination : DisplayBufferInfo)
    (y x : ℕ) : Option (List UInt8) :=
  readBytes memory.bytes (destination.address + .ofNat ((y * destination.pitch + x) * 4)) 4

def Shows (before after : GuardedMemory) (source : TextureDescriptor)
    (destination : DisplayBufferInfo) : Prop :=
  ∀ y < destination.height, ∀ x < destination.width,
    ∃ pixel, expectedPixel before source destination y x = some pixel ∧
      heldPixel after destination y x = some pixel

def HasPackedRows (source : TextureDescriptor) (destination : DisplayBufferInfo) :
    Prop :=
  linearTexturePitch source = source.width ∨ source.height = 1 ∨ destination.height = 1

/-! ## Pixels of rows -/

theorem length_convertPixel (format : VideoOutPixelFormat) (red green blue alpha : UInt8) :
    (convertPixel format red green blue alpha).length = 4 := by
  unfold convertPixel
  split_ifs <;> rfl

theorem destinationPixel_eq (source : TextureDescriptor)
    (destination : DisplayBufferInfo) (sourceBytes : List UInt8) (y x : ℕ) :
    destinationPixel source destination sourceBytes y x = convertBytes destination.pixelFormat
        ((sourceBytes.drop ((y * source.height / destination.height * source.width +
            x * source.width / destination.width) * 4)).take 4) := by
  unfold destinationPixel
  dsimp only
  generalize (y * source.height / destination.height * source.width +
    x * source.width / destination.width) * 4 = offset
  have first : sourceBytes[offset]? = (sourceBytes.drop offset)[0]? := by
    rw [List.getElem?_drop, Nat.add_zero]
  rw [first, ← List.getElem?_drop, ← List.getElem?_drop, ← List.getElem?_drop]
  match sourceBytes.drop offset with
  | [] | [_] | [_, _] | [_, _, _] | _ :: _ :: _ :: _ :: _ => rfl

variable {size : ℕ}

theorem scaled_lt {position scaled : ℕ} (inside : position < size)
    (positive : 0 < scaled) : position * scaled / size < scaled := by
  rw [Nat.div_lt_iff_lt_mul (Nat.lt_of_le_of_lt (Nat.zero_le _) inside), Nat.mul_comm]
  exact Nat.mul_lt_mul_of_pos_left inside positive

variable {memory : GuardedMemory} {source : TextureDescriptor} {destination : DisplayBufferInfo}
  {sourceBytes : List UInt8} {y x : ℕ}

theorem destinationPixel_of_packed (isRead : readSource memory source = some sourceBytes)
    (packed : HasPackedRows source destination)
    (inHeight : y < destination.height) (inWidth : x < destination.width) :
    destinationPixel source destination sourceBytes y x =
      expectedPixel memory source destination y x := by
  have isLength := length_of_readBytes isRead
  rw [destinationPixel_eq, expectedPixel, sourcePixel]
  by_cases present : 0 < source.height ∧ 0 < source.width
  · have inRows := scaled_lt inHeight present.1
    have inColumns := scaled_lt inWidth present.2
    have samePitch : y * source.height / destination.height * linearTexturePitch source =
          y * source.height / destination.height * source.width := by
      obtain isPacked | single | single := packed
      · rw [isPacked]
      · rw [single, Nat.lt_one_iff] at inRows
        rw [single, inRows, Nat.zero_mul, Nat.zero_mul]
      · rw [single, Nat.lt_one_iff] at inHeight
        rw [inHeight, Nat.zero_mul, Nat.zero_div, Nat.zero_mul, Nat.zero_mul]
    have inside : (y * source.height / destination.height * source.width +
        x * source.width / destination.width) * 4 + 4 ≤ source.width * source.height * 4 := by
      have rows : (y * source.height / destination.height + 1) * source.width ≤
          source.height * source.width := Nat.mul_le_mul_right _ inRows
      rw [Nat.mul_comm source.width, ← Nat.succ_mul]
      apply Nat.mul_le_mul_right
      rw [Nat.succ_mul] at rows
      omega
    rw [if_pos ⟨inRows, inColumns⟩, samePitch, readBytes_drop_take isRead inside, Option.bind_some]
  · have isEmpty : sourceBytes = [] := by
      apply List.eq_nil_of_length_eq_zero
      rw [isLength]
      obtain isZero | isZero : source.height = 0 ∨ source.width = 0 := by omega
      · rw [isZero, Nat.mul_zero, Nat.zero_mul]
      · rw [isZero, Nat.zero_mul, Nat.zero_mul]
    have outside : ¬ (y * source.height / destination.height < source.height ∧
        x * source.width / destination.width < source.width) := fun both =>
      present ⟨Nat.zero_lt_of_lt both.1, Nat.zero_lt_of_lt both.2⟩
    rw [isEmpty, List.drop_nil, List.take_nil, if_neg outside, Option.bind_none]
    rfl

/-! ## Rows -/

theorem forall₂_of_mapM {Input Output : Type} {function : Input → Option Output}
    {inputs : List Input} {outputs : List Output}
    (isMapped : inputs.mapM function = some outputs) :
    List.Forall₂ (fun input output => function input = some output) inputs
      outputs := by
  induction inputs generalizing outputs with
  | nil =>
    obtain rfl := Option.some.inj isMapped
    exact .nil
  | cons input inputs ih =>
    rw [List.mapM_cons] at isMapped
    obtain ⟨output, isOutput, isMapped⟩ := Option.bind_eq_some_iff.mp isMapped
    obtain ⟨others, isOthers, isMapped⟩ := Option.bind_eq_some_iff.mp isMapped
    obtain rfl := Option.some.inj isMapped
    exact .cons isOutput (ih isOthers)

theorem flatten_drop_take {pixels : List (List UInt8)}
    (length_pixel : ∀ pixel ∈ pixels, pixel.length = size) (padding : List UInt8)
    {index : ℕ} (inside : index < pixels.length) :
    ((pixels.flatten ++ padding).drop (index * size)).take size = pixels[index] := by
  induction pixels generalizing index with
  | nil => exact absurd inside (Nat.not_lt_zero _)
  | cons pixel pixels ih =>
    rw [List.forall_mem_cons] at length_pixel
    rw [List.flatten_cons, List.append_assoc]
    cases index with
    | zero =>
      rw [Nat.zero_mul, List.drop_zero, List.take_left' length_pixel.1]
      rfl
    | succ index =>
      rw [Nat.succ_mul, Nat.add_comm, ← List.drop_drop, List.drop_left' length_pixel.1,
        ih length_pixel.2 (Nat.lt_of_succ_lt_succ inside)]
      rfl

theorem length_destinationPixel {pixel : List UInt8}
    (isPixel : destinationPixel source destination sourceBytes y x = some pixel) :
    pixel.length = 4 := by
  rw [destinationPixel_eq] at isPixel
  unfold convertBytes at isPixel
  split at isPixel
  · obtain rfl := Option.some.inj isPixel
    exact length_convertPixel _ _ _ _ _
  · cases isPixel

variable {row : List UInt8}

theorem destinationRow_spec (isRow : destinationRow source destination sourceBytes y = some row)
    (fits : destination.width ≤ destination.pitch) :
    row.length = destination.pitch * 4 ∧ ∀ x < destination.width,
        destinationPixel source destination sourceBytes y x = some ((row.drop (x * 4)).take 4) := by
  obtain ⟨pixels, isMapped, rfl⟩ := Option.map_eq_some_iff.mp isRow
  have isPixel := forall₂_of_mapM isMapped
  have isCount : destination.width = pixels.length := by
    rw [← isPixel.length_eq, List.length_range]
  have pixelAt : ∀ x, ∀ inside : x < pixels.length,
      destinationPixel source destination sourceBytes y x = some pixels[x] := by
    intro x inside
    have isOne := isPixel.get (by rw [List.length_range]; omega) inside
    rwa [List.get_eq_getElem, List.getElem_range] at isOne
  have length_pixel : ∀ pixel ∈ pixels, pixel.length = 4 := by
    intro pixel member
    obtain ⟨x, inside, rfl⟩ := List.getElem_of_mem member
    exact length_destinationPixel (pixelAt x inside)
  have length_pixels : pixels.flatten.length = destination.width * 4 := by
    rw [List.length_flatten, List.map_congr_left length_pixel, List.map_const',
      List.sum_replicate, isCount]
    rfl
  constructor
  · rw [List.length_append, length_pixels, List.length_replicate]
    omega
  · intro x inside
    rw [isCount] at inside
    rw [flatten_drop_take length_pixel _ inside, pixelAt x inside]

variable {pitch : ℕ}

theorem toNat_rowOffset (narrow : pitch * 4 ≤ 0x7FFFFFFF) (low : y < 8192) :
    (UInt64.ofNat (y * pitch * 4)).toNat = y * (pitch * 4) ∧
      y * (pitch * 4) + pitch * 4 < 2 ^ 63 := by
  have isBelow : (y + 1) * (pitch * 4) ≤ 8192 * 0x7FFFFFFF :=
    Nat.mul_le_mul low narrow
  rw [Nat.succ_mul] at isBelow
  rw [Nat.mul_assoc, UInt64.toNat_ofNat', Nat.mod_eq_of_lt (by omega)]
  exact ⟨rfl, by omega⟩

theorem apart_rows (address : UInt64) (narrow : pitch * 4 ≤ 0x7FFFFFFF)
    {z : ℕ} (above : z < y) (low : y < 8192) :
    Apart (address + .ofNat (y * pitch * 4)) (pitch * 4)
      (address + .ofNat (z * pitch * 4)) (pitch * 4) := by
  obtain ⟨isFirst, firstSmall⟩ := toNat_rowOffset narrow low
  obtain ⟨isSecond, secondSmall⟩ := toNat_rowOffset narrow (Nat.lt_trans above low)
  have rows : (z + 1) * (pitch * 4) ≤ y * (pitch * 4) :=
    Nat.mul_le_mul_right _ above
  rw [Nat.succ_mul] at rows
  apply apart_of_offsets_lt_half
  · rw [isFirst, isSecond]
    exact .inr rows
  · rwa [isFirst]
  · rwa [isSecond]

def heldRow (memory : GuardedMemory) (destination : DisplayBufferInfo) (y : ℕ) :
    Option (List UInt8) :=
  readBytes memory.bytes (destination.address + .ofNat (y * destination.pitch * 4))
    (destination.pitch * 4)

theorem writeRows_spec (fits : destination.width ≤ destination.pitch)
    (narrow : destination.pitch * 4 ≤ 0x7FFFFFFF) {count : ℕ}
    {after : GuardedMemory} (within : y + count ≤ 8192)
    (isWritten : writeRows source destination sourceBytes count y memory = (after, some true)) :
    (∀ z < y, heldRow after destination z = heldRow memory destination z) ∧ ∀ z < count, ∃ row,
        destinationRow source destination sourceBytes (y + z) = some row ∧
          heldRow after destination (y + z) = some row := by
  induction count generalizing y memory with
  | zero =>
    obtain rfl := (Prod.mk.inj isWritten).1
    exact ⟨fun _ _ => rfl, fun z inside => absurd inside (Nat.not_lt_zero z)⟩
  | succ count ih =>
    rw [writeRows] at isWritten
    split at isWritten
    · cases isWritten
    next row isRow =>
      split at isWritten
      · cases isWritten
      next written isStep =>
        obtain ⟨above, below⟩ := ih (by omega) isWritten
        have length_row := (destinationRow_spec isRow fits).1
        have small : row.length ≤ 2 ^ 64 := by omega
        constructor
        · intro z isAbove
          rw [above z (by omega)]
          apply GuardedMemory.readBytes_of_tryWrite_apart isStep small
          rw [length_row]
          exact apart_rows _ narrow isAbove (by omega)
        · intro z inside
          cases z with
          | zero =>
            have stored := GuardedMemory.readBytes_of_tryWrite isStep small
            rw [length_row] at stored
            exact ⟨row, isRow, (above y (Nat.lt_succ_self y)).trans stored⟩
          | succ z =>
            rw [← Nat.add_assoc, Nat.add_right_comm]
            exact below z (Nat.lt_of_succ_lt_succ inside)

theorem heldPixel_of_heldRow (isHeld : heldRow memory destination y = some row)
    (inside : x < destination.pitch) :
    heldPixel memory destination y x = some ((row.drop (x * 4)).take 4) := by
  have isRead := readBytes_drop_take isHeld (show x * 4 + 4 ≤ destination.pitch * 4 by omega)
  rw [UInt64.add_assoc, ← UInt64.ofNat_add] at isRead
  rw [heldPixel, Nat.add_mul]
  exact isRead

theorem shows_of_copyPixels {state after : PresenterState} (isCopied : IsCopied source destination)
    (packed : HasPackedRows source destination)
    (isRead : readSource state.memory source = some sourceBytes)
    (succeeds : copyPixels state source destination sourceBytes = (after, some true)) :
    Shows state.memory after.memory source destination := by
  obtain ⟨-, -, -, -, -, -, -, -, -, low, -⟩ := isCopied
  unfold copyPixels at succeeds
  split at succeeds
  · cases succeeds
  next fits =>
    split at succeeds
    · cases succeeds
    next narrow =>
      dsimp only at succeeds
      split at succeeds
      next ended =>
        have rows := (writeRows_spec (Nat.le_of_not_lt fits)
          (Nat.le_of_not_lt narrow) (by omega) (Prod.ext rfl ended)).2
        obtain rfl := (Prod.mk.inj succeeds).1
        intro y inHeight x inWidth
        obtain ⟨row, isRow, isHeld⟩ := rows y inHeight
        rw [Nat.zero_add] at isRow isHeld
        have isPixel :=
          (destinationRow_spec isRow (Nat.le_of_not_lt fits)).2 x inWidth
        rw [destinationPixel_of_packed isRead packed inHeight inWidth] at isPixel
        exact ⟨_, isPixel, heldPixel_of_heldRow isHeld (by omega)⟩
      next ended =>
        exact absurd (Prod.mk.inj succeeds).2 ended

/-- From a texture of two rows of one pixel, the second row is not read where it
lies. -/
example :
    let source : TextureDescriptor :=
      ⟨0x1000, 1, 2, gen5TextureFormatR8G8B8A8Unorm, 0, gen5TextureType2D, 0⟩
    let destination : DisplayBufferInfo := ⟨0x2000, .a8b8g8r8Srgb, 0, 1, 2, 0⟩
    let memory : GuardedMemory :=
      ⟨fun address => some (if address < 0x1100 then 7 else 8), fun _ => true⟩
    destinationPixel source destination (List.replicate 8 7) 1 0 = some [7, 7, 7, 7] ∧
      readSource memory source = some (List.replicate 8 7) ∧
        expectedPixel memory source destination 1 0 = some [8, 8, 8, 8] := by
  decide +kernel

end SharpEmu.SoftwarePresenter
