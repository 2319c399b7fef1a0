import SharpEmu.PngImages
import Mathlib.Tactic.Ring
import Mathlib.Data.List.GetD

/-!
# Decoded splash images

The decoder undoes each layer of a file in turn: chunks, stored rows and the bytes of
pixels.
-/

namespace SharpEmu.PngSplashLoader

/-! ## Stored rows -/

theorem length_storedRows (filters : ℕ → FilterType) (bytesPerPixel stride : ℕ)
    (rows : List (List UInt8)) (length_row : ∀ row ∈ rows, row.length = stride)
    (y : ℕ) (previous : List UInt8) :
    (storedRows filters bytesPerPixel y previous rows).length = (stride + 1) * rows.length := by
  induction rows generalizing y previous with
  | nil => rfl
  | cons row rows ih =>
    rw [List.forall_mem_cons] at length_row
    rw [storedRows, List.length_cons, List.length_append, filterRow,
      List.length_mapIdx, length_row.1, ih length_row.2,
      List.length_cons]
    ring

theorem unfilterRows_storedRows (filters : ℕ → FilterType)
    {bytesPerPixel stride : ℕ} (positive : 0 < bytesPerPixel) (fresh : ℕ → UInt8)
    (rows : List (List UInt8)) (length_row : ∀ row ∈ rows, row.length = stride)
    (y : ℕ) (previous : List UInt8)
    (isRow : previous = [] ∨ previous.length = stride) :
    unfilterRows bytesPerPixel stride fresh rows.length y previous
      (storedRows filters bytesPerPixel y previous rows) = some rows.flatten := by
  induction rows generalizing y previous with
  | nil => rfl
  | cons row rows ih =>
    rw [List.forall_mem_cons] at length_row
    have length_stored : (filterRow (filters y) row previous bytesPerPixel).length = stride := by
      rw [filterRow, List.length_mapIdx, length_row.1]
    have isLine : tryUnfilter (filters y).code
        (filterRow (filters y) row previous bytesPerPixel) previous
        bytesPerPixel
        ((List.range stride).map fun index => fresh (y * stride + index)) =
        some (true, row) := by
      apply tryUnfilter_filterRow (filters y) positive
      · rw [length_row.1]
        exact isRow
      · rw [List.length_map, List.length_range, length_row.1]
    rw [storedRows, List.length_cons, unfilterRows]
    simp only [List.head?_cons, List.drop_succ_cons, List.drop_zero,
      Option.bind_eq_bind, Option.bind_some,
      List.take_left' length_stored, List.drop_left' length_stored, isLine,
      if_true, ih length_row.2 (y + 1) row (.inr length_row.1)]
    rfl

/-! ## Pixels -/

theorem length_flatMap_bytes (colorType : ColorType) (pixels : List Pixel) :
    (pixels.flatMap (·.bytes colorType)).length = pixels.length * colorType.bytesPerPixel := by
  induction pixels with
  | nil => exact (Nat.zero_mul _).symm
  | cons pixel pixels ih =>
    rw [List.flatMap_cons, List.length_append, Pixel.length_bytes, ih, List.length_cons]
    ring

theorem getD_flatMap_bytes (colorType : ColorType) {pixels : List Pixel}
    {index : ℕ} (inside : index < pixels.length) (offset : ℕ)
    (inPixel : offset < colorType.bytesPerPixel) :
    (pixels.flatMap (·.bytes colorType)).getD (index * colorType.bytesPerPixel + offset) 0 =
      (pixels[index].bytes colorType).getD offset 0 := by
  induction pixels generalizing index with
  | nil => exact absurd inside (Nat.not_lt_zero _)
  | cons pixel pixels ih =>
    have isLength := Pixel.length_bytes pixel colorType
    rw [List.flatMap_cons]
    cases index with
    | zero =>
      rw [Nat.zero_mul, Nat.zero_add, List.getD_append _ _ _ _ (by omega)]
      rfl
    | succ index =>
      have isOffset : (index + 1) * colorType.bytesPerPixel + offset =
          (pixel.bytes colorType).length + (index * colorType.bytesPerPixel + offset) := by
        rw [isLength]
        ring
      rw [isOffset, List.getD_append_right _ _ _ _ (by omega), Nat.add_sub_cancel_left,
        ih (Nat.lt_of_succ_lt_succ inside)]
      rfl

theorem bytesPerPixel_code (colorType : ColorType) :
    sourceBytesPerPixel colorType.code = colorType.bytesPerPixel := by
  cases colorType <;> rfl

theorem convertPixels_flatMap (colorType : ColorType) (requestRgba : Bool) (pixels : List Pixel) :
    convertPixels requestRgba colorType.bytesPerPixel (pixels.flatMap (·.bytes colorType)) =
      pixels.flatMap (·.decoded colorType requestRgba) := by
  have positive : 0 < colorType.bytesPerPixel := by
    cases colorType <;> decide
  have isPixel : ∀ index (inside : index < pixels.length),
      convertPixel requestRgba colorType.bytesPerPixel (pixels.flatMap (·.bytes colorType))
          (index * colorType.bytesPerPixel) =
        pixels[index].decoded colorType requestRgba := by
    intro index inside
    have isSource := getD_flatMap_bytes colorType inside
    unfold convertPixel
    dsimp only
    cases colorType with
    | rgb =>
      rw [isSource 0 (by decide), isSource 1 (by decide), isSource 2 (by decide)]
      cases requestRgba <;> rfl
    | rgba =>
      rw [isSource 0 (by decide), isSource 1 (by decide), isSource 2 (by decide),
        isSource 3 (by decide)]
      cases requestRgba <;> rfl
  rw [convertPixels, length_flatMap_bytes, Nat.mul_div_cancel _ positive]
  rw [List.flatMap_def, List.flatMap_def]
  congr 1
  apply List.ext_getElem
  · simp
  · intro index inside _
    simp only [List.getElem_map, List.getElem_range]
    exact isPixel index (by simpa using inside)

/-! ## Chunks -/

namespace Chunk

variable (chunk : Chunk) (rest : List UInt8)

theorem length_bytes : chunk.bytes.length = chunk.data.length + 12 := by
  simp only [bytes, uint32BigEndian, List.length_append, List.length_cons,
    List.length_nil, chunk.length_type]
  omega

theorem bytes_append : chunk.bytes ++ rest =
    uint32BigEndian chunk.data.length ++ (chunk.type ++ (chunk.data ++
      (uint32BigEndian (prescribedCrc (chunk.type ++ chunk.data)).toNat ++ rest))) := by
  simp only [bytes, List.append_assoc]

theorem drop_four : (chunk.bytes ++ rest).drop 4 = chunk.type ++ (chunk.data ++
      (uint32BigEndian (prescribedCrc (chunk.type ++ chunk.data)).toNat ++ rest)) := by
  rw [bytes_append]
  rfl

theorem drop_eight : (chunk.bytes ++ rest).drop 8 = chunk.data ++
      (uint32BigEndian (prescribedCrc (chunk.type ++ chunk.data)).toNat ++ rest) := by
  rw [show 8 = 4 + 4 from rfl, ← List.drop_drop, drop_four, List.drop_left' chunk.length_type]

theorem drop_data : (chunk.bytes ++ rest).drop (8 + chunk.data.length) =
    uint32BigEndian (prescribedCrc (chunk.type ++ chunk.data)).toNat ++ rest := by
  rw [← List.drop_drop, drop_eight, List.drop_left]

end Chunk

def afterChunk (count : ℕ) (header : Header) (compressed : List UInt8)
    (chunk : Chunk) (rest : List UInt8) : Option (Header × List UInt8) :=
  if chunk.type = ihdr then
    if chunk.data.length ≠ 13 then none
    else readChunks count (readHeader chunk.data) compressed rest
  else if chunk.type = idat then
    readChunks count header (compressed ++ chunk.data) rest
  else if chunk.type = iend then some (header, compressed)
  else readChunks count header compressed rest

theorem readChunks_bytes (count : ℕ) (header : Header)
    (compressed : List UInt8) (chunk : Chunk) (rest : List UInt8) :
    readChunks (count + 1) header compressed (chunk.bytes ++ rest) =
      afterChunk count header compressed chunk rest := by
  have isLength : (chunk.bytes ++ rest).length = chunk.data.length + 12 + rest.length := by
    rw [List.length_append, Chunk.length_bytes]
  have chunkLength : readUInt32BigEndian (chunk.bytes ++ rest) =
      chunk.data.length := by
    rw [Chunk.bytes_append]
    exact readUInt32BigEndian_uint32BigEndian (Nat.lt_trans chunk.length_data (by decide)) _
  have isType : ((chunk.bytes ++ rest).drop 4).take 4 = chunk.type := by
    rw [Chunk.drop_four, List.take_left' chunk.length_type]
  have isData : ((chunk.bytes ++ rest).drop 8).take chunk.data.length =
      chunk.data := by
    rw [Chunk.drop_eight, List.take_left]
  have isCrc : readUInt32BigEndian ((chunk.bytes ++ rest).drop (8 + chunk.data.length)) =
      (calculateCrc chunk.type chunk.data).toNat := by
    rw [Chunk.drop_data, calculateCrc_eq]
    exact readUInt32BigEndian_uint32BigEndian (BitVec.isLt _) _
  have isNext : (chunk.bytes ++ rest).drop (chunk.data.length + 12) = rest :=
    List.drop_left' (Chunk.length_bytes chunk)
  have fits : ¬ (0x7FFFFFFF < chunk.data.length ∨
      chunk.data.length + 12 + rest.length - 12 < chunk.data.length) := by
    have := chunk.length_data
    omega
  unfold readChunks afterChunk
  simp only [chunkLength, isType, isData, isCrc, isNext, isLength, if_neg fits,
    if_neg (show ¬ chunk.data.length + 12 + rest.length < 12 by omega),
    ne_eq, not_true_eq_false, if_false]

theorem readChunks_inner (header : Header) (trailer : List UInt8)
    (chunks : List Chunk) (inner : ∀ chunk ∈ chunks, chunk.IsInner)
    (count : ℕ) (enough : chunks.length < count) (compressed : List UInt8) :
    readChunks count header compressed (chunks.flatMap (·.bytes) ++ (endChunk.bytes ++ trailer)) =
      some (header, compressed ++ Chunk.imageData chunks) := by
  induction chunks generalizing count compressed with
  | nil =>
    obtain ⟨count, rfl⟩ := Nat.exists_eq_succ_of_ne_zero
      (Nat.ne_of_gt (Nat.lt_of_le_of_lt (Nat.zero_le _) enough))
    rw [List.flatMap_nil, List.nil_append, readChunks_bytes]
    simp [afterChunk, endChunk, iend, ihdr, idat, Chunk.imageData]
  | cons chunk chunks ih =>
    rw [List.forall_mem_cons] at inner
    obtain ⟨count, rfl⟩ := Nat.exists_eq_succ_of_ne_zero
      (Nat.ne_of_gt (Nat.lt_of_le_of_lt (Nat.zero_le _) enough))
    have fewer : chunks.length < count := Nat.lt_of_succ_lt_succ enough
    rw [List.flatMap_cons, List.append_assoc, readChunks_bytes, afterChunk, if_neg inner.1.1]
    by_cases isImageData : chunk.type = idat
    · rw [if_pos isImageData, ih inner.2 count fewer, Chunk.imageData, Chunk.imageData,
        List.filter_cons_of_pos (by simpa using isImageData),
        List.flatMap_cons, List.append_assoc]
    · rw [if_neg isImageData, if_neg inner.1.2, ih inner.2 count fewer, Chunk.imageData,
        Chunk.imageData, List.filter_cons_of_neg (by simpa using isImageData)]

end SharpEmu.PngSplashLoader
