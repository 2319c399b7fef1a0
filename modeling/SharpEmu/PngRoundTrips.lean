import SharpEmu.PngDecoding

/-!
# Round trips of splash images

Whatever filters a writer chose and however it divided the image data into chunks,
decoding a file gives the pixels of the image, or nothing if it is larger than the
loader allows; and a decoded file has no unknown filters.
-/

namespace SharpEmu.PngSplashLoader

/-! ## Files of images -/

theorem readHeader_headerChunk (image : Image) : readHeader image.headerChunk.data =
      ⟨image.width, image.height, 8, image.colorType.code, 0⟩ := by
  have width_first : image.headerChunk.data =
      uint32BigEndian image.width ++ (uint32BigEndian image.height ++
        [8, image.colorType.code, 0, 0, 0]) := rfl
  have width_read : readUInt32BigEndian image.headerChunk.data = image.width := by
    rw [width_first]
    exact readUInt32BigEndian_uint32BigEndian image.width_lt _
  have height_read : readUInt32BigEndian (image.headerChunk.data.drop 4) =
      image.height :=
    readUInt32BigEndian_uint32BigEndian image.height_lt _
  rw [readHeader, width_read, height_read]
  rfl

theorem length_le_flatMap_bytes (chunks : List Chunk) :
    chunks.length ≤ (chunks.flatMap (·.bytes)).length := by
  induction chunks with
  | nil => exact Nat.le_refl 0
  | cons chunk chunks ih =>
    rw [List.flatMap_cons, List.length_append, Chunk.length_bytes, List.length_cons]
    omega

section Files

variable (image : Image) (chunks : List Chunk) (trailer : List UInt8)

theorem drop_file : (image.file chunks trailer).drop 8 = image.headerChunk.bytes ++
      (chunks.flatMap (·.bytes) ++ (endChunk.bytes ++ trailer)) := by
  simp only [Image.file, List.append_assoc]
  rfl

theorem take_file : (image.file chunks trailer).take 8 = pngSignature := by
  simp only [Image.file, List.append_assoc]
  rfl

theorem length_file : 45 + chunks.length ≤ (image.file chunks trailer).length := by
  have chunkBytes := length_le_flatMap_bytes chunks
  have headerLength : image.headerChunk.data.length = 13 := rfl
  have endLength : endChunk.data.length = 0 := rfl
  have signatureLength : pngSignature.length = 8 := rfl
  simp only [Image.file, List.length_append, Chunk.length_bytes]
  omega

theorem readChunks_file (inner : ∀ chunk ∈ chunks, chunk.IsInner) :
    readChunks (image.file chunks trailer).length ⟨0, 0, 0, 0, 0⟩ []
        ((image.file chunks trailer).drop 8) =
      some (⟨image.width, image.height, 8, image.colorType.code, 0⟩, Chunk.imageData chunks) := by
  have isLong := length_file image chunks trailer
  obtain ⟨count, isCount⟩ : ∃ count, (image.file chunks trailer).length = count + 1 :=
    Nat.exists_eq_succ_of_ne_zero (by omega)
  have isHeader : image.headerChunk.type = ihdr := rfl
  have headerLength : image.headerChunk.data.length = 13 := rfl
  rw [drop_file, isCount, readChunks_bytes, afterChunk, if_pos isHeader,
    if_neg (not_not_intro headerLength), readHeader_headerChunk,
    readChunks_inner _ _ _ inner count (by omega), List.nil_append]

end Files

theorem isAccepted_iff (image : Image) : Header.IsAccepted
        ⟨image.width, image.height, 8, image.colorType.code, 0⟩ ↔
      image.width ≤ 16384 ∧ image.height ≤ 16384 := by
  have positive : image.height ≠ 0 := by
    simpa [Image.height] using image.rows_nonempty
  have known : sourceBytesPerPixel image.colorType.code ≠ 0 := by
    cases image.colorType <;> decide
  unfold Header.IsAccepted
  have wide := image.width_pos
  grind

theorem length_rowBytes (image : Image) : ∀ row ∈ image.rows.map (Image.rowBytes image.colorType),
      row.length = image.width * image.colorType.bytesPerPixel := by
  intro row member
  obtain ⟨pixels, isRow, rfl⟩ := List.mem_map.mp member
  rw [Image.rowBytes, length_flatMap_bytes, image.length_row pixels isRow]

theorem flatten_rowBytes (colorType : ColorType) (rows : List (List Pixel)) :
    (rows.map (Image.rowBytes colorType)).flatten = rows.flatten.flatMap (·.bytes colorType) := by
  induction rows with
  | nil => rfl
  | cons row rows ih =>
    rw [List.map_cons, List.flatten_cons, ih, List.flatten_cons, List.flatMap_append]
    rfl

theorem decodeScanlines_scanlines (fresh : ℕ → UInt8) (requestRgba : Bool)
    (image : Image) (filters : ℕ → FilterType) :
    decodeScanlines fresh requestRgba ⟨image.width, image.height, 8, image.colorType.code, 0⟩
        (image.scanlines filters) = some (image.decoded requestRgba) := by
  have positive : 0 < image.colorType.bytesPerPixel := by
    cases image.colorType <;> decide
  have isHeight : (image.rows.map (Image.rowBytes image.colorType)).length =
      image.height := List.length_map _
  have isLength : (image.scanlines filters).length =
      (image.width * image.colorType.bytesPerPixel + 1) * _ :=
    length_storedRows filters image.colorType.bytesPerPixel _ _ (length_rowBytes image) 0 []
  have isRows := unfilterRows_storedRows filters positive fresh _
    (length_rowBytes image) 0 [] (.inl rfl)
  rw [isHeight] at isLength isRows
  unfold decodeScanlines
  simp only [bytesPerPixel_code]
  rw [if_neg (not_not_intro isLength), Image.scanlines, isRows, Option.map_some,
    flatten_rowBytes, convertPixels_flatMap]
  rfl

theorem tryDecode_file (inflate : List UInt8 → Option (List UInt8))
    (fresh : ℕ → UInt8) (requestRgba : Bool) (image : Image)
    (filters : ℕ → FilterType) (chunks : List Chunk) (trailer : List UInt8)
    (inner : ∀ chunk ∈ chunks, chunk.IsInner)
    (hasData : Chunk.imageData chunks ≠ [])
    (isInflated : inflate (Chunk.imageData chunks) = some (image.scanlines filters)) :
    tryDecode inflate fresh requestRgba (image.file chunks trailer) =
      if image.width ≤ 16384 ∧ image.height ≤ 16384 then
        some (image.decoded requestRgba)
      else none := by
  have isLong := length_file image chunks trailer
  have isPng : ¬ ((image.file chunks trailer).length < 33 ∨
      (image.file chunks trailer).take 8 ≠ pngSignature) := by
    rw [take_file]
    simp only [ne_eq, not_true_eq_false, or_false]
    omega
  unfold tryDecode
  rw [if_neg isPng, readChunks_file image chunks trailer inner]
  simp only [Option.bind_eq_bind, Option.bind_some, isAccepted_iff, isInflated,
    decodeScanlines_scanlines]
  by_cases small : image.width ≤ 16384 ∧ image.height ≤ 16384
  · rw [if_pos ⟨small, hasData⟩, if_pos small]
  · rw [if_neg fun both => small both.1, if_neg small]

/-! ## Unknown filters -/

theorem unfilterRows_known {bytesPerPixel stride : ℕ} (positive : 0 < stride)
    (fresh : ℕ → UInt8) (count y : ℕ) (previousLine scanlines : List UInt8)
    (isSome : (unfilterRows bytesPerPixel stride fresh count y previousLine scanlines).isSome)
    (isLength : scanlines.length = (stride + 1) * count) :
    ∀ row < count, scanlines.getD ((stride + 1) * row) 0 ≤ 4 := by
  induction count generalizing y previousLine scanlines with
  | zero => exact fun row inside => absurd inside (Nat.not_lt_zero row)
  | succ count ih =>
    rw [Nat.mul_succ] at isLength
    obtain ⟨result, isResult⟩ := Option.isSome_iff_exists.mp isSome
    obtain ⟨filter, source, rfl⟩ := List.exists_cons_of_ne_nil
      (List.ne_nil_of_length_pos (show 0 < scanlines.length by omega))
    rw [List.length_cons] at isLength
    have nonempty : source.take stride ≠ [] := by
      apply List.ne_nil_of_length_pos
      rw [List.length_take]
      omega
    simp only [unfilterRows, List.head?_cons, Option.bind_eq_bind,
      Option.bind_some, List.drop_succ_cons, List.drop_zero,
      Option.bind_eq_some_iff] at isResult
    obtain ⟨⟨accepted, line⟩, isLine, isResult⟩ := isResult
    cases accepted with
    | false => exact absurd isResult (by simp)
    | true =>
      obtain ⟨lines, isLines, -⟩ := Option.bind_eq_some_iff.mp isResult
      intro row inside
      cases row with
      | zero =>
        by_contra unknown
        have rejected := tryUnfilter_of_unknown (UInt8.not_le.mp unknown) nonempty _ _ _ _ isLine
        exact Bool.noConfusion rejected
      | succ row =>
        have known := ih (y + 1) line (source.drop stride)
          (Option.isSome_iff_exists.mpr ⟨lines, isLines⟩)
          (by rw [List.length_drop]; omega) row
          (Nat.lt_of_succ_lt_succ inside)
        rw [List.getD_eq_getElem?_getD, List.getElem?_drop, ← List.getD_eq_getElem?_getD] at known
        rw [Nat.mul_succ, ← Nat.add_assoc, List.getD_cons_succ, Nat.add_comm]
        exact known

theorem tryDecode_known (inflate : List UInt8 → Option (List UInt8))
    (fresh : ℕ → UInt8) (requestRgba : Bool) (png : List UInt8)
    (decoded : (tryDecode inflate fresh requestRgba png).isSome) :
    ∃ header compressed scanlines, readChunks png.length ⟨0, 0, 0, 0, 0⟩ [] (png.drop 8) =
          some (header, compressed) ∧
        inflate compressed = some scanlines ∧
        ∀ row < header.height, scanlines.getD
              ((header.width * sourceBytesPerPixel header.colorType + 1) * row) 0 ≤
            4 := by
  obtain ⟨image, isImage⟩ := Option.isSome_iff_exists.mp decoded
  unfold tryDecode at isImage
  split_ifs at isImage with isPng
  obtain ⟨⟨header, compressed⟩, isRead, isImage⟩ :=
    Option.bind_eq_some_iff.mp isImage
  dsimp only at isImage
  split_ifs at isImage with accepted
  obtain ⟨scanlines, isInflated, isImage⟩ := Option.bind_eq_some_iff.mp isImage
  refine ⟨header, compressed, scanlines, isRead, isInflated, ?_⟩
  obtain ⟨wide, -, -, -, -, -, known⟩ := accepted.1
  unfold decodeScanlines at isImage
  dsimp only at isImage
  split_ifs at isImage with isLength
  obtain ⟨reconstructed, isReconstructed, -⟩ := Option.map_eq_some_iff.mp isImage
  exact unfilterRows_known (Nat.mul_pos (Nat.pos_of_ne_zero wide)
    (Nat.pos_of_ne_zero known)) fresh header.height 0 [] scanlines
    (Option.isSome_iff_exists.mpr ⟨reconstructed, isReconstructed⟩)
    (not_not.mp isLength)

/-! ## Rows and images -/

/-- A stored row gives the row again and files give their images; rows with an unknown
filter are refused, and with them the whole image. -/
theorem filtered_rows_and_images : (∀ (filter : FilterType) (row previous target : List UInt8)
      (bytesPerPixel : ℕ), 0 < bytesPerPixel →
      previous = [] ∨ previous.length = row.length →
      target.length = row.length →
      tryUnfilter filter.code (filterRow filter row previous bytesPerPixel)
        previous bytesPerPixel target = some (true, row)) ∧
    (∀ (inflate : List UInt8 → Option (List UInt8)) (fresh : ℕ → UInt8)
      (requestRgba : Bool) (image : Image) (filters : ℕ → FilterType)
      (chunks : List Chunk) (trailer : List UInt8),
      (∀ chunk ∈ chunks, chunk.IsInner) → Chunk.imageData chunks ≠ [] →
      inflate (Chunk.imageData chunks) = some (image.scanlines filters) →
      tryDecode inflate fresh requestRgba (image.file chunks trailer) =
        if image.width ≤ 16384 ∧ image.height ≤ 16384 then
          some (image.decoded requestRgba)
        else none) ∧
    (∀ (filter : UInt8) (source previous target : List UInt8)
      (bytesPerPixel : ℕ), 4 < filter → source ≠ [] →
      ∀ result ∈ tryUnfilter filter source previous bytesPerPixel target, result.1 = false) ∧
    (∀ (inflate : List UInt8 → Option (List UInt8)) (fresh : ℕ → UInt8)
      (requestRgba : Bool) (png : List UInt8),
      (tryDecode inflate fresh requestRgba png).isSome →
      ∃ header compressed scanlines, readChunks png.length ⟨0, 0, 0, 0, 0⟩ [] (png.drop 8) =
            some (header, compressed) ∧
          inflate compressed = some scanlines ∧
          ∀ row < header.height, scanlines.getD
                ((header.width * sourceBytesPerPixel header.colorType + 1) * row)
                0 ≤ 4) :=
  ⟨fun filter _ _ _ _ positive isRow sameLength =>
      tryUnfilter_filterRow filter positive isRow sameLength,
    tryDecode_file,
    fun _ _ previous target bytesPerPixel unknown nonempty =>
      tryUnfilter_of_unknown unknown nonempty previous bytesPerPixel target,
    tryDecode_known⟩

/-! ## A file of four pixels -/

/-- Its two rows, filtered and deflated without compression. -/
def pixelStream : List UInt8 :=
  [0x78, 0x01, 0x01, 0x0E, 0x00, 0xF1, 0xFF, 1, 1, 2, 3, 3, 3, 3, 2, 6, 6, 6, 6, 6, 6,
    0x01, 0x3F, 0x00, 0x37]

def pixelImage : Image where
  colorType := .rgb
  width := 2
  rows := [[⟨1, 2, 3, 0⟩, ⟨4, 5, 6, 0⟩], [⟨7, 8, 9, 0⟩, ⟨10, 11, 12, 0⟩]]
  length_row := by simp
  width_pos := by decide
  rows_nonempty := by simp
  width_lt := by decide
  height_lt := by decide

def pixelChunk : Chunk where
  type := idat
  data := pixelStream
  length_type := rfl
  length_data := by decide

theorem pixel_file_decoded : tryDecode (fun stream => if stream = pixelStream then
          some [1, 1, 2, 3, 3, 3, 3, 2, 6, 6, 6, 6, 6, 6] else none)
        (fun _ => 0) true (pixelImage.file [pixelChunk] []) =
      some ⟨[1, 2, 3, 255, 4, 5, 6, 255, 7, 8, 9, 255, 10, 11, 12, 255], 2, 2⟩ :=
  filtered_rows_and_images.2.1 _ _ true pixelImage
    (fun row => if row = 0 then .sub else .up) [pixelChunk] []
    (by simp [Chunk.IsInner, pixelChunk, idat, ihdr, iend]) (by decide) (by decide)

end SharpEmu.PngSplashLoader
