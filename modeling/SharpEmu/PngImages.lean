import SharpEmu.PngFiles
import Mathlib.Data.UInt

/-!
# Splash images

A file as the format prescribes it: a header, chunks among which the deflated image
data is divided, and stored rows with a filter of the writer's choice for each.  Its
decoding gives the pixels of the image.
-/

namespace SharpEmu.PngSplashLoader

/-! ## Images -/

inductive ColorType where
  | rgb | rgba
deriving DecidableEq

namespace ColorType

def code : ColorType → UInt8
  | rgb => 2
  | rgba => 6

def bytesPerPixel : ColorType → ℕ
  | rgb => 3
  | rgba => 4

end ColorType

structure Pixel where
  red : UInt8
  green : UInt8
  blue : UInt8
  alpha : UInt8
deriving DecidableEq

namespace Pixel

def bytes (pixel : Pixel) : ColorType → List UInt8
  | .rgb => [pixel.red, pixel.green, pixel.blue]
  | .rgba => [pixel.red, pixel.green, pixel.blue, pixel.alpha]

def opacity (pixel : Pixel) : ColorType → UInt8
  | .rgb => 255
  | .rgba => pixel.alpha

def decoded (pixel : Pixel) (colorType : ColorType) (requestRgba : Bool) :
    List UInt8 :=
  if requestRgba then
    [pixel.red, pixel.green, pixel.blue, pixel.opacity colorType]
  else [pixel.blue, pixel.green, pixel.red, pixel.opacity colorType]

theorem length_bytes (pixel : Pixel) (colorType : ColorType) :
    (pixel.bytes colorType).length = colorType.bytesPerPixel := by
  cases colorType <;> rfl

end Pixel

structure Image where
  colorType : ColorType
  width : ℕ
  rows : List (List Pixel)
  length_row : ∀ row ∈ rows, row.length = width
  width_pos : 0 < width
  rows_nonempty : rows ≠ []
  width_lt : width < 2 ^ 32
  height_lt : rows.length < 2 ^ 32

namespace Image

def height (image : Image) : ℕ := image.rows.length

def rowBytes (colorType : ColorType) (row : List Pixel) : List UInt8 :=
  row.flatMap (·.bytes colorType)

def decoded (image : Image) (requestRgba : Bool) : DecodedImage where
  pixels := image.rows.flatten.flatMap (·.decoded image.colorType requestRgba)
  width := image.width
  height := image.height

end Image

def storedRows (filters : ℕ → FilterType) (bytesPerPixel : ℕ) :
    ℕ → List UInt8 → List (List UInt8) → List UInt8
  | _, _, [] => []
  | y, previous, row :: rows =>
      (filters y).code :: (filterRow (filters y) row previous bytesPerPixel ++
        storedRows filters bytesPerPixel (y + 1) row rows)

def Image.scanlines (image : Image) (filters : ℕ → FilterType) : List UInt8 :=
  storedRows filters image.colorType.bytesPerPixel 0 []
    (image.rows.map (Image.rowBytes image.colorType))

/-! ## Files -/

/-- A number of four bytes, most significant first. -/
def uint32BigEndian (number : ℕ) : List UInt8 :=
  [.ofNat (number / 2 ^ 24), .ofNat (number / 2 ^ 16), .ofNat (number / 2 ^ 8), .ofNat number]

def prescribedCrc (bytes : List UInt8) : BitVec 32 :=
  ~~~ bytes.foldl (fun check byte =>
      ReflectedChecks.byteStep 0xEDB88320 check byte.toBitVec)
    (BitVec.allOnes 32)

structure Chunk where
  type : List UInt8
  data : List UInt8
  length_type : type.length = 4
  length_data : data.length < 2 ^ 31

namespace Chunk

def bytes (chunk : Chunk) : List UInt8 :=
  uint32BigEndian chunk.data.length ++ chunk.type ++ chunk.data ++
    uint32BigEndian (prescribedCrc (chunk.type ++ chunk.data)).toNat

def imageData (chunks : List Chunk) : List UInt8 :=
  (chunks.filter (·.type = idat)).flatMap (·.data)

/-- A chunk that may stand between the header and the end. -/
def IsInner (chunk : Chunk) : Prop := chunk.type ≠ ihdr ∧ chunk.type ≠ iend

end Chunk

def Image.headerChunk (image : Image) : Chunk where
  type := ihdr
  data := uint32BigEndian image.width ++ uint32BigEndian image.height ++
    [8, image.colorType.code, 0, 0, 0]
  length_type := rfl
  length_data := Nat.lt_of_lt_of_le (by decide : 13 < 14) (by decide)

def endChunk : Chunk where
  type := iend
  data := []
  length_type := rfl
  length_data := by decide

def Image.file (image : Image) (chunks : List Chunk) (trailer : List UInt8) :
    List UInt8 :=
  pngSignature ++ image.headerChunk.bytes ++ chunks.flatMap (·.bytes) ++ endChunk.bytes ++ trailer

/-! ## Checks and numbers -/

theorem crcTable_getD (byte : BitVec 8) : crcTable.getD byte.toNat 0 =
      (ReflectedChecks.bitStep crcPolynomial)^[8] (byte.setWidth 32) := by
  have isStep : (fun value : BitVec 32 =>
      if value &&& 1 ≠ 0 then crcPolynomial ^^^ (value >>> 1) else value >>> 1) =
      ReflectedChecks.bitStep crcPolynomial := by
    funext value
    have isBit : value &&& 1 = (BitVec.ofBool (value.getLsbD 0)).setWidth 32 :=
      BitVec.and_one_eq_setWidth_ofBool_getLsbD
    rw [ReflectedChecks.bitStep, isBit]
    cases value.getLsbD 0 <;> rfl
  rw [crcTable, isStep, List.getD_eq_getElem?_getD, List.getElem?_map,
    List.getElem?_range byte.isLt, Option.map_some, Option.getD_some,
    BitVec.ofNat_toNat]

theorem updateCrc_eq (crc : BitVec 32) (bytes : List UInt8) : updateCrc crc bytes =
      bytes.foldl (fun check byte =>
        ReflectedChecks.byteStep crcPolynomial check byte.toBitVec) crc := by
  unfold updateCrc
  congr 1
  funext check byte
  rw [ReflectedChecks.byteStep_eq_table, crcTable_getD]

theorem calculateCrc_eq (chunkType chunkData : List UInt8) : calculateCrc chunkType chunkData =
      prescribedCrc (chunkType ++ chunkData) := by
  rw [calculateCrc, updateCrc_eq, updateCrc_eq, ← List.foldl_append]
  rfl

theorem readUInt32BigEndian_uint32BigEndian {number : ℕ}
    (fits : number < 2 ^ 32) (rest : List UInt8) :
    readUInt32BigEndian (uint32BigEndian number ++ rest) = number := by
  have isNumber : readUInt32BigEndian (uint32BigEndian number ++ rest) =
      (((number / 2 ^ 24 % 256) * 256 + number / 2 ^ 16 % 256) * 256 +
        number / 2 ^ 8 % 256) * 256 + number % 256 := by
    simp [readUInt32BigEndian, uint32BigEndian]
  rw [isNumber]
  omega

end SharpEmu.PngSplashLoader
