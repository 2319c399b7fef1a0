import SharpEmu.PngFilters
import SharpEmu.ReflectedChecks

/-!
# Decoding splash images

The chunks of a file carry checks; their image data, inflated, is a filter type and
a stored row for each row of the image.  A decoded image has four bytes a pixel.
-/

namespace SharpEmu.PngSplashLoader

/-! ## Checks -/

def crcPolynomial : BitVec 32 := 0xEDB88320

def crcTable : List (BitVec 32) :=
  (List.range 256).map fun index =>
    (fun value : BitVec 32 =>
      if value &&& 1 ≠ 0 then crcPolynomial ^^^ (value >>> 1) else value >>> 1
      )^[8] (.ofNat 32 index)

def updateCrc (crc : BitVec 32) (bytes : List UInt8) : BitVec 32 :=
  bytes.foldl (fun crc value =>
      crcTable.getD ((crc ^^^ value.toBitVec.setWidth 32).setWidth 8).toNat 0 ^^^ (crc >>> 8))
    crc

def calculateCrc (chunkType chunkData : List UInt8) : BitVec 32 :=
  ~~~ updateCrc (updateCrc (BitVec.allOnes 32) chunkType) chunkData

/-! ## Chunks -/

def pngSignature : List UInt8 :=
  [0x89, 0x50, 0x4E, 0x47, 0x0D, 0x0A, 0x1A, 0x0A]

def ihdr : List UInt8 := [0x49, 0x48, 0x44, 0x52]
def idat : List UInt8 := [0x49, 0x44, 0x41, 0x54]
def iend : List UInt8 := [0x49, 0x45, 0x4E, 0x44]

/-- The number that the first four bytes are, most significant first. -/
def readUInt32BigEndian (bytes : List UInt8) : ℕ :=
  (bytes.take 4).foldl (fun value byte => value * 256 + byte.toNat) 0

structure Header where
  width : ℕ
  height : ℕ
  bitDepth : UInt8
  colorType : UInt8
  interlace : UInt8
deriving DecidableEq

def readHeader (chunkData : List UInt8) : Header where
  width := readUInt32BigEndian chunkData
  height := readUInt32BigEndian (chunkData.drop 4)
  bitDepth := chunkData.getD 8 0
  colorType := chunkData.getD 9 0
  interlace := chunkData.getD 12 0

def readChunks : ℕ → Header → List UInt8 → List UInt8 → Option (Header × List UInt8)
  | 0, header, compressed, _ => some (header, compressed)
  | count + 1, header, compressed, rest =>
      if rest.length < 12 then some (header, compressed)
      else
        let chunkLength := readUInt32BigEndian rest
        if 0x7FFFFFFF < chunkLength ∨ rest.length - 12 < chunkLength then none
        else
          let chunkType := (rest.drop 4).take 4
          let chunkData := (rest.drop 8).take chunkLength
          let expectedCrc := readUInt32BigEndian (rest.drop (8 + chunkLength))
          let next := rest.drop (chunkLength + 12)
          if (calculateCrc chunkType chunkData).toNat ≠ expectedCrc then none
          else if chunkType = ihdr then
            if chunkData.length ≠ 13 then none
            else readChunks count (readHeader chunkData) compressed next
          else if chunkType = idat then
            readChunks count header (compressed ++ chunkData) next
          else if chunkType = iend then some (header, compressed)
          else readChunks count header compressed next

/-! ## Rows and pixels -/

def sourceBytesPerPixel (colorType : UInt8) : ℕ :=
  if colorType = 2 then 3 else if colorType = 6 then 4 else 0

/-- The loop over the rows; each is written over what a new array holds. -/
def unfilterRows (bytesPerPixel stride : ℕ) (fresh : ℕ → UInt8) :
    ℕ → ℕ → List UInt8 → List UInt8 → Option (List UInt8)
  | 0, _, _, _ => some []
  | count + 1, y, previousLine, scanlines => do
      let filter ← scanlines.head?
      let sourceLine := (scanlines.drop 1).take stride
      let targetLine :=
        (List.range stride).map fun index => fresh (y * stride + index)
      let (accepted, line) ←
        tryUnfilter filter sourceLine previousLine bytesPerPixel targetLine
      if accepted then
        let lines ← unfilterRows bytesPerPixel stride fresh count (y + 1) line
          (scanlines.drop (stride + 1))
        some (line ++ lines)
      else none

def convertPixel (requestRgba : Bool) (bytesPerPixel : ℕ)
    (reconstructed : List UInt8) (sourceOffset : ℕ) : List UInt8 :=
  let source := fun index => reconstructed.getD (sourceOffset + index) 0
  [if requestRgba then source 0 else source 2, source 1,
    if requestRgba then source 2 else source 0,
    if bytesPerPixel = 4 then source 3 else 0xFF]

def convertPixels (requestRgba : Bool) (bytesPerPixel : ℕ)
    (reconstructed : List UInt8) : List UInt8 :=
  (List.range (reconstructed.length / bytesPerPixel)).flatMap fun pixel =>
    convertPixel requestRgba bytesPerPixel reconstructed (pixel * bytesPerPixel)

/-- The images that the loader takes. -/
def Header.IsAccepted (header : Header) : Prop :=
  header.width ≠ 0 ∧ header.height ≠ 0 ∧ header.width ≤ 16384 ∧
    header.height ≤ 16384 ∧ header.bitDepth = 8 ∧ header.interlace = 0 ∧
    sourceBytesPerPixel header.colorType ≠ 0

instance (header : Header) : Decidable header.IsAccepted :=
  inferInstanceAs (Decidable (_ ∧ _))

structure DecodedImage where
  pixels : List UInt8
  width : ℕ
  height : ℕ
deriving DecidableEq

def decodeScanlines (fresh : ℕ → UInt8) (requestRgba : Bool) (header : Header)
    (scanlines : List UInt8) : Option DecodedImage :=
  let bytesPerPixel := sourceBytesPerPixel header.colorType
  let stride := header.width * bytesPerPixel
  if scanlines.length ≠ (stride + 1) * header.height then none
  else
    (unfilterRows bytesPerPixel stride fresh header.height 0 [] scanlines).map
      fun reconstructed =>
        ⟨convertPixels requestRgba bytesPerPixel reconstructed, header.width, header.height⟩

/-- Decode a file, given what inflates its image data and what a new array holds; the
loader takes exceptions for a failure. -/
def tryDecode (inflate : List UInt8 → Option (List UInt8)) (fresh : ℕ → UInt8)
    (requestRgba : Bool) (png : List UInt8) : Option DecodedImage :=
  if png.length < 33 ∨ png.take 8 ≠ pngSignature then none
  else do
    let (header, compressed) ←
      readChunks png.length ⟨0, 0, 0, 0, 0⟩ [] (png.drop 8)
    if header.IsAccepted ∧ compressed ≠ [] then
      (inflate compressed).bind (decodeScanlines fresh requestRgba header)
    else none

end SharpEmu.PngSplashLoader
