import SharpEmu.FaultingScopes
import SharpEmu.LittleEndianSpans
import SharpEmu.MachineWords
import SharpEmu.Overlays

/-!
# Loading executable images

`SelfLoader` reads an ELF file, or one wrapped in a SELF container, from a span
of bytes: the container's segment table, the ELF header, the program headers, and
the file data of each loadable segment, which it maps into guest memory.  Offsets
and sizes come from the file, so every read is checked against the span first; the
model keeps a record of the reads that were made.
-/

namespace SharpEmu
namespace SelfLoader

open LittleEndian (load)

def intMaxValue : ℕ := 0x7FFFFFFF

def elfMagic : ℕ := 0x7F454C46
def ps4SelfMagic : ℕ := 0x4F153D1D
def ps5SelfMagic : ℕ := 0x5414F5EE
def selfSegmentFlag : UInt64 := 0x800

def elfHeaderSize : ℕ := 0x40
def selfHeaderSize : ℕ := 0x20
def selfSegmentSize : ℕ := 0x20
def programHeaderSize : ℕ := 0x38

/-- The exceptions that end a load, by type, with the messages of those the
loader throws itself. -/
inductive LoadFault
  | invalidData (message : String)
  | notSupported (message : String)
  | invalidOperation (message : String)
  | argumentOutOfRange
  | outOfMemory
  | overflow
deriving DecidableEq, Repr

/-- The exception types that the loader's own `throw` statements name. -/
def LoadFault.Declared : LoadFault → Prop
  | .invalidData _ | .notSupported _ | .invalidOperation _ => True
  | .argumentOutOfRange | .outOfMemory | .overflow => False

instance (fault : LoadFault) : Decidable fault.Declared := by
  cases fault <;> unfold LoadFault.Declared <;> infer_instance

/-- The span of the file; its length is an `int`. -/
structure ImageData where
  bytes : List UInt8
  length_le : bytes.length ≤ intMaxValue

namespace ImageData

def length (image : ImageData) : ℕ := image.bytes.length

def span (image : ImageData) (offset : ℕ) : UInt8 :=
  image.bytes.getD offset 0

def spanFrom (image : ImageData) (offset index : ℕ) : UInt8 :=
  image.span (offset + index)

end ImageData

/-! ## The structures of the file -/

structure ElfHeader where
  ident : List UInt8
  machine : UInt16
  programHeaderOffset : UInt64
  programHeaderEntrySize : UInt16
  programHeaderCount : UInt16
deriving DecidableEq, Repr

namespace ElfHeader

def ofSpan (span : ℕ → UInt8) : ElfHeader where
  ident := (List.range 16).map span
  machine := .ofNat (load span 0x12 2)
  programHeaderOffset := .ofNat (load span 0x20 8)
  programHeaderEntrySize := .ofNat (load span 0x36 2)
  programHeaderCount := .ofNat (load span 0x38 2)

def hasElfMagic (header : ElfHeader) : Bool :=
  header.ident.take 4 = [0x7F, 0x45, 0x4C, 0x46]

def is64Bit (header : ElfHeader) : Bool :=
  header.ident.getD 4 0 = 2

def isLittleEndian (header : ElfHeader) : Bool :=
  header.ident.getD 5 0 = 1

end ElfHeader

structure SelfHeader where
  ident : List UInt8
  fileSize : UInt64
  segmentCount : UInt16
deriving DecidableEq, Repr

namespace SelfHeader

def ofSpan (span : ℕ → UInt8) : SelfHeader where
  ident := (List.range 12).map span
  fileSize := .ofNat (load span 0x10 8)
  segmentCount := .ofNat (load span 0x18 2)

/-- Version, key type and flags are signing metadata and may be anything. -/
def hasKnownLayout (header : SelfHeader) : Bool :=
  (header.ident.take 4 = [0x4F, 0x15, 0x3D, 0x1D] ||
    header.ident.take 4 = [0x54, 0x14, 0xF5, 0xEE]) &&
  header.ident.getD 5 0 = 1 && header.ident.getD 6 0 = 1 &&
  header.ident.getD 7 0 = 0x12

end SelfHeader

structure SelfSegment where
  type : UInt64
  offset : UInt64
deriving DecidableEq, Repr

namespace SelfSegment

def ofSpan (span : ℕ → UInt8) : SelfSegment where
  type := .ofNat (load span 0 8)
  offset := .ofNat (load span 8 8)

def isBlocked (segment : SelfSegment) : Bool :=
  segment.type &&& selfSegmentFlag ≠ 0

def programHeaderId (segment : SelfSegment) : UInt64 :=
  (segment.type >>> 20) &&& 0xFFF

def isEncrypted (segment : SelfSegment) : Bool :=
  segment.type &&& 0x2 ≠ 0

def isCompressed (segment : SelfSegment) : Bool :=
  segment.type &&& 0x8 ≠ 0

end SelfSegment

structure ProgramHeader where
  type : UInt32
  flags : UInt32
  offset : UInt64
  virtualAddress : UInt64
  physicalAddress : UInt64
  fileSize : UInt64
  memorySize : UInt64
  alignment : UInt64
deriving DecidableEq, Repr

namespace ProgramHeader

def ofSpan (span : ℕ → UInt8) : ProgramHeader where
  type := .ofNat (load span 0 4)
  flags := .ofNat (load span 4 4)
  offset := .ofNat (load span 8 8)
  virtualAddress := .ofNat (load span 0x10 8)
  physicalAddress := .ofNat (load span 0x18 8)
  fileSize := .ofNat (load span 0x20 8)
  memorySize := .ofNat (load span 0x28 8)
  alignment := .ofNat (load span 0x30 8)

def typeLoad : UInt32 := 1

def IsLoadable (header : ProgramHeader) : Prop :=
  header.type = typeLoad ∧ header.memorySize ≠ 0

instance (header : ProgramHeader) : Decidable header.IsLoadable :=
  inferInstanceAs (Decidable (_ ∧ _))

end ProgramHeader

structure LoadContext where
  isSelf : Bool
  elfOffset : ℕ
  selfFileSize : UInt64
  selfSegments : List SelfSegment
deriving DecidableEq, Repr

/-! ## Reading the span -/

/-- A part of the span that was read, or sliced off, by its `int` offset and
length. -/
structure SliceAccess where
  offset : ℤ
  size : ℤ
deriving DecidableEq, Repr

/-- The reads made so far, the last one first, beside the guest memory. -/
structure LoaderState (Memory : Type) where
  reads : List SliceAccess
  memory : Memory

def LoaderState.start {Memory : Type} (memory : Memory) :
    LoaderState Memory :=
  ⟨[], memory⟩

abbrev Loader (Memory : Type) := Faulting LoadFault (LoaderState Memory)

variable {Memory Value : Type}

def recordRead (offset size : ℤ) : Loader Memory Unit :=
  modify fun state => { state with reads := ⟨offset, size⟩ :: state.reads }

def checkedInt (value : ℕ) : Loader Memory ℕ :=
  if value ≤ intMaxValue then pure value else throw .overflow

def castInt (value : UInt64) : ℤ :=
  Int.bmod value.toNat (2 ^ 32)

def ensureRange (length : ℕ) (offset size : UInt64) : Loader Memory Unit :=
  if offset > .ofNat length then
    throw (.invalidData "Segment offset exceeds image length.")
  else
    let rangeEnd := offset + size
    if rangeEnd < offset ∨ rangeEnd > .ofNat length then
      throw (.invalidData "Segment extends beyond image bounds.")
    else pure ()

def readUnmanaged (size : ℕ) (ofSpan : (ℕ → UInt8) → Value)
    (image : ImageData) (offset : ℕ) : Loader Memory Value := do
  ensureRange image.length (.ofNat offset) (.ofNat size)
  recordRead offset size
  pure (ofSpan (image.spanFrom offset))

def slice (image : ImageData) (offset size : ℤ) : Loader Memory (List UInt8) :=
  do
    recordRead offset size
    if 0 ≤ offset ∧ 0 ≤ size ∧ offset + size ≤ image.length then
      pure ((image.bytes.drop offset.toNat).take size.toNat)
    else throw .argumentOutOfRange

def readTable (size stride tableOffset : ℕ) (ofSpan : (ℕ → UInt8) → Value)
    (image : ImageData) : ℕ → ℕ → Loader Memory (List Value)
  | 0, _ => pure []
  | remaining + 1, index => do
      let entryOffset ← checkedInt (tableOffset + index * stride)
      let entry ← readUnmanaged size ofSpan image entryOffset
      let rest ← readTable size stride tableOffset ofSpan image remaining (index + 1)
      pure (entry :: rest)

/-! ## Layout and program headers -/

def readUInt32BigEndian (bytes : List UInt8) : ℕ :=
  bytes.foldl (fun value byte => value * 256 + byte.toNat) 0

def upperHex (width value : ℕ) : String :=
  (String.ofList ((Nat.toDigits 16 value).map Char.toUpper)).leftpad width '0'

def parseLayout (image : ImageData) : Loader Memory LoadContext :=
  if image.length < elfHeaderSize then
    throw (.invalidData "Input image is too small to contain an ELF header.")
  else do
    let magic := readUInt32BigEndian (← slice image 0 4)
    if magic = ps4SelfMagic ∨ magic = ps5SelfMagic then
      let selfHeader ← readUnmanaged selfHeaderSize SelfHeader.ofSpan image 0
      if selfHeader.hasKnownLayout then
        let segmentCount := selfHeader.segmentCount.toNat
        let elfOffset ←
          checkedInt (selfHeaderSize + segmentCount * selfSegmentSize)
        ensureRange image.length (.ofNat elfOffset) (.ofNat elfHeaderSize)
        let segments ← readTable selfSegmentSize selfSegmentSize selfHeaderSize
          SelfSegment.ofSpan image segmentCount 0
        pure ⟨true, elfOffset, selfHeader.fileSize, segments⟩
      else throw (.invalidData "SELF header signature is not recognized.")
    else if magic ≠ elfMagic then
      throw (.invalidData <|
        "Image is neither a decrypted ELF nor a recognized fake-signed SELF " ++
        "(leading bytes 0x" ++ upperHex 8 magic ++
        "). This is almost certainly a still-encrypted " ++
        "retail eboot — SharpEmu has no decryption keys and requires a " ++
        "decrypted / fake-signed (fSELF) image.")
    else pure ⟨false, 0, 0, []⟩

def validateElfHeader (header : ElfHeader) : Loader Memory Unit :=
  if ¬ header.hasElfMagic then
    throw (.invalidData "Input does not contain a valid ELF header.")
  else if ¬ header.is64Bit then
    throw (.invalidData "Only ELF64 images are currently supported.")
  else if ¬ header.isLittleEndian then
    throw (.invalidData "Only little-endian ELF images are currently supported.")
  else if header.programHeaderEntrySize.toNat ≠ programHeaderSize then
    throw (.invalidData <| "Unsupported ELF program header entry size: " ++
      toString header.programHeaderEntrySize ++ ".")
  else if header.machine ≠ 62 then
    throw (.invalidData <| "Unsupported ELF machine type 0x" ++ upperHex 4 header.machine.toNat ++
      "; SharpEmu only runs x86-64 (EM_X86_64) images.")
  else pure ()

def parseProgramHeaders (image : ImageData) (context : LoadContext)
    (header : ElfHeader) : Loader Memory (List ProgramHeader) :=
  if header.programHeaderCount = 0 then pure []
  else if header.programHeaderEntrySize.toNat < programHeaderSize then
    throw (.invalidData "Program header entry size is smaller than expected.")
  else do
    let programHeaderOffset ← checkedInt header.programHeaderOffset.toNat
    let tableOffset ← checkedInt (context.elfOffset + programHeaderOffset)
    ensureRange image.length (.ofNat tableOffset) (header.programHeaderCount.toUInt64 *
        header.programHeaderEntrySize.toUInt64)
    readTable programHeaderSize header.programHeaderEntrySize.toNat tableOffset
      ProgramHeader.ofSpan image header.programHeaderCount.toNat 0

/-- What the headers of a file say. -/
structure ParsedImage where
  context : LoadContext
  elfHeader : ElfHeader
  programHeaders : List ProgramHeader
deriving DecidableEq, Repr

def parseElfHeader (image : ImageData) : Loader Memory (LoadContext × ElfHeader) :=
  if image.bytes.isEmpty then throw (.invalidData "Input image is empty.")
  else do
    let context ← parseLayout image
    let header ← readUnmanaged elfHeaderSize ElfHeader.ofSpan image context.elfOffset
    validateElfHeader header
    pure (context, header)

/-- The first part of `LoadCore`. -/
def parseImage (image : ImageData) : Loader Memory ParsedImage := do
  let (context, header) ← parseElfHeader image
  let programHeaders ← parseProgramHeaders image context header
  pure ⟨context, header, programHeaders⟩

/-! ## Where a segment's file data lies -/

inductive SelfSegmentResolveStatus
  | notFound
  | resolved
  | resolvedDumped
  | encrypted
  | compressed
deriving DecidableEq, Repr

def tryIsInRange (imageLength : ℕ) (offset size : UInt64) : Bool :=
  if offset > .ofNat imageLength then false
  else
    let rangeEnd := offset + size
    rangeEnd ≥ offset && rangeEnd ≤ .ofNat imageLength

def tryResolveSelfSegmentOffset (imageLength : ℕ) (header : ProgramHeader) (headerIndex : ℕ) :
    List SelfSegment → Option UInt64 × SelfSegmentResolveStatus
  | [] => (none, .notFound)
  | segment :: rest =>
      if ¬ segment.isBlocked then
        tryResolveSelfSegmentOffset imageLength header headerIndex rest
      else if segment.programHeaderId ≠ .ofNat headerIndex then
        tryResolveSelfSegmentOffset imageLength header headerIndex rest
      else if segment.isEncrypted ∨ segment.isCompressed then
        if tryIsInRange imageLength segment.offset header.fileSize then
          (some segment.offset, .resolvedDumped)
        else (none, if segment.isEncrypted then .encrypted else .compressed)
      else if ¬ tryIsInRange imageLength segment.offset header.fileSize then
        tryResolveSelfSegmentOffset imageLength header headerIndex rest
      else (some segment.offset, .resolved)

def checkedSum (left right : UInt64) : Except LoadFault UInt64 :=
  match Word64.checkedAdd left right with
  | some sum => .ok sum
  | none => .error .overflow

def tryResolveSelfFallbackOffset (imageLength : ℕ) (context : LoadContext)
    (header : ProgramHeader) : Except LoadFault (Option UInt64) :=
  if tryIsInRange imageLength header.offset header.fileSize then
    .ok (some header.offset)
  else do
    let elfRelative ← checkedSum (.ofNat context.elfOffset) header.offset
    if tryIsInRange imageLength elfRelative header.fileSize then
      pure (some elfRelative)
    else if context.selfFileSize ≤ .ofNat imageLength ∧
        .ofNat imageLength - context.selfFileSize = header.fileSize ∧
        tryIsInRange imageLength context.selfFileSize header.fileSize then
      pure (some context.selfFileSize)
    else pure none

def resolvePhysicalSegmentOffset (imageLength : ℕ) (context : LoadContext)
    (header : ProgramHeader) (headerIndex : ℕ) : Except LoadFault UInt64 :=
  if ¬ context.isSelf then
    checkedSum (.ofNat context.elfOffset) header.offset
  else
    match tryResolveSelfSegmentOffset imageLength header headerIndex
        context.selfSegments with
    | (some offset, _) => .ok offset
    | (none, resolveStatus) => do
        match ← tryResolveSelfFallbackOffset imageLength context header with
        | some fallbackOffset => pure fallbackOffset
        | none =>
            if resolveStatus = .encrypted ∨ resolveStatus = .compressed then
              throw (.notSupported <| "SELF segment for program header " ++
                toString headerIndex ++ " is marked as " ++
                (if resolveStatus = .encrypted then "encrypted"
                  else "compressed") ++
                " and no dumped payload could be resolved. " ++
                "Runtime decryption is not implemented yet. " ++
                "Use a decrypted ELF/FSELF image.")
            else
              throw (.notSupported <| "SELF segment mapping for program header " ++
                toString headerIndex ++ " could not be resolved.")

/-! ## Guest memory -/

/-- What a call of `Map` puts into memory: the file data, followed by zeros up to
the memory size. -/
def mappedContents (virtualAddress memorySize : UInt64)
    (fileData : List UInt8) : Overlays.Contents UInt64 UInt8 :=
  fun address =>
    if (address - virtualAddress).toNat < memorySize.toNat then
      some (fileData.getD (address - virtualAddress).toNat 0)
    else none

/-- The interface the loader maps segments through, with what its
implementations promise for calls with a positive size that the file data does
not exceed. -/
structure IVirtualMemory (Memory : Type) where
  map : (virtualAddress memorySize fileOffset : UInt64) →
    (fileData : List UInt8) → (protection : UInt32) →
      Faulting LoadFault Memory Unit
  byteAt : Memory → Overlays.Contents UInt64 UInt8
  /-- The implementation's checked arithmetic on the range overflows. -/
  RangeOverflows : (virtualAddress memorySize : UInt64) → Prop
  throws : ∀ {virtualAddress memorySize fileOffset fileData protection},
    memorySize ≠ 0 → fileData.length ≤ memorySize.toNat →
      ¬ RangeOverflows virtualAddress memorySize →
        Faulting.ThrowsOnly LoadFault.Declared
          (map virtualAddress memorySize fileOffset fileData protection)
  overflows : ∀ {virtualAddress memorySize fileOffset fileData protection},
    memorySize ≠ 0 → fileData.length ≤ memorySize.toNat →
      RangeOverflows virtualAddress memorySize → ∀ before,
        ((map virtualAddress memorySize fileOffset fileData
          protection).outcome before).1 = .error .overflow
  byteAt_map : ∀ {virtualAddress memorySize fileOffset fileData protection},
    memorySize ≠ 0 → fileData.length ≤ memorySize.toNat → ∀ before after,
      (map virtualAddress memorySize fileOffset fileData protection).outcome
          before = (.ok (), after) →
        byteAt after = Overlays.overlay
          (mappedContents virtualAddress memorySize fileData) (byteAt before)

/-! ## Mapping the loadable segments -/

def readFileData (image : ImageData) (sourceOffset fileSize : UInt64) :
    Loader Memory (List UInt8) :=
  if fileSize = 0 then pure []
  else if fileSize > .ofNat intMaxValue then
    throw (.notSupported "Segments larger than 2 GB are not currently supported.")
  else do
    ensureRange image.length sourceOffset fileSize
    slice image (castInt sourceOffset) (castInt fileSize)

/-- The offset a segment's file data is taken from; without any it is zero. -/
def segmentSource (image : ImageData) (context : LoadContext) (index : ℕ)
    (header : ProgramHeader) : Except LoadFault UInt64 :=
  if header.fileSize = 0 then .ok 0
  else resolvePhysicalSegmentOffset image.length context header index

/-- A computation that touches no state. -/
def fromExcept : Except LoadFault Value → Loader Memory Value
  | .ok value => pure value
  | .error fault => throw fault

def onMemory (program : Faulting LoadFault Memory Value) :
    Loader Memory Value :=
  Faulting.within LoaderState.memory (fun memory state => { state with memory }) id program

def mapLoadSegment (memory : IVirtualMemory Memory) (image : ImageData)
    (context : LoadContext) (imageBase : UInt64) (index : ℕ)
    (header : ProgramHeader) : Loader Memory Unit :=
  if header.type ≠ ProgramHeader.typeLoad ∨ header.memorySize = 0 then pure ()
  else if header.fileSize > header.memorySize then
    throw (.invalidData "ELF segment file size cannot exceed memory size.")
  else do
    let sourceOffset ← fromExcept (segmentSource image context index header)
    let virtualAddress := header.virtualAddress + imageBase
    let fileData ← readFileData image sourceOffset header.fileSize
    onMemory (memory.map virtualAddress header.memorySize sourceOffset fileData header.flags)

def mapLoadSegments (memory : IVirtualMemory Memory) (image : ImageData)
    (context : LoadContext) (imageBase : UInt64) :
    List ProgramHeader → ℕ → Loader Memory Unit
  | [], _ => pure ()
  | header :: rest, index => do
      mapLoadSegment memory image context imageBase index header
      mapLoadSegments memory image context imageBase rest (index + 1)

def loadSegments (memory : IVirtualMemory Memory) (image : ImageData)
    (imageBase : UInt64) : Loader Memory ParsedImage := do
  let parsed ← parseImage image
  mapLoadSegments memory image parsed.context imageBase parsed.programHeaders 0
  pure parsed

end SelfLoader
end SharpEmu
