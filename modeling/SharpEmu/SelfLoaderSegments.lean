import SharpEmu.SelfLoaderHeaders

/-!
# Mapping the loadable segments

A turn of the mapping loop either leaves the memory alone, throws, or lays one
segment over the memory: its file data, followed by zeros up to its memory size.
The loop lays them over each other in the order of their headers.
-/

namespace SharpEmu
namespace SelfLoader

open Faulting Overlays

variable {Memory Value : Type} {image : ImageData} {context : LoadContext}

/-! ## Resolving file offsets -/

/-- Adding the offset of the ELF header to a segment's overflows, and the segment
is found neither through the container's table nor at its own offset. -/
structure FallbackOverflows (image : ImageData) (context : LoadContext)
    (index : ℕ) (header : ProgramHeader) : Prop where
  nonempty : header.fileSize ≠ 0
  isSelf : context.isSelf = true
  notInTable : (tryResolveSelfSegmentOffset image.length header index
    context.selfSegments).1 = none
  outside : ¬ header.offset.toNat + header.fileSize.toNat ≤ image.length
  overflow : 2 ^ 64 ≤ context.elfOffset + header.offset.toNat

variable {left right : UInt64}

theorem checkedSum_eq_overflow (beyond : 2 ^ 64 ≤ left.toNat + right.toNat) :
    checkedSum left right = .error .overflow := by
  rw [checkedSum]
  cases added : Word64.checkedAdd left right with
  | none => rfl
  | some sum =>
    obtain ⟨below, _⟩ := Word64.checkedAdd_eq_some.mp added
    omega

theorem checkedSum_eq_ok (below : left.toNat + right.toNat < 2 ^ 64) :
    checkedSum left right = .ok (left + right) := by
  have added : Word64.checkedAdd left right = some (left + right) :=
    Word64.checkedAdd_eq_some.mpr ⟨below, Word64.toNat_add_of_lt below⟩
  rw [checkedSum, added]

theorem toNat_ofNat_elfOffset (wellFormed : context.WellFormed) :
    (UInt64.ofNat context.elfOffset).toNat = context.elfOffset :=
  UInt64.toNat_ofNat_of_lt' wellFormed.elfOffset_lt

theorem resolve_plain (wellFormed : context.WellFormed)
    (isPlain : context.isSelf = false) (header : ProgramHeader) (index : ℕ) :
    resolvePhysicalSegmentOffset image.length context header index = .ok header.offset := by
  have offsetSmall := header.offset.toNat_lt
  have atStart : UInt64.ofNat context.elfOffset = 0 := by
    rw [wellFormed.plain isPlain]
    rfl
  rw [resolvePhysicalSegmentOffset, if_pos (by simp [isPlain]), atStart,
    checkedSum_eq_ok (by simpa using offsetSmall), UInt64.zero_add]

theorem resolve_inTable {header : ProgramHeader} {index : ℕ} {offset : UInt64}
    (isSelf : context.isSelf = true)
    (inTable : (tryResolveSelfSegmentOffset image.length header index
      context.selfSegments).1 = some offset) :
    resolvePhysicalSegmentOffset image.length context header index = .ok offset := by
  rw [resolvePhysicalSegmentOffset, if_neg (by simp [isSelf])]
  rcases found : tryResolveSelfSegmentOffset image.length header index
    context.selfSegments with ⟨_ | _, status⟩
  · rw [found] at inTable
    cases inTable
  · rw [found] at inTable
    obtain rfl := Option.some.inj inTable
    rfl

theorem fallback_overflows {index : ℕ} {header : ProgramHeader} (wellFormed : context.WellFormed)
    (overflows : FallbackOverflows image context index header) :
    tryResolveSelfFallbackOffset image.length context header = .error .overflow := by
  have outside : ¬ tryIsInRange image.length header.offset header.fileSize =
      true := by
    rw [tryIsInRange_iff]
    exact overflows.outside
  have sum : checkedSum (.ofNat context.elfOffset) header.offset = .error .overflow := by
    apply checkedSum_eq_overflow
    rw [toNat_ofNat_elfOffset wellFormed]
    exact overflows.overflow
  rw [tryResolveSelfFallbackOffset, if_neg outside, sum]
  rfl

theorem segmentSource_overflows {index : ℕ} {header : ProgramHeader}
    (wellFormed : context.WellFormed)
    (overflows : FallbackOverflows image context index header) :
    segmentSource image context index header = .error .overflow := by
  rw [segmentSource, if_neg overflows.nonempty, resolvePhysicalSegmentOffset,
    if_neg (by simp [overflows.isSelf])]
  have notInTable := overflows.notInTable
  rcases found : tryResolveSelfSegmentOffset image.length header index
    context.selfSegments with ⟨_ | _, status⟩
  · simp only [fallback_overflows wellFormed overflows]
    rfl
  · rw [found] at notInTable
    cases notInTable

theorem fallback_returns {header : ProgramHeader} (wellFormed : context.WellFormed)
    (fits : header.offset.toNat + header.fileSize.toNat ≤ image.length ∨
      context.elfOffset + header.offset.toNat < 2 ^ 64) :
    ∃ fallback, tryResolveSelfFallbackOffset image.length context header = .ok fallback := by
  rw [tryResolveSelfFallbackOffset]
  split
  case isTrue => exact ⟨_, rfl⟩
  case isFalse outside =>
    rw [tryIsInRange_iff] at outside
    have below := fits.resolve_left outside
    rw [← toNat_ofNat_elfOffset wellFormed] at below
    rw [checkedSum_eq_ok below]
    change ∃ fallback, ite _ _ _ = _
    split
    · exact ⟨_, rfl⟩
    split <;> exact ⟨_, rfl⟩

/-- Otherwise the file offset is found or rejected with the loader's own
exception. -/
theorem segmentSource_declared {index : ℕ} {header : ProgramHeader}
    (wellFormed : context.WellFormed)
    (fits : ¬ FallbackOverflows image context index header) {fault : LoadFault}
    (thrown : segmentSource image context index header = .error fault) :
    fault.Declared := by
  rw [segmentSource] at thrown
  split at thrown
  case isTrue => cases thrown
  case isFalse nonempty =>
  cases isSelf : context.isSelf with
  | false =>
    rw [resolve_plain wellFormed isSelf] at thrown
    cases thrown
  | true =>
    rw [resolvePhysicalSegmentOffset, if_neg (by simp [isSelf])] at thrown
    rcases found : tryResolveSelfSegmentOffset image.length header index
      context.selfSegments with ⟨_ | _, status⟩
    case some =>
      rw [found] at thrown
      cases thrown
    case none =>
      have sumFits : header.offset.toNat + header.fileSize.toNat ≤ image.length ∨
            context.elfOffset + header.offset.toNat < 2 ^ 64 := by
        by_contra neither
        obtain ⟨outside, beyond⟩ := not_or.mp neither
        exact fits ⟨nonempty, isSelf, by rw [found], outside, Nat.not_lt.mp beyond⟩
      obtain ⟨fallback, isFallback⟩ := fallback_returns wellFormed sumFits
      simp only [found, isFallback] at thrown
      cases fallback with
      | some offset => cases thrown
      | none =>
        change ite _ _ _ = _ at thrown
        split at thrown
        · obtain rfl := Except.error.inj thrown
          trivial
        · obtain rfl := Except.error.inj thrown
          trivial

/-! ## One segment -/

structure LoadedSegment where
  virtualAddress : UInt64
  memorySize : UInt64
  fileOffset : ℕ
  fileSize : ℕ
deriving DecidableEq, Repr

namespace LoadedSegment

/-- The bytes of a segment: those of the file, followed by zeros. -/
def byte (image : ImageData) (segment : LoadedSegment) (offset : ℕ) : UInt8 :=
  if offset < segment.fileSize then image.span (segment.fileOffset + offset)
  else 0

/-- The bytes by address. -/
def contents (image : ImageData) (segment : LoadedSegment) :
    Contents UInt64 UInt8 :=
  fun address =>
    if (address - segment.virtualAddress).toNat < segment.memorySize.toNat then
      some (segment.byte image (address - segment.virtualAddress).toNat)
    else none

end LoadedSegment

def loadedSegment (image : ImageData) (context : LoadContext)
    (imageBase : UInt64) (index : ℕ) (header : ProgramHeader) : LoadedSegment where
  virtualAddress := header.virtualAddress + imageBase
  memorySize := header.memorySize
  fileOffset := ((segmentSource image context index header).toOption.getD 0).toNat
  fileSize := header.fileSize.toNat

def loadedSegments (image : ImageData) (context : LoadContext)
    (imageBase : UInt64) : List ProgramHeader → ℕ → List LoadedSegment
  | [], _ => []
  | header :: rest, index =>
      if header.IsLoadable then
        loadedSegment image context imageBase index header ::
          loadedSegments image context imageBase rest (index + 1)
      else loadedSegments image context imageBase rest (index + 1)

def FileDataInside (image : ImageData) (context : LoadContext) (index : ℕ)
    (header : ProgramHeader) : Prop :=
  ∃ sourceOffset, segmentSource image context index header = .ok sourceOffset ∧
      (header.fileSize ≠ 0 → sourceOffset.toNat + header.fileSize.toNat ≤ image.length)

structure SegmentFits (memory : IVirtualMemory Memory) (image : ImageData)
    (context : LoadContext) (imageBase : UInt64) (index : ℕ)
    (header : ProgramHeader) : Prop where
  source : header.IsLoadable → header.fileSize ≤ header.memorySize →
    ¬ FallbackOverflows image context index header
  range : header.IsLoadable → header.fileSize ≤ header.memorySize →
    FileDataInside image context index header →
      ¬ memory.RangeOverflows (header.virtualAddress + imageBase)
        header.memorySize

variable {memory : IVirtualMemory Memory} {imageBase : UInt64}
variable {index : ℕ} {header : ProgramHeader}

theorem mapLoadSegment_skipped (skipped : ¬ header.IsLoadable) :
    mapLoadSegment memory image context imageBase index header = pure () := by
  have isOther : header.type ≠ ProgramHeader.typeLoad ∨ header.memorySize = 0 := by
    by_contra loadable
    obtain ⟨isLoad, positive⟩ := not_or.mp loadable
    exact skipped ⟨not_not.mp isLoad, positive⟩
  exact if_pos isOther

theorem not_skipped (loadable : header.IsLoadable) :
    ¬ (header.type ≠ ProgramHeader.typeLoad ∨ header.memorySize = 0) := by
  rintro (isOther | isEmpty)
  · exact isOther loadable.1
  · exact loadable.2 isEmpty

theorem fits_memorySize (fits : header.fileSize ≤ header.memorySize) :
    ¬ header.fileSize > header.memorySize :=
  UInt64.not_lt.mpr fits

def fileDataAt (image : ImageData) (header : ProgramHeader) (sourceOffset : UInt64) : List UInt8 :=
  (image.bytes.drop sourceOffset.toNat).take header.fileSize.toNat

theorem length_fileDataAt_le (sourceOffset : UInt64) (fits : header.fileSize ≤ header.memorySize) :
    (fileDataAt image header sourceOffset).length ≤ header.memorySize.toNat :=
  Nat.le_trans (List.length_take_le _ _) fits

variable {sourceOffset : UInt64}

theorem readFileData_outcome (inside : header.fileSize ≠ 0 →
      sourceOffset.toNat + header.fileSize.toNat ≤ image.length)
    (state : LoaderState Memory) :
    ∃ reads, (readFileData image sourceOffset header.fileSize).outcome state =
      (.ok (fileDataAt image header sourceOffset), { state with reads }) := by
  by_cases isEmpty : header.fileSize = 0
  · rw [readFileData, if_pos isEmpty, fileDataAt, isEmpty]
    exact ⟨state.reads, rfl⟩
  · rw [readFileData_inside isEmpty (inside isEmpty)]
    exact ⟨_, rfl⟩

theorem mapLoadSegment_maps (loadable : header.IsLoadable)
    (fits : header.fileSize ≤ header.memorySize)
    (isSource : segmentSource image context index header = .ok sourceOffset)
    (inside : header.fileSize ≠ 0 → sourceOffset.toNat + header.fileSize.toNat ≤ image.length)
    (state : LoaderState Memory) :
    ∃ reads, (mapLoadSegment memory image context imageBase index header).outcome state =
        (onMemory (memory.map (header.virtualAddress + imageBase)
          header.memorySize sourceOffset (fileDataAt image header sourceOffset)
          header.flags)).outcome { state with reads } := by
  obtain ⟨reads, isRead⟩ := readFileData_outcome inside state
  refine ⟨reads, ?_⟩
  rw [mapLoadSegment, if_neg (not_skipped loadable), if_neg (fits_memorySize fits), isSource]
  change ((readFileData image sourceOffset header.fileSize >>= _).outcome state) = _
  rw [outcome_bind, isRead]

theorem readFileData_outside {fileSize : UInt64} (nonempty : fileSize ≠ 0)
    (outside : ¬ sourceOffset.toNat + fileSize.toNat ≤ image.length) :
    ∃ fault, LoadFault.Declared fault ∧ (readFileData image sourceOffset fileSize :
        Loader Memory (List UInt8)) = throw fault := by
  rw [readFileData, if_neg nonempty]
  split
  case isTrue => exact ⟨.notSupported _, trivial, rfl⟩
  case isFalse =>
    obtain ⟨message, isThrow⟩ : ∃ message, (ensureRange image.length sourceOffset fileSize :
          Loader Memory Unit) = throw (.invalidData message) :=
      ensureRange_outside outside
    rw [isThrow]
    exact ⟨.invalidData message, trivial, rfl⟩

theorem throwsDeclared_onMemory {program : Faulting LoadFault Memory Value}
    (throws : ThrowsOnly LoadFault.Declared program) :
    ThrowsDeclared (onMemory program) :=
  throwsOnly_within throws fun _ declared => declared

theorem mapLoadSegment_rejected (wellFormed : context.WellFormed) (loadable : header.IsLoadable)
    (fits : header.fileSize ≤ header.memorySize → ¬ FallbackOverflows image context index header)
    (rejected : ¬ (header.fileSize ≤ header.memorySize ∧
      FileDataInside image context index header)) :
    ∃ fault, LoadFault.Declared fault ∧ mapLoadSegment memory image context imageBase index header =
        throw fault := by
  rw [mapLoadSegment, if_neg (not_skipped loadable)]
  by_cases sizesFit : header.fileSize ≤ header.memorySize
  · rw [if_neg (fits_memorySize sizesFit)]
    cases isSource : segmentSource image context index header with
    | error fault =>
      exact ⟨fault, segmentSource_declared wellFormed (fits sizesFit) isSource, rfl⟩
    | ok sourceOffset =>
      have notInside : ¬ (header.fileSize ≠ 0 →
          sourceOffset.toNat + header.fileSize.toNat ≤ image.length) :=
        fun inside => rejected ⟨sizesFit, sourceOffset, isSource, inside⟩
      obtain ⟨nonempty, outside⟩ := Classical.not_imp.mp notInside
      obtain ⟨fault, declared, isThrow⟩ : ∃ fault, LoadFault.Declared fault ∧
            (readFileData image sourceOffset header.fileSize :
              Loader Memory (List UInt8)) = throw fault :=
        readFileData_outside nonempty outside
      refine ⟨fault, declared, ?_⟩
      change (readFileData image sourceOffset header.fileSize >>= _) = _
      rw [isThrow]
      rfl
  · rw [if_pos (UInt64.not_le.mp sizesFit)]
    exact ⟨.invalidData _, trivial, rfl⟩

/-- A header on which no checked arithmetic overflows is mapped or rejected with
the loader's own exceptions. -/
theorem throwsDeclared_mapLoadSegment (wellFormed : context.WellFormed)
    (fits : SegmentFits memory image context imageBase index header) :
    ThrowsDeclared (mapLoadSegment memory image context imageBase index header) := by
  by_cases loadable : header.IsLoadable
  case neg =>
    rw [mapLoadSegment_skipped loadable]
    exact throwsOnly_pure _
  by_cases accepted : header.fileSize ≤ header.memorySize ∧
      FileDataInside image context index header
  · obtain ⟨sizesFit, isInside⟩ := accepted
    have noOverflow := fits.range loadable sizesFit isInside
    obtain ⟨sourceOffset, isSource, inside⟩ := isInside
    intro state fault ended
    obtain ⟨reads, maps⟩ := mapLoadSegment_maps loadable sizesFit isSource inside state
    rw [maps] at ended
    exact throwsDeclared_onMemory (memory.throws loadable.2
      (length_fileDataAt_le sourceOffset sizesFit) noOverflow) _ fault ended
  · obtain ⟨fault, declared, isThrow⟩ := mapLoadSegment_rejected wellFormed
      loadable (fits.source loadable) accepted
    rw [isThrow]
    exact throwsOnly_throw declared

theorem mapLoadSegment_overflows (wellFormed : context.WellFormed)
    (beyond : ¬ SegmentFits memory image context imageBase index header)
    (state : LoaderState Memory) :
    ((mapLoadSegment memory image context imageBase index header).outcome
      state).1 = .error .overflow := by
  by_contra noOverflow
  apply beyond
  constructor
  · intro loadable sizesFit overflows
    apply noOverflow
    rw [mapLoadSegment, if_neg (not_skipped loadable), if_neg (fits_memorySize sizesFit),
      segmentSource_overflows wellFormed overflows]
    rfl
  · rintro loadable sizesFit ⟨sourceOffset, isSource, inside⟩ overflows
    apply noOverflow
    obtain ⟨reads, maps⟩ := mapLoadSegment_maps loadable sizesFit isSource inside state
    rw [maps, onMemory, outcome_within, memory.overflows loadable.2
      (length_fileDataAt_le sourceOffset sizesFit) overflows]
    rfl

theorem mapLoadSegment_declared_iff (wellFormed : context.WellFormed) (state : LoaderState Memory) :
    (∀ fault, ((mapLoadSegment memory image context imageBase index
        header).outcome state).1 = .error fault → fault.Declared) ↔
      SegmentFits memory image context imageBase index header := by
  constructor
  · intro declared
    by_contra beyond
    exact declared .overflow (mapLoadSegment_overflows wellFormed beyond state)
  · intro fits
    exact throwsDeclared_mapLoadSegment wellFormed fits state

variable {state after : LoaderState Memory}

theorem segmentFits_of_mapped (wellFormed : context.WellFormed)
    (mapped : (mapLoadSegment memory image context imageBase index
      header).outcome state = (.ok (), after)) :
    SegmentFits memory image context imageBase index header := by
  apply (mapLoadSegment_declared_iff wellFormed state).mp
  rw [mapped]
  rintro _ ⟨⟩

theorem mappedContents_fileDataAt (isSource :
      segmentSource image context index header = .ok sourceOffset) :
    mappedContents (header.virtualAddress + imageBase) header.memorySize
        (fileDataAt image header sourceOffset) =
      (loadedSegment image context imageBase index header).contents image := by
  have sameByte (offset : ℕ) : (fileDataAt image header sourceOffset).getD offset 0 =
        (loadedSegment image context imageBase index header).byte image
          offset := by
    rw [LoadedSegment.byte, loadedSegment, isSource, fileDataAt,
      List.getD_eq_getElem?_getD, List.getElem?_take]
    split
    · rw [List.getElem?_drop, ImageData.span, List.getD_eq_getElem?_getD]
      rfl
    · rfl
  ext1 address
  rw [mappedContents, LoadedSegment.contents, sameByte]
  rfl

theorem byteAt_mapLoadSegment (wellFormed : context.WellFormed) (loadable : header.IsLoadable)
    (mapped : (mapLoadSegment memory image context imageBase index
      header).outcome state = (.ok (), after)) :
    memory.byteAt after.memory =
      overlay ((loadedSegment image context imageBase index header).contents
        image) (memory.byteAt state.memory) := by
  have fits := segmentFits_of_mapped wellFormed mapped
  by_cases accepted : header.fileSize ≤ header.memorySize ∧
      FileDataInside image context index header
  · obtain ⟨sizesFit, sourceOffset, isSource, inside⟩ := accepted
    obtain ⟨reads, maps⟩ := mapLoadSegment_maps loadable sizesFit isSource inside state
    rw [maps] at mapped
    obtain ⟨inner, isInner, rfl⟩ := within_eq_ok mapped
    rw [← mappedContents_fileDataAt isSource]
    exact memory.byteAt_map loadable.2 (length_fileDataAt_le sourceOffset sizesFit) _ _ isInner
  · obtain ⟨fault, declared, isThrow⟩ := mapLoadSegment_rejected wellFormed
      loadable (fits.source loadable) accepted
    rw [isThrow] at mapped
    cases mapped

end SelfLoader
end SharpEmu
