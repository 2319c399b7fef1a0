import SharpEmu.SelfLoaderMemories
import SharpEmu.SelfLoaderSegments

/-!
# Loading an image, from its bytes to guest memory

Whatever the file holds, a load reads inside it.  It ends with one of the loader's
own exceptions or with every loadable segment in memory, unless a checked sum
overflows or two segments put different bytes at one address.
-/

namespace SharpEmu
namespace SelfLoader

open Faulting Overlays

variable {Memory : Type} {image : ImageData} {context : LoadContext}
variable {memory : IVirtualMemory Memory} {imageBase : UInt64}

/-! ## The loop over the headers -/

/-- The loop throws nothing but the loader's own exceptions exactly when no
checked arithmetic overflows on a header that it comes to. -/
theorem mapLoadSegments_declared_iff (wellFormed : context.WellFormed)
    (headers : List ProgramHeader) (index : ℕ) (state : LoaderState Memory) :
    (∀ fault, ((mapLoadSegments memory image context imageBase headers
        index).outcome state).1 = .error fault → fault.Declared) ↔
      ∀ front header rest, headers = front ++ header :: rest →
        ((mapLoadSegments memory image context imageBase front index).outcome state).1 = .ok () →
        SegmentFits memory image context imageBase (index + front.length)
          header := by
  induction headers generalizing index state with
  | nil =>
    constructor
    · intro _ front header rest isEmpty
      exact absurd isEmpty (by simp)
    · rintro _ fault ⟨⟩
  | cons first others ih =>
    rcases firstEnd : (mapLoadSegment memory image context imageBase index
      first).outcome state with ⟨thrown | ⟨⟩, after⟩
    · -- The loop stops at the first header.
      have stopped (headers : List ProgramHeader) :
          (mapLoadSegments memory image context imageBase (first :: headers)
            index).outcome state = (.error thrown, after) := by
        rw [mapLoadSegments, outcome_bind, firstEnd]
      rw [stopped]
      constructor
      · intro declared front header rest isSplit reached
        cases front with
        | nil =>
          obtain ⟨rfl, rfl⟩ := List.cons.inj isSplit
          change SegmentFits memory image context imageBase index first
          apply (mapLoadSegment_declared_iff wellFormed state).mp
          rw [firstEnd]
          exact declared
        | cons front fronts =>
          obtain ⟨rfl, isRest⟩ := List.cons.inj isSplit
          rw [stopped] at reached
          cases reached
      · intro allFit fault isFault
        have fits : SegmentFits memory image context imageBase index first :=
          allFit [] first others rfl rfl
        apply (mapLoadSegment_declared_iff wellFormed state).mpr fits
        rw [firstEnd]
        exact isFault
    · -- The loop goes on with the others.
      have firstFits := segmentFits_of_mapped wellFormed firstEnd
      have restEnd (headers : List ProgramHeader) :
          (mapLoadSegments memory image context imageBase (first :: headers) index).outcome state =
          (mapLoadSegments memory image context imageBase headers (index + 1)).outcome after := by
        rw [mapLoadSegments, outcome_bind, firstEnd]
      rw [restEnd, ih]
      constructor
      · intro restFits front header rest isSplit reached
        cases front with
        | nil =>
          obtain ⟨rfl, rfl⟩ := List.cons.inj isSplit
          exact firstFits
        | cons front fronts =>
          obtain ⟨rfl, isRest⟩ := List.cons.inj isSplit
          rw [restEnd] at reached
          have fits := restFits fronts header rest isRest reached
          rwa [List.length_cons, ← Nat.add_assoc, Nat.add_right_comm]
      · intro allFit front header rest isSplit reached
        have fits := allFit (first :: front) header rest
          (congrArg (first :: ·) isSplit) (by rwa [restEnd])
        rwa [List.length_cons, ← Nat.add_assoc, Nat.add_right_comm] at fits

variable {after : LoaderState Memory}

theorem byteAt_mapLoadSegments (wellFormed : context.WellFormed)
    {headers : List ProgramHeader} {index : ℕ}
    {state : LoaderState Memory}
    (mapped : (mapLoadSegments memory image context imageBase headers
      index).outcome state = (.ok (), after)) :
    memory.byteAt after.memory = overlayAll
        ((loadedSegments image context imageBase headers index).map (LoadedSegment.contents image))
        (memory.byteAt state.memory) := by
  induction headers generalizing index state with
  | nil =>
    obtain ⟨_, rfl⟩ := Prod.mk.inj mapped
    rfl
  | cons header rest ih =>
    rw [mapLoadSegments, outcome_bind] at mapped
    rcases firstEnd : (mapLoadSegment memory image context imageBase index
      header).outcome state with ⟨thrown | ⟨⟩, middle⟩
    · rw [firstEnd] at mapped
      cases mapped
    · rw [firstEnd] at mapped
      rw [ih mapped, loadedSegments]
      split
      case isTrue loadable =>
        rw [List.map_cons, overlayAll, byteAt_mapLoadSegment wellFormed loadable firstEnd]
      case isFalse skipped =>
        rw [mapLoadSegment_skipped skipped] at firstEnd
        obtain ⟨_, rfl⟩ := Prod.mk.inj firstEnd
        rfl

/-! ## What a load owes -/

def SegmentHeld (memory : IVirtualMemory Memory) (after : Memory)
    (image : ImageData) (segment : LoadedSegment) : Prop :=
  ∀ offset < segment.memorySize.toNat,
    memory.byteAt after (segment.virtualAddress + .ofNat offset) = some (segment.byte image offset)

/-- The segments give the same byte at every address that both cover. -/
def SegmentsAgree (image : ImageData) (first second : LoadedSegment) : Prop :=
  ∀ offset < first.memorySize.toNat, ∀ other < second.memorySize.toNat,
    first.virtualAddress + .ofNat offset = second.virtualAddress + .ofNat other →
      first.byte image offset = second.byte image other

theorem toNat_offset (segment : LoadedSegment) {offset : ℕ}
    (inside : offset < segment.memorySize.toNat) :
    (segment.virtualAddress + .ofNat offset - segment.virtualAddress).toNat =
      offset := by
  have small : offset < 2 ^ 64 :=
    Nat.lt_trans inside segment.memorySize.toNat_lt
  rw [UInt64.add_comm, UInt64.add_sub_cancel]
  exact UInt64.toNat_ofNat_of_lt' small

variable {segment : LoadedSegment}

theorem contents_eq_some {address : UInt64} {value : UInt8} :
    segment.contents image address = some value ↔ ∃ offset < segment.memorySize.toNat,
        address = segment.virtualAddress + .ofNat offset ∧ value = segment.byte image offset := by
  unfold LoadedSegment.contents
  constructor
  · intro given
    split at given
    case isFalse => cases given
    case isTrue inside =>
      refine ⟨_, inside, ?_, (Option.some.inj given).symm⟩
      rw [UInt64.ofNat_toNat, UInt64.add_comm, UInt64.sub_add_cancel]
  · rintro ⟨offset, inside, rfl, rfl⟩
    rw [toNat_offset segment inside, if_pos inside]

theorem segmentHeld_iff {after : Memory} : SegmentHeld memory after image segment ↔
      Held (segment.contents image) (memory.byteAt after) := by
  constructor
  · intro held address value given
    obtain ⟨offset, inside, rfl, rfl⟩ := contents_eq_some.mp given
    exact held offset inside
  · intro held offset inside
    exact held _ _ (contents_eq_some.mpr ⟨offset, inside, rfl, rfl⟩)

theorem segmentsAgree_iff {first second : LoadedSegment} : SegmentsAgree image first second ↔
      Agree (first.contents image) (second.contents image) := by
  constructor
  · intro agree address one other given alsoGiven
    obtain ⟨offset, inside, isAddress, rfl⟩ := contents_eq_some.mp given
    obtain ⟨place, alsoInside, alsoAddress, rfl⟩ := contents_eq_some.mp alsoGiven
    exact agree offset inside place alsoInside (isAddress.symm.trans alsoAddress)
  · intro agree offset inside place alsoInside sameAddress
    exact agree _ _ _ (contents_eq_some.mpr ⟨offset, inside, rfl, rfl⟩)
      (contents_eq_some.mpr ⟨place, alsoInside, sameAddress, rfl⟩)

/-- Where the data of a segment lies: at its own offset in a plain ELF file, and
where the container's table says if it does. -/
structure FileOffsetFrom (image : ImageData) (context : LoadContext)
    (index : ℕ) (header : ProgramHeader) (fileOffset : ℕ) : Prop where
  plain : context.isSelf = false → fileOffset = header.offset.toNat
  inTable : context.isSelf = true → ∀ offset,
    (tryResolveSelfSegmentOffset image.length header index
      context.selfSegments).1 = some offset → fileOffset = offset.toNat

theorem fileOffsetFrom_loadedSegment (wellFormed : context.WellFormed)
    {header : ProgramHeader} (nonempty : header.fileSize ≠ 0) (index : ℕ) :
    FileOffsetFrom image context index header
      (loadedSegment image context imageBase index header).fileOffset := by
  constructor
  · intro isPlain
    rw [loadedSegment, segmentSource, if_neg nonempty, resolve_plain wellFormed isPlain]
    rfl
  · intro isSelf offset inTable
    rw [loadedSegment, segmentSource, if_neg nonempty, resolve_inTable isSelf inTable]
    rfl

/-- A load reads only inside the file, throws nothing but the loader's own
exceptions, takes the program headers and the file data from their places, and
leaves every loadable segment in memory. -/
structure LoadContract (memory : IVirtualMemory Memory) (image : ImageData)
    (imageBase : UInt64) (before : Memory) : Prop where
  readsInside : ReadsInside image
    ((loadSegments memory image imageBase).outcome (.start before)).2
  declared : ∀ fault,
    ((loadSegments memory image imageBase).outcome (.start before)).1 =
      .error fault → fault.Declared
  table : ∀ parsed,
    ((loadSegments memory image imageBase).outcome (.start before)).1 =
      .ok parsed →
    ProgramHeadersRead image parsed.context parsed.elfHeader
      parsed.programHeaders
  sources : ∀ parsed,
    ((loadSegments memory image imageBase).outcome (.start before)).1 =
      .ok parsed →
    ∀ index header, parsed.programHeaders[index]? = some header →
      header.fileSize ≠ 0 →
      FileOffsetFrom image parsed.context index header
        (loadedSegment image parsed.context imageBase index header).fileOffset
  held : ∀ parsed after,
    (loadSegments memory image imageBase).outcome (.start before) =
      (.ok parsed, after) →
    ∀ segment ∈ loadedSegments image parsed.context imageBase
        parsed.programHeaders 0,
      SegmentHeld memory after.memory image segment

/-- The table of accepted headers starts at an `int` offset, no checked
arithmetic overflows on a header that the loop comes to, and when all are mapped
no two segments differ at a common address. -/
structure LoadCondition (memory : IVirtualMemory Memory) (image : ImageData)
    (imageBase : UInt64) (before : Memory) : Prop where
  table : ∀ context header,
    ((parseElfHeader image).outcome (.start before)).1 =
      .ok (context, header) → TableOffsetFits context header
  segments : ∀ parsed reached,
    (parseImage image).outcome (.start before) = (.ok parsed, reached) →
    ∀ front header rest, parsed.programHeaders = front ++ header :: rest →
      ((mapLoadSegments memory image parsed.context imageBase front 0).outcome
        reached).1 = .ok () →
      SegmentFits memory image parsed.context imageBase front.length header
  agree : ∀ parsed,
    ((loadSegments memory image imageBase).outcome (.start before)).1 =
      .ok parsed →
    (loadedSegments image parsed.context imageBase parsed.programHeaders
      0).Pairwise (SegmentsAgree image)

variable {before : Memory}

variable {parsed : ParsedImage}

theorem loadSegments_eq_ok
    (loaded : (loadSegments memory image imageBase).outcome (.start before) = (.ok parsed, after)) :
    parsed.Faithful image ∧ ∃ reached,
      (parseImage image).outcome (.start before) = (.ok parsed, reached) ∧
      (mapLoadSegments memory image parsed.context imageBase
        parsed.programHeaders 0).outcome reached = (.ok (), after) := by
  rw [loadSegments, outcome_bind] at loaded
  rcases parseEnd : (parseImage image).outcome (.start before) with
    ⟨fault | result, reached⟩
  · rw [parseEnd] at loaded
    cases loaded
  rw [parseEnd] at loaded
  simp only [outcome_bind] at loaded
  rcases mapEnd : (mapLoadSegments memory image result.context imageBase
    result.programHeaders 0).outcome reached with ⟨fault | ⟨⟩, mapped⟩
  · rw [mapEnd] at loaded
    cases loaded
  rw [mapEnd] at loaded
  obtain ⟨isResult, rfl⟩ := Prod.mk.inj loaded
  obtain rfl : result = parsed := Except.ok.inj isResult
  have faithful := ((parseImage_spec (LoaderState.start before)
    (readsInside_start image before)).1 _ _ parseEnd).2
  exact ⟨faithful, reached, rfl, mapEnd⟩

theorem loadSegments_declared_iff : (∀ fault, ((loadSegments memory image imageBase).outcome
        (.start before)).1 = .error fault → fault.Declared) ↔
      (∀ context header, ((parseElfHeader image).outcome (.start before)).1 =
          .ok (context, header) → TableOffsetFits context header) ∧
      ∀ parsed reached, (parseImage image).outcome (.start before) = (.ok parsed, reached) →
        ∀ front header rest, parsed.programHeaders = front ++ header :: rest →
          ((mapLoadSegments memory image parsed.context imageBase front
            0).outcome reached).1 = .ok () →
          SegmentFits memory image parsed.context imageBase front.length
            header := by
  have startInside := readsInside_start image before
  rw [← parseImage_declared_iff startInside, loadSegments, outcome_bind]
  rcases parseEnd : (parseImage image).outcome (.start before) with
    ⟨fault | parsed, reached⟩
  · constructor
    · intro declared
      exact ⟨declared, fun _ _ isOk => nomatch isOk⟩
    · rintro ⟨declared, _⟩
      exact declared
  have faithful := ((parseImage_spec (LoaderState.start before) startInside).1 _ _ parseEnd).2
  have loop : (∀ fault, ((mapLoadSegments memory image parsed.context imageBase
        parsed.programHeaders 0).outcome reached).1 = .error fault → fault.Declared) ↔
      ∀ front header rest, parsed.programHeaders = front ++ header :: rest →
        ((mapLoadSegments memory image parsed.context imageBase front
          0).outcome reached).1 = .ok () →
        SegmentFits memory image parsed.context imageBase (0 + front.length)
          header :=
    mapLoadSegments_declared_iff faithful.accepted.wellFormed _ 0 reached
  simp only [Nat.zero_add] at loop
  have sameFaults (fault : LoadFault) : ((mapLoadSegments memory image parsed.context imageBase
        parsed.programHeaders 0 >>= fun _ => pure parsed :
          Loader Memory ParsedImage).outcome reached).1 = .error fault ↔
        ((mapLoadSegments memory image parsed.context imageBase
          parsed.programHeaders 0).outcome reached).1 = .error fault := by
    rw [outcome_bind]
    rcases (mapLoadSegments memory image parsed.context imageBase
      parsed.programHeaders 0).outcome reached with ⟨thrown | ⟨⟩, after⟩
    · simp
    · simp
  constructor
  · intro declared
    refine ⟨?_, ?_⟩
    · rintro _ ⟨⟩
    rintro _ _ ⟨⟩
    exact loop.mp fun fault isFault =>
      declared fault ((sameFaults fault).mpr isFault)
  · rintro ⟨_, fits⟩ fault isFault
    exact loop.mpr (fits parsed reached rfl) fault ((sameFaults fault).mp isFault)

theorem loadSegments_held_iff
    (loaded : (loadSegments memory image imageBase).outcome (.start before) = (.ok parsed, after)) :
    (∀ segment ∈ loadedSegments image parsed.context imageBase parsed.programHeaders 0,
      SegmentHeld memory after.memory image segment) ↔
      (loadedSegments image parsed.context imageBase parsed.programHeaders
        0).Pairwise (SegmentsAgree image) := by
  obtain ⟨faithful, reached, _, mapped⟩ := loadSegments_eq_ok loaded
  have laidOver := held_overlayAll_iff
    ((loadedSegments image parsed.context imageBase parsed.programHeaders
      0).map (LoadedSegment.contents image))
    (memory.byteAt reached.memory)
  rw [← byteAt_mapLoadSegments faithful.accepted.wellFormed mapped, List.pairwise_map] at laidOver
  have sameRelation : SegmentsAgree image = fun first second =>
      Agree (first.contents image) (second.contents image) := by
    ext first second
    exact segmentsAgree_iff
  simp only [segmentHeld_iff]
  rw [sameRelation, ← laidOver, List.forall_mem_map]

/-- A load keeps its contract exactly when no checked arithmetic overflows on
the way and overlapping segments agree. -/
theorem load_contract_iff {Memory : Type} (memory : IVirtualMemory Memory)
    (image : ImageData) (imageBase : UInt64) (before : Memory) :
    LoadContract memory image imageBase before ↔
      LoadCondition memory image imageBase before := by
  constructor
  · intro contract
    obtain ⟨table, segments⟩ :=
      loadSegments_declared_iff.mp contract.declared
    refine ⟨table, segments, fun parsed isOk => ?_⟩
    rcases loaded : (loadSegments memory image imageBase).outcome
      (.start before) with ⟨result, after⟩
    rw [loaded] at isOk
    obtain rfl : result = .ok parsed := isOk
    exact (loadSegments_held_iff loaded).mp (contract.held parsed after loaded)
  · intro condition
    constructor
    · exact (keeps_loadSegments memory imageBase).after (readsInside_start image before)
    · exact loadSegments_declared_iff.mpr ⟨condition.table, condition.segments⟩
    · intro parsed isOk
      obtain ⟨faithful, _⟩ := loadSegments_eq_ok (Prod.ext isOk rfl)
      exact faithful.table
    · intro parsed isOk index header _ nonempty
      obtain ⟨faithful, _⟩ := loadSegments_eq_ok (Prod.ext isOk rfl)
      exact fileOffsetFrom_loadedSegment faithful.accepted.wellFormed nonempty index
    · intro parsed after loaded
      apply (loadSegments_held_iff loaded).mpr
      exact condition.agree parsed (by rw [loaded])

/-! ## A file with two segments at one address -/

def plainElfHeader (programHeaderCount : UInt8) : List UInt8 :=
  [0x7F, 0x45, 0x4C, 0x46, 2, 1, 1, 9, 2] ++ List.replicate 7 0 ++
    [3, 0] ++ [62, 0] ++ [1, 0, 0, 0] ++ List.replicate 8 0 ++
    (0x40 :: List.replicate 7 0) ++ List.replicate 8 0 ++ [0, 0, 0, 0] ++
    [0x40, 0] ++ [0x38, 0] ++ [programHeaderCount, 0] ++ List.replicate 6 0

/-- A program header of one byte of data at an offset below 256, mapped at the
image base. -/
def oneByteHeader (fileOffset : UInt8) : List UInt8 :=
  [1, 0, 0, 0] ++ [6, 0, 0, 0] ++ (fileOffset :: List.replicate 7 0) ++
    List.replicate 16 0 ++ (1 :: List.replicate 7 0) ++
    (1 :: List.replicate 7 0) ++ List.replicate 8 0

/-- A plain ELF file with two program headers, for the two bytes at its end. -/
def overlappingImage : ImageData where
  bytes := plainElfHeader 2 ++ oneByteHeader 0xB0 ++ oneByteHeader 0xB1 ++ [0xAA, 0xBB]
  length_le := by decide +kernel

/-- What its headers say. -/
def overlappingParsed : ParsedImage where
  context := ⟨false, 0, 0, []⟩
  elfHeader :=
    ⟨[0x7F, 0x45, 0x4C, 0x46, 2, 1, 1, 9, 2, 0, 0, 0, 0, 0, 0, 0], 62, 0x40, 0x38, 2⟩
  programHeaders := [⟨1, 6, 0xB0, 0, 0, 1, 1, 0⟩, ⟨1, 6, 0xB1, 0, 0, 1, 1, 0⟩]

/-- The allocator before its first operation, over zeroed memory. -/
def freshGuest : PhysicalVirtualMemory.PhysicalGuest Unit :=
  ⟨⟨.initial, ()⟩, fun _ => 0⟩

def overlappingLoad : Except LoadFault ParsedImage ×
    LoaderState (PhysicalVirtualMemory.PhysicalGuest Unit) :=
  (loadSegments (PhysicalVirtualMemory.physicalMemory PhysicalVirtualMemory.linuxPlatform
      PhysicalVirtualMemory.grantingHost)
    overlappingImage 0x800000000).outcome (.start freshGuest)

/-- It returns with the second segment's byte at the common address. -/
theorem overlappingLoad_ends : ∃ after, overlappingLoad = (.ok overlappingParsed, after) ∧
      after.memory.bytes 0x800000000 = 0xBB := by
  have returns : overlappingLoad.1 = .ok overlappingParsed := by
    decide +kernel
  refine ⟨overlappingLoad.2, ?_, by decide +kernel⟩
  rw [← returns]

/-- The first of two overlapping segments is overwritten by the second. -/
theorem overlapping_segment_is_overwritten : ¬ LoadContract
      (PhysicalVirtualMemory.physicalMemory PhysicalVirtualMemory.linuxPlatform
        PhysicalVirtualMemory.grantingHost)
      overlappingImage 0x800000000 freshGuest := by
  intro contract
  obtain ⟨after, loaded, lastByte⟩ := overlappingLoad_ends
  have isFirst : (⟨0x800000000, 1, 0xB0, 1⟩ : LoadedSegment) ∈
      loadedSegments overlappingImage overlappingParsed.context 0x800000000
        overlappingParsed.programHeaders 0 := by
    decide +kernel
  have held := contract.held overlappingParsed after loaded _ isFirst 0 (by decide)
  have firstByte : LoadedSegment.byte overlappingImage ⟨0x800000000, 1, 0xB0, 1⟩ 0 = 0xAA := by
    decide +kernel
  have isByte : after.memory.bytes 0x800000000 = 0xAA := by
    rw [firstByte] at held
    exact Option.some.inj held
  rw [lastByte] at isByte
  exact absurd isByte (by decide)

end SelfLoader
end SharpEmu
