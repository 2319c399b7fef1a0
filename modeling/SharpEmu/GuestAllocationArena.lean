import SharpEmu.PhysicalVirtualMemoryFrames
import SharpEmu.RangeCoverage
import SharpEmu.TransitionRuns

/-!
# The guest allocation arena

Small guest blocks are carved from one host allocation.  The offsets of the
arena behind its first page are at every moment partitioned into free ranges
and live blocks, and free ranges never touch each other: carving replaces a free
range by its gap, its block and its tail, and releasing a block merges it with
the free ranges on both sides.
-/

namespace SharpEmu
namespace PhysicalVirtualMemory

open Faulting Extent

def FreeRange.extent (range : FreeRange) : Extent :=
  ⟨range.offset.toNat, range.size.toNat⟩

def GuestAllocation.extent (allocation : GuestAllocation) : Extent :=
  ⟨allocation.offset.toNat, allocation.size.toNat⟩

@[simp]
theorem FreeRange.extent_start (range : FreeRange) : range.extent.start = range.offset.toNat := rfl

@[simp]
theorem FreeRange.extent_length (range : FreeRange) : range.extent.length = range.size.toNat := rfl

@[simp]
theorem GuestAllocation.extent_start (allocation : GuestAllocation) :
    allocation.extent.start = allocation.offset.toNat := rfl

@[simp]
theorem GuestAllocation.extent_length (allocation : GuestAllocation) :
    allocation.extent.length = allocation.size.toNat := rfl

structure GuestArena where
  base : UInt64
  freeRanges : SortedTable FreeRange.offset
  allocations : SortedTable GuestAllocation.address

def MemoryState.arena (memory : MemoryState) : GuestArena :=
  ⟨memory.guestAllocationArenaBase, memory.guestAllocationFreeRanges, memory.guestAllocations⟩

def GuestArena.extents (arena : GuestArena) : List Extent :=
  arena.freeRanges.entries.map FreeRange.extent ++
    arena.allocations.entries.map GuestAllocation.extent

theorem GuestArena.coverage_extents (arena : GuestArena) (point : ℕ) :
    coverage arena.extents point = coverage (arena.freeRanges.entries.map FreeRange.extent) point +
        coverage (arena.allocations.entries.map GuestAllocation.extent) point :=
  coverage_append _ _ _

def Coalesced (freeRanges : SortedTable FreeRange.offset) : Prop :=
  ∀ first ∈ freeRanges.entries, ∀ second ∈ freeRanges.entries,
    first.offset.toNat + first.size.toNat ≠ second.offset.toNat

/-- The offsets handed out are partitioned into free ranges and live blocks,
and the free ranges are maximal. -/
structure ArenaTiled (arena : GuestArena) : Prop where
  tiles : Tiles guestAllocationArenaStartOffset.toNat
    guestAllocationArenaSize.toNat arena.extents
  coalesced : Coalesced arena.freeRanges

/-! ## Carving a block -/

structure Fits (range : FreeRange) (alignedOffset size : UInt64) : Prop where
  nonempty : 0 < size.toNat
  startsInside : range.offset.toNat ≤ alignedOffset.toNat
  endsInside : alignedOffset.toNat + size.toNat ≤
    range.offset.toNat + range.size.toNat

theorem fits_of_tests {range : FreeRange} {alignedOffset size : UInt64}
    (nonzero : size ≠ 0) (above : alignedOffset ≥ range.offset)
    (gapFits : alignedOffset - range.offset ≤ range.size)
    (blockFits : size ≤ range.size - (alignedOffset - range.offset)) :
    Fits range alignedOffset size := by
  have gap := UInt64.toNat_sub_of_le _ _ above
  have room := UInt64.toNat_sub_of_le _ _ gapFits
  rw [UInt64.le_iff_toNat_le] at gapFits blockFits
  rw [ge_iff_le, UInt64.le_iff_toNat_le] at above
  exact ⟨Word64.toNat_pos nonzero, above, by omega⟩

section Carving

variable {freeRanges : SortedTable FreeRange.offset} {range : FreeRange}
variable {alignedOffset size : UInt64}

variable {other : FreeRange}

theorem mem_carveBlock (member : other ∈ (carveBlock range alignedOffset size freeRanges).entries) :
    (other ∈ freeRanges.entries ∧ other.offset ≠ range.offset) ∨ (alignedOffset > range.offset ∧
        other = ⟨range.offset, alignedOffset - range.offset⟩) ∨
      (alignedOffset + size < range.offset + range.size ∧ other = ⟨alignedOffset + size,
          range.offset + range.size - (alignedOffset + size)⟩) := by
  unfold carveBlock at member
  grind [SortedTable.mem_set, SortedTable.mem_remove]

/-- Adding what is left between two offsets, if anything is. -/
theorem coverage_set_gap (freeRanges : SortedTable FreeRange.offset)
    (start finish : UInt64) (absent : start < finish →
      ∀ other ∈ freeRanges.entries, other.offset ≠ start) (point : ℕ) :
    coverage ((if start < finish then freeRanges.set ⟨start, finish - start⟩
        else freeRanges).entries.map FreeRange.extent) point =
      coverage (freeRanges.entries.map FreeRange.extent) point +
        if (⟨start.toNat, finish.toNat - start.toNat⟩ : Extent).Contains point
          then 1 else 0 := by
  split
  case isTrue before =>
    have length := UInt64.toNat_sub_of_le _ _ before.le
    rw [coverage_set FreeRange.extent _ (absent before), FreeRange.extent, length]
  case isFalse notBefore =>
    have noGap : finish.toNat - start.toNat = 0 :=
      Nat.sub_eq_zero_of_le (UInt64.le_iff_toNat_le.mp (not_lt.mp notBefore))
    have empty := coverage_empty_extent start.toNat (freeRanges.entries.map FreeRange.extent) point
    rw [noGap, ← coverage_cons, empty]

theorem eq_of_starts_inside (apart : other ≠ range → other.extent.Separated range.extent)
    (nonempty : 0 < other.size.toNat)
    (above : range.offset.toNat ≤ other.offset.toNat)
    (below : other.offset.toNat < range.offset.toNat + range.size.toNat) :
    other = range := by
  by_contra different
  have separated := apart different
  simp only [Separated, FreeRange.extent_start, FreeRange.extent_length] at separated
  omega

theorem coverage_carveBlock (stored : range ∈ freeRanges.entries)
    (fits : Fits range alignedOffset size)
    (bounded : range.offset.toNat + range.size.toNat < 2 ^ 64)
    (apart : ∀ other ∈ freeRanges.entries, other ≠ range → other.extent.Separated range.extent)
    (nonempty : ∀ other ∈ freeRanges.entries, 0 < other.size.toNat)
    (point : ℕ) :
    coverage (freeRanges.entries.map FreeRange.extent) point =
      coverage ((carveBlock range alignedOffset size freeRanges).entries.map
          FreeRange.extent) point +
        if (⟨alignedOffset.toNat, size.toNat⟩ : Extent).Contains point
          then 1 else 0 := by
  obtain ⟨positive, startsInside, endsInside⟩ := fits
  have blockEnd : (alignedOffset + size).toNat = alignedOffset.toNat + size.toNat :=
    Word64.toNat_add_of_lt (by omega)
  have rangeEnd := Word64.toNat_add_of_lt bounded
  have removed := coverage_remove FreeRange.extent stored point
  have fronted := coverage_set_gap (freeRanges.remove range.offset) range.offset alignedOffset
    (fun _ other member => (SortedTable.mem_remove.mp member).2) point
  have tailAbsent : alignedOffset + size < range.offset + range.size →
      ∀ other ∈ (if range.offset < alignedOffset then
        (freeRanges.remove range.offset).set ⟨range.offset, alignedOffset - range.offset⟩
        else freeRanges.remove range.offset).entries,
        other.offset ≠ alignedOffset + size := by
    intro before other member sameOffset
    rw [UInt64.lt_iff_toNat_lt, blockEnd, rangeEnd] at before
    rw [Word64.toNat_inj, blockEnd] at sameOffset
    have origin : other.offset = range.offset ∨
        other ∈ freeRanges.entries ∧ other.offset ≠ range.offset := by
      grind [SortedTable.mem_set, SortedTable.mem_remove]
    rcases origin with isFront | ⟨old, differs⟩
    · rw [isFront] at sameOffset
      omega
    · exact differs (congrArg FreeRange.offset (eq_of_starts_inside
        (apart other old) (nonempty other old) (by omega) (by omega)))
  have tailed := coverage_set_gap _ _ _ tailAbsent point
  unfold carveBlock
  simp only [gt_iff_lt]
  rw [tailed, fronted, removed, blockEnd, rangeEnd]
  grind [Contains, FreeRange.extent]

/-- Where a range left after carving lies: beyond both ends of the carved
range without touching it, or exactly before or after the block. -/
inductive CarvedPlace (freeRanges : SortedTable FreeRange.offset)
    (range : FreeRange) (alignedOffset size : UInt64) (other : FreeRange) : Prop
  | old (stored : other ∈ freeRanges.entries)
      (beyond : other.offset.toNat + other.size.toNat < range.offset.toNat ∨
        range.offset.toNat + range.size.toNat < other.offset.toNat)
  | front (before : range.offset.toNat < alignedOffset.toNat)
      (startEq : other.offset.toNat = range.offset.toNat)
      (lengthEq : other.size.toNat =
        alignedOffset.toNat - range.offset.toNat)
  | tail (before : alignedOffset.toNat + size.toNat <
        range.offset.toNat + range.size.toNat)
      (startEq : other.offset.toNat = alignedOffset.toNat + size.toNat)
      (lengthEq : other.size.toNat = range.offset.toNat + range.size.toNat -
        (alignedOffset.toNat + size.toNat))

theorem carvedPlace_of_mem (stored : range ∈ freeRanges.entries)
    (fits : Fits range alignedOffset size)
    (bounded : range.offset.toNat + range.size.toNat < 2 ^ 64)
    (apart : ∀ other ∈ freeRanges.entries, other ≠ range → other.extent.Separated range.extent)
    (coalesced : Coalesced freeRanges)
    (member : other ∈ (carveBlock range alignedOffset size freeRanges).entries) :
    CarvedPlace freeRanges range alignedOffset size other := by
  obtain ⟨positive, startsInside, endsInside⟩ := fits
  have blockEnd : (alignedOffset + size).toNat = alignedOffset.toNat + size.toNat :=
    Word64.toNat_add_of_lt (by omega)
  have rangeEnd := Word64.toNat_add_of_lt bounded
  rcases mem_carveBlock member with ⟨old, differs⟩ | ⟨before, rfl⟩ | ⟨before, rfl⟩
  · have separated := apart other old fun same => differs (same ▸ rfl)
    have notBefore := coalesced other old range stored
    have notAfter := coalesced range stored other old
    simp only [Separated, FreeRange.extent_start, FreeRange.extent_length] at separated
    exact .old old (by omega)
  · exact .front (UInt64.lt_iff_toNat_lt.mp before) rfl (UInt64.toNat_sub_of_le _ _ before.le)
  · have length := UInt64.toNat_sub_of_le _ _ before.le
    rw [UInt64.lt_iff_toNat_lt, blockEnd, rangeEnd] at before
    rw [blockEnd, rangeEnd] at length
    exact .tail before blockEnd length

theorem CarvedPlace.nonempty (place : CarvedPlace freeRanges range alignedOffset size other)
    (nonempty : ∀ other ∈ freeRanges.entries, 0 < other.size.toNat) :
    0 < other.size.toNat := by
  cases place with
  | old stored beyond => exact nonempty other stored
  | front before startEq lengthEq => omega
  | tail before startEq lengthEq => omega

theorem CarvedPlace.not_touching {first second : FreeRange}
    (coalesced : Coalesced freeRanges) (fits : Fits range alignedOffset size)
    (firstPlace : CarvedPlace freeRanges range alignedOffset size first)
    (secondPlace : CarvedPlace freeRanges range alignedOffset size second) :
    first.offset.toNat + first.size.toNat ≠ second.offset.toNat := by
  obtain ⟨positive, startsInside, endsInside⟩ := fits
  cases firstPlace with
  | old firstStored firstBeyond =>
    cases secondPlace with
    | old secondStored secondBeyond =>
      exact coalesced first firstStored second secondStored
    | front => omega
    | tail => omega
  | front => cases secondPlace <;> omega
  | tail => cases secondPlace <;> omega

end Carving

/-! ## Releasing a block -/

section Releasing

variable {freeRanges : SortedTable FreeRange.offset} {offset size : UInt64}

structure Releasable (freeRanges : SortedTable FreeRange.offset)
    (offset size : UInt64) : Prop where
  positive : 0 < size.toNat
  blockBounded : offset.toNat + size.toNat < 2 ^ 64
  bounded : ∀ range ∈ freeRanges.entries,
    range.offset.toNat + range.size.toNat < 2 ^ 64
  nonempty : ∀ range ∈ freeRanges.entries, 0 < range.size.toNat
  apart : ∀ first ∈ freeRanges.entries, ∀ second ∈ freeRanges.entries,
    first ≠ second → first.extent.Separated second.extent
  blockApart : ∀ range ∈ freeRanges.entries,
    range.extent.Separated ⟨offset.toNat, size.toNat⟩
  coalesced : Coalesced freeRanges

structure PreviousMerged (freeRanges : SortedTable FreeRange.offset)
    (offset size : UInt64) (merge : FreeMerge) : Prop where
  coverageEq : ∀ point,
    coverage (merge.rest.entries.map FreeRange.extent) point +
        (if merge.range.extent.Contains point then 1 else 0) =
      coverage (freeRanges.entries.map FreeRange.extent) point +
        if (⟨offset.toNat, size.toNat⟩ : Extent).Contains point then 1 else 0
  positive : 0 < merge.range.size.toNat
  startLe : merge.range.offset.toNat ≤ offset.toNat
  finishEq : merge.range.offset.toNat + merge.range.size.toNat =
    offset.toNat + size.toNat
  restOld : ∀ range ∈ merge.rest.entries, range ∈ freeRanges.entries
  laterKept : ∀ range ∈ freeRanges.entries,
    offset.toNat ≤ range.offset.toNat → range ∈ merge.rest.entries
  restApart : ∀ range ∈ merge.rest.entries,
    range.extent.Separated merge.range.extent
  notTouching : ∀ range ∈ merge.rest.entries,
    range.offset.toNat + range.size.toNat ≠ merge.range.offset.toNat

theorem Releasable.previousMerged_self (releasable : Releasable freeRanges offset size)
    (notTouching : ∀ range ∈ freeRanges.entries,
      range.offset.toNat + range.size.toNat ≠ offset.toNat) :
    PreviousMerged freeRanges offset size ⟨⟨offset, size⟩, freeRanges⟩ :=
  { coverageEq := fun _ => rfl
    positive := releasable.positive
    startLe := Nat.le_refl _
    finishEq := rfl
    restOld := fun _ member => member
    laterKept := fun _ member _ => member
    restApart := releasable.blockApart
    notTouching := notTouching }

theorem Releasable.previousMerged_absorbed
    (releasable : Releasable freeRanges offset size) {previous : FreeRange}
    (stored : previous ∈ freeRanges.entries)
    (touches : previous.offset + previous.size = offset) :
    PreviousMerged freeRanges offset size ⟨⟨previous.offset, size + previous.size⟩,
        freeRanges.remove previous.offset⟩ := by
  have previousBounded := releasable.bounded previous stored
  have previousNonempty := releasable.nonempty previous stored
  have blockBounded := releasable.blockBounded
  have positive := releasable.positive
  have touchesNat : previous.offset.toNat + previous.size.toNat =
      offset.toNat := by
    rw [← touches, Word64.toNat_add_of_lt previousBounded]
  have sizeEq : (size + previous.size).toNat = size.toNat + previous.size.toNat :=
    Word64.toNat_add_of_lt (by omega)
  have removed := coverage_remove FreeRange.extent stored
  refine ⟨fun point => ?_, ?_, ?_, ?_, ?_, ?_, ?_, ?_⟩
  · rw [removed point]
    grind [Contains, FreeRange.extent]
  · simp only [sizeEq]
    omega
  · simp only
    omega
  · simp only [sizeEq]
    omega
  · intro range member
    exact (SortedTable.mem_remove.mp member).1
  · intro range member later
    refine SortedTable.mem_remove.mpr ⟨member, fun sameOffset => ?_⟩
    rw [sameOffset] at later
    omega
  · intro range member
    obtain ⟨old, differs⟩ := SortedTable.mem_remove.mp member
    have fromPrevious := releasable.apart range old previous stored
      fun same => differs (same ▸ rfl)
    have fromBlock := releasable.blockApart range old
    have nonempty := releasable.nonempty range old
    simp only [Separated, FreeRange.extent_start, FreeRange.extent_length,
      sizeEq] at fromPrevious fromBlock ⊢
    omega
  · intro range member
    obtain ⟨old, differs⟩ := SortedTable.mem_remove.mp member
    exact releasable.coalesced range old previous stored

theorem Releasable.previousMerged (releasable : Releasable freeRanges offset size) :
    PreviousMerged freeRanges offset size (mergePrevious offset size freeRanges) := by
  unfold mergePrevious
  cases found : freeRanges.lastBelow? offset with
  | none =>
    refine releasable.previousMerged_self fun range member touches => ?_
    have notBelow := SortedTable.lastBelow?_eq_none found range member
    have nonempty := releasable.nonempty range member
    rw [UInt64.le_iff_toNat_le] at notBelow
    omega
  | some previous =>
    obtain ⟨stored, below, greatest⟩ := SortedTable.lastBelow?_spec found
    simp only
    split
    case isTrue touches =>
      exact releasable.previousMerged_absorbed stored touches
    case isFalse apart =>
      refine releasable.previousMerged_self fun range member touches => ?_
      have nonempty := releasable.nonempty range member
      have notAfter := greatest range member (UInt64.lt_iff_toNat_lt.mpr (by omega))
      rw [UInt64.le_iff_toNat_le] at notAfter
      rw [UInt64.lt_iff_toNat_lt] at below
      by_cases same : range = previous
      · subst same
        exact apart (Word64.toNat_inj.mpr (by
          rw [Word64.toNat_add_of_lt (releasable.bounded range member)]
          exact touches))
      · have separated := releasable.apart range member previous stored same
        have previousNonempty := releasable.nonempty previous stored
        simp only [Separated, FreeRange.extent_start, FreeRange.extent_length] at separated
        omega

structure ReleasedBlock (freeRanges : SortedTable FreeRange.offset)
    (offset size : UInt64) (after : SortedTable FreeRange.offset) : Prop where
  coverageEq : ∀ point,
    coverage (after.entries.map FreeRange.extent) point =
      coverage (freeRanges.entries.map FreeRange.extent) point +
        if (⟨offset.toNat, size.toNat⟩ : Extent).Contains point then 1 else 0
  nonempty : ∀ range ∈ after.entries, 0 < range.size.toNat
  coalesced : Coalesced after

variable {merge : FreeMerge}

theorem Releasable.released_kept (releasable : Releasable freeRanges offset size)
    (merged : PreviousMerged freeRanges offset size merge)
    (notTouching : ∀ range ∈ merge.rest.entries, range.offset.toNat ≠ offset.toNat + size.toNat) :
    ReleasedBlock freeRanges offset size (merge.rest.set merge.range) := by
  have absent : ∀ range ∈ merge.rest.entries, range.offset ≠ merge.range.offset := by
    intro range member same
    have separated := merged.restApart range member
    have nonempty := releasable.nonempty range (merged.restOld range member)
    have positive := merged.positive
    simp only [Separated, FreeRange.extent_start, FreeRange.extent_length, same] at separated
    omega
  refine ⟨fun point => ?_, fun range member => ?_, ?_⟩
  · rw [coverage_set FreeRange.extent _ absent, merged.coverageEq]
  · rcases SortedTable.mem_set.mp member with rfl | ⟨kept, _⟩
    · exact merged.positive
    · exact releasable.nonempty range (merged.restOld range kept)
  · intro first firstMem second secondMem
    have finishEq := merged.finishEq
    have positive := merged.positive
    rcases SortedTable.mem_set.mp firstMem with rfl | ⟨firstKept, _⟩
    · rcases SortedTable.mem_set.mp secondMem with rfl | ⟨secondKept, _⟩
      · omega
      · have apart := notTouching second secondKept
        omega
    · rcases SortedTable.mem_set.mp secondMem with rfl | ⟨secondKept, _⟩
      · exact merged.notTouching first firstKept
      · exact releasable.coalesced first (merged.restOld first firstKept)
          second (merged.restOld second secondKept)

theorem Releasable.released_absorbed (releasable : Releasable freeRanges offset size)
    (merged : PreviousMerged freeRanges offset size merge) {next : FreeRange}
    (stored : next ∈ merge.rest.entries)
    (touches : next.offset.toNat = offset.toNat + size.toNat) :
    ReleasedBlock freeRanges offset size ((merge.rest.remove next.offset).set
        ⟨merge.range.offset, merge.range.size + next.size⟩) := by
  have old := merged.restOld next stored
  have nextBounded := releasable.bounded next old
  have finishEq := merged.finishEq
  have positive := merged.positive
  have sizeEq : (merge.range.size + next.size).toNat = merge.range.size.toNat + next.size.toNat :=
    Word64.toNat_add_of_lt (by omega)
  have absent : ∀ range ∈ (merge.rest.remove next.offset).entries,
      range.offset ≠ (⟨merge.range.offset, merge.range.size + next.size⟩ : FreeRange).offset := by
    intro range member same
    have kept := (SortedTable.mem_remove.mp member).1
    have separated := merged.restApart range kept
    have nonempty := releasable.nonempty range (merged.restOld range kept)
    have sameStart : range.offset = merge.range.offset := same
    simp only [Separated, FreeRange.extent_start, FreeRange.extent_length, sameStart] at separated
    omega
  refine ⟨fun point => ?_, fun range member => ?_, ?_⟩
  · have removed := coverage_remove FreeRange.extent stored point
    have previousCoverage := merged.coverageEq point
    rw [coverage_set FreeRange.extent _ absent]
    grind [Contains, FreeRange.extent]
  · rcases SortedTable.mem_set.mp member with rfl | ⟨kept, _⟩
    · simp only [sizeEq]
      omega
    · exact releasable.nonempty range (merged.restOld range (SortedTable.mem_remove.mp kept).1)
  · intro first firstMem second secondMem
    rcases SortedTable.mem_set.mp firstMem with rfl | ⟨firstKept, _⟩
    · rcases SortedTable.mem_set.mp secondMem with rfl | ⟨secondKept, _⟩
      · simp only [sizeEq]
        omega
      · have secondOld := merged.restOld second (SortedTable.mem_remove.mp secondKept).1
        have apart := releasable.coalesced next old second secondOld
        simp only [sizeEq]
        omega
    · have firstRest := (SortedTable.mem_remove.mp firstKept).1
      rcases SortedTable.mem_set.mp secondMem with rfl | ⟨secondKept, _⟩
      · exact merged.notTouching first firstRest
      · exact releasable.coalesced first (merged.restOld first firstRest)
          second (merged.restOld second (SortedTable.mem_remove.mp secondKept).1)

theorem Releasable.released (releasable : Releasable freeRanges offset size) :
    ReleasedBlock freeRanges offset size (releaseBlock offset size freeRanges) := by
  have merged := releasable.previousMerged
  unfold releaseBlock mergeNext
  cases found : freeRanges.firstFrom? offset with
  | none =>
    refine releasable.released_kept merged fun range member touches => ?_
    have below := SortedTable.firstFrom?_eq_none found range (merged.restOld range member)
    rw [UInt64.lt_iff_toNat_lt] at below
    omega
  | some next =>
    obtain ⟨stored, above, least⟩ := SortedTable.firstFrom?_spec found
    rw [UInt64.le_iff_toNat_le] at above
    have blockBounded := releasable.blockBounded
    have mergedEnd : ((mergePrevious offset size freeRanges).range.offset +
        (mergePrevious offset size freeRanges).range.size).toNat = offset.toNat + size.toNat := by
      rw [Word64.toNat_add_of_lt (by rw [merged.finishEq]; exact blockBounded), merged.finishEq]
    simp only
    split
    case isTrue touches =>
      refine releasable.released_absorbed merged (merged.laterKept next stored above) ?_
      rw [← touches, mergedEnd]
    case isFalse apart =>
      refine releasable.released_kept merged fun range member touches => ?_
      have old := merged.restOld range member
      have notBefore := least range old (UInt64.le_iff_toNat_le.mpr (by omega))
      have separated := releasable.blockApart next stored
      have nonempty := releasable.nonempty next stored
      rw [UInt64.le_iff_toNat_le] at notBefore
      simp only [Separated, FreeRange.extent_start, FreeRange.extent_length] at separated
      refine apart (Word64.toNat_inj.mpr ?_)
      rw [mergedEnd]
      omega

end Releasing

/-! ## Operations keep the arena tiled -/

section Tiling

variable {arena : GuestArena}

theorem ArenaTiled.free_nonempty (tiled : ArenaTiled arena) {range : FreeRange}
    (member : range ∈ arena.freeRanges.entries) : 0 < range.size.toNat :=
  tiled.tiles.nonempty range.extent (List.mem_append_left _ (List.mem_map_of_mem member))

variable {allocation : GuestAllocation}

theorem ArenaTiled.live_nonempty (tiled : ArenaTiled arena)
    (member : allocation ∈ arena.allocations.entries) :
    0 < allocation.size.toNat :=
  tiled.tiles.nonempty allocation.extent (List.mem_append_right _ (List.mem_map_of_mem member))

theorem ArenaTiled.free_bounded (tiled : ArenaTiled arena) {range : FreeRange}
    (member : range ∈ arena.freeRanges.entries) :
    range.offset.toNat + range.size.toNat ≤ 2 ^ 24 :=
  (tiled.tiles.inside range.extent (List.mem_append_left _ (List.mem_map_of_mem member))).2

theorem ArenaTiled.live_bounded (tiled : ArenaTiled arena)
    (member : allocation ∈ arena.allocations.entries) :
    allocation.offset.toNat + allocation.size.toNat ≤ 2 ^ 24 :=
  (tiled.tiles.inside allocation.extent (List.mem_append_right _ (List.mem_map_of_mem member))).2

theorem ArenaTiled.free_apart (tiled : ArenaTiled arena)
    {first second : FreeRange} (firstMem : first ∈ arena.freeRanges.entries)
    (secondMem : second ∈ arena.freeRanges.entries)
    (different : first ≠ second) : first.extent.Separated second.extent :=
  separated_of_pairwise (List.pairwise_append.mp tiled.tiles.separated).1
    firstMem secondMem different

theorem ArenaTiled.free_live_apart (tiled : ArenaTiled arena) {range : FreeRange}
    (rangeMem : range ∈ arena.freeRanges.entries)
    (allocationMem : allocation ∈ arena.allocations.entries) :
    range.extent.Separated allocation.extent :=
  (List.pairwise_append.mp tiled.tiles.separated).2.2 _
    (List.mem_map_of_mem rangeMem) _ (List.mem_map_of_mem allocationMem)

theorem ArenaTiled.carve (tiled : ArenaTiled arena) {range : FreeRange}
    {alignedOffset size : UInt64} (stored : range ∈ arena.freeRanges.entries)
    (fits : Fits range alignedOffset size)
    (addressed : ∀ allocation ∈ arena.allocations.entries,
      allocation.address = arena.base + allocation.offset) :
    ArenaTiled ⟨arena.base, carveBlock range alignedOffset size arena.freeRanges,
      arena.allocations.set ⟨arena.base + alignedOffset, alignedOffset, size⟩⟩ := by
  have rangeBounded := tiled.free_bounded stored
  have bounded : range.offset.toNat + range.size.toNat < 2 ^ 64 := by omega
  have place {other : FreeRange} (member : other ∈
      (carveBlock range alignedOffset size arena.freeRanges).entries) :=
    carvedPlace_of_mem stored fits bounded (fun other otherMem => tiled.free_apart otherMem stored)
      tiled.coalesced member
  have absent : ∀ allocation ∈ arena.allocations.entries,
      allocation.address ≠ arena.base + alignedOffset := by
    intro allocation member same
    rw [addressed allocation member] at same
    have sameOffset : allocation.offset = alignedOffset := by
      simpa using same
    have separated := tiled.free_live_apart stored member
    have nonempty := tiled.live_nonempty member
    obtain ⟨positive, startsInside, endsInside⟩ := fits
    simp only [Separated, FreeRange.extent_start, FreeRange.extent_length,
      GuestAllocation.extent_start, GuestAllocation.extent_length,
      sameOffset] at separated
    omega
  obtain ⟨nonempty, coverageEq⟩ := tiles_iff_coverage.mp tiled.tiles
  refine ⟨tiles_iff_coverage.mpr ⟨?_, fun point => ?_⟩, ?_⟩
  · intro extent member
    rcases List.mem_append.mp member with isFree | isLive
    · obtain ⟨other, otherMem, rfl⟩ := List.mem_map.mp isFree
      exact (place otherMem).nonempty
        fun range member => tiled.free_nonempty member
    · obtain ⟨allocation, allocationMem, rfl⟩ := List.mem_map.mp isLive
      rcases SortedTable.mem_set.mp allocationMem with rfl | ⟨old, _⟩
      · exact fits.nonempty
      · exact tiled.live_nonempty old
  · have carved := coverage_carveBlock stored fits bounded
      (fun other otherMem => tiled.free_apart otherMem stored)
      (fun other otherMem => tiled.free_nonempty otherMem) point
    have recorded := coverage_set GuestAllocation.extent
      ⟨arena.base + alignedOffset, alignedOffset, size⟩ absent point
    change _ = _ + if (⟨alignedOffset.toNat, size.toNat⟩ : Extent).Contains
      point then 1 else 0 at recorded
    have before := coverageEq point
    simp only [GuestArena.coverage_extents] at before ⊢
    rw [recorded, ← before, carved]
    omega
  · intro first firstMem second secondMem
    exact CarvedPlace.not_touching tiled.coalesced fits (place firstMem) (place secondMem)

theorem ArenaTiled.release (tiled : ArenaTiled arena)
    (live : allocation ∈ arena.allocations.entries) :
    ArenaTiled ⟨arena.base, releaseBlock allocation.offset allocation.size arena.freeRanges,
      arena.allocations.remove allocation.address⟩ := by
  have liveBounded := tiled.live_bounded live
  have releasable : Releasable arena.freeRanges allocation.offset
      allocation.size :=
    { positive := tiled.live_nonempty live
      blockBounded := by omega
      bounded := fun range member => by
        have rangeBounded := tiled.free_bounded member
        omega
      nonempty := fun range member => tiled.free_nonempty member
      apart := fun first firstMem second secondMem =>
        tiled.free_apart firstMem secondMem
      blockApart := fun range member => tiled.free_live_apart member live
      coalesced := tiled.coalesced }
  have released := releasable.released
  obtain ⟨nonempty, coverageEq⟩ := tiles_iff_coverage.mp tiled.tiles
  refine ⟨tiles_iff_coverage.mpr ⟨?_, fun point => ?_⟩, released.coalesced⟩
  · intro extent member
    rcases List.mem_append.mp member with isFree | isLive
    · obtain ⟨range, rangeMem, rfl⟩ := List.mem_map.mp isFree
      exact released.nonempty range rangeMem
    · obtain ⟨other, otherMem, rfl⟩ := List.mem_map.mp isLive
      exact tiled.live_nonempty (SortedTable.mem_remove.mp otherMem).1
  · have freed := released.coverageEq point
    change _ = _ + if allocation.extent.Contains point then 1 else 0 at freed
    have forgotten := coverage_remove GuestAllocation.extent live point
    have before := coverageEq point
    simp only [GuestArena.coverage_extents] at before ⊢
    rw [freed, ← before, forgotten]
    omega

theorem arenaTiled_new (base : UInt64) : ArenaTiled ⟨base, SortedTable.empty.set
      ⟨guestAllocationArenaStartOffset, guestAllocationArenaSize - guestAllocationArenaStartOffset⟩,
      .empty⟩ := by
  refine ⟨tiles_iff_coverage.mpr ⟨?_, fun point => ?_⟩, ?_⟩
  · change ∀ extent ∈ [(⟨0x1000, 0xFFF000⟩ : Extent)], 0 < extent.length
    decide
  · change coverage [⟨0x1000, 0xFFF000⟩] point =
      if 0x1000 ≤ point ∧ point < 0x1000000 then 1 else 0
    by_cases inside : 0x1000 ≤ point ∧ point < 0x1000000 <;>
      simp [coverage_cons, Contains, inside]
  · change ∀ first ∈ [(⟨0x1000, 0xFFF000⟩ : FreeRange)],
      ∀ second ∈ [(⟨0x1000, 0xFFF000⟩ : FreeRange)],
        first.offset.toNat + first.size.toNat ≠ second.offset.toNat
    decide

end Tiling
end PhysicalVirtualMemory
end SharpEmu
