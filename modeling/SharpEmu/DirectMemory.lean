import SharpEmu.MachineWords
import SharpEmu.RangeCoverage
import SharpEmu.SortedTables
import SharpEmu.TransitionRuns

/-!
# Direct memory

The guest allocates ranges of a physical address space.  The record of live
allocations is searched first fit: a candidate is rounded up to the alignment,
with wrapping arithmetic, past each allocation that is in its way.  The main
pool is moved above all allocations once the plain window is exhausted.
-/

namespace SharpEmu
namespace DirectMemory

def directMemorySizeBytes : UInt64 := 0x400000000

def orbisPageSize : UInt64 := 0x4000

inductive OrbisResult
  | ok
  | invalidArgument
  | tryAgain
  | memoryFault
  | notFound
deriving DecidableEq, Repr

structure DirectAllocation where
  start : UInt64
  length : UInt64
  memoryType : Int32
deriving DecidableEq

def DirectAllocation.endAddress (allocation : DirectAllocation) :
    Option UInt64 :=
  Word64.checkedAdd allocation.start allocation.length

/-- The live allocations and the position of the main pool, once it is set. -/
structure DirectMemoryState where
  directAllocations : SortedTable DirectAllocation.start
  nextPhysicalAddress : UInt64
  mainDirectMemoryPoolBase : Option UInt64
deriving DecidableEq

def DirectMemoryState.initial : DirectMemoryState where
  directAllocations := .empty
  nextPhysicalAddress := 0
  mainDirectMemoryPoolBase := none

def alignUp (value alignment : UInt64) : UInt64 :=
  if alignment ≤ 1 then value else Word64.wrappingRoundUp value alignment

def isAligned (value alignment : UInt64) : Bool :=
  alignment ≠ 0 && value % alignment = 0

def effectiveAlignment (alignment : UInt64) : UInt64 :=
  if alignment = 0 then orbisPageSize else alignment

/-! ## Searching -/

def endsBy (candidate length bound : UInt64) : Bool :=
  (Word64.checkedAdd candidate length).any fun candidateEnd =>
    candidateEnd ≤ bound

/-- The walk over the allocations in ascending order. -/
def searchGaps (length alignment effectiveEnd : UInt64) :
    List DirectAllocation → UInt64 → Option UInt64
  | [], candidate =>
      if endsBy candidate length effectiveEnd then some candidate else none
  | allocation :: rest, candidate =>
      match allocation.endAddress with
      | none => none
      | some allocationEnd =>
          if allocationEnd ≤ candidate then
            searchGaps length alignment effectiveEnd rest candidate
          else
            let gapEnd := min allocation.start effectiveEnd
            if candidate < gapEnd ∧ endsBy candidate length gapEnd then
              some candidate
            else if allocation.start ≥ effectiveEnd then
              if endsBy candidate length effectiveEnd then some candidate
              else none
            else
              let next := alignUp (max candidate allocationEnd) alignment
              if next ≥ effectiveEnd then none
              else searchGaps length alignment effectiveEnd rest next

def tryFindAllocatableRange (directAllocations : SortedTable DirectAllocation.start)
    (searchStart searchEnd length alignment allocationLimit : UInt64) :
    Option UInt64 :=
  if length = 0 ∨ searchStart ≥ searchEnd then none
  else
    let effectiveEnd := min searchEnd allocationLimit
    let candidate := alignUp searchStart alignment
    if candidate ≥ effectiveEnd then none
    else
      searchGaps length alignment effectiveEnd directAllocations.entries candidate

def widen (span : UInt64 × UInt64) (candidate gapEnd : UInt64) : UInt64 × UInt64 :=
  if candidate < gapEnd ∧ gapEnd - candidate > span.2 then
    (candidate, gapEnd - candidate)
  else span

/-- The walk of the availability query. -/
def searchSpans (alignment effectiveEnd : UInt64) :
    List DirectAllocation → UInt64 → UInt64 × UInt64 → Option (UInt64 × UInt64)
  | [], candidate, span => some (widen span candidate effectiveEnd)
  | allocation :: rest, candidate, span =>
      match allocation.endAddress with
      | none => none
      | some allocationEnd =>
          if allocationEnd ≤ candidate then
            searchSpans alignment effectiveEnd rest candidate span
          else
            let widest := widen span candidate (min allocation.start effectiveEnd)
            if allocation.start ≥ effectiveEnd then
              some (widen widest candidate effectiveEnd)
            else
              let next := alignUp (max candidate allocationEnd) alignment
              if next ≥ effectiveEnd then some (widen widest next effectiveEnd)
              else searchSpans alignment effectiveEnd rest next widest

def tryFindAvailableSpan (directAllocations : SortedTable DirectAllocation.start)
    (searchStart searchEnd alignment : UInt64) : Option (UInt64 × UInt64) :=
  if searchStart ≥ searchEnd then none
  else
    let effectiveEnd := min searchEnd directMemorySizeBytes
    let candidate := alignUp searchStart alignment
    if candidate ≥ effectiveEnd then none
    else
      (searchSpans alignment effectiveEnd directAllocations.entries candidate
        (0, 0)).filter fun span => span.2 ≠ 0

/-- Record the range found; the answer is its address. -/
def tryAllocate (memory : DirectMemoryState)
    (searchStart searchEnd length alignment : UInt64) (memoryType : Int32)
    (allocationLimit : UInt64) : Option (UInt64 × DirectMemoryState) :=
  if length = 0 ∨ searchStart ≥ searchEnd then none
  else
    match tryFindAllocatableRange memory.directAllocations searchStart searchEnd
        length (effectiveAlignment alignment) allocationLimit with
    | none => none
    | some freePosition =>
        match Word64.checkedAdd freePosition length with
        | none => none
        | some endAddress =>
            some (freePosition,
              { memory with
                directAllocations :=
                  memory.directAllocations.set ⟨freePosition, length, memoryType⟩
                nextPhysicalAddress := endAddress })

def highWaterMark (directAllocations : SortedTable DirectAllocation.start) :
    UInt64 :=
  if directAllocations.entries.any fun allocation =>
      allocation.endAddress.isNone then
    0xFFFFFFFFFFFFFFFF
  else (directAllocations.entries.filterMap DirectAllocation.endAddress).foldl max 0

/-! ## Allocating -/

def clampSearchEnd (searchEnd : UInt64) : UInt64 :=
  if searchEnd.toInt64 ≤ 0 then directMemorySizeBytes
  else if searchEnd > directMemorySizeBytes then directMemorySizeBytes
  else searchEnd

def clampSearchStart (searchStart clampedEnd : UInt64) : UInt64 :=
  let start := if searchStart.toInt64 < 0 then 0 else searchStart
  if start ≥ clampedEnd then 0 else start

/-- How an allocation ends: its result, the block it recorded, and the state.
When the result cannot be written to the guest the block stays recorded. -/
structure AllocationOutcome where
  result : OrbisResult
  selected : Option UInt64
  after : DirectMemoryState
deriving DecidableEq

/-- Report a search to the guest; `written` says whether the guest's output
word could be written. -/
def reportAllocation (memory : DirectMemoryState)
    (allocated : Option (UInt64 × DirectMemoryState)) (written : Bool) :
    AllocationOutcome :=
  match allocated with
  | none => ⟨.tryAgain, none, memory⟩
  | some (selected, after) =>
      ⟨if written then .ok else .memoryFault, some selected, after⟩

def kernelAllocateDirectMemory (memory : DirectMemoryState)
    (searchStart searchEnd length alignment : UInt64) (memoryType : Int32)
    (outAddress : UInt64) (written : Bool) : AllocationOutcome :=
  if length = 0 ∨ outAddress = 0 then ⟨.invalidArgument, none, memory⟩
  else
    let clampedEnd := clampSearchEnd searchEnd
    let clampedStart := clampSearchStart searchStart clampedEnd
    reportAllocation memory (tryAllocate memory clampedStart clampedEnd length
        (effectiveAlignment alignment) memoryType directMemorySizeBytes)
      written

def poolLimit (poolBase : UInt64) : UInt64 :=
  (Word64.checkedAdd poolBase directMemorySizeBytes).getD 0xFFFFFFFFFFFFFFFF

def mainAllocationLimit (memory : DirectMemoryState) : UInt64 :=
  memory.mainDirectMemoryPoolBase.elim directMemorySizeBytes poolLimit

def DirectMemoryState.withPoolBase (memory : DirectMemoryState)
    (poolBase : UInt64) : DirectMemoryState :=
  { memory with mainDirectMemoryPoolBase := some poolBase }

def tryAllocateShifted (memory : DirectMemoryState) (length alignment : UInt64)
    (memoryType : Int32) : Option (UInt64 × DirectMemoryState) :=
  if memory.mainDirectMemoryPoolBase.isSome then none
  else
    let poolBase := alignUp (highWaterMark memory.directAllocations) alignment
    (Word64.checkedAdd poolBase directMemorySizeBytes).bind fun shiftedLimit =>
      (tryAllocate memory 0 shiftedLimit length alignment memoryType
        shiftedLimit).map fun allocated =>
          (allocated.1, allocated.2.withPoolBase poolBase)

def kernelAllocateMainDirectMemory (memory : DirectMemoryState)
    (length alignment : UInt64) (memoryType : Int32) (outAddress : UInt64)
    (written : Bool) : AllocationOutcome :=
  if outAddress = 0 ∨ length = 0 then ⟨.invalidArgument, none, memory⟩
  else
    let alignment := effectiveAlignment alignment
    let allocationLimit := mainAllocationLimit memory
    reportAllocation memory ((tryAllocate memory 0 allocationLimit length alignment memoryType
        allocationLimit).or (tryAllocateShifted memory length alignment memoryType))
      written

/-! ## Releasing -/

/-- The allocation that contains a range, with its end.  The source walks its
dictionary, whose order only matters when two allocations contain the range. -/
def findOwner (directAllocations : SortedTable DirectAllocation.start)
    (start releaseEnd : UInt64) : Option (DirectAllocation × UInt64) :=
  directAllocations.entries.findSome? fun allocation =>
    (allocation.endAddress.filter fun allocationEnd =>
      start ≥ allocation.start && releaseEnd ≤ allocationEnd).map
        fun allocationEnd => (allocation, allocationEnd)

def carveOut (directAllocations : SortedTable DirectAllocation.start)
    (owner : DirectAllocation) (ownerEnd start releaseEnd : UInt64) :
    SortedTable DirectAllocation.start :=
  let removed := directAllocations.remove owner.start
  let withFront :=
    if start > owner.start then
      removed.set { owner with length := start - owner.start }
    else removed
  if releaseEnd < ownerEnd then
    withFront.set ⟨releaseEnd, ownerEnd - releaseEnd, owner.memoryType⟩
  else withFront

def tryReleaseRange (memory : DirectMemoryState) (start length : UInt64) :
    Option DirectMemoryState :=
  match Word64.checkedAdd start length with
  | none => none
  | some releaseEnd =>
      (findOwner memory.directAllocations start releaseEnd).map fun owner =>
        let directAllocations := carveOut memory.directAllocations owner.1 owner.2 start releaseEnd
        { memory with
          directAllocations
          nextPhysicalAddress := highWaterMark directAllocations }

/-- The unchecked call ignores a range that is not allocated. -/
def kernelReleaseDirectMemory (memory : DirectMemoryState)
    (start length : UInt64) : OrbisResult × DirectMemoryState :=
  if !isAligned start orbisPageSize || !isAligned length orbisPageSize then
    (.invalidArgument, memory)
  else if length = 0 then (.ok, memory)
  else (.ok, (tryReleaseRange memory start length).getD memory)

def kernelCheckedReleaseDirectMemory (memory : DirectMemoryState)
    (start length : UInt64) : OrbisResult × DirectMemoryState :=
  if !isAligned start orbisPageSize || !isAligned length orbisPageSize then
    (.invalidArgument, memory)
  else if length = 0 then (.ok, memory)
  else
    match tryReleaseRange memory start length with
    | none => (.notFound, memory)
    | some after => (.ok, after)

/-! ## Runs -/

inductive DirectMemoryCall
  | allocateDirect (searchStart searchEnd length alignment : UInt64)
      (memoryType : Int32) (outAddress : UInt64) (written : Bool)
  | allocateMain (length alignment : UInt64) (memoryType : Int32)
      (outAddress : UInt64) (written : Bool)
  | release (start length : UInt64)
  | checkedRelease (start length : UInt64)
deriving DecidableEq

def DirectMemoryCall.run (memory : DirectMemoryState) : DirectMemoryCall → DirectMemoryState
  | .allocateDirect searchStart searchEnd length alignment memoryType outAddress
      written =>
      (kernelAllocateDirectMemory memory searchStart searchEnd length alignment
        memoryType outAddress written).after
  | .allocateMain length alignment memoryType outAddress written =>
      (kernelAllocateMainDirectMemory memory length alignment memoryType outAddress written).after
  | .release start length => (kernelReleaseDirectMemory memory start length).2
  | .checkedRelease start length =>
      (kernelCheckedReleaseDirectMemory memory start length).2

def Initial (memory : DirectMemoryState) : Prop :=
  memory = .initial

def Step (before : DirectMemoryState) (call : DirectMemoryCall)
    (after : DirectMemoryState) : Prop :=
  after = call.run before

end DirectMemory
end SharpEmu
