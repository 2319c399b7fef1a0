import SharpEmu.FaultingPrograms
import SharpEmu.MachineWords
import SharpEmu.PartitionPointSearch
import SharpEmu.SortedTables
import SharpEmu.TransitionRuns

/-!
# Physical virtual memory

`PhysicalVirtualMemory` backs guest addresses with host allocations made at the
same addresses.  It keeps a list of regions sorted by start, cached cursors of
its placement search, the protection flags of mapped pages, and an arena from
which small guest blocks are carved.  The host is a parameter: every answer it
gives, and how its own state changes, is up to it.
-/

namespace SharpEmu

inductive HostPageProtection
  | noAccess
  | readOnly
  | readWrite
  | execute
  | readExecute
  | readWriteExecute
  | executeWriteCopy
deriving DecidableEq, Repr

/-- The operating system's memory services.  A placement request answers with
the base address it chose, or zero when it fails. -/
structure HostMemoryServices (HostState : Type) where
  allocate : HostState → UInt64 → UInt64 → HostPageProtection →
    UInt64 × HostState
  reserve : HostState → UInt64 → UInt64 → HostPageProtection →
    UInt64 × HostState
  commit : HostState → UInt64 → UInt64 → HostPageProtection → Bool × HostState
  free : HostState → UInt64 → HostState
  protect : HostState → UInt64 → UInt64 → HostPageProtection → Bool × HostState

/-- What differs between the platforms the allocator runs on. -/
structure MemoryPlatform where
  isMacOS : Bool
  lazyReservePrimeBytes : UInt64
deriving DecidableEq, Repr

namespace PhysicalVirtualMemory

def pageSize : UInt64 := 0x1000
def guestAllocationArenaAddress : UInt64 := 0x0000600000000000
def guestAllocationArenaSize : UInt64 := 0x01000000
def guestAllocationArenaStartOffset : UInt64 := pageSize
def largeDataReserveThreshold : UInt64 := 0x40000000
def fullCommitRegionLimit : UInt64 := 0x100000000
def lazyReservePrimeChunkBytes : UInt64 := 0x02000000
def pageReadWrite : UInt32 := 0x04
def pageExecuteReadWrite : UInt32 := 0x40

abbrev ProgramHeaderFlags := UInt32

def flagNone : ProgramHeaderFlags := 0
def flagExecute : ProgramHeaderFlags := 0x1
def flagWrite : ProgramHeaderFlags := 0x2
def flagRead : ProgramHeaderFlags := 0x4

structure MemoryRegion where
  virtualAddress : UInt64
  size : UInt64
  isExecutable : Bool
  isReservedOnly : Bool
  protection : UInt32
deriving DecidableEq, Repr

structure FreeRange where
  offset : UInt64
  size : UInt64
deriving DecidableEq, Repr

/-- A live block of the arena, recorded under its guest address. -/
structure GuestAllocation where
  address : UInt64
  offset : UInt64
  size : UInt64
deriving DecidableEq, Repr

/-- Placement searches with equal parameters share a cursor. -/
structure SearchKey where
  desiredAddress : UInt64
  alignment : UInt64
  executable : Bool
deriving DecidableEq, Repr

/-- The fields of the allocator that its operations read and write. -/
structure MemoryState where
  regions : List MemoryRegion
  allocationSearchHints : SearchKey → Option UInt64
  pageProtections : UInt64 → Option ProgramHeaderFlags
  guestAllocationArenaBase : UInt64
  guestAllocationFreeRanges : SortedTable FreeRange.offset
  guestAllocations : SortedTable GuestAllocation.address

/-- The allocator before its first operation. -/
def MemoryState.initial : MemoryState where
  regions := []
  allocationSearchHints := fun _ => none
  pageProtections := fun _ => none
  guestAllocationArenaBase := 0
  guestAllocationFreeRanges := .empty
  guestAllocations := .empty

structure Machine (HostState : Type) where
  memory : MemoryState
  host : HostState

/-- Exceptions raised by the allocator, with the values their messages show. -/
inductive MemoryFault
  | argumentOutOfRange (parameterName message : String)
  | exactMappingFailed (desiredAddress alignedSize : UInt64)
  | outOfMemory (alignedSize : UInt64)
  | setProtectionFailed (address : UInt64)
  | overflow
deriving DecidableEq, Repr

variable {HostState : Type}

/-- An operation on the allocator and its host that may raise an exception. -/
abbrev Program (HostState : Type) := Faulting MemoryFault (Machine HostState)

def onHost {Value : Type} (service : HostState → Value × HostState) :
    Program HostState Value :=
  modifyGet fun machine =>
    ((service machine.host).1, { machine with host := (service machine.host).2 })

/-- Change the allocator's own fields. -/
def onMemory (change : MemoryState → MemoryState) : Program HostState Unit :=
  modify fun machine => { machine with memory := change machine.memory }

def readMemory : Program HostState MemoryState :=
  modifyGet fun machine => (machine.memory, machine)

def alignDown (value alignment : UInt64) : UInt64 :=
  Word64.roundDown value alignment

/-- The whole expression is evaluated in a checked context. -/
def alignUp (value alignment : UInt64) : Program HostState UInt64 :=
  match Word64.checkedRoundUp value alignment with
  | some rounded => pure rounded
  | none => throw .overflow

def checkedSum (left right : UInt64) : Program HostState UInt64 :=
  match Word64.checkedAdd left right with
  | some sum => pure sum
  | none => throw .overflow

def checkedDifference (left right : UInt64) : Program HostState UInt64 :=
  if left < right then throw .overflow else pure (left - right)

def alignedRequestSize (size : UInt64) : UInt64 :=
  (size + 0xFFF) &&& ~~~0xFFF

/-! ## The region list -/

def tryResolveRegionOffset (address size : UInt64) (region : MemoryRegion) :
    Option UInt64 :=
  if address < region.virtualAddress then none
  else
    let offset := address - region.virtualAddress
    if offset > region.size then none
    else if size > region.size - offset then none
    else some offset

def findRegion (regions : List MemoryRegion) (address size : UInt64) :
    Option MemoryRegion :=
  (PartitionSearch.findLastPassing (fun region => region.virtualAddress ≤ address) regions).filter
    fun candidate => (tryResolveRegionOffset address size candidate).isSome

def insertRegionSorted (region : MemoryRegion) (regions : List MemoryRegion) : List MemoryRegion :=
  PartitionSearch.insertAtPartition
    (fun other => other.virtualAddress < region.virtualAddress) region regions

def overlapScan (address rangeEnd overlapEnd : UInt64) : List MemoryRegion → UInt64
  | [] => overlapEnd
  | region :: rest =>
      let regionEnd := region.virtualAddress + region.size
      if region.virtualAddress ≥ rangeEnd then overlapEnd
      else if regionEnd ≤ address then
        overlapScan address rangeEnd overlapEnd rest
      else if address < regionEnd ∧ region.virtualAddress < rangeEnd then
        overlapScan address rangeEnd (max overlapEnd regionEnd) rest
      else overlapScan address rangeEnd overlapEnd rest

def tryGetOverlappingRegionEnd (regions : List MemoryRegion)
    (address size : UInt64) : Option UInt64 :=
  if size = 0 ∨ 0xFFFFFFFFFFFFFFFF - address < size - 1 then none
  else
    let overlapEnd := overlapScan address (address + size) 0 regions
    if overlapEnd ≠ 0 then some overlapEnd else none

/-! ## Placement at an address -/

inductive PlacementKind
  | reserve
  | allocate (protection : HostPageProtection)
deriving DecidableEq, Repr

structure PlacementRequest where
  kind : PlacementKind
  desiredAddress : UInt64
deriving DecidableEq, Repr

def PlacementRequest.service (services : HostMemoryServices HostState)
    (request : PlacementRequest) (alignedSize : UInt64) (host : HostState) :
    UInt64 × HostState :=
  match request.kind with
  | .reserve =>
      services.reserve host request.desiredAddress alignedSize .readWrite
  | .allocate protection =>
      services.allocate host request.desiredAddress alignedSize protection

/-- Make requests in order until one is answered, and say whether the answer
is only reserved. -/
def firstPlacement (services : HostMemoryServices HostState) (alignedSize : UInt64) :
    List PlacementRequest → Program HostState (Option (UInt64 × Bool))
  | [] => pure none
  | request :: rest => do
      let result ← onHost (request.service services alignedSize)
      if result ≠ 0 then pure (some (result, request.kind = .reserve))
      else firstPlacement services alignedSize rest

/-- The requests `AllocateAt` makes.  Large data regions are only reserved;
data regions that cannot be committed anywhere are reserved as a last resort. -/
def placementRequests (desiredAddress alignedSize : UInt64)
    (executable allowAlternative : Bool) : List PlacementRequest :=
  let hostProtection : HostPageProtection :=
    if executable then .readWriteExecute else .readWrite
  let preferReserveOnly := !executable && alignedSize ≥ largeDataReserveThreshold &&
    alignedSize > fullCommitRegionLimit
  (if preferReserveOnly then
    ⟨.reserve, desiredAddress⟩ :: (if allowAlternative then [⟨.reserve, 0⟩] else [])
  else []) ++
  ⟨.allocate hostProtection, desiredAddress⟩ ::
  if allowAlternative then
    ⟨.allocate hostProtection, 0⟩ ::
      (if executable then [] else [⟨.reserve, desiredAddress⟩, ⟨.reserve, 0⟩])
  else []

def primeLazyRegion (services : HostMemoryServices HostState) (actualAddress primeBytes : UInt64) :
    ℕ → UInt64 → Program HostState UInt64
  | 0, committedBytes => pure committedBytes
  | chunks + 1, committedBytes =>
      if committedBytes < primeBytes then do
        let chunkBytes := min (primeBytes - committedBytes) lazyReservePrimeChunkBytes
        let committed ← onHost fun host => services.commit host
          (actualAddress + committedBytes) chunkBytes .readWrite
        if committed then
          primeLazyRegion services actualAddress primeBytes chunks (committedBytes + chunkBytes)
        else pure committedBytes
      else pure committedBytes

def primeChunkCount (primeBytes : UInt64) : ℕ :=
  primeBytes.toNat / lazyReservePrimeChunkBytes.toNat + 1

def allocateAt (platform : MemoryPlatform) (services : HostMemoryServices HostState)
    (desiredAddress size : UInt64) (executable allowAlternative : Bool) :
    Program HostState UInt64 :=
  if size = 0 then
    throw (.argumentOutOfRange "size" "Size must be greater than zero")
  else do
    let alignedSize := alignedRequestSize size
    let placed ← firstPlacement services alignedSize
      (placementRequests desiredAddress alignedSize executable allowAlternative)
    match placed with
    | none =>
        throw (if allowAlternative then .outOfMemory alignedSize
          else .exactMappingFailed desiredAddress alignedSize)
    | some (actualAddress, reservedOnly) =>
        if reservedOnly then
          let primeBytes := min alignedSize platform.lazyReservePrimeBytes
          let _ ← primeLazyRegion services actualAddress primeBytes (primeChunkCount primeBytes) 0
        onMemory fun memory => { memory with
          regions := insertRegionSorted
            { virtualAddress := actualAddress
              size := alignedSize
              isExecutable := executable
              isReservedOnly := reservedOnly
              protection :=
                if executable then pageExecuteReadWrite else pageReadWrite }
            memory.regions }
        pure actualAddress

def tryAllocateAtExact (services : HostMemoryServices HostState)
    (desiredAddress size : UInt64) (executable : Bool) :
    Program HostState (Option UInt64) :=
  if size = 0 then pure none
  else do
    let alignedSize := alignedRequestSize size
    let hostProtection : HostPageProtection :=
      if executable then .readWriteExecute else .readWrite
    let result ← onHost fun host =>
      services.allocate host desiredAddress alignedSize hostProtection
    if result = 0 then pure none
    else if result ≠ desiredAddress then do
      onHost fun host => ((), services.free host result)
      pure none
    else do
      onMemory fun memory => { memory with
        regions := insertRegionSorted
          { virtualAddress := result
            size := alignedSize
            isExecutable := executable
            isReservedOnly := false
            protection :=
              if executable then pageExecuteReadWrite else pageReadWrite }
          memory.regions }
      pure (some result)

/-! ## Placement at or above an address -/

def getAllocationSearchCursor (desiredAddress requestedCursor alignment : UInt64)
    (executable : Bool) : Program HostState UInt64 := do
  let memory ← readMemory
  match memory.allocationSearchHints ⟨desiredAddress, alignment, executable⟩ with
  | some hintedCursor =>
      if hintedCursor > requestedCursor then alignUp hintedCursor alignment
      else pure requestedCursor
  | none => pure requestedCursor

def updateAllocationSearchCursor (desiredAddress alignment : UInt64)
    (executable : Bool) (nextCursor : UInt64) : Program HostState Unit := do
  let rounded ← alignUp nextCursor alignment
  onMemory fun memory => { memory with
    allocationSearchHints := Function.update memory.allocationSearchHints
      ⟨desiredAddress, alignment, executable⟩ (some rounded) }

def releaseUntrackedAllocation (services : HostMemoryServices HostState)
    (address : UInt64) : Program HostState Unit := do
  onMemory fun memory => { memory with
    regions := memory.regions.eraseP fun region =>
      region.virtualAddress = address }
  onHost fun host => ((), services.free host address)

structure PlacementSearch where
  desiredAddress : UInt64
  alignedSize : UInt64
  effectiveAlignment : UInt64
  executable : Bool
deriving DecidableEq, Repr

def searchFromCursor (services : HostMemoryServices HostState) (search : PlacementSearch) :
    ℕ → UInt64 → Program HostState (Option UInt64)
  | 0, _ => pure none
  | attempts + 1, cursor =>
      if cursor = 0 ∨ 0xFFFFFFFFFFFFFFFF - cursor < search.alignedSize then
        pure none
      else do
        let memory ← readMemory
        match tryGetOverlappingRegionEnd memory.regions cursor
            search.alignedSize with
        | some overlapEnd => do
            let next ← alignUp overlapEnd search.effectiveAlignment
            searchFromCursor services search attempts next
        | none => do
            let placed ← tryAllocateAtExact services cursor search.alignedSize search.executable
            match placed with
            | some actualAddress => do
                updateAllocationSearchCursor search.desiredAddress
                  search.effectiveAlignment search.executable
                  (actualAddress + search.alignedSize)
                pure (some actualAddress)
            | none => do
                let next ← alignUp (cursor + search.effectiveAlignment) search.effectiveAlignment
                searchFromCursor services search attempts next

def overAllocate (platform : MemoryPlatform)
    (services : HostMemoryServices HostState) (search : PlacementSearch)
    (cursor : UInt64) : Program HostState (Option UInt64) := do
  let reserveSize :=
    if search.effectiveAlignment > pageSize then
      search.alignedSize + search.effectiveAlignment
    else search.alignedSize
  let posixAddress ← allocateAt platform services cursor reserveSize search.executable true
  if posixAddress ≠ 0 then do
    let alignedBase ← alignUp posixAddress search.effectiveAlignment
    if alignedBase + search.alignedSize ≤ posixAddress + reserveSize then do
      updateAllocationSearchCursor search.desiredAddress search.effectiveAlignment search.executable
        (alignedBase + search.alignedSize)
      pure (some alignedBase)
    else do
      releaseUntrackedAllocation services posixAddress
      pure none
  else pure none

def tryAllocateAtOrAbove (platform : MemoryPlatform) (services : HostMemoryServices HostState)
    (desiredAddress size : UInt64) (executable : Bool) (alignment : UInt64) :
    Program HostState (Option UInt64) :=
  if size = 0 then pure none
  else do
    let alignedSize ← alignUp size pageSize
    let effectiveAlignment :=
      max pageSize (if alignment = 0 then pageSize else alignment)
    let requestedCursor ← alignUp desiredAddress effectiveAlignment
    let cursor ← getAllocationSearchCursor desiredAddress requestedCursor
      effectiveAlignment executable
    let search : PlacementSearch :=
      ⟨desiredAddress, alignedSize, effectiveAlignment, executable⟩
    if platform.isMacOS then
      tryCatch (overAllocate platform services search cursor)
        fun _ => pure none
    else searchFromCursor services search 0x10000 cursor

/-! ## Segments -/

def hostProtectionOf (flags : ProgramHeaderFlags) : HostPageProtection :=
  if flags = flagNone then .noAccess
  else if flags &&& flagExecute ≠ 0 then
    if flags &&& flagWrite ≠ 0 then .readWriteExecute else .readExecute
  else if flags &&& flagWrite ≠ 0 then .readWrite
  else .readOnly

def setProtection (services : HostMemoryServices HostState)
    (address size : UInt64) (flags : ProgramHeaderFlags) :
    Program HostState Unit := do
  let changed ← onHost fun host =>
    services.protect host address size (hostProtectionOf flags)
  if changed then pure () else throw (.setProtectionFailed address)

/-- A run of pages whose merged flags are equal so far. -/
structure ProtectionRun where
  start : UInt64
  flags : ProgramHeaderFlags
deriving DecidableEq, Repr

def applySegmentPages (services : HostMemoryServices HostState)
    (mapEnd : UInt64) (flags : ProgramHeaderFlags) :
    ℕ → UInt64 → Option ProtectionRun → Program HostState (Option ProtectionRun)
  | 0, _, run => pure run
  | pages + 1, pageAddress, run =>
      if pageAddress < mapEnd then do
        let memory ← readMemory
        let mergedFlags :=
          (memory.pageProtections pageAddress).getD flagNone ||| flags
        onMemory fun memory => { memory with
          pageProtections := Function.update memory.pageProtections pageAddress (some mergedFlags) }
        match run with
        | none =>
            applySegmentPages services mapEnd flags pages
              (pageAddress + pageSize) (some ⟨pageAddress, mergedFlags⟩)
        | some current =>
            if mergedFlags ≠ current.flags then do
              setProtection services current.start (pageAddress - current.start) current.flags
              applySegmentPages services mapEnd flags pages
                (pageAddress + pageSize) (some ⟨pageAddress, mergedFlags⟩)
            else
              applySegmentPages services mapEnd flags pages (pageAddress + pageSize) (some current)
      else pure run

def applySegmentProtection (services : HostMemoryServices HostState)
    (mapStart mapEnd : UInt64) (flags : ProgramHeaderFlags) :
    Program HostState Unit := do
  let pages := (mapEnd.toNat - mapStart.toNat) / pageSize.toNat + 1
  let lastRun ← applySegmentPages services mapEnd flags pages mapStart none
  match lastRun with
  | some run =>
      setProtection services run.start (mapEnd - run.start) run.flags
  | none => pure ()

/-- Map a segment; its bytes are copied to the host between the two protection
changes, which touches no field of the allocator. -/
def map (platform : MemoryPlatform) (services : HostMemoryServices HostState)
    (virtualAddress memorySize fileLength : UInt64)
    (protection : ProgramHeaderFlags) : Program HostState Unit :=
  if memorySize = 0 then throw (.argumentOutOfRange "memorySize" "")
  else if fileLength > memorySize then
    throw (.argumentOutOfRange "fileData" "File size cannot exceed memory size")
  else do
    let mapStart := alignDown virtualAddress pageSize
    let segmentEnd ← checkedSum virtualAddress memorySize
    let mapEnd ← alignUp segmentEnd pageSize
    let mapSize ← checkedDifference mapEnd mapStart
    let memory ← readMemory
    if findRegion memory.regions mapStart mapSize = none then
      let _ ← allocateAt platform services mapStart mapSize (protection &&& flagExecute ≠ 0) false
    setProtection services mapStart mapSize (if protection &&& flagExecute ≠ 0 then
        flagRead ||| flagWrite ||| flagExecute
      else flagRead ||| flagWrite)
    applySegmentProtection services mapStart mapEnd protection

/-! ## The guest arena -/

def findFreeRange (size alignment : UInt64) :
    List FreeRange → Program HostState (Option (FreeRange × UInt64))
  | [] => pure none
  | range :: rest => do
      let alignedOffset ← alignUp range.offset alignment
      if alignedOffset ≥ range.offset ∧ alignedOffset - range.offset ≤ range.size ∧
          size ≤ range.size - (alignedOffset - range.offset) then
        pure (some (range, alignedOffset))
      else findFreeRange size alignment rest

def carveBlock (range : FreeRange) (alignedOffset size : UInt64)
    (freeRanges : SortedTable FreeRange.offset) :
    SortedTable FreeRange.offset :=
  let withoutRange := freeRanges.remove range.offset
  let withFront :=
    if alignedOffset > range.offset then
      withoutRange.set ⟨range.offset, alignedOffset - range.offset⟩
    else withoutRange
  let allocationEnd := alignedOffset + size
  let rangeEnd := range.offset + range.size
  if allocationEnd < rangeEnd then
    withFront.set ⟨allocationEnd, rangeEnd - allocationEnd⟩
  else withFront

def ensureGuestArena (platform : MemoryPlatform)
    (services : HostMemoryServices HostState) : Program HostState Bool := do
  let memory ← readMemory
  if memory.guestAllocationArenaBase = 0 then
    tryCatch (do
        let base ← allocateAt platform services guestAllocationArenaAddress
          guestAllocationArenaSize false true
        onMemory fun memory => { memory with
          guestAllocationArenaBase := base
          guestAllocationFreeRanges := memory.guestAllocationFreeRanges.set
            ⟨guestAllocationArenaStartOffset,
              guestAllocationArenaSize - guestAllocationArenaStartOffset⟩ }
        pure true)
      fun _ => pure false
  else pure true

def tryAllocateGuestMemory (platform : MemoryPlatform)
    (services : HostMemoryServices HostState) (size alignment : UInt64) :
    Program HostState (Option UInt64) :=
  if size = 0 ∨ alignment = 0 ∨ alignment &&& (alignment - 1) ≠ 0 then
    pure none
  else do
    let arenaExists ← ensureGuestArena platform services
    if arenaExists then do
      let memory ← readMemory
      let found ← findFreeRange size alignment memory.guestAllocationFreeRanges.entries
      match found with
      | none => pure none
      | some (range, alignedOffset) => do
          let address := memory.guestAllocationArenaBase + alignedOffset
          onMemory fun memory => { memory with
            guestAllocationFreeRanges := carveBlock range alignedOffset size
              memory.guestAllocationFreeRanges
            guestAllocations :=
              memory.guestAllocations.set ⟨address, alignedOffset, size⟩ }
          pure (some address)
    else pure none

structure FreeMerge where
  range : FreeRange
  rest : SortedTable FreeRange.offset

def mergePrevious (offset size : UInt64) (freeRanges : SortedTable FreeRange.offset) : FreeMerge :=
  match freeRanges.lastBelow? offset with
  | some previous =>
      if previous.offset + previous.size = offset then
        ⟨⟨previous.offset, size + previous.size⟩, freeRanges.remove previous.offset⟩
      else ⟨⟨offset, size⟩, freeRanges⟩
  | none => ⟨⟨offset, size⟩, freeRanges⟩

def mergeNext (next : Option FreeRange) (merge : FreeMerge) : FreeMerge :=
  match next with
  | some next =>
      if merge.range.offset + merge.range.size = next.offset then
        ⟨⟨merge.range.offset, merge.range.size + next.size⟩, merge.rest.remove next.offset⟩
      else merge
  | none => merge

/-- Return a block to the free ranges, coalescing with both neighbours; the
neighbours are looked up before either is absorbed. -/
def releaseBlock (offset size : UInt64) (freeRanges : SortedTable FreeRange.offset) :
    SortedTable FreeRange.offset :=
  let merge := mergeNext (freeRanges.firstFrom? offset) (mergePrevious offset size freeRanges)
  merge.rest.set merge.range

def tryFreeGuestMemory (address : UInt64) : Program HostState Bool := do
  let memory ← readMemory
  match memory.guestAllocations.get? address with
  | none => pure false
  | some allocation => do
      onMemory fun memory => { memory with
        guestAllocations := memory.guestAllocations.remove address
        guestAllocationFreeRanges := releaseBlock allocation.offset
          allocation.size memory.guestAllocationFreeRanges }
      pure true

/-- Give every region back to the host and forget everything. -/
def clear (services : HostMemoryServices HostState) : Program HostState Unit :=
  modify fun machine =>
    { memory := .initial
      host := machine.memory.regions.foldl
        (fun host region => services.free host region.virtualAddress)
        machine.host }

/-! ## Runs -/

inductive MemoryOperation
  | allocateAt (desiredAddress size : UInt64)
      (executable allowAlternative : Bool)
  | tryAllocateAtExact (desiredAddress size : UInt64) (executable : Bool)
  | tryAllocateAtOrAbove (desiredAddress size : UInt64) (executable : Bool)
      (alignment : UInt64)
  | map (virtualAddress memorySize fileLength : UInt64)
      (protection : ProgramHeaderFlags)
  | tryAllocateGuestMemory (size alignment : UInt64)
  | tryFreeGuestMemory (address : UInt64)
  | clear
deriving DecidableEq, Repr

def MemoryOperation.run (platform : MemoryPlatform) (services : HostMemoryServices HostState) :
    MemoryOperation → Program HostState Unit
  | .allocateAt desiredAddress size executable allowAlternative =>
      discard (PhysicalVirtualMemory.allocateAt platform services desiredAddress
        size executable allowAlternative)
  | .tryAllocateAtExact desiredAddress size executable =>
      discard (PhysicalVirtualMemory.tryAllocateAtExact services desiredAddress size executable)
  | .tryAllocateAtOrAbove desiredAddress size executable alignment =>
      discard (PhysicalVirtualMemory.tryAllocateAtOrAbove platform services
        desiredAddress size executable alignment)
  | .map virtualAddress memorySize fileLength protection =>
      PhysicalVirtualMemory.map platform services virtualAddress memorySize fileLength protection
  | .tryAllocateGuestMemory size alignment =>
      discard (PhysicalVirtualMemory.tryAllocateGuestMemory platform services size alignment)
  | .tryFreeGuestMemory address =>
      discard (PhysicalVirtualMemory.tryFreeGuestMemory address)
  | .clear => PhysicalVirtualMemory.clear services

/-- The allocator as a transition system: an operation runs to its end, normal
or faulting. -/
def Step (platform : MemoryPlatform) (services : HostMemoryServices HostState)
    (before : Machine HostState) (operation : MemoryOperation)
    (after : Machine HostState) : Prop :=
  after = ((operation.run platform services).outcome before).2

def Initial (machine : Machine HostState) : Prop :=
  machine.memory = .initial

def runOperations (platform : MemoryPlatform) (services : HostMemoryServices HostState)
    (operations : List MemoryOperation) (machine : Machine HostState) :
    Machine HostState :=
  operations.foldl (fun machine operation =>
      ((operation.run platform services).outcome machine).2) machine

theorem reachable_runOperations {platform : MemoryPlatform}
    {services : HostMemoryServices HostState} {machine : Machine HostState}
    (reachable : Reachable Initial (Step platform services) machine)
    (operations : List MemoryOperation) :
    Reachable Initial (Step platform services)
      (runOperations platform services operations machine) := by
  induction operations generalizing machine with
  | nil => exact reachable
  | cons operation rest ih =>
    exact ih (reachable.next rfl)

def grantingHost : HostMemoryServices Unit where
  allocate _ desiredAddress _ _ := (desiredAddress, ())
  reserve _ desiredAddress _ _ := (desiredAddress, ())
  commit _ _ _ _ := (true, ())
  free _ _ := ()
  protect _ _ _ _ := (true, ())

def linuxPlatform : MemoryPlatform := ⟨false, 0x04000000⟩

end PhysicalVirtualMemory
end SharpEmu
