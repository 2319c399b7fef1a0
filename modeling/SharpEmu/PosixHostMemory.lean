import SharpEmu.FaultingPrograms
import SharpEmu.MachineWords
import SharpEmu.PartitionPointSearch
import SharpEmu.SortedTables
import SharpEmu.TransitionRuns

/-!
# Host memory on POSIX systems

`HostMemory.Posix` emulates the Windows virtual-memory calls with `mmap`,
`munmap` and `mprotect`.  A table of regions shadows the mappings it made: each
region has a default protection and a sparse set of pages whose protection
differs.  The kernel is a parameter with a state of its own.
-/

namespace SharpEmu
namespace PosixHostMemory

def pageSize : UInt64 := 0x1000

def memCommit : UInt32 := 0x1000
def memReserve : UInt32 := 0x2000
def memFreeState : UInt32 := 0x10000
def memPrivate : UInt32 := 0x20000

def pageNoAccess : UInt32 := 0x01
def pageReadOnly : UInt32 := 0x02
def pageReadWrite : UInt32 := 0x04
def pageExecute : UInt32 := 0x10
def pageExecuteRead : UInt32 := 0x20
def pageExecuteReadWrite : UInt32 := 0x40

def protNone : UInt32 := 0x0
def protRead : UInt32 := 0x1
def protWrite : UInt32 := 0x2
def protExec : UInt32 := 0x4

def mapPrivate : UInt32 := 0x02
def mapFixed : UInt32 := 0x10
def mapFixedNoReplace : UInt32 := 0x100000

structure PosixPlatform where
  isMacOS : Bool
deriving DecidableEq, Repr

def PosixPlatform.mapAnon (platform : PosixPlatform) : UInt32 :=
  if platform.isMacOS then 0x1000 else 0x20

def PosixPlatform.mapNoReserve (platform : PosixPlatform) : UInt32 :=
  if platform.isMacOS then 0 else 0x4000

/-- The kernel's memory calls; `none` stands for `MAP_FAILED`, and the other two
calls say whether they returned zero. -/
structure PosixKernel (KernelState : Type) where
  mmap : KernelState → UInt64 → UInt64 → UInt32 → UInt32 →
    Option UInt64 × KernelState
  munmap : KernelState → UInt64 → UInt64 → Bool × KernelState
  mprotect : KernelState → UInt64 → UInt64 → UInt32 → Bool × KernelState

structure PageProtect where
  page : UInt64
  protect : UInt32
deriving DecidableEq, Repr

/-- One mapping, with its default protection and the pages that differ. -/
structure Region where
  base : UInt64
  size : UInt64
  defaultProtect : UInt32
  pageProtects : Option (SortedTable PageProtect.page)
deriving DecidableEq

def Region.end (region : Region) : UInt64 :=
  region.base + region.size

def Region.protectAt (region : Region) (pageAddress : UInt64) : UInt32 :=
  match region.pageProtects.bind fun overrides => overrides.get? pageAddress with
  | some overridden => overridden.protect
  | none => region.defaultProtect

structure HostState (KernelState : Type) where
  regions : SortedTable Region.base
  kernel : KernelState

/-- The only exception: rounding an address or a size up overflows. -/
inductive HostFault
  | overflow
deriving DecidableEq, Repr

variable {KernelState : Type}

abbrev Program (KernelState : Type) := Faulting HostFault (HostState KernelState)

def onKernel {Value : Type} (call : KernelState → Value × KernelState) :
    Program KernelState Value :=
  modifyGet fun state =>
    ((call state.kernel).1, { state with kernel := (call state.kernel).2 })

def readRegions : Program KernelState (SortedTable Region.base) :=
  modifyGet fun state => (state.regions, state)

def onRegions (change : SortedTable Region.base → SortedTable Region.base) :
    Program KernelState Unit :=
  modify fun state => { state with regions := change state.regions }

def alignDown (value alignment : UInt64) : UInt64 :=
  value &&& ~~~(alignment - 1)

/-- The sum with the whole alignment is already checked, before one is taken
off again. -/
def alignUp (value alignment : UInt64) : Program KernelState UInt64 :=
  match Word64.checkedAdd value alignment with
  | some sum => pure ((sum - 1) &&& ~~~(alignment - 1))
  | none => throw .overflow

def toPosixProtect (win32Protect : UInt32) : UInt32 :=
  if win32Protect = pageNoAccess then protNone
  else if win32Protect = pageReadOnly then protRead
  else if win32Protect = pageReadWrite then protRead ||| protWrite
  else if win32Protect = pageExecute then protRead ||| protExec
  else if win32Protect = pageExecuteRead then protRead ||| protExec
  else if win32Protect = pageExecuteReadWrite then
    protRead ||| protWrite ||| protExec
  else protRead ||| protWrite

/-! ## The region table -/

def overlapsTrackedRegion (regions : SortedTable Region.base) (start size : UInt64) : Bool :=
  regions.entries.any fun region =>
    region.base < start + size && start < region.end

def tryFindRegion (regions : SortedTable Region.base) (address : UInt64) :
    Option Region :=
  (PartitionSearch.findLastPassing (fun region => region.base ≤ address)
    regions.entries).filter fun candidate => !(address ≥ candidate.end)

def protectPages (defaultProtect protect : UInt32) (rangeEnd : UInt64) :
    ℕ → UInt64 → SortedTable PageProtect.page → SortedTable PageProtect.page
  | 0, _, overrides => overrides
  | pages + 1, pageAddress, overrides =>
      if pageAddress < rangeEnd then
        protectPages defaultProtect protect rangeEnd pages (pageAddress + pageSize)
          (if protect = defaultProtect then overrides.remove pageAddress
          else overrides.set ⟨pageAddress, protect⟩)
      else overrides

/-- A protection of the whole region becomes its default; any other one is
recorded page by page. -/
def setProtectRange (region : Region) (start size : UInt64) (protect : UInt32) : Region :=
  if start = region.base ∧ size ≥ region.size then
    { region with defaultProtect := protect, pageProtects := none }
  else
    { region with
      pageProtects := some (protectPages region.defaultProtect protect
        (start + size) (size.toNat / pageSize.toNat + 1) start
        (region.pageProtects.getD .empty)) }

/-! ## The operations -/

def commitInside (kernel : PosixKernel KernelState) (existing : Region)
    (address alignedSize : UInt64) (protect : UInt32) :
    Program KernelState (Option UInt64) := do
  let start := alignDown address pageSize
  let roundedEnd ← alignUp (address + alignedSize) pageSize
  let rangeEnd := min existing.end roundedEnd
  if rangeEnd ≤ start then pure none
  else do
    let changed ← onKernel fun state => kernel.mprotect state start
      (rangeEnd - start) (toPosixProtect protect)
    if changed then do
      onRegions fun regions => regions.set
        (setProtectRange existing start (rangeEnd - start) protect)
      pure (some address)
    else pure none

def mapNew (platform : PosixPlatform) (kernel : PosixKernel KernelState)
    (address alignedSize : UInt64) (allocationType protect : UInt32) :
    Program KernelState (Option UInt64) := do
  let posixProtect := toPosixProtect protect
  let baseFlags := mapPrivate ||| platform.mapAnon
  let flags :=
    if allocationType &&& memCommit = 0 then
      baseFlags ||| platform.mapNoReserve
    else baseFlags
  if address ≠ 0 then do
    let regions ← readRegions
    if overlapsTrackedRegion regions address alignedSize then pure none
    else do
      let exactFlags :=
        if platform.isMacOS then flags else flags ||| mapFixedNoReplace
      let result ← onKernel fun state =>
        kernel.mmap state address alignedSize posixProtect exactFlags
      match result with
      | none => pure none
      | some mapped =>
          if mapped ≠ address then do
            let _ ← onKernel fun state => kernel.munmap state mapped alignedSize
            pure none
          else do
            onRegions fun regions =>
              regions.set ⟨mapped, alignedSize, protect, none⟩
            pure (some mapped)
  else do
    let result ← onKernel fun state =>
      kernel.mmap state 0 alignedSize posixProtect flags
    match result with
    | none => pure none
    | some mapped => do
        onRegions fun regions =>
          regions.set ⟨mapped, alignedSize, protect, none⟩
        pure (some mapped)

def alloc (platform : PosixPlatform) (kernel : PosixKernel KernelState)
    (address size : UInt64) (allocationType protect : UInt32) :
    Program KernelState (Option UInt64) :=
  if size = 0 then pure none
  else do
    let alignedSize ← alignUp size pageSize
    let regions ← readRegions
    let existing :=
      if allocationType = memCommit ∧ address ≠ 0 then
        tryFindRegion regions address
      else none
    match existing with
    | some existing => commitInside kernel existing address alignedSize protect
    | none =>
        if allocationType &&& memReserve = 0 then pure none
        else mapNew platform kernel address alignedSize allocationType protect

def free (kernel : PosixKernel KernelState) (address : UInt64) :
    Program KernelState Bool := do
  let regions ← readRegions
  match regions.get? address with
  | none => pure false
  | some region => do
      onRegions fun regions => regions.remove address
      onKernel fun state => kernel.munmap state address region.size

/-- The answer is whether the protection changed, and the old protection. -/
def protect (kernel : PosixKernel KernelState) (address size : UInt64)
    (newProtect : UInt32) : Program KernelState (Bool × UInt32) :=
  if size = 0 then pure (false, pageNoAccess)
  else do
    let start := alignDown address pageSize
    let rangeEnd ← alignUp (address + size) pageSize
    let regions ← readRegions
    match tryFindRegion regions start with
    | none => pure (false, pageNoAccess)
    | some region =>
        if rangeEnd > region.end then pure (false, pageNoAccess)
        else do
          let oldProtect := region.protectAt start
          let changed ← onKernel fun state => kernel.mprotect state start
            (rangeEnd - start) (toPosixProtect newProtect)
          if changed then do
            onRegions fun regions => regions.set
              (setProtectRange region start (rangeEnd - start) newProtect)
            pure (true, oldProtect)
          else pure (false, oldProtect)

/-! ## Queries -/

/-- What a query reports. -/
structure BasicInfo where
  baseAddress : UInt64
  allocationBase : UInt64
  allocationProtect : UInt32
  regionSize : UInt64
  state : UInt32
  protect : UInt32
  type : UInt32
deriving DecidableEq, Repr

def overrideRunEnd (overrides : SortedTable PageProtect.page)
    (protect : UInt32) (regionEnd : UInt64) : ℕ → UInt64 → UInt64
  | 0, runEnd => runEnd
  | pages + 1, runEnd =>
      if runEnd < regionEnd ∧ (overrides.get? runEnd).any (fun next => next.protect = protect) then
        overrideRunEnd overrides protect regionEnd pages (runEnd + pageSize)
      else runEnd

def defaultRunEnd (pageAddress regionEnd : UInt64) (overrides : List PageProtect) : UInt64 :=
  overrides.foldl (fun runEnd override =>
      if override.page > pageAddress ∧ override.page < runEnd then override.page
      else runEnd)
    regionEnd

def Region.queryRun (region : Region) (pageAddress : UInt64) : UInt32 × UInt64 :=
  match region.pageProtects with
  | none => (region.defaultProtect, region.end)
  | some overrides =>
      if overrides.entries.length = 0 then (region.defaultProtect, region.end)
      else
        match overrides.get? pageAddress with
        | some overridden =>
            (overridden.protect, overrideRunEnd overrides overridden.protect region.end
                (region.size.toNat / pageSize.toNat) (pageAddress + pageSize))
        | none =>
            (region.defaultProtect, defaultRunEnd pageAddress region.end overrides.entries)

def query (regions : SortedTable Region.base) (address : UInt64) : BasicInfo :=
  let pageAddress := alignDown address pageSize
  match tryFindRegion regions pageAddress with
  | some region =>
      let run := region.queryRun pageAddress
      { baseAddress := pageAddress
        allocationBase := region.base
        allocationProtect := region.defaultProtect
        regionSize := run.2 - pageAddress
        state := memCommit
        protect := run.1
        type := memPrivate }
  | none =>
      let nextBase :=
        match regions.entries.find? fun region => region.base > pageAddress with
        | some region => region.base
        | none => 0xFFFFFFFFFFFFFFFF
      { baseAddress := pageAddress
        allocationBase := 0
        allocationProtect := pageNoAccess
        regionSize :=
          (if nextBase = 0xFFFFFFFFFFFFFFFF then pageAddress + pageSize
          else nextBase) - pageAddress
        state := memFreeState
        protect := pageNoAccess
        type := 0 }

end PosixHostMemory
end SharpEmu
