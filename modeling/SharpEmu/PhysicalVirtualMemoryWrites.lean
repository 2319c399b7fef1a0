import SharpEmu.PhysicalVirtualMemory
import SharpEmu.PosixHostMemory

/-!
# Writes to guest memory

`TryWrite` copies to guest memory when its pages are writable.  Otherwise it makes
the pages of the range writable on the host, copies, and protects the range again.
The host is the POSIX one; the bytes themselves are not part of the model.
-/

namespace SharpEmu
namespace PhysicalVirtualMemory

variable {KernelState Value : Type}

abbrev PosixMachine (KernelState : Type) :=
  Machine (PosixHostMemory.HostState KernelState)

abbrev PosixProgram (KernelState : Type) :=
  Program (PosixHostMemory.HostState KernelState)

def onPosixHost (program : PosixHostMemory.Program KernelState Value) :
    PosixProgram KernelState Value := fun machine =>
  match program.outcome machine.host with
  | (.ok value, host) => (.ok value, { machine with host })
  | (.error .overflow, host) => (.error .overflow, { machine with host })

inductive HostRegionState
  | free
  | reserved
  | committed
deriving DecidableEq, Repr

def hostRegionState (raw : UInt32) : HostRegionState :=
  if raw = PosixHostMemory.memFreeState then .free
  else if raw = PosixHostMemory.memReserve then .reserved
  else .committed

def isWritableProtection (protection : UInt32) : Bool :=
  protection = pageReadWrite || protection = pageExecuteReadWrite

def getCommitProtection (region : MemoryRegion) : UInt32 :=
  if region.isExecutable then pageExecuteReadWrite else pageReadWrite

def writablePages (memory : MemoryState) (region : MemoryRegion) (endPage : UInt64) :
    ℕ → UInt64 → Bool
  | 0, _ => true
  | pages + 1, pageAddress =>
      if pageAddress < endPage then
        match memory.pageProtections pageAddress with
        | some flags =>
            if flags &&& flagWrite = 0 then false
            else writablePages memory region endPage pages (pageAddress + pageSize)
        | none =>
            if !isWritableProtection region.protection then false
            else writablePages memory region endPage pages (pageAddress + pageSize)
      else true

def canWriteWithoutProtectionChange (address size : UInt64) (region : MemoryRegion) :
    PosixProgram KernelState Bool := do
  let startPage := alignDown address pageSize
  let endPage ← alignUp (address + size) pageSize
  let memory ← readMemory
  pure (writablePages memory region endPage
    ((endPage.toNat - startPage.toNat) / pageSize.toNat + 1) startPage)

def commitPages (platform : PosixHostMemory.PosixPlatform)
    (kernel : PosixHostMemory.PosixKernel KernelState) (commitProtection : UInt32)
    (endPage : UInt64) : ℕ → UInt64 → PosixProgram KernelState Bool
  | 0, _ => pure true
  | turns + 1, pageAddress =>
      if pageAddress < endPage then do
        let info ← onPosixHost do
          let regions ← PosixHostMemory.readRegions
          pure (PosixHostMemory.query regions pageAddress)
        let queriedEnd :=
          if info.regionSize > 0xFFFFFFFFFFFFFFFF - info.baseAddress then
            0xFFFFFFFFFFFFFFFF
          else info.baseAddress + info.regionSize
        let rangeEnd := min endPage queriedEnd
        if rangeEnd ≤ pageAddress then pure false
        else
          match hostRegionState info.state with
          | .committed =>
              commitPages platform kernel commitProtection endPage turns rangeEnd
          | .free => pure false
          | .reserved => do
              let committed ← onPosixHost (PosixHostMemory.alloc platform kernel
                pageAddress (rangeEnd - pageAddress) PosixHostMemory.memCommit
                commitProtection)
              if committed = none then pure false
              else
                commitPages platform kernel commitProtection endPage turns rangeEnd
      else pure true

/-- What a write depends on beside the machine: the platform, the kernel, and what
the thread's cache of committed ranges says. -/
structure WriteEnvironment (KernelState : Type) where
  platform : PosixHostMemory.PosixPlatform
  kernel : PosixHostMemory.PosixKernel KernelState
  committedRangeCache : UInt64 → UInt64 → Bool
  /-- The write tracker gives its own pages back to the writer; it calls the kernel
  past the host memory's record. -/
  notifyManagedWrite : UInt64 → UInt64 → KernelState → KernelState

variable (environment : WriteEnvironment KernelState)

def ensureRangeCommitted (address size : UInt64) (region : MemoryRegion) :
    PosixProgram KernelState Bool :=
  if size = 0 ∨ region.isReservedOnly = false then pure true
  else do
    let startPage := alignDown address pageSize
    let endPage ← alignUp (address + size) pageSize
    if environment.committedRangeCache startPage endPage then pure true
    else
      commitPages environment.platform environment.kernel
        (getCommitProtection region) endPage (endPage.toNat - startPage.toNat)
        startPage

/-- Make the range writable on the host, copy, and put the old protection back. -/
def writeElevated (destination length : UInt64) : PosixProgram KernelState Bool := do
  let elevated ← onPosixHost (PosixHostMemory.protect environment.kernel destination
    length PosixHostMemory.pageExecuteReadWrite)
  if elevated.1 then do
    let _ ← onPosixHost (PosixHostMemory.protect environment.kernel destination length elevated.2)
    pure true
  else pure false

def writeDestination (memory : MemoryState) (address length : UInt64) :
    Option (MemoryRegion × UInt64) :=
  (findRegion memory.regions address length).bind fun region =>
    (tryResolveRegionOffset address length region).map fun offset =>
      (region, region.virtualAddress + offset)

def tryWriteExclusive (address length : UInt64) : PosixProgram KernelState Bool := do
  let memory ← readMemory
  match writeDestination memory address length with
  | none => pure false
  | some (region, destination) => do
      let committed ← ensureRangeCommitted environment destination length region
      if committed then do
        let writable ← canWriteWithoutProtectionChange destination length region
        if writable then pure true else writeElevated environment destination length
      else pure false

/-- The answer is whether the bytes were written. -/
def tryWrite (address length : UInt64) : PosixProgram KernelState Bool := do
  onHost fun host =>
    ((), { host with
      kernel := environment.notifyManagedWrite address length host.kernel })
  let memory ← readMemory
  match writeDestination memory address length with
  | none => pure false
  | some (region, destination) =>
      if length = 0 then pure true
      else do
        let committed ←
          (if region.isReservedOnly then
            ensureRangeCommitted environment destination length region
          else pure true)
        if committed then do
          let writable ← canWriteWithoutProtectionChange destination length region
          -- The read lock is given up here for the write lock.
          if writable then pure true
          else tryWriteExclusive environment address length
        else pure false

end PhysicalVirtualMemory
end SharpEmu
