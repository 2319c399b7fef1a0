import SharpEmu.DirectMemory
import SharpEmu.RangeValues

/-!
# Mapped regions

The kernel keeps a table of the regions that the guest has mapped.  Changing the
protection of a range cuts the regions at its ends and writes the pieces back under
their own addresses; unmapping a range removes the regions that lie in it.
-/

namespace SharpEmu
namespace MappedRegions

open DirectMemory

structure MappedRegion where
  address : UInt64
  length : UInt64
  protection : Int32
  isFlexible : Bool
  isDirect : Bool
  directStart : UInt64
deriving DecidableEq, Repr

structure KernelMemory where
  mappedRegions : SortedTable MappedRegion.address
  directAllocations : SortedTable DirectAllocation.start
  allocatedFlexibleBytes : UInt64

def MappedRegion.endAddress (region : MappedRegion) : Option UInt64 :=
  Word64.checkedAdd region.address region.length

def addMappedRegionSlice (regions : SortedTable MappedRegion.address)
    (source : MappedRegion) (start stop : UInt64) (protection : Int32) :
    SortedTable MappedRegion.address :=
  if stop ≤ start then regions
  else
    regions.set
      { source with
        address := start
        length := stop - start
        protection
        directStart :=
          if source.isDirect then source.directStart + (start - source.address)
          else 0 }

/-! ## Changing protections -/

def affectedRegions (endAddress : UInt64) : List MappedRegion → UInt64 → Option (List MappedRegion)
  | [], _ => none
  | region :: rest, cursor =>
      match region.endAddress with
      | none => affectedRegions endAddress rest cursor
      | some regionEnd =>
          if regionEnd ≤ cursor then affectedRegions endAddress rest cursor
          else if region.address > cursor then none
          else if regionEnd ≥ endAddress then some [region]
          else (affectedRegions endAddress rest regionEnd).map (region :: ·)

def protectRegion (address endAddress : UInt64) (protection : Int32)
    (regions : SortedTable MappedRegion.address) (region : MappedRegion) :
    SortedTable MappedRegion.address :=
  let regionEnd := region.address + region.length
  let protectStart := max region.address address
  let protectEnd := min regionEnd endAddress
  let withFront :=
    if region.address < protectStart then
      addMappedRegionSlice regions region region.address protectStart region.protection
    else regions
  let withRange :=
    addMappedRegionSlice withFront region protectStart protectEnd protection
  if protectEnd < regionEnd then
    addMappedRegionSlice withRange region protectEnd regionEnd region.protection
  else withRange

def tryFindDirectAllocation (directAllocations : SortedTable DirectAllocation.start)
    (directStart : UInt64) : Option DirectAllocation :=
  directAllocations.entries.find? fun candidate =>
    candidate.endAddress.any fun candidateEnd =>
      candidate.start ≤ directStart && directStart < candidateEnd

def retypeRegion (memoryType : Int32) (directAllocations : SortedTable DirectAllocation.start)
    (region : MappedRegion) : SortedTable DirectAllocation.start :=
  if region.isDirect then
    match tryFindDirectAllocation directAllocations region.directStart with
    | none => directAllocations
    | some allocation => directAllocations.set { allocation with memoryType }
  else directAllocations

/-- The state that the call leaves, and whether it succeeds. -/
def tryApplyMappedRegionProtection (memory : KernelMemory)
    (address length : UInt64) (protection : Int32) (memoryType : Option Int32) :
    KernelMemory × Bool :=
  if length = 0 then (memory, false)
  else
    match Word64.checkedAdd address length with
    | none => (memory, false)
    | some endAddress =>
        match affectedRegions endAddress memory.mappedRegions.entries address with
        | none => (memory, false)
        | some affected =>
            let removed := affected.foldl (fun regions region =>
              regions.remove region.address) memory.mappedRegions
            ({ memory with
                mappedRegions :=
                  affected.foldl (protectRegion address endAddress protection) removed
                directAllocations :=
                  match memoryType with
                  | none => memory.directAllocations
                  | some memoryType =>
                      affected.foldl (retypeRegion memoryType) memory.directAllocations },
              true)

/-! ## Unmapping -/

def liesWithin (address rangeEnd : UInt64) (region : MappedRegion) : Bool :=
  address ≤ region.address && region.address < rangeEnd && region.length ≤ rangeEnd - region.address

def unmapRegion (memory : KernelMemory) (region : MappedRegion) : KernelMemory :=
  { memory with
    mappedRegions := memory.mappedRegions.remove region.address
    allocatedFlexibleBytes :=
      if region.isFlexible then
        if region.length ≥ memory.allocatedFlexibleBytes then 0
        else memory.allocatedFlexibleBytes - region.length
      else memory.allocatedFlexibleBytes }

/-- How an unmapping ends: its result, the state, and the range that is registered
as released. -/
structure MunmapOutcome where
  result : OrbisResult
  after : KernelMemory
  releasedRange : Option (UInt64 × UInt64)

/-- `physicallyBacked` says whether guest memory stands behind all of the range. -/
def kernelMunmap (memory : KernelMemory) (address length : UInt64)
    (physicallyBacked : Bool) : MunmapOutcome :=
  if address = 0 ∨ length = 0 ∨ 0xFFFFFFFFFFFFFFFF - address < length then
    ⟨.invalidArgument, memory, none⟩
  else
    let removedRegions :=
      memory.mappedRegions.entries.filter (liesWithin address (address + length))
    if removedRegions.isEmpty && !physicallyBacked then ⟨.notFound, memory, none⟩
    else ⟨.ok, removedRegions.foldl unmapRegion memory, some (address, length)⟩

/-! ## What an address sees -/

/-- What a region says about one of its addresses. -/
structure MappedByte where
  protection : Int32
  isFlexible : Bool
  isDirect : Bool
  directOffset : UInt64
deriving DecidableEq, Repr

def MappedRegion.extent (region : MappedRegion) : Extent :=
  ⟨region.address.toNat, region.length.toNat⟩

def MappedRegion.byteAt (region : MappedRegion) (address : ℕ) : MappedByte where
  protection := region.protection
  isFlexible := region.isFlexible
  isDirect := region.isDirect
  directOffset :=
    if region.isDirect then
      region.directStart + (.ofNat address - region.address)
    else 0

def bytesAt (regions : SortedTable MappedRegion.address) (address : ℕ) :
    Multiset MappedByte :=
  Extent.valuesAt MappedRegion.extent MappedRegion.byteAt regions.entries address

end MappedRegions
end SharpEmu
