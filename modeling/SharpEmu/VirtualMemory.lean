import SharpEmu.MachineWords
import SharpEmu.PartitionPointSearch
import SharpEmu.RangeCoverage
import SharpEmu.TransitionRuns

/-!
# Guest memory kept in managed buffers

`VirtualMemory` keeps a list of mapped regions sorted by address, each with its
own byte buffer.  Reads and writes first validate the whole range in one walk
over the list and then copy in a second one, so that a range may cross regions
that lie back to back.
-/

namespace SharpEmu
namespace VirtualMemory

abbrev ProgramHeaderFlags := UInt32

def flagExecute : ProgramHeaderFlags := 0x1
def flagWrite : ProgramHeaderFlags := 0x2
def flagRead : ProgramHeaderFlags := 0x4

structure VirtualMemoryRegion where
  virtualAddress : UInt64
  memorySize : UInt64
  fileOffset : UInt64
  fileSize : UInt64
  protection : ProgramHeaderFlags
deriving DecidableEq, Repr

structure MappedRegion where
  region : VirtualMemoryRegion
  endAddress : UInt64
  backingMemory : List UInt8
deriving DecidableEq, Repr

inductive MemoryFault
  | argumentOutOfRange
  | notSupported
  | overflow
  | invalidOperation
deriving DecidableEq, Repr

def intMaxValue : UInt64 := 0x7FFFFFFF

def findInsertionIndex (regions : List MappedRegion) (virtualAddress : UInt64) :
    ℕ :=
  PartitionSearch.insertionIndex
    (fun mapped => mapped.region.virtualAddress < virtualAddress) regions

/-! ## Mapping -/

def overlapsNeighbour (regions : List MappedRegion) (virtualAddress endAddress : UInt64) : Bool :=
  let insertionIndex := findInsertionIndex regions virtualAddress
  (insertionIndex > 0 && (regions[insertionIndex - 1]?).any fun previous =>
      virtualAddress < previous.endAddress) ||
    (regions[insertionIndex]?).any fun next =>
      endAddress > next.region.virtualAddress

def map (regions : List MappedRegion)
    (virtualAddress memorySize fileOffset : UInt64) (fileData : List UInt8)
    (protection : ProgramHeaderFlags) :
    Except MemoryFault (List MappedRegion) :=
  if memorySize = 0 then .error .argumentOutOfRange
  else if fileData.length > memorySize.toNat then .error .argumentOutOfRange
  else if memorySize > intMaxValue then .error .notSupported
  else
    match Word64.checkedAdd virtualAddress memorySize with
    | none => .error .overflow
    | some endAddress =>
        if overlapsNeighbour regions virtualAddress endAddress then
          .error .invalidOperation
        else
          .ok (PartitionSearch.insertAtPartition
            (fun mapped => mapped.region.virtualAddress < virtualAddress)
            { region :=
                { virtualAddress, memorySize, fileOffset
                  fileSize := UInt64.ofNat fileData.length
                  protection }
              endAddress
              backingMemory := fileData ++ List.replicate (memorySize.toNat - fileData.length) 0 }
            regions)

/-! ## Validation -/

def findContainingRegionIndex (regions : List MappedRegion) (virtualAddress : UInt64) : Option ℕ :=
  let insertionIndex := findInsertionIndex regions virtualAddress
  if (regions[insertionIndex]?).any
      (fun mapped => mapped.region.virtualAddress = virtualAddress) then
    some insertionIndex
  else if insertionIndex > 0 ∧ (regions[insertionIndex - 1]?).any
      (fun candidate => virtualAddress < candidate.endAddress) then
    some (insertionIndex - 1)
  else none

def validateFrom (requiredProtection : ProgramHeaderFlags) : List MappedRegion → UInt64 → ℕ → Bool
  | [], _, _ => false
  | mapped :: rest, currentAddress, remaining =>
      if currentAddress < mapped.region.virtualAddress ∨ currentAddress ≥ mapped.endAddress ∨
          mapped.region.protection &&& requiredProtection = 0 then false
      else if remaining = 0 then true
      else
        let available := mapped.endAddress - currentAddress
        let chunkLength := min remaining available.toNat
        if remaining - chunkLength = 0 then true
        else
          validateFrom requiredProtection rest
            (currentAddress + UInt64.ofNat chunkLength) (remaining - chunkLength)

def tryValidateRange (regions : List MappedRegion) (virtualAddress : UInt64)
    (length : ℕ) (requiredProtection : ProgramHeaderFlags) : Option ℕ :=
  (findContainingRegionIndex regions virtualAddress).filter fun regionIndex =>
    validateFrom requiredProtection (regions.drop regionIndex) virtualAddress length

/-! ## Copying -/

/-- The copying walk of a read.  Running off the list, or starting past a
buffer's end, throws. -/
def copyFromRegions : List MappedRegion → UInt64 → ℕ → Except MemoryFault (List UInt8)
  | _, _, 0 => .ok []
  | [], _, _ + 1 => .error .argumentOutOfRange
  | mapped :: rest, currentAddress, remaining + 1 =>
      let regionOffset := (currentAddress - mapped.region.virtualAddress).toNat
      if regionOffset > mapped.backingMemory.length then
        .error .argumentOutOfRange
      else
        let chunkLength :=
          min (remaining + 1) (mapped.backingMemory.length - regionOffset)
        ((mapped.backingMemory.drop regionOffset).take chunkLength ++ ·) <$>
          copyFromRegions rest (currentAddress + UInt64.ofNat chunkLength)
            (remaining + 1 - chunkLength)

def splice (buffer : List UInt8) (offset : ℕ) (chunk : List UInt8) :
    List UInt8 :=
  buffer.take offset ++ chunk ++ buffer.drop (offset + chunk.length)

def copyToRegions : List MappedRegion → UInt64 → List UInt8 →
      Except MemoryFault Unit × List MappedRegion
  | regions, _, [] => (.ok (), regions)
  | [], _, _ :: _ => (.error .argumentOutOfRange, [])
  | mapped :: rest, currentAddress, byte :: bytes =>
      let source := byte :: bytes
      let regionOffset := (currentAddress - mapped.region.virtualAddress).toNat
      if regionOffset > mapped.backingMemory.length then
        (.error .argumentOutOfRange, mapped :: rest)
      else
        let chunkLength :=
          min source.length (mapped.backingMemory.length - regionOffset)
        let copied := copyToRegions rest
          (currentAddress + UInt64.ofNat chunkLength) (source.drop chunkLength)
        (copied.1,
          { mapped with
            backingMemory := splice mapped.backingMemory regionOffset
              (source.take chunkLength) } :: copied.2)

/-! ## The operations -/

/-- A read answers the bytes, or nothing when it returns `false`. -/
def tryRead (regions : List MappedRegion) (virtualAddress : UInt64)
    (length : ℕ) : Except MemoryFault (Option (List UInt8)) :=
  match tryValidateRange regions virtualAddress length flagRead with
  | none => .ok none
  | some regionIndex =>
      some <$> copyFromRegions (regions.drop regionIndex) virtualAddress length

def tryWrite (regions : List MappedRegion) (virtualAddress : UInt64)
    (source : List UInt8) : Except MemoryFault Bool × List MappedRegion :=
  match tryValidateRange regions virtualAddress source.length flagWrite with
  | none => (.ok false, regions)
  | some regionIndex =>
      let copied := copyToRegions (regions.drop regionIndex) virtualAddress source
      ((fun _ => true) <$> copied.1, regions.take regionIndex ++ copied.2)

inductive VirtualMemoryOperation
  | map (virtualAddress memorySize fileOffset : UInt64) (fileData : List UInt8)
      (protection : ProgramHeaderFlags)
  | tryWrite (virtualAddress : UInt64) (source : List UInt8)
  | clear
deriving DecidableEq, Repr

/-- The regions after a call, also when it throws. -/
def VirtualMemoryOperation.run (regions : List MappedRegion) :
    VirtualMemoryOperation → List MappedRegion
  | .map virtualAddress memorySize fileOffset fileData protection =>
      match VirtualMemory.map regions virtualAddress memorySize fileOffset fileData
          protection with
      | .ok mapped => mapped
      | .error _ => regions
  | .tryWrite virtualAddress source =>
      (VirtualMemory.tryWrite regions virtualAddress source).2
  | .clear => []

def Initial (regions : List MappedRegion) : Prop :=
  regions = []

def Step (before : List MappedRegion) (operation : VirtualMemoryOperation)
    (after : List MappedRegion) : Prop :=
  after = operation.run before

end VirtualMemory
end SharpEmu
