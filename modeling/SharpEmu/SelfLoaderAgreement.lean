import SharpEmu.SelfLoaderRuns

/-!
# The same image in both memories

The loader runs over either guest memory: the physical one, whose pages are those
of the host, and the managed one, which keeps its regions itself.  They refuse
different images, but an image that both take is the same in both.
-/

namespace SharpEmu

namespace SelfLoader

open Overlays Faulting

/-- Wherever the segments of an image lie, the two memories that it was loaded
into hold the same bytes. -/
theorem memories_hold_alike {HostState : Type} {platform : MemoryPlatform}
    {services : HostMemoryServices HostState}
    {image : ImageData} {imageBase : UInt64} {parsed : ParsedImage}
    {guest : PhysicalVirtualMemory.PhysicalGuest HostState}
    {regions : VirtualMemory.OrderedRegions}
    {physical : LoaderState (PhysicalVirtualMemory.PhysicalGuest HostState)}
    {managed : LoaderState VirtualMemory.OrderedRegions}
    (physicallyLoaded : (loadSegments (PhysicalVirtualMemory.physicalMemory platform services)
        image imageBase).outcome (.start guest) = (.ok parsed, physical))
    (managedLoaded : (loadSegments VirtualMemory.managedMemory image imageBase).outcome
        (.start regions) = (.ok parsed, managed)) :
    ∀ segment ∈ loadedSegments image parsed.context imageBase parsed.programHeaders 0,
      ∀ offset < segment.memorySize.toNat, VirtualMemory.byteAt managed.memory.val
            (segment.virtualAddress + .ofNat offset).toNat =
          some (physical.memory.bytes (segment.virtualAddress + .ofNat offset)) := by
  intro segment isSegment offset inside
  obtain ⟨faithful, reached, -, mapped⟩ := loadSegments_eq_ok physicallyLoaded
  obtain ⟨-, other, -, otherMapped⟩ := loadSegments_eq_ok managedLoaded
  have wellFormed := faithful.accepted.wellFormed
  have covers : segment.contents image (segment.virtualAddress + .ofNat offset) =
      some (segment.byte image offset) :=
    contents_eq_some.mpr ⟨offset, inside, rfl, rfl⟩
  have managedBytes := congrFun (byteAt_mapLoadSegments wellFormed otherMapped)
    (segment.virtualAddress + .ofNat offset)
  have physicalBytes := congrFun (byteAt_mapLoadSegments wellFormed mapped)
    (segment.virtualAddress + .ofNat offset)
  refine managedBytes.trans (.trans (overlayAll_congr (.inl
    ⟨_, List.mem_map_of_mem isSegment, ?_⟩)) physicalBytes.symm)
  rw [covers]
  rfl

/-- A plain ELF file with two program headers, for a byte in each of two pages. -/
def twoPageImage : ImageData where
  bytes := plainElfHeader 2 ++ oneByteHeader 0xB0 ++ [1, 0, 0, 0] ++ [6, 0, 0, 0] ++
    (0xB1 :: List.replicate 7 0) ++ (0 :: 0x10 :: List.replicate 6 0) ++
    List.replicate 8 0 ++ (1 :: List.replicate 7 0) ++ (1 :: List.replicate 7 0) ++
    List.replicate 8 0 ++ [0xAA, 0xBB]
  length_le := by decide +kernel

def twoPageParsed : ParsedImage :=
  { overlappingParsed with
    programHeaders := [⟨1, 6, 0xB0, 0, 0, 1, 1, 0⟩, ⟨1, 6, 0xB1, 0x1000, 0, 1, 1, 0⟩] }

def twoPageLoad {Memory : Type} (memory : IVirtualMemory Memory) (before : Memory) :
    Except LoadFault ParsedImage × LoaderState Memory :=
  (loadSegments memory twoPageImage 0x800000000).outcome (.start before)

def physicalTwoPageLoad : Except LoadFault ParsedImage ×
    LoaderState (PhysicalVirtualMemory.PhysicalGuest Unit) :=
  twoPageLoad (PhysicalVirtualMemory.physicalMemory
    PhysicalVirtualMemory.linuxPlatform PhysicalVirtualMemory.grantingHost)
    freshGuest

def managedTwoPageLoad : Except LoadFault ParsedImage × LoaderState VirtualMemory.OrderedRegions :=
  twoPageLoad VirtualMemory.managedMemory ⟨[], by simp, .nil⟩

theorem memories_hold_alike_pages :
    physicalTwoPageLoad.1 = .ok twoPageParsed ∧
    ∀ segment ∈ [(⟨0x800000000, 1, 0xB0, 1⟩ : LoadedSegment), ⟨0x800001000, 1, 0xB1, 1⟩],
      ∀ offset < segment.memorySize.toNat, VirtualMemory.byteAt managedTwoPageLoad.2.memory.val
            (segment.virtualAddress + .ofNat offset).toNat =
          some (physicalTwoPageLoad.2.memory.bytes (segment.virtualAddress + .ofNat offset)) := by
  have isPhysical : physicalTwoPageLoad.1 = .ok twoPageParsed := by
    decide +kernel
  have isManaged : managedTwoPageLoad.1 = .ok twoPageParsed := by decide +kernel
  have physical : physicalTwoPageLoad = (.ok twoPageParsed, physicalTwoPageLoad.2) := by
    rw [← isPhysical]
  have managed : managedTwoPageLoad = (.ok twoPageParsed, managedTwoPageLoad.2) := by
    rw [← isManaged]
  have segments : loadedSegments twoPageImage twoPageParsed.context 0x800000000
      twoPageParsed.programHeaders 0 = [⟨0x800000000, 1, 0xB0, 1⟩, ⟨0x800001000, 1, 0xB1, 1⟩] := by
    decide +kernel
  rw [← segments]
  exact ⟨isPhysical, memories_hold_alike physical managed⟩

end SelfLoader

end SharpEmu
