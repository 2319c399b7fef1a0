import SharpEmu.CommittedRangeCache

/-!
# Regions on a host that keeps its promises

Allocations only add regions.  On a host that keeps the contract every tracked
region lies in a block of its own, a region that is not only reserved is
committed throughout, and what was committed before an allocation is committed
after it.
-/

namespace SharpEmu
namespace PhysicalVirtualMemory

open Faulting

variable {HostState : Type} {view : HostView HostState}

/-- The region lies in the block at its address, and is committed unless it is
only reserved. -/
structure RegionHeld (view : HostView HostState) (host : HostState)
    (region : MemoryRegion) : Prop where
  aligned : 4096 ∣ region.virtualAddress.toNat
  sizeAligned : 4096 ∣ region.size.toNat
  nonempty : 0 < region.size.toNat
  held : ∀ byte, region.virtualAddress.toNat ≤ byte →
    byte < region.virtualAddress.toNat + region.size.toNat →
      view.blockOf host byte = some region.virtualAddress ∧
        (region.isReservedOnly = false → view.committed host byte)

variable {region : MemoryRegion} {before after : HostState}

theorem RegionHeld.kept {excepted : Option UInt64} (isHeld : RegionHeld view before region)
    (kept : view.KeptExcept excepted before after)
    (different : some region.virtualAddress ≠ excepted) :
    RegionHeld view after region where
  aligned := isHeld.aligned
  sizeAligned := isHeld.sizeAligned
  nonempty := isHeld.nonempty
  held byte above below := by
    obtain ⟨inBlock, isCommitted⟩ := isHeld.held byte above below
    obtain ⟨stillInBlock, stillCommitted⟩ := kept byte _ inBlock different
    exact ⟨stillInBlock, fun notReserved =>
      stillCommitted (isCommitted notReserved)⟩

structure RegionsHeld (view : HostView HostState) (host : HostState)
    (regions : List MemoryRegion) : Prop where
  distinct : (regions.map MemoryRegion.virtualAddress).Nodup
  held : ∀ region ∈ regions, RegionHeld view host region

theorem RegionsHeld.kept {regions : List MemoryRegion} (isHeld : RegionsHeld view before regions)
    (kept : view.Kept before after) : RegionsHeld view after regions where
  distinct := isHeld.distinct
  held region member := (isHeld.held region member).kept kept (by simp)

/-- What an allocation may do to the allocator and its host. -/
structure GrownFrom (view : HostView HostState) (start machine : Machine HostState) :
    Prop where
  kept : view.Kept start.host machine.host
  tracked : start.memory.regions ⊆ machine.memory.regions
  held : RegionsHeld view machine.host machine.memory.regions

variable {machine : Machine HostState}

theorem grownFrom_refl (held : RegionsHeld view machine.host machine.memory.regions) :
    GrownFrom view machine machine :=
  ⟨HostView.kept_refl _, List.Subset.refl _, held⟩

variable {host : HostState}

theorem GrownFrom.onHost {start : Machine HostState} (grown : GrownFrom view start machine)
    (kept : view.Kept machine.host host) :
    GrownFrom view start ⟨machine.memory, host⟩ :=
  ⟨grown.kept.trans kept, grown.tracked, grown.held.kept kept⟩

variable {services : HostMemoryServices HostState}
variable {platform : MemoryPlatform}
variable {query : HostState → UInt64 → Option HostRegionInfo}

theorem undisturbed_grownFrom (contract : CommitContract services query view)
    (start : Machine HostState) :
    Undisturbed services (GrownFrom view start) where
  hints _ _ _ grown := ⟨grown.kept, grown.tracked, grown.held⟩
  protections _ _ _ grown := ⟨grown.kept, grown.tracked, grown.held⟩
  commit _ host _ _ _ grown := grown.onHost (contract.commit host _ _ _)
  protect _ host _ _ _ grown := grown.onHost (contract.protect host _ _ _)

/-! ## Placing a block -/

structure FreshlyPlaced (view : HostView HostState) (address size : UInt64)
    (reservedOnly : Bool) (machine : Machine HostState) : Prop where
  aligned : 4096 ∣ address.toNat
  nonempty : 0 < size.toNat
  untracked : ∀ region ∈ machine.memory.regions,
    region.virtualAddress ≠ address
  placed : ∀ byte, address.toNat ≤ byte →
    byte < address.toNat + size.toNat →
      view.blockOf machine.host byte = some address ∧
        (reservedOnly = false → view.committed machine.host byte)

variable {size address : UInt64}

theorem freshlyPlaced_of_answer {commits : Bool}
    (held : RegionsHeld view machine.host machine.memory.regions)
    (placement : PlacementKept view size commits machine.host (address, host))
    (nonzero : address ≠ 0) :
    FreshlyPlaced view address size (!commits) ⟨machine.memory, host⟩ where
  aligned := (placement.aligned nonzero).1
  nonempty := (placement.aligned nonzero).2
  untracked region member := by
    rintro rfl
    have isHeld := held.held region member
    have nonempty := isHeld.nonempty
    exact placement.fresh nonzero _ (isHeld.held _ (Nat.le_refl _) (by omega)).1
  placed byte above below := by
    obtain ⟨inBlock, isCommitted⟩ := placement.placed nonzero byte above below
    exact ⟨inBlock, fun notReserved => isCommitted (by simpa using notReserved)⟩

theorem FreshlyPlaced.kept {reservedOnly : Bool} {memory : MemoryState}
    (placed : FreshlyPlaced view address size reservedOnly ⟨memory, before⟩)
    (kept : view.Kept before after) :
    FreshlyPlaced view address size reservedOnly ⟨memory, after⟩ where
  aligned := placed.aligned
  nonempty := placed.nonempty
  untracked := placed.untracked
  placed byte above below := by
    obtain ⟨inBlock, isCommitted⟩ := placed.placed byte above below
    obtain ⟨stillInBlock, stillCommitted⟩ := kept byte _ inBlock (by simp)
    exact ⟨stillInBlock, fun notReserved =>
      stillCommitted (isCommitted notReserved)⟩

theorem dvd_alignedRequestSize (size : UInt64) : 4096 ∣ (alignedRequestSize size).toNat := by
  rw [alignedRequestSize_eq]
  exact Word64.dvd_wrappingRoundUp size ⟨by decide, by decide⟩

theorem GrownFrom.record {start : Machine HostState} (grown : GrownFrom view start machine)
    (sizeEq : region.size = alignedRequestSize size)
    (placed : FreshlyPlaced view region.virtualAddress
      (alignedRequestSize size) region.isReservedOnly machine) :
    GrownFrom view start ⟨{ machine.memory with
        regions := insertRegionSorted region machine.memory.regions },
        machine.host⟩ := by
  have permuted := PartitionSearch.insertAtPartition_perm
    (fun other : MemoryRegion => other.virtualAddress < region.virtualAddress)
    region machine.memory.regions
  have isHeld : RegionHeld view machine.host region :=
    ⟨placed.aligned, sizeEq ▸ dvd_alignedRequestSize size,
      sizeEq ▸ placed.nonempty, sizeEq ▸ placed.placed⟩
  refine ⟨grown.kept, fun other member => ?_, ?_, fun other member => ?_⟩
  · exact permuted.mem_iff.mpr (List.mem_cons_of_mem _ (grown.tracked member))
  · refine ((permuted.map _).nodup_iff).mpr
      (List.nodup_cons.mpr ⟨fun member => ?_, grown.held.distinct⟩)
    obtain ⟨other, isTracked, sameAddress⟩ := List.mem_map.mp member
    exact placed.untracked other isTracked sameAddress
  · rcases List.mem_cons.mp (permuted.mem_iff.mp member) with rfl | earlier
    · exact isHeld
    · exact grown.held.held other earlier

/-! ## The allocator's programs -/

section Programs

variable {start : Machine HostState}

theorem placementKept_request (contract : CommitContract services query view)
    (request : PlacementRequest) (size : UInt64) (host : HostState) :
    PlacementKept view size (!decide (request.kind = .reserve)) host
      (request.service services size host) := by
  unfold PlacementRequest.service
  cases request.kind with
  | reserve => exact contract.reserve host _ _ _
  | allocate protection => exact contract.allocate host _ _ _

def GrownWithBlock (view : HostView HostState) (start : Machine HostState)
    (address size : UInt64) (reservedOnly : Bool)
    (machine : Machine HostState) : Prop :=
  GrownFrom view start machine ∧ FreshlyPlaced view address size reservedOnly machine

theorem firstPlacement_grown (contract : CommitContract services query view)
    (alignedSize : UInt64) (requests : List PlacementRequest) :
    Ensures (GrownFrom view start) (firstPlacement services alignedSize requests)
      (fun placed machine => match placed with
        | none => GrownFrom view start machine
        | some answer =>
          GrownWithBlock view start answer.1 alignedSize answer.2 machine)
      (GrownFrom view start) := by
  induction requests with
  | nil => exact ensures_pure fun _ grown => grown
  | cons request rest ih =>
    have asked : Ensures (GrownFrom view start) (onHost (request.service services alignedSize))
        (fun result machine => GrownFrom view start machine ∧
          (result ≠ 0 → FreshlyPlaced view result alignedSize (request.kind = .reserve) machine))
        (GrownFrom view start) := by
      refine ensures_modifyGet fun machine grown => ?_
      have placement := placementKept_request contract request alignedSize machine.host
      refine ⟨grown.onHost placement.kept, fun nonzero => ?_⟩
      have placed := freshlyPlaced_of_answer grown.held placement nonzero
      rwa [Bool.not_not] at placed
    apply asked.bind
    intro result
    refine Ensures.ite (fun nonzero => ?_) fun _ => ?_
    · exact ensures_pure fun machine known => ⟨known.1, known.2 nonzero⟩
    · exact ih.ofPre fun _ known => known.1

theorem recordRegion_grown {Value : Type} {size : UInt64} (region : MemoryRegion) (value : Value)
    (sizeEq : region.size = alignedRequestSize size) :
    Ensures (GrownWithBlock view start region.virtualAddress
        (alignedRequestSize size) region.isReservedOnly)
      (do
        onMemory fun memory => { memory with
          regions := insertRegionSorted region memory.regions }
        pure value : Program HostState Value)
      (fun _ => GrownFrom view start) (GrownFrom view start) :=
  Ensures.bind (ensures_modify fun _ known => known.1.record sizeEq known.2)
    fun _ => ensures_pure fun _ grown => grown

theorem keepsGrown_allocateAt (contract : CommitContract services query view)
    (desiredAddress size : UInt64) (executable allowAlternative : Bool) :
    Keeps (GrownFrom view start) (allocateAt platform services desiredAddress
      size executable allowAlternative) := by
  refine Keeps.ite (fun _ => keeps_throw _) fun _ => ?_
  apply (firstPlacement_grown contract _ _).bind
  intro placed
  cases placed with
  | none => exact ensures_throw fun _ grown => grown
  | some answer =>
    obtain ⟨actualAddress, reservedOnly⟩ := answer
    let region : MemoryRegion :=
      { virtualAddress := actualAddress
        size := alignedRequestSize size
        isExecutable := executable
        isReservedOnly := reservedOnly
        protection :=
          if executable then pageExecuteReadWrite else pageReadWrite }
    refine Ensures.ite (fun _ => ?_)
      fun _ => recordRegion_grown region actualAddress rfl
    have commitKept : ∀ memory host address size' protection,
        GrownWithBlock view start actualAddress (alignedRequestSize size)
          reservedOnly ⟨memory, host⟩ →
        GrownWithBlock view start actualAddress (alignedRequestSize size) reservedOnly
          ⟨memory, (services.commit host address size' protection).2⟩ := by
      intro memory host address size' protection known
      have kept := contract.commit host address size' protection
      exact ⟨known.1.onHost kept, known.2.kept kept⟩
    have primed := keeps_primeLazyRegion commitKept actualAddress
      (min (alignedRequestSize size) platform.lazyReservePrimeBytes)
      (primeChunkCount (min (alignedRequestSize size) platform.lazyReservePrimeBytes)) 0
    exact Ensures.bind (primed.imp (fun _ known => known)
      (fun _ _ known => known) fun _ known => known.1)
        fun _ => recordRegion_grown region actualAddress rfl

theorem keepsGrown_tryAllocateAtExact (contract : CommitContract services query view)
    (desiredAddress size : UInt64) (executable : Bool) :
    Keeps (GrownFrom view start) (tryAllocateAtExact services desiredAddress size executable) := by
  refine Keeps.ite (fun _ => keeps_pure _) fun _ => ?_
  have asked : Ensures (GrownFrom view start)
      (onHost fun host => services.allocate host desiredAddress (alignedRequestSize size)
        (if executable then .readWriteExecute else .readWrite))
      (fun result machine => GrownFrom view start machine ∧ (result ≠ 0 →
          FreshlyPlaced view result (alignedRequestSize size) false machine ∧
          ∃ before, PlacementKept view (alignedRequestSize size) true before
            (result, machine.host) ∧ GrownFrom view start ⟨machine.memory, before⟩))
      (GrownFrom view start) := by
    refine ensures_modifyGet fun machine grown => ?_
    have placement := contract.allocate machine.host desiredAddress (alignedRequestSize size)
      (if executable then .readWriteExecute else .readWrite)
    exact ⟨grown.onHost placement.kept, fun nonzero =>
      ⟨freshlyPlaced_of_answer grown.held placement nonzero, machine.host, placement, grown⟩⟩
  apply asked.bind
  intro result
  refine Ensures.ite (fun _ => ?_) fun nonzero => ?_
  · exact ensures_pure fun _ known => known.1
  refine Ensures.ite (fun _ => ?_) fun isDesired => ?_
  · have givenBack : Ensures (fun machine => ∃ before, PlacementKept view (alignedRequestSize size)
          true before (result, machine.host) ∧ GrownFrom view start ⟨machine.memory, before⟩)
        (onHost fun host => ((), services.free host result))
        (fun _ => GrownFrom view start) (GrownFrom view start) := by
      refine ensures_modifyGet fun machine known => ?_
      obtain ⟨before, placement, grown⟩ := known
      have kept : view.Kept before (services.free machine.host result) := by
        intro byte base inBlock _
        have different : base ≠ result := by
          rintro rfl
          exact placement.fresh nonzero byte inBlock
        obtain ⟨stillInBlock, stillCommitted⟩ :=
          placement.kept byte base inBlock (by simp)
        obtain ⟨atEnd, committedAtEnd⟩ := contract.free machine.host result byte
          base stillInBlock (by simpa using different)
        exact ⟨atEnd, fun wasCommitted =>
          committedAtEnd (stillCommitted wasCommitted)⟩
      exact grown.onHost kept
    exact (givenBack.ofPre fun machine known => (known.2 nonzero).2).bind
      fun _ => ensures_pure fun _ grown => grown
  · let region : MemoryRegion :=
      { virtualAddress := result
        size := alignedRequestSize size
        isExecutable := executable
        isReservedOnly := false
        protection :=
          if executable then pageExecuteReadWrite else pageReadWrite }
    exact (recordRegion_grown region (some result) rfl).ofPre
      fun machine known => ⟨known.1, (known.2 nonzero).1⟩

theorem keepsGrown_onMemory {change : MemoryState → MemoryState}
    (sameRegions : ∀ memory, (change memory).regions = memory.regions) :
    Keeps (GrownFrom view start) (onMemory change : Program HostState Unit) :=
  keeps_onMemory fun memory _ grown =>
    ⟨grown.kept, by rw [sameRegions]; exact grown.tracked,
      by rw [sameRegions]; exact grown.held⟩

theorem keepsGrown_ensureGuestArena (contract : CommitContract services query view) :
    Keeps (GrownFrom view start) (ensureGuestArena platform services) := by
  refine keeps_readMemory.bind fun memory => ?_
  refine Keeps.ite (fun _ => ?_) fun _ => keeps_pure _
  refine Keeps.tryCatch ?_ fun _ => keeps_pure _
  refine (keepsGrown_allocateAt contract _ _ _ _).bind fun base => ?_
  refine Keeps.bind (keepsGrown_onMemory ?_) fun _ => keeps_pure _
  intro memory
  rfl

theorem keeps_findFreeRange {property : Machine HostState → Prop}
    (size alignment : UInt64) (ranges : List FreeRange) :
    Keeps property (findFreeRange size alignment ranges) := by
  induction ranges with
  | nil => exact keeps_pure _
  | cons range rest ih =>
    refine (keeps_alignUp _ _).bind fun alignedOffset => ?_
    exact Keeps.ite (fun _ => keeps_pure _) fun _ => ih

theorem keepsGrown_tryAllocateGuestMemory
    (contract : CommitContract services query view) (size alignment : UInt64) :
    Keeps (GrownFrom view start) (tryAllocateGuestMemory platform services size alignment) := by
  refine Keeps.ite (fun _ => keeps_pure _) fun _ => ?_
  refine (keepsGrown_ensureGuestArena contract).bind fun arenaExists => ?_
  refine Keeps.ite (fun _ => ?_) fun _ => keeps_pure _
  refine keeps_readMemory.bind fun memory => ?_
  refine (keeps_findFreeRange _ _ _).bind fun found => ?_
  cases found with
  | none => exact keeps_pure _
  | some found =>
    refine Keeps.bind (keepsGrown_onMemory ?_) fun _ => keeps_pure _
    intro memory'
    rfl

theorem keepsGrown_tryFreeGuestMemory (address : UInt64) : Keeps (GrownFrom view start)
      (tryFreeGuestMemory address : Program HostState Bool) := by
  refine keeps_readMemory.bind fun memory => ?_
  cases memory.guestAllocations.get? address with
  | none => exact keeps_pure _
  | some allocation =>
    refine Keeps.bind (keepsGrown_onMemory ?_) fun _ => keeps_pure _
    intro memory'
    rfl

theorem keepsGrown_tryAllocateAtOrAbove (contract : CommitContract services query view)
    (searches : platform.isMacOS = false) (desiredAddress size : UInt64)
    (executable : Bool) (alignment : UInt64) :
    Keeps (GrownFrom view start) (tryAllocateAtOrAbove platform services
      desiredAddress size executable alignment) := by
  refine Keeps.ite (fun _ => keeps_pure _) fun _ => ?_
  refine (keeps_alignUp _ _).bind fun alignedSize => ?_
  refine (keeps_alignUp _ _).bind fun requestedCursor => ?_
  refine (keeps_getAllocationSearchCursor _ _ _ _).bind fun cursor => ?_
  refine Keeps.ite (fun isMacOS => ?_) fun _ => ?_
  · rw [searches] at isMacOS
    cases isMacOS
  · exact (undisturbed_grownFrom contract start).keeps_searchFromCursor
      (keepsGrown_tryAllocateAtExact contract) _ _ _

end Programs

/-- The operations that leave the generation of the mappings alone: `Clear`
counts it up, and so may a search that over-allocates. -/
def MemoryOperation.KeepsGeneration (platform : MemoryPlatform) : MemoryOperation → Prop
  | .clear => False
  | .tryAllocateAtOrAbove .. => platform.isMacOS = false
  | _ => True

theorem keepsGrown_run (contract : CommitContract services query view)
    {start : Machine HostState} (operation : MemoryOperation)
    (keepsGeneration : operation.KeepsGeneration platform) :
    Keeps (GrownFrom view start) (operation.run platform services) := by
  cases operation with
  | allocateAt => exact (keepsGrown_allocateAt contract _ _ _ _).discard
  | tryAllocateAtExact =>
    exact (keepsGrown_tryAllocateAtExact contract _ _ _).discard
  | tryAllocateAtOrAbove =>
    exact (keepsGrown_tryAllocateAtOrAbove contract keepsGeneration
      _ _ _ _).discard
  | map =>
    exact (undisturbed_grownFrom contract start).keeps_map (keepsGrown_allocateAt contract) _ _ _ _
  | tryAllocateGuestMemory =>
    exact (keepsGrown_tryAllocateGuestMemory contract _ _).discard
  | tryFreeGuestMemory => exact (keepsGrown_tryFreeGuestMemory _).discard
  | clear => exact keepsGeneration.elim

end PhysicalVirtualMemory
end SharpEmu
