import SharpEmu.PhysicalVirtualMemoryFrames
import SharpEmu.RangeCoverage

/-!
# The region list of physical virtual memory

A host keeps a ledger of the blocks it has handed out: a granted placement is a
fresh block, and a release removes the block with that base.  On such a host
every tracked region lies in a block of its own, so the region list stays sorted
and disjoint, and the binary search for a region agrees with a linear scan.
-/

namespace SharpEmu
namespace PhysicalVirtualMemory

open Faulting Extent

variable {HostState : Type}

def MemoryRegion.extent (region : MemoryRegion) : Extent :=
  ⟨region.virtualAddress.toNat, region.size.toNat⟩

@[simp]
theorem MemoryRegion.extent_start (region : MemoryRegion) :
    region.extent.start = region.virtualAddress.toNat := rfl

@[simp]
theorem MemoryRegion.extent_length (region : MemoryRegion) :
    region.extent.length = region.size.toNat := rfl

/-! ## Finding a region -/

def Resolves (address size : UInt64) (region : MemoryRegion) : Bool :=
  (tryResolveRegionOffset address size region).isSome

theorem resolves_iff {address size : UInt64} {region : MemoryRegion} :
    Resolves address size region = true ↔ region.virtualAddress.toNat ≤ address.toNat ∧
        address.toNat + size.toNat ≤ region.virtualAddress.toNat + region.size.toNat := by
  unfold Resolves tryResolveRegionOffset
  by_cases below : address < region.virtualAddress
  · rw [if_pos below]
    rw [UInt64.lt_iff_toNat_lt] at below
    simp only [Option.isSome_none, Bool.false_eq_true, false_iff]
    omega
  · rw [if_neg below]
    have above := not_lt.mp below
    have offset := UInt64.toNat_sub_of_le _ _ above
    rw [UInt64.le_iff_toNat_le] at above
    simp only
    by_cases beyond : address - region.virtualAddress > region.size
    · rw [if_pos beyond]
      rw [gt_iff_lt, UInt64.lt_iff_toNat_lt] at beyond
      simp only [Option.isSome_none, Bool.false_eq_true, false_iff]
      omega
    · rw [if_neg beyond]
      have within := not_lt.mp beyond
      have room := UInt64.toNat_sub_of_le _ _ within
      rw [UInt64.le_iff_toNat_le] at within
      by_cases tooLong : size > region.size - (address - region.virtualAddress)
      · rw [if_pos tooLong]
        rw [gt_iff_lt, UInt64.lt_iff_toNat_lt] at tooLong
        simp only [Option.isSome_none, Bool.false_eq_true, false_iff]
        omega
      · rw [if_neg tooLong]
        have fits := not_lt.mp tooLong
        rw [UInt64.le_iff_toNat_le] at fits
        simp only [Option.isSome_some, true_iff]
        omega

/-- A region list in the order its insertion keeps: strictly ascending starts,
no empty region, no overlap. -/
structure RegionsOrdered (regions : List MemoryRegion) : Prop where
  sorted : regions.Pairwise fun first second =>
    first.virtualAddress < second.virtualAddress
  nonempty : ∀ region ∈ regions, 0 < region.size.toNat
  separated : (regions.map MemoryRegion.extent).Pairwise Separated

section Finding

variable {regions : List MemoryRegion} {address size : UInt64}

theorem RegionsOrdered.passesPrefix (ordered : RegionsOrdered regions) (address : UInt64) :
    PartitionSearch.PassesPrefix
      (fun region => decide (region.virtualAddress ≤ address)) regions := by
  refine ordered.sorted.imp fun before passes => ?_
  simp only [decide_eq_true_eq] at passes ⊢
  exact (before.trans_le passes).le

theorem RegionsOrdered.ends_before (ordered : RegionsOrdered regions)
    {front back : List MemoryRegion} {candidate region : MemoryRegion}
    (split : regions = front ++ candidate :: back) (member : region ∈ front) :
    region.virtualAddress.toNat + region.size.toNat ≤
      candidate.virtualAddress.toNat := by
  have sorted := ordered.sorted
  have separated := List.pairwise_map.mp ordered.separated
  have nonempty := ordered.nonempty candidate (by simp [split])
  rw [split] at sorted separated
  have before := (List.pairwise_append.mp sorted).2.2 region member candidate List.mem_cons_self
  have apart := (List.pairwise_append.mp separated).2.2 region member candidate List.mem_cons_self
  rw [UInt64.lt_iff_toNat_lt] at before
  simp only [Separated, MemoryRegion.extent_start, MemoryRegion.extent_length] at apart
  omega

theorem findRegion_eq_getLast? (ordered : RegionsOrdered regions) :
    findRegion regions address size = (regions.filter (Resolves address size)).getLast? := by
  have passesPrefix := ordered.passesPrefix address
  unfold findRegion
  cases found : PartitionSearch.findLastPassing
      (fun region => decide (region.virtualAddress ≤ address)) regions with
  | none =>
    have allAbove :=
      PartitionSearch.findLastPassing_eq_none passesPrefix found
    have nothing : regions.filter (Resolves address size) = [] := by
      refine List.filter_eq_nil_iff.mpr fun region member resolves => ?_
      have above := allAbove region member
      rw [decide_eq_false_iff_not, UInt64.le_iff_toNat_le] at above
      exact above (resolves_iff.mp resolves).1
    rw [nothing]
    rfl
  | some candidate =>
    obtain ⟨front, back, split, atOrBelow, aboveAfter⟩ :=
      PartitionSearch.findLastPassing_split passesPrefix found
    have noneAfter : back.filter (Resolves address size) = [] := by
      refine List.filter_eq_nil_iff.mpr fun region member resolves => ?_
      have above := aboveAfter region member
      rw [decide_eq_false_iff_not, UInt64.le_iff_toNat_le] at above
      exact above (resolves_iff.mp resolves).1
    rw [split, List.filter_append, List.filter_cons, noneAfter]
    change (if Resolves address size candidate then some candidate
      else none) = _
    by_cases resolves : Resolves address size candidate = true
    · rw [if_pos resolves, if_pos resolves, List.getLast?_concat]
    · have noneBefore : front.filter (Resolves address size) = [] := by
        refine List.filter_eq_nil_iff.mpr fun region member holds => ?_
        have endsBefore := ordered.ends_before split member
        have below := UInt64.le_iff_toNat_le.mp (of_decide_eq_true atOrBelow)
        have holdsNat := resolves_iff.mp holds
        exact resolves (resolves_iff.mpr (by omega))
      rw [if_neg resolves, if_neg resolves, noneBefore]
      rfl

theorem findRegion_eq_find? (ordered : RegionsOrdered regions) (nonempty : size ≠ 0) :
    findRegion regions address size = regions.find? (Resolves address size) := by
  rw [findRegion_eq_getLast? ordered]
  have positive := Word64.toNat_pos nonempty
  cases found : regions.find? (Resolves address size) with
  | none =>
    rw [List.filter_eq_nil_iff.mpr (List.find?_eq_none.mp found)]
    rfl
  | some candidate =>
    obtain ⟨resolves, front, back, split, failsBefore⟩ :=
      List.find?_eq_some_iff_append.mp found
    have noneBefore : front.filter (Resolves address size) = [] :=
      List.filter_eq_nil_iff.mpr fun region member holds => by
        have fails := failsBefore region member
        rw [holds] at fails
        cases fails
    have noneAfter : back.filter (Resolves address size) = [] := by
      refine List.filter_eq_nil_iff.mpr fun region member holds => ?_
      obtain ⟨middle, last, backSplit⟩ := List.append_of_mem member
      have laterSplit : regions = (front ++ candidate :: middle) ++ region :: last := by
        rw [split, backSplit]
        simp
      have endsBefore := ordered.ends_before laterSplit (List.mem_append_right
        front (List.mem_cons_self : candidate ∈ candidate :: middle))
      have candidateHolds := resolves_iff.mp resolves
      have regionHolds := resolves_iff.mp holds
      omega
    rw [split, List.filter_append, List.filter_cons_of_pos resolves, noneBefore, noneAfter]
    rfl

end Finding

/-! ## Hosts that keep a ledger -/

/-- A placement request either hands out nothing, or hands out a fresh block at
a page boundary that holds the requested bytes. -/
structure PlacementHonoured (blocks : HostState → List Extent) (size : UInt64)
    (before : HostState) (answer : UInt64 × HostState) : Prop where
  refused : answer.1 = 0 → blocks answer.2 = blocks before
  granted : answer.1 ≠ 0 → ∃ length,
    blocks answer.2 = ⟨answer.1.toNat, length⟩ :: blocks before ∧
      0 < size.toNat ∧ size.toNat ≤ length ∧
      answer.1.toNat + length ≤ 2 ^ 64 ∧
      pageSize.toNat ∣ answer.1.toNat ∧
      ∀ block ∈ blocks before, block.Separated ⟨answer.1.toNat, length⟩

structure HostLedger (services : HostMemoryServices HostState) where
  blocks : HostState → List Extent
  allocate : ∀ host desiredAddress size protection,
    PlacementHonoured blocks size host
      (services.allocate host desiredAddress size protection)
  reserve : ∀ host desiredAddress size protection,
    PlacementHonoured blocks size host
      (services.reserve host desiredAddress size protection)
  commit : ∀ host address size protection,
    blocks (services.commit host address size protection).2 = blocks host
  protect : ∀ host address size protection,
    blocks (services.protect host address size protection).2 = blocks host
  free : ∀ host address, blocks (services.free host address) =
    (blocks host).filter fun block => block.start ≠ address.toNat

def MemoryRegion.Backed (blocks : List Extent) (region : MemoryRegion) : Prop :=
  ∃ block ∈ blocks, block.start = region.virtualAddress.toNat ∧
    region.size.toNat ≤ block.length ∧ block.start + block.length ≤ 2 ^ 64

structure RegionsBacked (regions : List MemoryRegion) (blocks : List Extent) :
    Prop where
  ordered : RegionsOrdered regions
  backed : ∀ region ∈ regions, region.Backed blocks

structure FreshBlock (regions : List MemoryRegion) (blocks : List Extent)
    (address size : UInt64) : Prop where
  regionsBacked : RegionsBacked regions blocks
  positive : 0 < size.toNat
  pageAligned : pageSize.toNat ∣ address.toNat
  block : ∃ length, (⟨address.toNat, length⟩ : Extent) ∈ blocks ∧
    size.toNat ≤ length ∧ address.toNat + length ≤ 2 ^ 64 ∧
      ∀ region ∈ regions, region.extent.Separated ⟨address.toNat, length⟩

section Bookkeeping

variable {regions : List MemoryRegion} {blocks : List Extent}
variable {address size : UInt64}

theorem FreshBlock.apart (fresh : FreshBlock regions blocks address size) : ∀ region ∈ regions,
      region.extent.Separated ⟨address.toNat, size.toNat⟩ := by
  intro region member
  obtain ⟨length, _, sizeLe, _, separated⟩ := fresh.block
  have regionApart := separated region member
  simp only [Separated] at regionApart ⊢
  omega

theorem FreshBlock.bounded (fresh : FreshBlock regions blocks address size) :
    address.toNat + size.toNat ≤ 2 ^ 64 := by
  obtain ⟨length, _, sizeLe, bounded, _⟩ := fresh.block
  omega

variable {region : MemoryRegion}

theorem MemoryRegion.Backed.mono {moreBlocks : List Extent} (backed : region.Backed blocks)
    (subset : ∀ block ∈ blocks, block ∈ moreBlocks) :
    region.Backed moreBlocks := by
  obtain ⟨block, member, rest⟩ := backed
  exact ⟨block, subset block member, rest⟩

theorem MemoryRegion.Backed.separated {other : Extent} (backed : region.Backed blocks)
    (apart : ∀ block ∈ blocks, block.Separated other) :
    region.extent.Separated other := by
  obtain ⟨block, member, startEq, sizeLe, _⟩ := backed
  have blockApart := apart block member
  simp only [Separated, MemoryRegion.extent_start, MemoryRegion.extent_length] at blockApart ⊢
  omega

theorem RegionsBacked.fresh {blocksOf : HostState → List Extent}
    {host : HostState} {answer : UInt64 × HostState}
    (regionsBacked : RegionsBacked regions (blocksOf host))
    (honoured : PlacementHonoured blocksOf size host answer)
    (nonzero : answer.1 ≠ 0) :
    FreshBlock regions (blocksOf answer.2) answer.1 size := by
  obtain ⟨length, blocksEq, positive, sizeLe, bounded, aligned, apart⟩ :=
    honoured.granted nonzero
  refine ⟨⟨regionsBacked.ordered, fun region member => ?_⟩, positive, aligned,
    length, ?_, sizeLe, bounded, fun region member => ?_⟩
  · rw [blocksEq]
    exact (regionsBacked.backed region member).mono
      fun _ => List.mem_cons_of_mem _
  · rw [blocksEq]
    exact List.mem_cons_self
  · exact (regionsBacked.backed region member).separated apart

theorem FreshBlock.insert (fresh : FreshBlock regions blocks address size)
    (startEq : region.virtualAddress = address)
    (sizeEq : region.size = size) :
    RegionsBacked (insertRegionSorted region regions) blocks := by
  have apart := fresh.apart
  obtain ⟨⟨ordered, backed⟩, positive, _, length, blockMem, sizeLe, bounded, _⟩ :=
    fresh
  have regionApart : ∀ other ∈ regions, other.extent.Separated region.extent := by
    intro other member
    rw [MemoryRegion.extent.eq_def region, startEq, sizeEq]
    exact apart other member
  have permuted := PartitionSearch.insertAtPartition_perm (fun other : MemoryRegion =>
      decide (other.virtualAddress < region.virtualAddress)) region regions
  have passesPrefix : PartitionSearch.PassesPrefix (fun other : MemoryRegion =>
        decide (other.virtualAddress < region.virtualAddress)) regions := by
    refine ordered.sorted.imp fun before passes => ?_
    simp only [decide_eq_true_eq] at passes ⊢
    exact before.trans passes
  refine ⟨⟨?_, fun other member => ?_, ?_⟩, fun other member => ?_⟩
  · refine PartitionSearch.insertAtPartition_pairwise ordered.sorted passesPrefix ?_ ?_
    · intro other _ below
      exact of_decide_eq_true below
    · intro other member notBelow
      have separated := regionApart other member
      have nonempty := ordered.nonempty other member
      have atOrAbove := not_lt.mp (of_decide_eq_false notBelow)
      rw [UInt64.le_iff_toNat_le] at atOrAbove
      rw [UInt64.lt_iff_toNat_lt]
      simp only [Separated, MemoryRegion.extent_start,
        MemoryRegion.extent_length, sizeEq] at separated
      omega
  · rcases List.mem_cons.mp (permuted.mem_iff.mp member) with rfl | old
    · rwa [sizeEq]
    · exact ordered.nonempty other old
  · refine (permuted.map MemoryRegion.extent).pairwise_iff
      (fun separated => separated.symm) |>.mpr ?_
    rw [List.map_cons, List.pairwise_cons]
    refine ⟨fun other member => ?_, ordered.separated⟩
    obtain ⟨otherRegion, otherMem, rfl⟩ := List.mem_map.mp member
    exact (regionApart otherRegion otherMem).symm
  · rcases List.mem_cons.mp (permuted.mem_iff.mp member) with rfl | old
    · exact ⟨_, blockMem, by rw [startEq], by rwa [sizeEq], bounded⟩
    · exact backed other old

theorem FreshBlock.giveBack (fresh : FreshBlock regions blocks address size) : RegionsBacked regions
      (blocks.filter fun block => block.start ≠ address.toNat) := by
  refine ⟨fresh.regionsBacked.ordered, fun region member => ?_⟩
  obtain ⟨block, blockMem, startEq, rest⟩ :=
    fresh.regionsBacked.backed region member
  have apart := fresh.apart region member
  have nonempty := fresh.regionsBacked.ordered.nonempty region member
  have positive := fresh.positive
  refine ⟨block, List.mem_filter.mpr ⟨blockMem, ?_⟩, startEq, rest⟩
  simp only [Separated, MemoryRegion.extent_start, MemoryRegion.extent_length] at apart
  simp only [ne_eq, decide_eq_true_eq]
  omega

theorem RegionsOrdered.eraseP_eq_filter (ordered : RegionsOrdered regions) (address : UInt64) :
    (regions.eraseP fun region => region.virtualAddress = address) =
      regions.filter fun region => region.virtualAddress ≠ address := by
  have sorted := ordered.sorted
  clear ordered
  induction regions with
  | nil => rfl
  | cons head rest ih =>
    obtain ⟨headBelow, restSorted⟩ := List.pairwise_cons.mp sorted
    by_cases atAddress : head.virtualAddress = address
    · have othersElsewhere : (rest.filter fun region =>
          region.virtualAddress ≠ address) = rest := by
        refine List.filter_eq_self.mpr fun region member => ?_
        have below := headBelow region member
        rw [atAddress] at below
        simpa using below.ne'
      rw [List.eraseP_cons_of_pos (by simpa using atAddress),
        List.filter_cons_of_neg (by simpa using atAddress), othersElsewhere]
    · have restEq := ih restSorted
      simp [atAddress, restEq]

theorem RegionsBacked.release (regionsBacked : RegionsBacked regions blocks) (address : UInt64) :
    RegionsBacked (regions.eraseP fun region => region.virtualAddress = address)
      (blocks.filter fun block => block.start ≠ address.toNat) := by
  rw [regionsBacked.ordered.eraseP_eq_filter]
  obtain ⟨⟨sorted, nonempty, separated⟩, backed⟩ := regionsBacked
  refine ⟨⟨sorted.filter _, fun region member => ?_, ?_⟩,
    fun region member => ?_⟩
  · exact nonempty region (List.mem_filter.mp member).1
  · exact separated.sublist (List.filter_sublist.map _)
  · obtain ⟨old, elsewhere⟩ := List.mem_filter.mp member
    obtain ⟨block, blockMem, startEq, rest⟩ := backed region old
    refine ⟨block, List.mem_filter.mpr ⟨blockMem, ?_⟩, startEq, rest⟩
    simp only [ne_eq, decide_eq_true_eq] at elsewhere ⊢
    rw [startEq, ← Word64.toNat_inj]
    exact elsewhere

end Bookkeeping

/-! ## Allocation on a host with a ledger -/

section Allocation

variable {platform : MemoryPlatform} {services : HostMemoryServices HostState}
variable (ledger : HostLedger services) {tracked : List MemoryRegion}

def OnLedger (property : List MemoryRegion → List Extent → Prop)
    (machine : Machine HostState) : Prop :=
  property machine.memory.regions (ledger.blocks machine.host)

theorem undisturbed_onLedger {property : List MemoryRegion → List Extent → Prop} :
    Undisturbed services (OnLedger ledger property) where
  hints _ _ _ holds := holds
  protections _ _ _ holds := holds
  commit _ host _ _ _ holds := by
    rw [OnLedger, ledger.commit host]
    exact holds
  protect _ host _ _ _ holds := by
    rw [OnLedger, ledger.protect host]
    exact holds

def Unplaced (tracked : List MemoryRegion) : Machine HostState → Prop :=
  OnLedger ledger fun regions blocks =>
    regions = tracked ∧ RegionsBacked regions blocks

structure PlacedApart (tracked : List MemoryRegion) (address size : UInt64) :
    Prop where
  pageAligned : pageSize.toNat ∣ address.toNat
  bounded : address.toNat + size.toNat ≤ 2 ^ 64
  apart : ∀ region ∈ tracked,
    region.extent.Separated ⟨address.toNat, size.toNat⟩

theorem PlacementRequest.honoured (request : PlacementRequest) (size : UInt64) (host : HostState) :
    PlacementHonoured ledger.blocks size host (request.service services size host) := by
  unfold PlacementRequest.service
  cases request.kind with
  | reserve => exact ledger.reserve host _ _ _
  | allocate protection => exact ledger.allocate host _ _ _

variable {onFault : Machine HostState → Prop}

theorem firstPlacement_spec (alignedSize : UInt64) (requests : List PlacementRequest) :
    Ensures (Unplaced ledger tracked) (firstPlacement services alignedSize requests)
      (fun placed => match placed with
        | none => Unplaced ledger tracked
        | some answer => OnLedger ledger fun regions blocks =>
          regions = tracked ∧ FreshBlock regions blocks answer.1 alignedSize)
      onFault := by
  induction requests with
  | nil => exact ensures_pure fun _ holds => holds
  | cons request rest ih =>
    have asked : Ensures (Unplaced ledger tracked) (onHost (request.service services alignedSize))
        (fun result => OnLedger ledger fun regions blocks =>
          regions = tracked ∧ (result = 0 → RegionsBacked regions blocks) ∧
              (result ≠ 0 → FreshBlock regions blocks result alignedSize))
        onFault := by
      refine ensures_modifyGet fun machine holds => ⟨holds.1, ?_, ?_⟩
      · intro isZero
        have blocksEq := (request.honoured ledger alignedSize machine.host).refused isZero
        rw [blocksEq]
        exact holds.2
      · exact holds.2.fresh (request.honoured ledger alignedSize machine.host)
    apply asked.bind
    intro result
    refine Ensures.ite (fun nonzero => ?_) fun isZero => ?_
    · exact ensures_pure fun machine known => ⟨known.1, known.2.2 nonzero⟩
    · exact ih.ofPre
        fun machine known => ⟨known.1, known.2.1 (not_not.mp isZero)⟩

theorem recordRegion_spec {Value : Type}
    {address size : UInt64} {region : MemoryRegion} (value : Value)
    (startEq : region.virtualAddress = address) (sizeEq : region.size = size) :
    Ensures (OnLedger ledger fun regions blocks =>
        regions = tracked ∧ FreshBlock regions blocks address size)
      (do
        onMemory fun memory => { memory with
          regions := insertRegionSorted region memory.regions }
        pure value : Program HostState Value)
      (fun result machine => result = value ∧ OnLedger ledger RegionsBacked machine ∧
          PlacedApart tracked address size)
      onFault := by
  refine Ensures.bind (ensures_modify fun machine known => ?_)
    fun _ => ensures_pure fun machine holds => ⟨rfl, holds⟩
  obtain ⟨isTracked, fresh⟩ := known
  refine ⟨fresh.insert startEq sizeEq, fresh.pageAligned, fresh.bounded, ?_⟩
  rw [← isTracked]
  exact fresh.apart

theorem allocateAt_spec (desiredAddress size : UInt64) (executable allowAlternative : Bool) :
    Ensures (Unplaced ledger tracked) (allocateAt platform services desiredAddress size executable
        allowAlternative)
      (fun address machine => OnLedger ledger RegionsBacked machine ∧
        PlacedApart tracked address (alignedRequestSize size))
      (Unplaced ledger tracked) := by
  refine Ensures.ite (fun _ => ensures_throw fun _ holds => holds)
    fun _ => ?_
  apply (firstPlacement_spec ledger _ _).bind
  intro placed
  cases placed with
  | none => exact ensures_throw fun _ holds => holds
  | some answer =>
    obtain ⟨actualAddress, reservedOnly⟩ := answer
    have recorded (region : MemoryRegion) (startEq : region.virtualAddress = actualAddress)
        (sizeEq : region.size = alignedRequestSize size) :
        Ensures (OnLedger ledger fun regions blocks => regions = tracked ∧
            FreshBlock regions blocks actualAddress (alignedRequestSize size))
          (do
            onMemory fun memory => { memory with
              regions := insertRegionSorted region memory.regions }
            pure actualAddress : Program HostState UInt64)
          (fun address machine => OnLedger ledger RegionsBacked machine ∧
            PlacedApart tracked address (alignedRequestSize size))
          (Unplaced ledger tracked) :=
      (recordRegion_spec ledger actualAddress startEq sizeEq).toPost
        fun address machine known => by
          obtain ⟨rfl, rest⟩ := known
          exact rest
    refine Ensures.ite (fun _ => ?_) fun _ => recorded _ rfl rfl
    have primed := (keeps_primeLazyRegion (undisturbed_onLedger ledger).commit actualAddress
      (min (alignedRequestSize size) platform.lazyReservePrimeBytes)
      (primeChunkCount (min (alignedRequestSize size) platform.lazyReservePrimeBytes)) 0 :
      Keeps (OnLedger ledger fun regions blocks => regions = tracked ∧
        FreshBlock regions blocks actualAddress (alignedRequestSize size)) _)
    refine Ensures.bind (primed.imp (fun _ holds => holds)
      (fun _ _ holds => holds) fun machine holds => ?_)
        fun _ => recorded _ rfl rfl
    exact ⟨holds.1, holds.2.regionsBacked⟩

theorem tryAllocateAtExact_spec (desiredAddress size : UInt64) (executable : Bool) :
    Ensures (Unplaced ledger tracked) (tryAllocateAtExact services desiredAddress size executable)
      (fun placed machine => match placed with
        | none => Unplaced ledger tracked machine
        | some address => address = desiredAddress ∧
            OnLedger ledger RegionsBacked machine ∧
              PlacedApart tracked address (alignedRequestSize size))
      onFault := by
  refine Ensures.ite (fun _ => ensures_pure fun _ holds => holds) fun _ => ?_
  have asked : Ensures (Unplaced ledger tracked)
      (onHost fun host => services.allocate host desiredAddress (alignedRequestSize size)
        (if executable then .readWriteExecute else .readWrite))
      (fun result => OnLedger ledger fun regions blocks =>
        regions = tracked ∧ (result = 0 → RegionsBacked regions blocks) ∧ (result ≠ 0 →
            FreshBlock regions blocks result (alignedRequestSize size)))
      onFault := by
    refine ensures_modifyGet fun machine holds => ⟨holds.1, ?_, ?_⟩
    · intro isZero
      rw [(ledger.allocate machine.host _ _ _).refused isZero]
      exact holds.2
    · exact holds.2.fresh (ledger.allocate machine.host _ _ _)
  apply asked.bind
  intro result
  refine Ensures.ite (fun isZero => ?_) fun nonzero => ?_
  · exact ensures_pure fun machine known => ⟨known.1, known.2.1 isZero⟩
  refine Ensures.ite (fun _ => ?_) fun isDesired => ?_
  · have givenBack : Ensures (OnLedger ledger fun regions blocks => regions = tracked ∧
          FreshBlock regions blocks result (alignedRequestSize size))
        (onHost fun host => ((), services.free host result))
        (fun _ => Unplaced ledger tracked) onFault := by
      refine ensures_modifyGet fun machine known => ⟨known.1, ?_⟩
      rw [ledger.free machine.host]
      exact known.2.giveBack
    refine Ensures.ofPre (givenBack.bind fun _ => ensures_pure fun _ holds => holds) ?_
    intro machine known
    exact ⟨known.1, known.2.2 nonzero⟩
  · apply Ensures.ofPre
    · apply (recordRegion_spec ledger (some result) rfl rfl).toPost
      rintro _ machine ⟨rfl, rest⟩
      exact ⟨not_not.mp isDesired, rest⟩
    · intro machine known
      exact ⟨known.1, known.2.2 nonzero⟩

end Allocation

end PhysicalVirtualMemory
end SharpEmu
