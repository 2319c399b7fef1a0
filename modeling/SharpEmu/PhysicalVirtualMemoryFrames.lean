import SharpEmu.PhysicalVirtualMemory

/-!
# What the allocator's programs leave alone

Most steps of the allocator are bookkeeping: they read the clock hands of the
placement search, commit or protect host pages, or record page protections.  A
property undisturbed by bookkeeping is kept by a whole operation as soon as it
is kept by the few steps that place and release regions.
-/

namespace SharpEmu
namespace PhysicalVirtualMemory

open Faulting

variable {HostState : Type} {property : Machine HostState → Prop}
variable {platform : MemoryPlatform} {services : HostMemoryServices HostState}

/-- No bookkeeping step disturbs the property. -/
structure Undisturbed (services : HostMemoryServices HostState)
    (property : Machine HostState → Prop) : Prop where
  hints : ∀ memory host hints, property ⟨memory, host⟩ →
    property ⟨{ memory with allocationSearchHints := hints }, host⟩
  protections : ∀ memory host protections, property ⟨memory, host⟩ →
    property ⟨{ memory with pageProtections := protections }, host⟩
  commit : ∀ memory host address size protection, property ⟨memory, host⟩ →
    property ⟨memory, (services.commit host address size protection).2⟩
  protect : ∀ memory host address size protection, property ⟨memory, host⟩ →
    property ⟨memory, (services.protect host address size protection).2⟩

theorem keeps_readMemory : Keeps property (readMemory : Program HostState _) :=
  keeps_modifyGet fun _ holds => holds

theorem keeps_onMemory {change : MemoryState → MemoryState}
    (kept : ∀ memory host, property ⟨memory, host⟩ → property ⟨change memory, host⟩) :
    Keeps property (onMemory change : Program HostState Unit) :=
  keeps_modify fun machine => kept machine.memory machine.host

theorem keeps_onHost {Value : Type} {service : HostState → Value × HostState}
    (kept : ∀ memory host, property ⟨memory, host⟩ → property ⟨memory, (service host).2⟩) :
    Keeps property (onHost service) :=
  keeps_modifyGet fun machine => kept machine.memory machine.host

theorem keeps_alignUp (value alignment : UInt64) :
    Keeps property (alignUp value alignment : Program HostState UInt64) := by
  unfold alignUp
  split
  · exact keeps_pure _
  · exact keeps_throw _

theorem keeps_checkedSum (left right : UInt64) :
    Keeps property (checkedSum left right : Program HostState UInt64) := by
  unfold checkedSum
  split
  · exact keeps_pure _
  · exact keeps_throw _

theorem keeps_checkedDifference (left right : UInt64) : Keeps property
      (checkedDifference left right : Program HostState UInt64) :=
  Keeps.ite (fun _ => keeps_throw _) fun _ => keeps_pure _

theorem keeps_primeLazyRegion (commitKept : ∀ memory host address size protection,
      property ⟨memory, host⟩ → property ⟨memory, (services.commit host address size protection).2⟩)
    (actualAddress primeBytes : UInt64) (chunks : ℕ) (committed : UInt64) :
    Keeps property (primeLazyRegion services actualAddress primeBytes chunks committed) := by
  induction chunks generalizing committed with
  | zero => exact keeps_pure _
  | succ chunks ih =>
    refine Keeps.ite (fun _ => ?_) fun _ => keeps_pure _
    refine (keeps_onHost fun memory host holds =>
      commitKept memory host _ _ _ holds).bind fun answered => ?_
    exact Keeps.ite (fun _ => ih _) fun _ => keeps_pure _

theorem Undisturbed.keeps_setProtection (undisturbed : Undisturbed services property)
    (address size : UInt64) (flags : ProgramHeaderFlags) :
    Keeps property (setProtection services address size flags) :=
  (keeps_onHost fun memory host holds =>
    undisturbed.protect memory host _ _ _ holds).bind fun _ =>
      Keeps.ite (fun _ => keeps_pure _) fun _ => keeps_throw _

theorem Undisturbed.keeps_applySegmentPages
    (undisturbed : Undisturbed services property) (mapEnd : UInt64)
    (flags : ProgramHeaderFlags) (pages : ℕ) (pageAddress : UInt64)
    (run : Option ProtectionRun) :
    Keeps property (applySegmentPages services mapEnd flags pages pageAddress run) := by
  induction pages generalizing pageAddress run with
  | zero => exact keeps_pure _
  | succ pages ih =>
    refine Keeps.ite (fun _ => ?_) fun _ => keeps_pure _
    refine keeps_readMemory.bind fun memory => ?_
    refine (keeps_onMemory fun memory host holds =>
      undisturbed.protections memory host _ holds).bind fun _ => ?_
    cases run with
    | none => exact ih _ _
    | some current =>
      refine Keeps.ite (fun _ => ?_) fun _ => ih _ _
      exact (undisturbed.keeps_setProtection _ _ _).bind fun _ =>
        ih _ _

theorem Undisturbed.keeps_applySegmentProtection
    (undisturbed : Undisturbed services property) (mapStart mapEnd : UInt64)
    (flags : ProgramHeaderFlags) :
    Keeps property (applySegmentProtection services mapStart mapEnd flags) := by
  refine (undisturbed.keeps_applySegmentPages _ _ _ _ _).bind fun lastRun => ?_
  cases lastRun with
  | none => exact keeps_pure _
  | some run => exact undisturbed.keeps_setProtection _ _ _

theorem Undisturbed.keeps_updateAllocationSearchCursor (undisturbed : Undisturbed services property)
    (desiredAddress alignment : UInt64) (executable : Bool)
    (nextCursor : UInt64) :
    Keeps property (updateAllocationSearchCursor desiredAddress alignment
      executable nextCursor : Program HostState Unit) :=
  (keeps_alignUp _ _).bind fun _ => keeps_onMemory fun memory host holds =>
    undisturbed.hints memory host _ holds

theorem keeps_getAllocationSearchCursor
    (desiredAddress requestedCursor alignment : UInt64) (executable : Bool) :
    Keeps property (getAllocationSearchCursor desiredAddress requestedCursor
      alignment executable : Program HostState UInt64) := by
  refine keeps_readMemory.bind fun memory => ?_
  split
  · exact Keeps.ite (fun _ => keeps_alignUp _ _) fun _ => keeps_pure _
  · exact keeps_pure _

/-! ## Placing a region -/

/-- The property looks neither at the host nor at the region list. -/
structure PlacementBlind (property : Machine HostState → Prop) : Prop where
  host : ∀ memory host host', property ⟨memory, host⟩ →
    property ⟨memory, host'⟩
  regions : ∀ memory host regions, property ⟨memory, host⟩ →
    property ⟨{ memory with regions := regions }, host⟩

theorem PlacementBlind.keeps_firstPlacement (blind : PlacementBlind property)
    (alignedSize : UInt64) (requests : List PlacementRequest) :
    Keeps property (firstPlacement services alignedSize requests) := by
  induction requests with
  | nil => exact keeps_pure _
  | cons request rest ih =>
    apply (keeps_onHost fun _ _ holds => blind.host _ _ _ holds).bind
    intro result
    exact Keeps.ite (fun _ => keeps_pure _) fun _ => ih

theorem PlacementBlind.keeps_changeRegions (blind : PlacementBlind property)
    (change : List MemoryRegion → List MemoryRegion) :
    Keeps property (onMemory fun memory =>
      { memory with regions := change memory.regions } : Program HostState Unit) :=
  keeps_onMemory fun _ _ holds => blind.regions _ _ _ holds

theorem PlacementBlind.keeps_allocateAt (blind : PlacementBlind property)
    (desiredAddress size : UInt64) (executable allowAlternative : Bool) :
    Keeps property (allocateAt platform services desiredAddress size
      executable allowAlternative) := by
  refine Keeps.ite (fun _ => keeps_throw _) fun _ => ?_
  apply (blind.keeps_firstPlacement _ _).bind
  intro placed
  cases placed with
  | none => exact keeps_throw _
  | some answer =>
    obtain ⟨actualAddress, reservedOnly⟩ := answer
    have recorded (region : MemoryRegion) : Keeps property (do
          onMemory fun memory => { memory with
            regions := insertRegionSorted region memory.regions }
          pure actualAddress : Program HostState UInt64) :=
      (blind.keeps_changeRegions _).bind fun _ => keeps_pure _
    refine Keeps.ite (fun _ => ?_) fun _ => recorded _
    exact (keeps_primeLazyRegion (fun _ _ _ _ _ holds => blind.host _ _ _ holds) _ _ _ _).bind
        fun _ => recorded _

/-! ## Whole operations -/

theorem Undisturbed.keeps_searchFromCursor (undisturbed : Undisturbed services property)
    (exactKept : ∀ desiredAddress size executable, Keeps property
      (tryAllocateAtExact services desiredAddress size executable))
    (search : PlacementSearch) (attempts : ℕ) (cursor : UInt64) :
    Keeps property (searchFromCursor services search attempts cursor) := by
  induction attempts generalizing cursor with
  | zero => exact keeps_pure _
  | succ attempts ih =>
    refine Keeps.ite (fun _ => keeps_pure _) fun _ => ?_
    refine keeps_readMemory.bind fun memory => ?_
    split
    · exact (keeps_alignUp _ _).bind fun _ => ih _
    · refine (exactKept _ _ _).bind fun placed => ?_
      cases placed with
      | some actualAddress =>
        exact (undisturbed.keeps_updateAllocationSearchCursor _ _ _ _).bind
          fun _ => keeps_pure _
      | none => exact (keeps_alignUp _ _).bind fun _ => ih _

theorem Undisturbed.keeps_overAllocate (undisturbed : Undisturbed services property)
    (allocationKept : ∀ desiredAddress size executable allowAlternative,
      Keeps property (allocateAt platform services desiredAddress size executable allowAlternative))
    (releaseKept : ∀ address, Keeps property (releaseUntrackedAllocation services address))
    (search : PlacementSearch) (cursor : UInt64) :
    Keeps property (overAllocate platform services search cursor) := by
  refine (allocationKept _ _ _ _).bind fun posixAddress => ?_
  refine Keeps.ite (fun _ => ?_) fun _ => keeps_pure _
  refine (keeps_alignUp _ _).bind fun alignedBase => ?_
  refine Keeps.ite (fun _ => ?_) fun _ => ?_
  · exact (undisturbed.keeps_updateAllocationSearchCursor _ _ _ _).bind
      fun _ => keeps_pure _
  · exact (releaseKept _).bind fun _ => keeps_pure _

theorem Undisturbed.keeps_tryAllocateAtOrAbove (undisturbed : Undisturbed services property)
    (allocationKept : ∀ desiredAddress size executable allowAlternative,
      Keeps property (allocateAt platform services desiredAddress size executable allowAlternative))
    (exactKept : ∀ desiredAddress size executable, Keeps property
      (tryAllocateAtExact services desiredAddress size executable))
    (releaseKept : ∀ address, Keeps property (releaseUntrackedAllocation services address))
    (desiredAddress size : UInt64) (executable : Bool) (alignment : UInt64) :
    Keeps property (tryAllocateAtOrAbove platform services desiredAddress size
      executable alignment) := by
  refine Keeps.ite (fun _ => keeps_pure _) fun _ => ?_
  refine (keeps_alignUp _ _).bind fun alignedSize => ?_
  refine (keeps_alignUp _ _).bind fun requestedCursor => ?_
  refine (keeps_getAllocationSearchCursor _ _ _ _).bind fun cursor => ?_
  refine Keeps.ite (fun _ => ?_) fun _ => ?_
  · exact (undisturbed.keeps_overAllocate allocationKept releaseKept _ _).tryCatch
      fun _ => keeps_pure _
  · exact undisturbed.keeps_searchFromCursor exactKept _ _ _

theorem Undisturbed.keeps_map (undisturbed : Undisturbed services property)
    (allocationKept : ∀ desiredAddress size executable allowAlternative,
      Keeps property (allocateAt platform services desiredAddress size executable allowAlternative))
    (virtualAddress memorySize fileLength : UInt64)
    (protection : ProgramHeaderFlags) :
    Keeps property (map platform services virtualAddress memorySize fileLength protection) := by
  refine Keeps.ite (fun _ => keeps_throw _) fun _ => ?_
  refine Keeps.ite (fun _ => keeps_throw _) fun _ => ?_
  refine (keeps_checkedSum _ _).bind fun segmentEnd => ?_
  refine (keeps_alignUp _ _).bind fun mapEnd => ?_
  refine (keeps_checkedDifference _ _).bind fun mapSize => ?_
  refine keeps_readMemory.bind fun memory => ?_
  have protecting := (undisturbed.keeps_setProtection (alignDown virtualAddress pageSize) mapSize
    (if protection &&& flagExecute ≠ 0 then
      flagRead ||| flagWrite ||| flagExecute
    else flagRead ||| flagWrite)).bind fun _ =>
      undisturbed.keeps_applySegmentProtection (alignDown virtualAddress pageSize) mapEnd protection
  refine Keeps.ite (fun _ => ?_) fun _ => protecting
  exact (allocationKept _ _ _ _).bind fun _ => protecting

end PhysicalVirtualMemory
end SharpEmu
