import SharpEmu.GuestAllocationArenaRuns
import SharpEmu.PhysicalVirtualMemoryRegions

/-!
# Placement searches and runs of physical virtual memory

A placement search moves its cursor up in aligned steps until an exact
allocation succeeds; on macOS it cuts an aligned block out of a larger
allocation instead.  Whatever the cached cursors say, a successful search yields
an aligned block apart from every tracked region, and on a host with a ledger
the region list stays ordered along every run.
-/

namespace SharpEmu
namespace PhysicalVirtualMemory

open Faulting Extent

variable {HostState : Type}

/-! ## Cursors -/

variable {address overlapEnd : UInt64}

theorem overlapScan_zero_or_above {rangeEnd : UInt64}
    (soFar : overlapEnd = 0 ∨ address < overlapEnd)
    (regions : List MemoryRegion) :
    overlapScan address rangeEnd overlapEnd regions = 0 ∨
      address < overlapScan address rangeEnd overlapEnd regions := by
  induction regions generalizing overlapEnd with
  | nil => exact soFar
  | cons region rest ih =>
    unfold overlapScan
    simp only
    split
    · exact soFar
    · split
      · exact ih soFar
      · split
        case isTrue overlaps =>
          exact ih (.inr (lt_of_lt_of_le overlaps.1 (le_max_right _ _)))
        case isFalse => exact ih soFar

/-- The search continues beyond its cursor. -/
theorem lt_of_tryGetOverlappingRegionEnd {regions : List MemoryRegion} {size : UInt64}
    (found : tryGetOverlappingRegionEnd regions address size =
      some overlapEnd) : address < overlapEnd := by
  have scanned : overlapScan address (address + size) 0 regions = 0 ∨
      address < overlapScan address (address + size) 0 regions :=
    overlapScan_zero_or_above (.inl rfl) regions
  unfold tryGetOverlappingRegionEnd at found
  simp only at found
  split at found
  · cases found
  · split at found
    case isTrue nonzero =>
      cases found
      exact scanned.resolve_left nonzero
    case isFalse => cases found

theorem nextCursor_zero_or_above {cursor alignment next : UInt64}
    (power : Word64.IsPowerOfTwo alignment)
    (aligned : alignment.toNat ∣ cursor.toNat)
    (rounded : Word64.checkedRoundUp (cursor + alignment) alignment =
      some next) : next = 0 ∨ cursor ≤ next := by
  obtain ⟨fits, rfl⟩ := Word64.checkedRoundUp_eq_some.mp rounded
  rw [Word64.toNat_pred power.1] at fits
  by_cases wraps : cursor.toNat + alignment.toNat < 2 ^ 64
  · have sum := Word64.toNat_add_of_lt wraps
    have above := Word64.wrappingRoundUp_of_lt power.1 fits
    right
    rw [UInt64.le_iff_toNat_le] at above ⊢
    omega
  · left
    have positive := Word64.toNat_pos power.1
    have cursorBound := cursor.toNat_lt
    have alignmentBound := alignment.toNat_lt
    have sum : (cursor + alignment).toNat = cursor.toNat + alignment.toNat - 2 ^ 64 := by
      rw [UInt64.toNat_add]
      omega
    have sumDvd : alignment.toNat ∣ (cursor + alignment).toNat := by
      rw [sum]
      exact Nat.dvd_sub (Nat.dvd_add aligned (Nat.dvd_refl _)) power.dvd_modulus
    have sumZero : (cursor + alignment).toNat = 0 :=
      Nat.eq_zero_of_dvd_of_lt sumDvd (by omega)
    have bounded := Word64.wrappingRoundUp_le_of_dvd power fits (Nat.dvd_zero _) (by omega)
    exact Word64.toNat_inj.mpr (Nat.le_zero.mp bounded)

/-! ## The search on a host with a ledger -/

section Search

variable {platform : MemoryPlatform} {services : HostMemoryServices HostState}
variable (ledger : HostLedger services) {tracked : List MemoryRegion}

variable {pre onFault : Machine HostState → Prop}

theorem alignUp_spec (value alignment : UInt64)
    (faults : ∀ machine, pre machine → onFault machine) :
    Ensures pre (alignUp value alignment) (fun rounded machine => pre machine ∧
        Word64.checkedRoundUp value alignment = some rounded) onFault := by
  unfold alignUp
  cases rounding : Word64.checkedRoundUp value alignment with
  | none => exact ensures_throw faults
  | some rounded => exact ensures_pure fun _ holds => ⟨holds, rfl⟩

structure FoundPlacement (tracked : List MemoryRegion)
    (search : PlacementSearch) (address : UInt64) : Prop where
  aligned : search.effectiveAlignment.toNat ∣ address.toNat
  atOrAbove : search.desiredAddress ≤ address
  apart : ∀ region ∈ tracked,
    region.extent.Separated ⟨address.toNat, search.alignedSize.toNat⟩

theorem alignedRequestSize_eq (size : UInt64) :
    alignedRequestSize size = Word64.wrappingRoundUp size pageSize := by
  have mask : pageSize - 1 = 0xFFF := by decide
  rw [Word64.wrappingRoundUp, Word64.roundDown, mask, alignedRequestSize]

theorem le_alignedRequestSize {size : UInt64} (fits : size.toNat + 0xFFF < 2 ^ 64) :
    size ≤ alignedRequestSize size := by
  have pageNonzero : pageSize ≠ 0 := by decide
  have predecessor : pageSize.toNat - 1 = 0xFFF := by decide
  rw [alignedRequestSize_eq]
  exact Word64.wrappingRoundUp_of_lt pageNonzero (by omega)

theorem returnPlacement_spec (desiredAddress alignment : UInt64)
    (executable : Bool) (nextCursor address : UInt64) :
    Ensures (OnLedger ledger RegionsBacked) (do
        updateAllocationSearchCursor desiredAddress alignment executable nextCursor
        pure (some address) : Program HostState (Option UInt64))
      (fun placed machine => OnLedger ledger RegionsBacked machine ∧ placed = some address)
      (OnLedger ledger RegionsBacked) :=
  Ensures.bind ((undisturbed_onLedger ledger).keeps_updateAllocationSearchCursor _ _ _ _)
    fun _ => ensures_pure fun _ holds => ⟨holds, rfl⟩

theorem searchFromCursor_spec (search : PlacementSearch)
    (power : Word64.IsPowerOfTwo search.effectiveAlignment)
    (sizeFits : search.alignedSize.toNat + 0xFFF < 2 ^ 64)
    (attempts : ℕ) {cursor : UInt64}
    (aligned : search.effectiveAlignment.toNat ∣ cursor.toNat)
    (atOrAbove : cursor = 0 ∨ search.desiredAddress ≤ cursor) :
    Ensures (Unplaced ledger tracked) (searchFromCursor services search attempts cursor)
      (fun placed machine => OnLedger ledger RegionsBacked machine ∧
        ∀ address, placed = some address → FoundPlacement tracked search address)
      (OnLedger ledger RegionsBacked) := by
  have unplacedBacked : ∀ machine : Machine HostState,
      Unplaced ledger tracked machine → OnLedger ledger RegionsBacked machine :=
    fun machine unplaced => unplaced.2
  have gaveUp : Ensures (Unplaced ledger tracked) (pure none : Program HostState (Option UInt64))
      (fun placed machine => OnLedger ledger RegionsBacked machine ∧
        ∀ address, placed = some address → FoundPlacement tracked search address)
      (OnLedger ledger RegionsBacked) :=
    ensures_pure fun machine unplaced => ⟨unplaced.2, by rintro _ ⟨⟩⟩
  induction attempts generalizing cursor with
  | zero => exact gaveUp
  | succ attempts ih =>
    refine Ensures.ite (fun _ => gaveUp) fun inRange => ?_
    have above : search.desiredAddress ≤ cursor :=
      atOrAbove.resolve_left fun isZero => inRange (.inl isZero)
    have looked : Ensures (Unplaced ledger tracked) (readMemory : Program HostState MemoryState)
        (fun _ => Unplaced ledger tracked)
        (OnLedger ledger RegionsBacked) :=
      ensures_modifyGet fun _ holds => holds
    apply looked.bind
    intro memory
    cases overlap : tryGetOverlappingRegionEnd memory.regions cursor search.alignedSize with
    | some overlapEnd =>
      apply (alignUp_spec _ _ unplacedBacked).bind
      intro next
      refine Ensures.assuming (fun _ known => known.2) fun rounded => ?_
      have beyond := lt_of_tryGetOverlappingRegionEnd overlap
      have roundedUp := Word64.le_of_checkedRoundUp power.1 rounded
      have nextAligned : search.effectiveAlignment.toNat ∣ next.toNat := by
        rw [(Word64.checkedRoundUp_eq_some.mp rounded).2]
        exact Word64.dvd_wrappingRoundUp _ power
      exact (ih nextAligned (.inr (above.trans (beyond.le.trans roundedUp)))).ofPre
          fun _ known => known.1
    | none =>
      apply (tryAllocateAtExact_spec ledger cursor search.alignedSize search.executable).bind
      intro placed
      cases placed with
      | some address =>
        have resized := le_alignedRequestSize sizeFits
        rw [UInt64.le_iff_toNat_le] at resized
        refine Ensures.assuming (fun _ known => ⟨known.1, known.2.2⟩)
          fun known : address = cursor ∧ PlacedApart tracked address
            (alignedRequestSize search.alignedSize) => ?_
        obtain ⟨rfl, placedApart⟩ := known
        have found : FoundPlacement tracked search address := by
          refine ⟨aligned, above, fun region member => ?_⟩
          have apart := placedApart.apart region member
          simp only [Separated] at apart ⊢
          omega
        have returned := returnPlacement_spec ledger search.desiredAddress search.effectiveAlignment
          search.executable (address + search.alignedSize) address
        refine Ensures.ofPre (returned.toPost ?_) fun _ known => known.2.1
        rintro _ machine ⟨holds, rfl⟩
        refine ⟨holds, ?_⟩
        rintro _ ⟨⟩
        exact found
      | none =>
        apply (alignUp_spec _ _ unplacedBacked).bind
        intro next
        refine Ensures.assuming (fun _ known => known.2) fun rounded => ?_
        have nextAligned : search.effectiveAlignment.toNat ∣ next.toNat := by
          rw [(Word64.checkedRoundUp_eq_some.mp rounded).2]
          exact Word64.dvd_wrappingRoundUp _ power
        have moved := nextCursor_zero_or_above power aligned rounded
        exact (ih nextAligned (moved.imp_right above.trans)).ofPre fun _ known => known.1

/-! ## Cutting an aligned block out of a larger allocation -/

theorem releaseUntrackedAllocation_spec (address : UInt64) : Ensures (OnLedger ledger RegionsBacked)
      (releaseUntrackedAllocation services address)
      (fun _ => OnLedger ledger RegionsBacked) onFault := by
  have forgotten : Ensures (OnLedger ledger RegionsBacked)
      (onMemory fun memory => { memory with
        regions := memory.regions.eraseP fun region =>
          region.virtualAddress = address })
      (fun _ => OnLedger ledger fun regions blocks =>
        RegionsBacked regions (blocks.filter fun block => block.start ≠ address.toNat))
      onFault :=
    ensures_modify fun machine holds => RegionsBacked.release holds address
  apply forgotten.bind
  intro _
  refine ensures_modifyGet fun machine holds => ?_
  rw [OnLedger, ledger.free machine.host]
  exact holds

theorem roundable_of_dvd {size : ℕ} (aligned : pageSize.toNat ∣ size)
    (bounded : size < 2 ^ 64) : size + 0xFFF < 2 ^ 64 := by
  change 0x1000 ∣ size at aligned
  omega

variable {alignment : UInt64}

theorem PlacedApart.alignedBlock {posixAddress alignedBase alignedSize : UInt64}
    (power : Word64.IsPowerOfTwo alignment) (atLeastPage : pageSize ≤ alignment)
    (sizeAligned : pageSize.toNat ∣ alignedSize.toNat)
    (fits : alignedSize.toNat + alignment.toNat < 2 ^ 64)
    (placed : PlacedApart tracked posixAddress (alignedRequestSize
      (if alignment > pageSize then alignedSize + alignment else alignedSize)))
    (rounded : Word64.checkedRoundUp posixAddress alignment = some alignedBase) :
    ∀ region ∈ tracked, region.extent.Separated ⟨alignedBase.toNat, alignedSize.toNat⟩ := by
  have pagePower : Word64.IsPowerOfTwo pageSize := by decide
  have pageDvd := pagePower.dvd_of_le power atLeastPage
  have startLe := Word64.le_of_checkedRoundUp power.1 rounded
  obtain ⟨noOverflow, isRounded⟩ := Word64.checkedRoundUp_eq_some.mp rounded
  have predecessor := Word64.toNat_pred power.1
  have baseLe : alignedBase.toNat ≤ posixAddress.toNat + (alignment.toNat - 1) := by
    have upper := UInt64.le_iff_toNat_le.mp
      (Word64.roundDown_le (posixAddress + (alignment - 1)) alignment)
    rw [Word64.toNat_add_of_lt noOverflow, predecessor] at upper
    rw [isRounded]
    exact upper
  have endLe : alignedBase.toNat + alignedSize.toNat ≤ posixAddress.toNat + (alignedRequestSize
        (if alignment > pageSize then alignedSize + alignment
          else alignedSize)).toNat := by
    by_cases larger : alignment > pageSize
    · rw [if_pos larger]
      have sum := Word64.toNat_add_of_lt fits
      have sumRoundable := roundable_of_dvd (Nat.dvd_add sizeAligned pageDvd) fits
      have resized : alignedSize + alignment ≤ alignedRequestSize (alignedSize + alignment) :=
        le_alignedRequestSize (by omega)
      rw [UInt64.le_iff_toNat_le, sum] at resized
      omega
    · rw [if_neg larger]
      have isPage : alignment = pageSize :=
        le_antisymm (not_lt.mp larger) atLeastPage
      have baseIsStart : alignedBase.toNat ≤ posixAddress.toNat := by
        rw [isRounded]
        refine Word64.wrappingRoundUp_le_of_dvd power (by omega) ?_ le_rfl
        rw [isPage]
        exact placed.pageAligned
      have resized := le_alignedRequestSize (roundable_of_dvd sizeAligned alignedSize.toNat_lt)
      rw [UInt64.le_iff_toNat_le] at resized
      omega
  intro region member
  rw [UInt64.le_iff_toNat_le] at startLe
  exact ((placed.apart region member).symm.of_within startLe endLe).symm

theorem overAllocate_spec (search : PlacementSearch) (cursor : UInt64)
    (power : Word64.IsPowerOfTwo search.effectiveAlignment)
    (atLeastPage : pageSize ≤ search.effectiveAlignment)
    (sizeAligned : pageSize.toNat ∣ search.alignedSize.toNat) :
    Ensures (Unplaced ledger tracked) (overAllocate platform services search cursor)
      (fun placed machine => OnLedger ledger RegionsBacked machine ∧
        ∀ address, placed = some address → search.effectiveAlignment.toNat ∣ address.toNat ∧
            (search.alignedSize.toNat + search.effectiveAlignment.toNat < 2 ^ 64 →
              ∀ region ∈ tracked, region.extent.Separated
                ⟨address.toNat, search.alignedSize.toNat⟩))
      (OnLedger ledger RegionsBacked) := by
  apply ((allocateAt_spec ledger _ _ _ _).imp (fun _ holds => holds)
    (fun _ _ holds => holds) fun _ unplaced => unplaced.2).bind
  intro posixAddress
  refine Ensures.assuming (fun _ known => known.2) fun placedApart => ?_
  have nothing : Ensures (OnLedger ledger RegionsBacked)
      (pure none : Program HostState (Option UInt64))
      (fun placed machine => OnLedger ledger RegionsBacked machine ∧
        ∀ address, placed = some address → search.effectiveAlignment.toNat ∣ address.toNat ∧
            (search.alignedSize.toNat + search.effectiveAlignment.toNat < 2 ^ 64 →
              ∀ region ∈ tracked, region.extent.Separated
                ⟨address.toNat, search.alignedSize.toNat⟩))
      (OnLedger ledger RegionsBacked) :=
    ensures_pure fun machine holds => ⟨holds, by rintro _ ⟨⟩⟩
  refine Ensures.ite (fun _ => ?_) fun _ =>
    nothing.ofPre fun _ known => known.1
  apply (alignUp_spec _ _ fun _ known => known.1).bind
  intro alignedBase
  refine Ensures.assuming (fun _ known => known.2) fun rounded => ?_
  refine Ensures.ite (fun _ => ?_) fun _ => ?_
  · have returned := returnPlacement_spec ledger search.desiredAddress
      search.effectiveAlignment search.executable
      (alignedBase + search.alignedSize) alignedBase
    refine Ensures.ofPre (returned.toPost ?_) fun _ known => known.1.1
    rintro _ machine ⟨holds, rfl⟩
    refine ⟨holds, ?_⟩
    rintro _ ⟨⟩
    refine ⟨?_, fun fits => placedApart.alignedBlock power atLeastPage sizeAligned fits rounded⟩
    rw [(Word64.checkedRoundUp_eq_some.mp rounded).2]
    exact Word64.dvd_wrappingRoundUp _ power
  · exact ((releaseUntrackedAllocation_spec ledger posixAddress).bind
      fun _ => nothing).ofPre fun _ known => known.1.1

theorem getAllocationSearchCursor_spec (desiredAddress : UInt64) {requestedCursor : UInt64}
    (executable : Bool) (power : Word64.IsPowerOfTwo alignment)
    (aligned : alignment.toNat ∣ requestedCursor.toNat)
    (faults : ∀ machine, pre machine → onFault machine) :
    Ensures pre (getAllocationSearchCursor desiredAddress requestedCursor alignment executable)
      (fun cursor machine => pre machine ∧
        alignment.toNat ∣ cursor.toNat ∧ requestedCursor ≤ cursor)
      onFault := by
  have requested : Ensures pre (pure requestedCursor : Program HostState UInt64)
      (fun cursor machine => pre machine ∧
        alignment.toNat ∣ cursor.toNat ∧ requestedCursor ≤ cursor)
      onFault :=
    ensures_pure fun _ holds => ⟨holds, aligned, le_rfl⟩
  have looked : Ensures pre (readMemory : Program HostState MemoryState)
      (fun _ => pre) onFault := ensures_modifyGet fun _ holds => holds
  apply looked.bind
  intro memory
  cases memory.allocationSearchHints ⟨desiredAddress, alignment, executable⟩ with
  | none => exact requested
  | some hintedCursor =>
    refine Ensures.ite (fun ahead => ?_) fun _ => requested
    apply (alignUp_spec hintedCursor alignment faults).toPost
    rintro cursor machine ⟨holds, rounded⟩
    refine ⟨holds, ?_, ?_⟩
    · rw [(Word64.checkedRoundUp_eq_some.mp rounded).2]
      exact Word64.dvd_wrappingRoundUp _ power
    · exact (le_of_lt ahead).trans (Word64.le_of_checkedRoundUp power.1 rounded)

/-- What a successful search promises: alignment everywhere, a lower bound off
macOS, and no overlap with the regions tracked before unless the over-allocation
made on macOS exceeds the word range. -/
structure AtOrAbovePromise (platform : MemoryPlatform)
    (tracked : List MemoryRegion) (desiredAddress size alignment : UInt64)
    (address : UInt64) : Prop where
  aligned : alignment.toNat ∣ address.toNat
  atOrAbove : platform.isMacOS = false → desiredAddress ≤ address
  apart : platform.isMacOS = false ∨
      size.toNat + 0xFFF + max 0x1000 alignment.toNat < 2 ^ 64 →
    ∀ region ∈ tracked,
      region.extent.Separated ⟨address.toNat, size.toNat⟩

theorem tryAllocateAtOrAbove_spec (desiredAddress size : UInt64) (executable : Bool)
    (power : Word64.IsPowerOfTwo alignment) :
    Ensures (Unplaced ledger tracked)
      (tryAllocateAtOrAbove platform services desiredAddress size executable alignment)
      (fun placed machine => OnLedger ledger RegionsBacked machine ∧
        ∀ address, placed = some address → AtOrAbovePromise platform tracked
          desiredAddress size alignment address)
      (OnLedger ledger RegionsBacked) := by
  have unplacedBacked : ∀ machine : Machine HostState,
      Unplaced ledger tracked machine → OnLedger ledger RegionsBacked machine :=
    fun machine unplaced => unplaced.2
  refine Ensures.ite (fun _ => ensures_pure fun machine unplaced =>
    ⟨unplaced.2, by rintro _ ⟨⟩⟩) fun _ => ?_
  apply (alignUp_spec size pageSize unplacedBacked).bind
  intro alignedSize
  refine Ensures.assuming (fun _ known => known.2) fun sizeRounded => ?_
  obtain ⟨effectiveAlignment, effectiveEq⟩ : ∃ effective, effective =
        max pageSize (if alignment = 0 then pageSize else alignment) := ⟨_, rfl⟩
  simp only [← effectiveEq]
  rw [if_neg power.1] at effectiveEq
  have pagePower : Word64.IsPowerOfTwo pageSize := by decide
  have effectivePower : Word64.IsPowerOfTwo effectiveAlignment := by
    rcases max_choice pageSize alignment with isPage | isAlignment
    · rwa [effectiveEq, isPage]
    · rwa [effectiveEq, isAlignment]
  have atLeastPage : pageSize ≤ effectiveAlignment :=
    effectiveEq ▸ le_max_left _ _
  have alignmentDvd : alignment.toNat ∣ effectiveAlignment.toNat :=
    power.dvd_of_le effectivePower (effectiveEq ▸ le_max_right _ _)
  have effectiveNat : effectiveAlignment.toNat = max 0x1000 alignment.toNat := by
    have pageNat : pageSize.toNat = 0x1000 := by decide
    rcases le_total pageSize alignment with below | above
    · rw [effectiveEq, max_eq_right below]
      rw [UInt64.le_iff_toNat_le] at below
      omega
    · rw [effectiveEq, max_eq_left above]
      rw [UInt64.le_iff_toNat_le] at above
      omega
  have sizeLe := UInt64.le_iff_toNat_le.mp (Word64.le_of_checkedRoundUp pagePower.1 sizeRounded)
  obtain ⟨sizeFits, sizeIsRounded⟩ :=
    Word64.checkedRoundUp_eq_some.mp sizeRounded
  have sizeAligned : pageSize.toNat ∣ alignedSize.toNat := by
    rw [sizeIsRounded]
    exact Word64.dvd_wrappingRoundUp _ pagePower
  have alignedLe : alignedSize.toNat ≤ size.toNat + 0xFFF := by
    have upper := UInt64.le_iff_toNat_le.mp (Word64.roundDown_le (size + (pageSize - 1)) pageSize)
    rw [Word64.toNat_add_of_lt sizeFits] at upper
    rw [sizeIsRounded]
    exact upper
  apply (alignUp_spec desiredAddress effectiveAlignment
    fun _ known => unplacedBacked _ known.1).bind
  intro requestedCursor
  refine Ensures.assuming (fun _ known => known.2) fun cursorRounded => ?_
  have requestedAligned : effectiveAlignment.toNat ∣ requestedCursor.toNat := by
    rw [(Word64.checkedRoundUp_eq_some.mp cursorRounded).2]
    exact Word64.dvd_wrappingRoundUp _ effectivePower
  have desiredLe := Word64.le_of_checkedRoundUp effectivePower.1 cursorRounded
  apply (getAllocationSearchCursor_spec desiredAddress executable effectivePower requestedAligned
      fun _ known => unplacedBacked _ known.1.1).bind
  intro cursor
  refine Ensures.assuming (fun _ known => known.2) fun cursorKnown => ?_
  obtain ⟨cursorAligned, requestedLe⟩ := cursorKnown
  have inside {address : UInt64} {region : MemoryRegion} (apart : region.extent.Separated
        ⟨address.toNat, alignedSize.toNat⟩) :
      region.extent.Separated ⟨address.toNat, size.toNat⟩ := by
    simp only [Separated] at apart ⊢
    omega
  let search : PlacementSearch :=
    ⟨desiredAddress, alignedSize, effectiveAlignment, executable⟩
  refine Ensures.ite (fun isMacOS => ?_) fun notMacOS => ?_
  · have caught : ∀ fault : MemoryFault, Ensures (OnLedger ledger RegionsBacked)
        (pure none : Program HostState (Option UInt64))
        (fun placed machine => OnLedger ledger RegionsBacked machine ∧
          ∀ address, placed = some address → AtOrAbovePromise platform tracked
            desiredAddress size alignment address)
        (OnLedger ledger RegionsBacked) := fun _ =>
      ensures_pure fun machine holds => ⟨holds, by rintro _ ⟨⟩⟩
    have cut : Ensures (Unplaced ledger tracked)
        (overAllocate platform services search cursor) _ _ :=
      overAllocate_spec ledger search cursor effectivePower atLeastPage sizeAligned
    refine Ensures.ofPre (Ensures.tryCatch (cut.toPost ?_) caught)
      fun _ known => known.1.1.1
    rintro placed machine ⟨holds, promised⟩
    refine ⟨holds, fun address isPlaced => ?_⟩
    obtain ⟨aligned, apart⟩ := promised address isPlaced
    refine ⟨Nat.dvd_trans alignmentDvd aligned, fun isLinux => ?_, ?_⟩
    · rw [isMacOS] at isLinux
      cases isLinux
    · intro fits region member
      have sumFits : size.toNat + 0xFFF + max 0x1000 alignment.toNat < 2 ^ 64 := by
        rcases fits with isLinux | fits
        · rw [isMacOS] at isLinux
          cases isLinux
        · exact fits
      have searchFits : alignedSize.toNat + effectiveAlignment.toNat < 2 ^ 64 := by
        omega
      exact inside (apart searchFits region member)
  · have searched : Ensures (Unplaced ledger tracked)
        (searchFromCursor services search 0x10000 cursor) _ _ :=
      searchFromCursor_spec ledger search effectivePower
        (roundable_of_dvd sizeAligned alignedSize.toNat_lt) 0x10000
        cursorAligned (.inr (desiredLe.trans requestedLe))
    refine Ensures.ofPre (searched.toPost ?_) fun _ known => known.1.1.1
    rintro placed machine ⟨holds, promised⟩
    refine ⟨holds, fun address isPlaced => ?_⟩
    have found := promised address isPlaced
    exact ⟨Nat.dvd_trans alignmentDvd found.aligned, fun _ => found.atOrAbove,
      fun _ region member => inside (found.apart region member)⟩

end Search

/-! ## Runs -/

section Runs

variable {platform : MemoryPlatform} {services : HostMemoryServices HostState}
variable (ledger : HostLedger services)

def RegionsTracked : Machine HostState → Prop := OnLedger ledger RegionsBacked

theorem keepsRegions_allocateAt (desiredAddress size : UInt64)
    (executable allowAlternative : Bool) :
    Keeps (RegionsTracked ledger) (allocateAt platform services desiredAddress
      size executable allowAlternative) := by
  intro machine holds
  have specified : Ensures (Unplaced ledger machine.memory.regions)
      (allocateAt platform services desiredAddress size executable
        allowAlternative) _ _ := allocateAt_spec ledger _ _ _ _
  obtain ⟨valueEnd, faultEnd⟩ := specified machine ⟨rfl, holds⟩
  exact ⟨fun value after ended => (valueEnd value after ended).1,
    fun fault after ended => (faultEnd fault after ended).2⟩

theorem keepsRegions_tryAllocateAtExact (desiredAddress size : UInt64) (executable : Bool) :
    Keeps (RegionsTracked ledger) (tryAllocateAtExact services desiredAddress size executable) := by
  intro machine holds
  have specified : Ensures (Unplaced ledger machine.memory.regions)
      (tryAllocateAtExact services desiredAddress size executable) _
      (RegionsTracked ledger) := tryAllocateAtExact_spec ledger _ _ _
  obtain ⟨valueEnd, faultEnd⟩ := specified machine ⟨rfl, holds⟩
  refine ⟨fun value after ended => ?_, faultEnd⟩
  have placed := valueEnd value after ended
  cases value with
  | none => exact placed.2
  | some address => exact placed.2.1

theorem keepsRegions_onMemory {change : MemoryState → MemoryState}
    (sameRegions : ∀ memory, (change memory).regions = memory.regions) :
    Keeps (RegionsTracked ledger) (onMemory change : Program HostState Unit) :=
  keeps_onMemory fun memory host holds => by
    change RegionsBacked (change memory).regions (ledger.blocks host)
    rw [sameRegions]
    exact holds

theorem keepsRegions_tryAllocateGuestMemory (size alignment : UInt64) :
    Keeps (RegionsTracked ledger) (tryAllocateGuestMemory platform services size alignment) := by
  have searching (ranges : List FreeRange) : Keeps (RegionsTracked ledger)
      (findFreeRange size alignment ranges) := by
    induction ranges with
    | nil => exact keeps_pure _
    | cons range rest ih =>
      apply (keeps_alignUp _ _).bind
      intro alignedOffset
      exact Keeps.ite (fun _ => keeps_pure _) fun _ => ih
  have arena : Keeps (RegionsTracked ledger) (ensureGuestArena platform services) := by
    apply keeps_readMemory.bind
    intro memory
    refine Keeps.ite (fun _ => ?_) fun _ => keeps_pure _
    refine Keeps.tryCatch ?_ fun _ => keeps_pure _
    apply (keepsRegions_allocateAt ledger _ _ _ _).bind
    intro base
    apply Keeps.bind
    · exact keepsRegions_onMemory ledger fun _ => rfl
    · exact fun _ => keeps_pure _
  refine Keeps.ite (fun _ => keeps_pure _) fun _ => ?_
  apply arena.bind
  intro exists_
  refine Keeps.ite (fun _ => ?_) fun _ => keeps_pure _
  apply keeps_readMemory.bind
  intro memory
  apply (searching _).bind
  intro found
  cases found with
  | none => exact keeps_pure _
  | some found =>
    apply Keeps.bind
    · exact keepsRegions_onMemory ledger fun _ => rfl
    · exact fun _ => keeps_pure _

theorem keepsRegions_tryFreeGuestMemory (address : UInt64) : Keeps (RegionsTracked ledger)
      (tryFreeGuestMemory address : Program HostState Bool) := by
  apply keeps_readMemory.bind
  intro memory
  cases memory.guestAllocations.get? address with
  | none => exact keeps_pure _
  | some allocation =>
    apply Keeps.bind
    · exact keepsRegions_onMemory ledger fun _ => rfl
    · exact fun _ => keeps_pure _

theorem regionsBacked_nil (blocks : List Extent) : RegionsBacked [] blocks where
  ordered := ⟨List.Pairwise.nil, by simp, List.Pairwise.nil⟩
  backed := by simp

theorem keepsRegions_run (operation : MemoryOperation) :
    Keeps (RegionsTracked ledger) (operation.run platform services) := by
  have undisturbed : Undisturbed services (RegionsTracked ledger) :=
    undisturbed_onLedger ledger
  have released (address : UInt64) : Keeps (RegionsTracked ledger)
      (releaseUntrackedAllocation services address) :=
    releaseUntrackedAllocation_spec ledger address
  cases operation with
  | allocateAt => exact (keepsRegions_allocateAt ledger _ _ _ _).discard
  | tryAllocateAtExact =>
    exact (keepsRegions_tryAllocateAtExact ledger _ _ _).discard
  | tryAllocateAtOrAbove =>
    exact (undisturbed.keeps_tryAllocateAtOrAbove (keepsRegions_allocateAt ledger)
      (keepsRegions_tryAllocateAtExact ledger) released _ _ _ _).discard
  | map =>
    exact undisturbed.keeps_map (keepsRegions_allocateAt ledger) _ _ _ _
  | tryAllocateGuestMemory =>
    exact (keepsRegions_tryAllocateGuestMemory ledger _ _).discard
  | tryFreeGuestMemory => exact (keepsRegions_tryFreeGuestMemory ledger _).discard
  | clear => exact keeps_modify fun _ _ => regionsBacked_nil _

theorem regionsTracked_of_reachable {machine : Machine HostState}
    (reachable : Reachable Initial (Step platform services) machine) :
    RegionsTracked ledger machine := by
  apply reachable.invariant
  · intro start isInitial
    rw [RegionsTracked, OnLedger, isInitial]
    exact regionsBacked_nil _
  · rintro before operation after tracked rfl
    exact (keepsRegions_run ledger operation).after tracked

/-- Along every run on a host with a ledger the region list is sorted and
disjoint, and a successful placement search keeps its promise. -/
theorem regions_ordered_and_searches_sound (ledger : HostLedger services)
    {machine : Machine HostState}
    (reachable : Reachable Initial (Step platform services) machine) :
    RegionsOrdered machine.memory.regions ∧
    (∀ address size, findRegion machine.memory.regions address size =
      (machine.memory.regions.filter (Resolves address size)).getLast?) ∧
    (∀ address size, size ≠ 0 → findRegion machine.memory.regions address size =
        machine.memory.regions.find? (Resolves address size)) ∧
    ∀ desiredAddress size executable alignment address after, Word64.IsPowerOfTwo alignment →
      (tryAllocateAtOrAbove platform services desiredAddress size executable
        alignment).outcome machine = (.ok (some address), after) →
      AtOrAbovePromise platform machine.memory.regions desiredAddress size
        alignment address := by
  have tracked := regionsTracked_of_reachable ledger reachable
  have ordered := tracked.ordered
  refine ⟨ordered, fun _ _ => findRegion_eq_getLast? ordered,
    fun _ _ => findRegion_eq_find? ordered, ?_⟩
  intro desiredAddress size executable alignment address after power ended
  have specified : Ensures (Unplaced ledger machine.memory.regions)
      (tryAllocateAtOrAbove platform services desiredAddress size executable alignment) _ _ :=
    tryAllocateAtOrAbove_spec ledger desiredAddress size executable power
  exact ((specified machine ⟨rfl, tracked⟩).1 _ _ ended).2 address rfl

end Runs

/-! ## A concrete host -/

/-- A host whose state is its list of blocks.  It grants a placement exactly
where it is asked for, when the range is free and starts a page, and refuses
every other request. -/
def exactPlacement (blocks : List Extent) (desiredAddress size : UInt64) : UInt64 × List Extent :=
  let block : Extent := ⟨desiredAddress.toNat, size.toNat⟩
  if desiredAddress ≠ 0 ∧ 0 < block.length ∧ 0x1000 ∣ block.start ∧
      block.start + block.length ≤ 2 ^ 64 ∧ ∀ other ∈ blocks, other.Separated block then
    (desiredAddress, block :: blocks)
  else (0, blocks)

def exactHost : HostMemoryServices (List Extent) where
  allocate blocks desiredAddress size _ :=
    exactPlacement blocks desiredAddress size
  reserve blocks desiredAddress size _ :=
    exactPlacement blocks desiredAddress size
  commit blocks _ _ _ := (true, blocks)
  free blocks address :=
    blocks.filter fun block => block.start ≠ address.toNat
  protect blocks _ _ _ := (true, blocks)

theorem exactPlacement_honoured (blocks : List Extent) (desiredAddress size : UInt64) :
    PlacementHonoured id size blocks (exactPlacement blocks desiredAddress size) := by
  unfold exactPlacement
  simp only
  split
  case isTrue granted =>
    obtain ⟨nonzero, positive, aligned, bounded, apart⟩ := granted
    exact
      { refused := fun isZero => absurd isZero nonzero
        granted := fun _ => ⟨size.toNat, rfl, positive, Nat.le_refl _, bounded, aligned, apart⟩ }
  case isFalse =>
    exact
      { refused := fun _ => rfl
        granted := fun nonzero => absurd rfl nonzero }

def exactHostLedger : HostLedger exactHost where
  blocks := id
  allocate blocks desiredAddress size _ :=
    exactPlacement_honoured blocks desiredAddress size
  reserve blocks desiredAddress size _ :=
    exactPlacement_honoured blocks desiredAddress size
  commit _ _ _ _ := rfl
  protect _ _ _ _ := rfl
  free _ _ := rfl

def oneRegionMachine : Machine (List Extent) :=
  runOperations linuxPlatform exactHost [.allocateAt 0x10000 0x2000 false false] ⟨.initial, []⟩

theorem oneRegionMachine_reachable :
    Reachable Initial (Step linuxPlatform exactHost) oneRegionMachine :=
  have fresh : Reachable Initial (Step linuxPlatform exactHost)
      (⟨.initial, []⟩ : Machine (List Extent)) := .start rfl
  reachable_runOperations fresh _

/-- The next search from the region's start steps over the region. -/
theorem regions_ordered_and_searches_sound_oneRegion :
    AtOrAbovePromise linuxPlatform oneRegionMachine.memory.regions 0x10000
      0x1000 0x1000 0x12000 := by
  obtain ⟨_, _, _, promised⟩ := regions_ordered_and_searches_sound
    exactHostLedger oneRegionMachine_reachable
  have ended : ((tryAllocateAtOrAbove linuxPlatform exactHost 0x10000 0x1000
      false 0x1000).outcome oneRegionMachine).1 = .ok (some 0x12000) := by
    decide +kernel
  exact promised 0x10000 0x1000 false 0x1000 0x12000 _ (by decide) (Prod.ext ended rfl)

def repeatingHost : HostMemoryServices Unit where
  allocate _ _ _ _ := (0x10000, ())
  reserve _ _ _ _ := (0x10000, ())
  commit _ _ _ _ := (true, ())
  free _ _ := ()
  protect _ _ _ _ := (true, ())

/-- On a host that hands the same address out twice the regions overlap. -/
theorem regions_overlap_on_repeatingHost : ¬ ∀ machine : Machine Unit,
      Reachable Initial (Step linuxPlatform repeatingHost) machine →
      (machine.memory.regions.map MemoryRegion.extent).Pairwise Separated := by
  intro alwaysSeparated
  have fresh : Reachable Initial (Step linuxPlatform repeatingHost)
      (⟨.initial, ()⟩ : Machine Unit) := .start rfl
  have separated := alwaysSeparated _ (reachable_runOperations fresh
    [.allocateAt 0x10000 0x1000 false true, .allocateAt 0x10000 0x1000 false true])
  exact absurd separated (by decide +kernel)

end PhysicalVirtualMemory
end SharpEmu
