import SharpEmu.GuestAllocationArena

/-!
# Runs of the guest allocation arena

Operations on regions, hints and protections leave the arena alone, so the
tiling of the arena is an invariant of every run of the allocator.  A refused
guest allocation therefore has a reason: the request is malformed, the host
gives no arena, or no free range holds an aligned block.
-/

namespace SharpEmu
namespace PhysicalVirtualMemory

open Faulting Extent

variable {HostState : Type}
variable {platform : MemoryPlatform} {services : HostMemoryServices HostState}

/-! ## Operations that leave the arena alone -/

section Frames

variable {property : GuestArena → Prop}

def OnArena (property : GuestArena → Prop) (machine : Machine HostState) :
    Prop :=
  property machine.memory.arena

theorem undisturbed_onArena : Undisturbed services
      (OnArena property : Machine HostState → Prop) where
  hints _ _ _ holds := holds
  protections _ _ _ holds := holds
  commit _ _ _ _ _ holds := holds
  protect _ _ _ _ _ holds := holds

theorem placementBlind_onArena : PlacementBlind (OnArena property : Machine HostState → Prop) where
  host _ _ _ holds := holds
  regions _ _ _ holds := holds

theorem keepsArena_changeRegions (change : List MemoryRegion → List MemoryRegion) :
    Keeps (OnArena property) (onMemory fun memory =>
      { memory with regions := change memory.regions } : Program HostState Unit) :=
  placementBlind_onArena.keeps_changeRegions change

theorem keepsArena_allocateAt (desiredAddress size : UInt64) (executable allowAlternative : Bool) :
    Keeps (OnArena property) (allocateAt platform services desiredAddress size
      executable allowAlternative) :=
  placementBlind_onArena.keeps_allocateAt _ _ _ _

theorem keepsArena_tryAllocateAtExact (desiredAddress size : UInt64) (executable : Bool) :
    Keeps (OnArena property) (tryAllocateAtExact services desiredAddress size executable) := by
  refine Keeps.ite (fun _ => keeps_pure _) fun _ => ?_
  apply (keeps_onHost fun _ _ holds => holds).bind
  intro result
  refine Keeps.ite (fun _ => keeps_pure _) fun _ => ?_
  refine Keeps.ite (fun _ => ?_) fun _ => ?_
  · exact (keeps_onHost fun _ _ holds => holds).bind fun _ => keeps_pure _
  · exact (keepsArena_changeRegions _).bind fun _ => keeps_pure _

theorem keepsArena_releaseUntrackedAllocation (address : UInt64) :
    Keeps (OnArena property) (releaseUntrackedAllocation services address) :=
  (keepsArena_changeRegions _).bind fun _ =>
    keeps_onHost fun _ _ holds => holds

theorem keepsArena_tryAllocateAtOrAbove (desiredAddress size : UInt64)
    (executable : Bool) (alignment : UInt64) :
    Keeps (OnArena property) (tryAllocateAtOrAbove platform services
      desiredAddress size executable alignment) :=
  undisturbed_onArena.keeps_tryAllocateAtOrAbove keepsArena_allocateAt
    keepsArena_tryAllocateAtExact keepsArena_releaseUntrackedAllocation _ _ _ _

theorem keepsArena_map (virtualAddress memorySize fileLength : UInt64)
    (protection : ProgramHeaderFlags) :
    Keeps (OnArena property) (map platform services virtualAddress memorySize
      fileLength protection) :=
  undisturbed_onArena.keeps_map keepsArena_allocateAt _ _ _ _

end Frames

/-! ## The invariant -/

/-- Without an arena nothing is recorded; an existing arena is tiled, and each
live block is recorded under its own address. -/
structure ArenaInvariant (arena : GuestArena) : Prop where
  absent : arena.base = 0 →
    arena.freeRanges = .empty ∧ arena.allocations = .empty
  tiled : arena.base ≠ 0 → ArenaTiled arena
  addressed : ∀ allocation ∈ arena.allocations.entries,
    allocation.address = arena.base + allocation.offset

theorem arenaInvariant_initial : ArenaInvariant MemoryState.initial.arena where
  absent _ := ⟨rfl, rfl⟩
  tiled exists_ := absurd rfl exists_
  addressed _ member := by cases member

/-- Why a guest allocation may be refused: the request is malformed, there is
no arena, or no free range holds a block of that size at an aligned offset. -/
inductive AllocationRefused (arena : GuestArena) (size alignment : UInt64) : Prop
  | emptyRequest (isZero : size = 0)
  | badAlignment (notPower : ¬ Word64.IsPowerOfTwo alignment)
  | noArena (isAbsent : arena.base = 0)
  | noRoom (none_fits : ∀ range ∈ arena.freeRanges.entries, ∀ start,
      alignment.toNat ∣ start → range.offset.toNat ≤ start →
        range.offset.toNat + range.size.toNat < start + size.toNat)

theorem firstPlacement_nonzero (alignedSize : UInt64) (requests : List PlacementRequest) :
    Ensures (fun _ => True) (firstPlacement services alignedSize requests)
      (fun placed _ => ∀ answer, placed = some answer → answer.1 ≠ 0)
      (fun _ => True) := by
  induction requests with
  | nil =>
    apply ensures_pure
    rintro _ _ _ ⟨⟩
  | cons request rest ih =>
    have asked : Ensures (fun _ => True)
        (onHost (request.service services alignedSize)) (fun _ _ => True)
        (fun _ => True) := ensures_modifyGet fun _ _ => trivial
    apply asked.bind
    intro result
    refine Ensures.ite (fun nonzero => ?_) fun _ => ih
    apply ensures_pure
    rintro _ _ _ ⟨⟩
    exact nonzero

theorem allocateAt_nonzero (desiredAddress size : UInt64) (executable allowAlternative : Bool) :
    Ensures (fun _ => True) (allocateAt platform services desiredAddress size
        executable allowAlternative)
      (fun address _ => address ≠ 0) (fun _ => True) := by
  refine Ensures.ite (fun _ => ensures_throw fun _ _ => trivial) fun _ => ?_
  apply (firstPlacement_nonzero _ _).bind
  intro placed
  cases placed with
  | none => exact ensures_throw fun _ _ => trivial
  | some answer =>
    obtain ⟨actualAddress, reservedOnly⟩ := answer
    refine Ensures.assuming (fun _ nonzero => nonzero _ rfl)
      fun isNonzero : actualAddress ≠ 0 => ?_
    have returned : Ensures (fun _ => True) (pure actualAddress : Program HostState UInt64)
        (fun address _ => address ≠ 0) (fun _ => True) :=
      ensures_pure fun _ _ => isNonzero
    refine Ensures.ite (fun _ => ?_) fun _ => ?_
    · exact (ensures_true _).bind fun _ =>
        (ensures_true _).bind fun _ => returned
    · exact (ensures_true _).bind fun _ => returned

/-! ## Guest allocation and release -/

theorem arenaInvariant_new {base : UInt64} (nonzero : base ≠ 0)
    {arena : GuestArena} (invariant : ArenaInvariant arena)
    (isAbsent : arena.base = 0) :
    ArenaInvariant ⟨base, arena.freeRanges.set ⟨guestAllocationArenaStartOffset,
        guestAllocationArenaSize - guestAllocationArenaStartOffset⟩,
      arena.allocations⟩ := by
  obtain ⟨noRanges, noAllocations⟩ := invariant.absent isAbsent
  rw [noRanges, noAllocations]
  exact
    { absent := fun isZero => absurd isZero nonzero
      tiled := fun _ => arenaTiled_new base
      addressed := fun _ member => by cases member }

theorem ensureGuestArena_spec :
    Ensures (OnArena ArenaInvariant) (ensureGuestArena platform services)
      (fun exists_ machine => OnArena ArenaInvariant machine ∧
        (exists_ = true ↔ machine.memory.arena.base ≠ 0))
      (fun _ => False) := by
  have looked : Ensures (OnArena ArenaInvariant) (readMemory : Program HostState MemoryState)
      (fun memory machine => machine.memory = memory ∧
        OnArena ArenaInvariant machine) (fun _ => False) :=
    ensures_modifyGet fun _ holds => ⟨rfl, holds⟩
  apply looked.bind
  intro memory
  refine Ensures.ite (fun isAbsent => ?_) fun exists_ => ?_
  · let noArena : Machine HostState → Prop :=
      OnArena fun arena => ArenaInvariant arena ∧ arena.base = 0
    have allocated : Ensures noArena (allocateAt platform services guestAllocationArenaAddress
          guestAllocationArenaSize false true)
        (fun base machine => base ≠ 0 ∧ noArena machine) noArena :=
      ((allocateAt_nonzero _ _ _ _).and (keepsArena_allocateAt _ _ _ _)).imp
        (fun _ holds => ⟨trivial, holds⟩) (fun _ _ holds => holds)
        fun _ holds => holds.2
    have refused : ∀ fault : MemoryFault, Ensures noArena (pure false : Program HostState Bool)
        (fun exists_ machine => OnArena ArenaInvariant machine ∧
          (exists_ = true ↔ machine.memory.arena.base ≠ 0))
        (fun _ => False) := fun _ =>
      ensures_pure fun machine holds =>
        ⟨holds.1, by simp [holds.2]⟩
    refine (Ensures.tryCatch (allocated.bind fun base => ?_) refused).imp
      (fun machine known => ⟨known.2, known.1 ▸ isAbsent⟩)
      (fun _ _ holds => holds) fun _ holds => holds
    have recorded : Ensures (fun machine => base ≠ 0 ∧ noArena machine)
        (onMemory fun memory => { memory with
          guestAllocationArenaBase := base
          guestAllocationFreeRanges := memory.guestAllocationFreeRanges.set
            ⟨guestAllocationArenaStartOffset,
              guestAllocationArenaSize - guestAllocationArenaStartOffset⟩ })
        (fun _ machine => OnArena ArenaInvariant machine ∧ machine.memory.arena.base ≠ 0) noArena :=
      ensures_modify fun machine holds =>
        ⟨arenaInvariant_new holds.1 holds.2.1 holds.2.2, holds.1⟩
    exact recorded.bind fun _ => ensures_pure fun machine holds =>
      ⟨holds.1, by simp [holds.2]⟩
  · refine ensures_pure fun machine known => ⟨known.2, ?_⟩
    simpa [MemoryState.arena, known.1] using exists_

variable {size alignment : UInt64}

theorem fits_at_rounded {range : FreeRange} {start : ℕ} (power : Word64.IsPowerOfTwo alignment)
    (noOverflow : range.offset.toNat + (alignment.toNat - 1) < 2 ^ 64)
    (aligned : alignment.toNat ∣ start) (above : range.offset.toNat ≤ start)
    (fits : start + size.toNat ≤ range.offset.toNat + range.size.toNat) :
    let alignedOffset := Word64.wrappingRoundUp range.offset alignment
    alignedOffset ≥ range.offset ∧ alignedOffset - range.offset ≤ range.size ∧
      size ≤ range.size - (alignedOffset - range.offset) := by
  intro alignedOffset
  have lower := Word64.wrappingRoundUp_of_lt power.1 noOverflow
  have upper := Word64.wrappingRoundUp_le_of_dvd power noOverflow aligned above
  have gap := UInt64.toNat_sub_of_le _ _ lower
  rw [UInt64.le_iff_toNat_le] at lower
  have gapFits : alignedOffset - range.offset ≤ range.size := by
    rw [UInt64.le_iff_toNat_le, gap]
    omega
  refine ⟨UInt64.le_iff_toNat_le.mpr lower, gapFits, ?_⟩
  rw [UInt64.le_iff_toNat_le, UInt64.toNat_sub_of_le _ _ gapFits, gap]
  omega

theorem findFreeRange_spec (nonzero : size ≠ 0)
    (power : Word64.IsPowerOfTwo alignment) {ranges : List FreeRange}
    (bounded : ∀ range ∈ ranges, range.offset.toNat + range.size.toNat ≤ 2 ^ 24)
    (property : Machine HostState → Prop) :
    Ensures property (findFreeRange size alignment ranges) (fun found machine => property machine ∧
        (∀ range alignedOffset, found = some (range, alignedOffset) →
          range ∈ ranges ∧ Fits range alignedOffset size) ∧
        (found = none → ∀ range ∈ ranges, ∀ start, alignment.toNat ∣ start →
          range.offset.toNat ≤ start → range.offset.toNat + range.size.toNat < start + size.toNat))
      (fun _ => False) := by
  induction ranges with
  | nil =>
    refine ensures_pure fun machine holds => ⟨holds, ?_, ?_⟩
    · rintro _ _ ⟨⟩
    · rintro _ _ ⟨⟩
  | cons range rest ih =>
    have rangeBounded := bounded range List.mem_cons_self
    have alignmentBounded := power.toNat_le
    have predecessor := Word64.toNat_pred power.1
    have noOverflow : range.offset.toNat + (alignment - 1).toNat < 2 ^ 64 := by
      omega
    have rounded : Word64.checkedRoundUp range.offset alignment =
        some (Word64.wrappingRoundUp range.offset alignment) :=
      Word64.checkedRoundUp_eq_some.mpr ⟨noOverflow, rfl⟩
    unfold findFreeRange alignUp
    rw [rounded]
    simp only [pure_bind]
    refine Ensures.ite (fun tests => ?_) fun tests => ?_
    · refine ensures_pure fun machine holds => ⟨holds, ?_, ?_⟩
      · rintro _ _ ⟨⟩
        exact ⟨List.mem_cons_self, fits_of_tests nonzero tests.1 tests.2.1 tests.2.2⟩
      · rintro ⟨⟩
    · refine (ih (List.forall_mem_cons.mp bounded).2).imp
          (fun _ holds => holds) (fun found machine known => ?_)
            fun _ holds => holds
      obtain ⟨holds, isFound, notFound⟩ := known
      refine ⟨holds, fun other alignedOffset isSome => ?_,
        fun isNone other member start aligned above => ?_⟩
      · obtain ⟨member, fits⟩ := isFound other alignedOffset isSome
        exact ⟨List.mem_cons_of_mem _ member, fits⟩
      · rcases List.mem_cons.mp member with rfl | later
        · by_contra fits
          exact tests (fits_at_rounded power (by omega) aligned above (by omega))
        · exact notFound isNone other later start aligned above

theorem tryAllocateGuestMemory_spec (size alignment : UInt64) : Ensures (OnArena ArenaInvariant)
      (tryAllocateGuestMemory platform services size alignment)
      (fun address machine => OnArena ArenaInvariant machine ∧ (address = none →
          AllocationRefused machine.memory.arena size alignment))
      (fun _ => False) := by
  refine Ensures.ite (fun malformed => ?_) fun wellFormed => ?_
  · refine ensures_pure fun machine invariant => ⟨invariant, fun _ => ?_⟩
    by_cases isZero : size = 0
    · exact .emptyRequest isZero
    · refine .badAlignment fun power => ?_
      rcases malformed with isZero' | noAlignment | masked
      · exact isZero isZero'
      · exact power.1 noAlignment
      · exact masked power.2
  · have nonzero : size ≠ 0 := fun isZero => wellFormed (.inl isZero)
    have power : Word64.IsPowerOfTwo alignment := by
      refine ⟨fun isZero => wellFormed (.inr (.inl isZero)), ?_⟩
      by_contra masked
      exact wellFormed (.inr (.inr masked))
    apply ensureGuestArena_spec.bind
    intro exists_
    refine Ensures.ite (fun created => ?_) fun missing => ?_
    · have looked : Ensures (fun machine => OnArena ArenaInvariant machine ∧
            (exists_ = true ↔ machine.memory.arena.base ≠ 0))
          (readMemory : Program HostState MemoryState)
          (fun memory machine => ArenaInvariant memory.arena ∧
            memory.arena.base ≠ 0 ∧ machine.memory = memory)
          (fun _ => False) :=
        ensures_modifyGet fun machine known =>
          ⟨known.1, known.2.mp created, rfl⟩
      apply looked.bind
      intro memory
      refine Ensures.assuming (fun _ known => ⟨known.1, known.2.1⟩)
        fun known : ArenaInvariant memory.arena ∧ memory.arena.base ≠ 0 => ?_
      obtain ⟨invariant, hasArena⟩ := known
      have tiled := invariant.tiled hasArena
      apply (findFreeRange_spec nonzero power
        (fun range member => tiled.free_bounded member) _).bind
      intro found
      cases found with
      | none =>
        refine ensures_pure fun machine known => ?_
        obtain ⟨⟨_, _, isMemory⟩, _, noneFits⟩ := known
        simp only [OnArena, isMemory]
        exact ⟨invariant, fun _ => .noRoom (noneFits rfl)⟩
      | some found =>
        obtain ⟨range, alignedOffset⟩ := found
        have recorded : Ensures (fun machine : Machine HostState => machine.memory = memory ∧
              range ∈ memory.arena.freeRanges.entries ∧ Fits range alignedOffset size)
            (onMemory fun memory' => { memory' with
              guestAllocationFreeRanges := carveBlock range alignedOffset
                size memory'.guestAllocationFreeRanges
              guestAllocations := memory'.guestAllocations.set
                ⟨memory.guestAllocationArenaBase + alignedOffset, alignedOffset, size⟩ })
            (fun _ machine => OnArena ArenaInvariant machine)
            (fun _ => False) := by
          refine ensures_modify fun machine known => ?_
          obtain ⟨isMemory, stored, fits⟩ := known
          simp only [OnArena, isMemory]
          exact
            { absent := fun isZero => absurd isZero hasArena
              tiled := fun _ => tiled.carve stored fits invariant.addressed
              addressed := fun allocation member => by
                rcases SortedTable.mem_set.mp member with rfl | ⟨old, _⟩
                · rfl
                · exact invariant.addressed allocation old }
        refine (recorded.bind fun _ => ensures_pure fun machine holds =>
          ⟨holds, by rintro ⟨⟩⟩).imp (fun machine known => ?_)
            (fun _ _ holds => holds) fun _ holds => holds
        obtain ⟨⟨_, _, isMemory⟩, isFound, _⟩ := known
        obtain ⟨stored, fits⟩ := isFound range alignedOffset rfl
        exact ⟨isMemory, stored, fits⟩
    · refine ensures_pure fun machine known => ⟨known.1, fun _ => ?_⟩
      refine .noArena (by_contra fun hasArena => missing ?_)
      exact known.2.mpr hasArena

theorem tryFreeGuestMemory_keeps (address : UInt64) : Keeps (OnArena ArenaInvariant)
      (tryFreeGuestMemory address : Program HostState Bool) := by
  have looked : Ensures (OnArena ArenaInvariant) (readMemory : Program HostState MemoryState)
      (fun memory machine => ArenaInvariant memory.arena ∧
        machine.memory = memory) (OnArena ArenaInvariant) :=
    ensures_modifyGet fun machine invariant => ⟨invariant, rfl⟩
  apply looked.bind
  intro memory
  refine Ensures.assuming (fun _ known => known.1)
    fun invariant : ArenaInvariant memory.arena => ?_
  cases found : memory.guestAllocations.get? address with
  | none =>
    refine ensures_pure fun machine known => ?_
    rw [OnArena, known.2]
    exact invariant
  | some allocation =>
    obtain ⟨live, atAddress⟩ := SortedTable.get?_eq_some.mp found
    have recorded : Ensures (fun machine : Machine HostState => ArenaInvariant memory.arena ∧
          machine.memory = memory)
        (onMemory fun memory => { memory with
          guestAllocations := memory.guestAllocations.remove address
          guestAllocationFreeRanges := releaseBlock allocation.offset
            allocation.size memory.guestAllocationFreeRanges })
        (fun _ => OnArena ArenaInvariant) (OnArena ArenaInvariant) := by
      refine ensures_modify fun machine known => ?_
      simp only [OnArena, known.2]
      refine
        { absent := fun isZero => ?_
          tiled := fun hasArena => ?_
          addressed := fun other member => ?_ }
      · have noAllocations := (invariant.absent isZero).2
        change memory.guestAllocations = _ at noAllocations
        rw [noAllocations] at live
        cases live
      · have released := (invariant.tiled hasArena).release live
        rw [atAddress] at released
        exact released
      · exact invariant.addressed other (SortedTable.mem_remove.mp member).1
    exact recorded.bind fun _ => ensures_pure fun _ holds => holds

theorem clear_keeps : Keeps (OnArena ArenaInvariant) (clear services) :=
  keeps_modify fun _ _ => arenaInvariant_initial

theorem arenaInvariant_of_reachable {machine : Machine HostState}
    (reachable : Reachable Initial (Step platform services) machine) :
    ArenaInvariant machine.memory.arena := by
  apply reachable.invariant
  · intro start isInitial
    rw [isInitial]
    exact arenaInvariant_initial
  · rintro before operation after invariant rfl
    have kept : Keeps (OnArena ArenaInvariant) (operation.run platform services) := by
      cases operation with
      | allocateAt => exact (keepsArena_allocateAt _ _ _ _).discard
      | tryAllocateAtExact =>
        exact (keepsArena_tryAllocateAtExact _ _ _).discard
      | tryAllocateAtOrAbove =>
        exact (keepsArena_tryAllocateAtOrAbove _ _ _ _).discard
      | map => exact keepsArena_map _ _ _ _
      | tryAllocateGuestMemory =>
        exact Keeps.discard ((tryAllocateGuestMemory_spec _ _).imp
          (fun _ holds => holds) (fun _ _ known => known.1)
            fun _ impossible => impossible.elim)
      | tryFreeGuestMemory => exact (tryFreeGuestMemory_keeps _).discard
      | clear => exact clear_keeps
    exact kept.after invariant

/-- An existing arena is partitioned into free ranges and live blocks, and a
guest allocation never faults and is refused only for a reason. -/
theorem guestArena_tiled_and_refusals_explained {machine : Machine HostState}
    (reachable : Reachable Initial (Step platform services) machine) :
    (machine.memory.guestAllocationArenaBase ≠ 0 → ArenaTiled machine.memory.arena) ∧
    ∀ size alignment after, ((tryAllocateGuestMemory platform services size alignment).outcome
          machine = (.ok none, after) →
        AllocationRefused after.memory.arena size alignment) ∧
      ∀ fault, (tryAllocateGuestMemory platform services size alignment).outcome
        machine ≠ (.error fault, after) := by
  have invariant := arenaInvariant_of_reachable reachable
  refine ⟨invariant.tiled, fun size alignment after => ?_⟩
  have specified : Ensures (OnArena ArenaInvariant)
      (tryAllocateGuestMemory platform services size alignment) _ _ :=
    tryAllocateGuestMemory_spec size alignment
  obtain ⟨valueEnd, faultEnd⟩ := specified machine invariant
  exact ⟨fun refused => (valueEnd none after refused).2 rfl,
    fun fault ended => faultEnd fault after ended⟩

def oneBlockMachine : Machine Unit :=
  runOperations linuxPlatform grantingHost [.tryAllocateGuestMemory 0x10 0x10] ⟨.initial, ()⟩

theorem oneBlockMachine_reachable :
    Reachable Initial (Step linuxPlatform grantingHost) oneBlockMachine :=
  have fresh : Reachable Initial (Step linuxPlatform grantingHost)
      (⟨.initial, ()⟩ : Machine Unit) := .start rfl
  reachable_runOperations fresh _

/-- Two blocks, of which the first is given back. -/
def secondBlockMachine : Machine Unit :=
  runOperations linuxPlatform grantingHost
    [.tryAllocateGuestMemory 0x20 0x100, .tryFreeGuestMemory 0x600000000000] oneBlockMachine

theorem guestArena_tiled_and_refusals_explained_secondBlock :
    ArenaTiled secondBlockMachine.memory.arena :=
  (guestArena_tiled_and_refusals_explained
    (reachable_runOperations oneBlockMachine_reachable _)).1 (by decide)

/-- A request aligned to three is refused although a free range contains a
block of that size at a multiple of three. -/
theorem refusal_despite_aligned_room : ¬ ∀ machine : Machine Unit,
      Reachable Initial (Step linuxPlatform grantingHost) machine →
      machine.memory.guestAllocationArenaBase ≠ 0 →
      ∀ size alignment after, (tryAllocateGuestMemory linuxPlatform grantingHost size
          alignment).outcome machine = (.ok none, after) →
        ∀ range ∈ after.memory.arena.freeRanges.entries, ∀ start,
          alignment.toNat ∣ start → range.offset.toNat ≤ start →
            range.offset.toNat + range.size.toNat < start + size.toNat := by
  intro onlyForLackOfRoom
  have stored : (⟨0x1010, 0xFFEFF0⟩ : FreeRange) ∈
      oneBlockMachine.memory.arena.freeRanges.entries := by
    decide
  have full := onlyForLackOfRoom oneBlockMachine oneBlockMachine_reachable
    (by decide) 16 3 oneBlockMachine rfl _ stored 0x1011 (by decide) (by decide)
  exact absurd full (by decide)

end PhysicalVirtualMemory
end SharpEmu
