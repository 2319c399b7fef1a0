import SharpEmu.GuestAllocationArenaRuns

/-!
# Alignment of guest blocks

The search for room rounds offsets, not addresses.  A block therefore lies at
an aligned distance from the base of the arena, wherever the host has placed
that base, and its address is aligned exactly when the base is.
-/

namespace SharpEmu
namespace PhysicalVirtualMemory

open Faulting Extent

variable {HostState : Type}
variable {platform : MemoryPlatform} {services : HostMemoryServices HostState}

/-- The base of the arena a request is served from: the recorded one, or the
one the host hands out now. -/
def offeredArenaBase (platform : MemoryPlatform)
    (services : HostMemoryServices HostState) (machine : Machine HostState) :
    Option UInt64 :=
  if machine.memory.guestAllocationArenaBase = 0 then
    match (allocateAt platform services guestAllocationArenaAddress
      guestAllocationArenaSize false true).outcome machine with
    | (.ok base, _) => some base
    | (.error _, _) => none
  else some machine.memory.guestAllocationArenaBase

theorem ensureGuestArena_offered (base : UInt64) : Ensures
      (fun machine => offeredArenaBase platform services machine = some base)
      (ensureGuestArena platform services)
      (fun exists_ machine => exists_ = true → machine.memory.guestAllocationArenaBase = base)
      (fun _ => True) := by
  have looked : Ensures (fun machine => offeredArenaBase platform services machine = some base)
      (readMemory : Program HostState MemoryState)
      (fun memory machine => machine.memory = memory ∧
        offeredArenaBase platform services machine = some base)
      (fun _ => True) :=
    ensures_modifyGet fun _ offered => ⟨rfl, offered⟩
  apply looked.bind
  intro memory
  refine Ensures.ite (fun isAbsent => ?_) fun exists_ => ?_
  · have allocated : Ensures (fun machine => machine.memory = memory ∧
          offeredArenaBase platform services machine = some base)
        (allocateAt platform services guestAllocationArenaAddress
          guestAllocationArenaSize false true)
        (fun answer _ => answer = base) (fun _ => True) := by
      rintro machine ⟨isMemory, offered⟩
      refine ⟨fun answer after ended => ?_, fun _ _ _ => trivial⟩
      rw [offeredArenaBase, isMemory, if_pos isAbsent, ended] at offered
      exact Option.some.inj offered
    refine Ensures.tryCatch (allocated.bind fun answer => ?_) fun fault =>
      ensures_pure fun _ _ => by rintro ⟨⟩
    have recorded : Ensures (fun _ : Machine HostState => answer = base)
        (onMemory fun memory => { memory with
          guestAllocationArenaBase := answer
          guestAllocationFreeRanges := memory.guestAllocationFreeRanges.set
            ⟨guestAllocationArenaStartOffset,
              guestAllocationArenaSize - guestAllocationArenaStartOffset⟩ })
        (fun _ machine => machine.memory.guestAllocationArenaBase = base)
        (fun _ => True) :=
      ensures_modify fun _ isBase => isBase
    exact recorded.bind fun _ => ensures_pure fun _ isBase _ => isBase
  · refine ensures_pure fun machine known _ => ?_
    obtain ⟨isMemory, offered⟩ := known
    rw [offeredArenaBase, isMemory, if_neg exists_] at offered
    rw [isMemory]
    exact Option.some.inj offered

theorem findFreeRange_aligned {size alignment : UInt64}
    (power : Word64.IsPowerOfTwo alignment) (ranges : List FreeRange)
    (property : Machine HostState → Prop) :
    Ensures property (findFreeRange size alignment ranges) (fun found machine => property machine ∧
        ∀ range alignedOffset, found = some (range, alignedOffset) →
          alignment.toNat ∣ alignedOffset.toNat)
      (fun _ => True) := by
  induction ranges with
  | nil =>
    refine ensures_pure fun machine holds => ⟨holds, ?_⟩
    rintro _ _ ⟨⟩
  | cons range rest ih =>
    unfold findFreeRange alignUp
    cases rounded : Word64.checkedRoundUp range.offset alignment with
    | none => exact ensures_throw fun _ _ => trivial
    | some alignedOffset =>
      obtain ⟨-, isRounded⟩ := Word64.checkedRoundUp_eq_some.mp rounded
      simp only [pure_bind]
      refine Ensures.ite (fun _ => ?_) fun _ => ih
      refine ensures_pure fun machine holds => ⟨holds, ?_⟩
      rintro _ _ ⟨⟩
      rw [isRounded]
      exact Word64.dvd_wrappingRoundUp range.offset power

theorem tryAllocateGuestMemory_recorded (size alignment base : UInt64) : Ensures
      (fun machine => offeredArenaBase platform services machine = some base)
      (tryAllocateGuestMemory platform services size alignment)
      (fun result machine => ∀ address, result = some address → Word64.IsPowerOfTwo alignment ∧
        machine.memory.guestAllocationArenaBase = base ∧
        ∃ alignedOffset, alignment.toNat ∣ alignedOffset.toNat ∧ address = base + alignedOffset ∧
          (⟨address, alignedOffset, size⟩ : GuestAllocation) ∈
            machine.memory.arena.allocations.entries)
      (fun _ => True) := by
  refine Ensures.ite (fun _ => ?_) fun wellFormed => ?_
  · refine ensures_pure fun machine _ address => ?_
    rintro ⟨⟩
  · have power : Word64.IsPowerOfTwo alignment := by
      refine ⟨fun isZero => wellFormed (.inr (.inl isZero)), ?_⟩
      by_contra masked
      exact wellFormed (.inr (.inr masked))
    apply (ensureGuestArena_offered base).bind
    intro exists_
    refine Ensures.ite (fun created => ?_) fun _ => ?_
    · have looked : Ensures (fun machine : Machine HostState => exists_ = true →
            machine.memory.guestAllocationArenaBase = base)
          (readMemory : Program HostState MemoryState)
          (fun memory machine => memory.guestAllocationArenaBase = base ∧
            machine.memory = memory) (fun _ => True) :=
        ensures_modifyGet fun _ isBase => ⟨isBase created, rfl⟩
      apply looked.bind
      intro memory
      apply (findFreeRange_aligned power _ _).bind
      intro found
      cases found with
      | none =>
        refine ensures_pure fun machine _ address => ?_
        rintro ⟨⟩
      | some found =>
        obtain ⟨range, alignedOffset⟩ := found
        have recorded : Ensures (fun machine : Machine HostState =>
              (memory.guestAllocationArenaBase = base ∧ machine.memory = memory) ∧
              ∀ range' offset, some (range, alignedOffset) =
                some (range', offset) → alignment.toNat ∣ offset.toNat)
            (onMemory fun memory' => { memory' with
              guestAllocationFreeRanges := carveBlock range alignedOffset
                size memory'.guestAllocationFreeRanges
              guestAllocations := memory'.guestAllocations.set
                ⟨memory.guestAllocationArenaBase + alignedOffset, alignedOffset, size⟩ })
            (fun _ machine => machine.memory.guestAllocationArenaBase = base ∧
              memory.guestAllocationArenaBase = base ∧
              alignment.toNat ∣ alignedOffset.toNat ∧
              (⟨memory.guestAllocationArenaBase + alignedOffset,
                alignedOffset, size⟩ : GuestAllocation) ∈ machine.memory.arena.allocations.entries)
            (fun _ => True) := by
          refine ensures_modify fun machine known => ?_
          obtain ⟨⟨isBase, isMemory⟩, isAligned⟩ := known
          refine ⟨?_, isBase, isAligned _ _ rfl, SortedTable.mem_set.mpr (.inl rfl)⟩
          simpa only [isMemory] using isBase
        refine recorded.bind fun _ => ensures_pure fun machine known => ?_
        obtain ⟨isBase, wasBase, isAligned, live⟩ := known
        rintro _ ⟨⟩
        exact ⟨power, isBase, alignedOffset, isAligned, by rw [wasBase], live⟩
    · refine ensures_pure fun machine _ address => ?_
      rintro ⟨⟩

def InsideArena (base address size : UInt64) : Prop :=
  (address - base).toNat + size.toNat ≤ guestAllocationArenaSize.toNat

/-- Whatever base the host hands out, a block handed out lies inside the arena,
and its address is aligned exactly when the base of the arena is. -/
theorem guestBlock_aligned_inside_iff_arenaBase_aligned {machine : Machine HostState}
    (reachable : Reachable Initial (Step platform services) machine)
    {size alignment address base : UInt64} {after : Machine HostState}
    (offered : offeredArenaBase platform services machine = some base)
    (allocated : (tryAllocateGuestMemory platform services size
      alignment).outcome machine = (.ok (some address), after)) :
    (alignment.toNat ∣ address.toNat ∧ InsideArena base address size) ↔
      alignment.toNat ∣ base.toNat := by
  obtain ⟨power, isBase, alignedOffset, isAligned, rfl, live⟩ :=
    (tryAllocateGuestMemory_recorded size alignment base machine offered).1
      _ _ allocated address rfl
  have next : Reachable Initial (Step platform services) after := by
    have stepped : Step platform services machine
        (.tryAllocateGuestMemory size alignment) after := by
      change after = ((tryAllocateGuestMemory platform services size
        alignment >>= fun _ => pure ()).outcome machine).2
      rw [state_outcome_answering, allocated]
    exact reachable.next stepped
  have invariant := arenaInvariant_of_reachable next
  have hasArena : after.memory.arena.base ≠ 0 := by
    intro isAbsent
    rw [(invariant.absent isAbsent).2] at live
    cases live
  have inside : InsideArena base (base + alignedOffset) size := by
    have distance : base + alignedOffset - base = alignedOffset := by
      rw [UInt64.add_comm, UInt64.add_sub_cancel]
    rw [InsideArena, distance]
    exact (invariant.tiled hasArena).live_bounded live
  have sameRemainder := Word64.toNat_add_mod base alignedOffset power
  rw [and_iff_left inside, Nat.dvd_iff_mod_eq_zero, sameRemainder, ← Nat.dvd_iff_mod_eq_zero]
  exact (Nat.dvd_add_iff_left isAligned).symm

/-- A host that refuses every address asked for and places requests without an
address at one page of its own. -/
def relocatingHost : HostMemoryServices Unit where
  allocate _ desiredAddress _ _ :=
    (if desiredAddress = 0 then 0x7F0000001000 else 0, ())
  reserve _ desiredAddress _ _ :=
    (if desiredAddress = 0 then 0x7F0000001000 else 0, ())
  commit _ _ _ _ := (true, ())
  free _ _ := ()
  protect _ _ _ _ := (true, ())

theorem guestBlock_aligned_inside_iff_arenaBase_aligned_relocated :
    ((0x1000 : UInt64).toNat ∣ (0x7F0000002000 : UInt64).toNat ∧
      InsideArena 0x7F0000001000 0x7F0000002000 0x20) ↔
      (0x1000 : UInt64).toNat ∣ (0x7F0000001000 : UInt64).toNat :=
  have fresh : Reachable Initial (Step linuxPlatform relocatingHost)
      (⟨.initial, ()⟩ : Machine Unit) := .start rfl
  guestBlock_aligned_inside_iff_arenaBase_aligned fresh rfl rfl

/-- In an arena placed at one page, a block aligned to sixteen pages is handed
out at seventeen. -/
theorem relocated_arena_misaligns_block :
    ¬ ∀ (machine : Machine Unit) (size alignment address base : UInt64) (after : Machine Unit),
      Reachable Initial (Step linuxPlatform relocatingHost) machine →
      offeredArenaBase linuxPlatform relocatingHost machine = some base →
      (tryAllocateGuestMemory linuxPlatform relocatingHost size
        alignment).outcome machine = (.ok (some address), after) →
      alignment.toNat ∣ address.toNat ∧ InsideArena base address size := by
  intro alwaysAligned
  have aligned := (alwaysAligned ⟨.initial, ()⟩ 0x20 0x10000 0x7F0000011000
    0x7F0000001000 _ (.start rfl) rfl rfl).1
  exact absurd aligned (by decide)

end PhysicalVirtualMemory
end SharpEmu
