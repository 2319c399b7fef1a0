import SharpEmu.DirectMemory

/-!
# Live direct-memory blocks stay apart

As long as the ends of the live blocks can be rounded up without wrapping, the
first-fit walk finds a place apart from all of them, inside its window and on
the alignment; releases only cut blocks.  Where a rounding wraps the walk starts
over at a low address and the guarantee is lost.
-/

namespace SharpEmu
namespace DirectMemory

open Extent

def DirectAllocation.extent (allocation : DirectAllocation) : Extent :=
  ⟨allocation.start.toNat, allocation.length.toNat⟩

/-- The live blocks are nonempty, end inside the address space and are apart. -/
structure LiveBlocks (table : SortedTable DirectAllocation.start) : Prop where
  nonempty : ∀ block ∈ table.entries, 0 < block.length.toNat
  bounded : ∀ block ∈ table.entries,
    block.start.toNat + block.length.toNat < 2 ^ 64
  apart : ApartTable DirectAllocation.extent table

structure Roundable (table : SortedTable DirectAllocation.start)
    (searchStart alignment : UInt64) : Prop where
  fromStart : searchStart.toNat + (alignment.toNat - 1) < 2 ^ 64
  fromEnds : ∀ block ∈ table.entries,
    block.start.toNat + block.length.toNat + (alignment.toNat - 1) < 2 ^ 64

/-! ## Rounding and ends -/

theorem le_alignUp {value alignment : UInt64}
    (fits : value.toNat + (alignment.toNat - 1) < 2 ^ 64) :
    value.toNat ≤ (alignUp value alignment).toNat := by
  unfold alignUp
  split
  · exact Nat.le_refl _
  · rename_i above
    have nonzero : alignment ≠ 0 := by
      rintro rfl
      exact above (by decide)
    exact UInt64.le_iff_toNat_le.mp (Word64.wrappingRoundUp_of_lt nonzero fits)

theorem dvd_alignUp (value : UInt64) {alignment : UInt64} (power : Word64.IsPowerOfTwo alignment) :
    alignment.toNat ∣ (alignUp value alignment).toNat := by
  unfold alignUp
  split
  · rename_i atMostOne
    have positive := Word64.toNat_pos power.1
    rw [UInt64.le_iff_toNat_le, UInt64.toNat_one] at atMostOne
    rw [show alignment.toNat = 1 by omega]
    exact Nat.one_dvd _
  · exact Word64.dvd_wrappingRoundUp value power

theorem endsBy_iff {candidate length bound : UInt64} : endsBy candidate length bound = true ↔
      candidate.toNat + length.toNat ≤ bound.toNat := by
  have boundLt := bound.toNat_lt
  unfold endsBy
  constructor
  · intro ends
    obtain ⟨candidateEnd, added, below⟩ := (Option.any_eq_true _ _).mp ends
    obtain ⟨_, endEq⟩ := Word64.checkedAdd_eq_some.mp added
    rw [decide_eq_true_eq, UInt64.le_iff_toNat_le] at below
    omega
  · intro below
    have fits : candidate.toNat + length.toNat < 2 ^ 64 := by omega
    rw [Word64.checkedAdd_isSome fits, Option.any_some, decide_eq_true_eq,
      UInt64.le_iff_toNat_le, Word64.toNat_add_of_lt fits]
    exact below

theorem endAddress_eq_some {block : DirectAllocation} {endAddress : UInt64} :
    block.endAddress = some endAddress ↔ block.start.toNat + block.length.toNat < 2 ^ 64 ∧
        endAddress.toNat = block.start.toNat + block.length.toNat :=
  Word64.checkedAdd_eq_some

/-! ## The search -/

section Search

variable {length alignment effectiveEnd candidate selected : UInt64}
variable {blocks : List DirectAllocation}

theorem searchGaps_spec (ascending : blocks.Pairwise fun first second =>
      first.start.toNat + first.length.toNat ≤ second.start.toNat)
    (roundable : ∀ block ∈ blocks,
      block.start.toNat + block.length.toNat + (alignment.toNat - 1) < 2 ^ 64)
    (found : searchGaps length alignment effectiveEnd blocks candidate = some selected) :
    candidate.toNat ≤ selected.toNat ∧ selected.toNat + length.toNat ≤ effectiveEnd.toNat ∧
      ∀ block ∈ blocks, block.extent.Separated ⟨selected.toNat, length.toNat⟩ := by
  induction blocks generalizing candidate with
  | nil =>
    simp only [searchGaps, Option.ite_none_right_eq_some, endsBy_iff, Option.some.injEq] at found
    obtain ⟨ends, rfl⟩ := found
    exact ⟨Nat.le_refl _, ends, by simp⟩
  | cons block rest ih =>
    obtain ⟨restAfter, restAscending⟩ := List.pairwise_cons.mp ascending
    obtain ⟨blockRoundable, restRoundable⟩ := List.forall_mem_cons.mp roundable
    rw [searchGaps] at found
    cases ended : block.endAddress with
    | none =>
      rw [ended] at found
      cases found
    | some blockEnd =>
      obtain ⟨_, endEq⟩ := endAddress_eq_some.mp ended
      simp only [ended] at found
      -- A place that ends before a block starts is apart from the rest.
      have apartBefore (place : UInt64) (before : place.toNat + length.toNat ≤ block.start.toNat) :
          ∀ other ∈ block :: rest, other.extent.Separated ⟨place.toNat, length.toNat⟩ := by
        intro other member
        right
        rcases List.mem_cons.mp member with rfl | inRest
        · exact before
        · have after := restAfter other inRest
          simp only [DirectAllocation.extent]
          omega
      split at found
      case isTrue behind =>
        rw [UInt64.le_iff_toNat_le] at behind
        obtain ⟨above, below, apart⟩ :=
          ih restAscending restRoundable found
        refine ⟨above, below, fun other member => ?_⟩
        rcases List.mem_cons.mp member with rfl | inRest
        · left
          simp only [DirectAllocation.extent]
          omega
        · exact apart other inRest
      case isFalse inFront =>
        rw [UInt64.le_iff_toNat_le] at inFront
        split at found
        case isTrue fits =>
          obtain rfl := Option.some.inj found
          have ends := endsBy_iff.mp fits.2
          have startBound : (min block.start effectiveEnd).toNat ≤
              block.start.toNat :=
            UInt64.le_iff_toNat_le.mp (min_le_left _ _)
          have windowBound : (min block.start effectiveEnd).toNat ≤
              effectiveEnd.toNat :=
            UInt64.le_iff_toNat_le.mp (min_le_right _ _)
          exact ⟨Nat.le_refl _, by omega, apartBefore candidate (by omega)⟩
        case isFalse =>
          split at found
          case isTrue pastWindow =>
            rw [ge_iff_le, UInt64.le_iff_toNat_le] at pastWindow
            simp only [Option.ite_none_right_eq_some, endsBy_iff, Option.some.injEq] at found
            obtain ⟨ends, rfl⟩ := found
            exact ⟨Nat.le_refl _, ends, apartBefore candidate (by omega)⟩
          case isFalse =>
            split at found
            case isTrue => cases found
            case isFalse =>
              have roundedFrom : max candidate blockEnd = blockEnd :=
                max_eq_right (UInt64.le_iff_toNat_le.mpr (by omega))
              rw [roundedFrom] at found
              have rounded : blockEnd.toNat ≤ (alignUp blockEnd alignment).toNat := by
                apply le_alignUp
                rw [endEq]
                exact roundable block List.mem_cons_self
              obtain ⟨above, below, apart⟩ :=
                ih restAscending restRoundable found
              refine ⟨by omega, below, fun other member => ?_⟩
              rcases List.mem_cons.mp member with rfl | inRest
              · left
                simp only [DirectAllocation.extent]
                omega
              · exact apart other inRest

theorem searchGaps_aligned (power : Word64.IsPowerOfTwo alignment)
    (aligned : alignment.toNat ∣ candidate.toNat)
    (found : searchGaps length alignment effectiveEnd blocks candidate = some selected) :
    alignment.toNat ∣ selected.toNat := by
  induction blocks generalizing candidate with
  | nil =>
    simp only [searchGaps, Option.ite_none_right_eq_some, Option.some.injEq] at found
    exact found.2 ▸ aligned
  | cons block rest ih =>
    rw [searchGaps] at found
    cases ended : block.endAddress with
    | none =>
      rw [ended] at found
      cases found
    | some blockEnd =>
      simp only [ended] at found
      split at found
      case isTrue => exact ih aligned found
      case isFalse =>
        split at found
        case isTrue => exact Option.some.inj found ▸ aligned
        case isFalse =>
          split at found
          case isTrue =>
            simp only [Option.ite_none_right_eq_some, Option.some.injEq] at found
            exact found.2 ▸ aligned
          case isFalse =>
            split at found
            case isTrue => cases found
            case isFalse =>
              exact ih (dvd_alignUp _ power) found

end Search

/-! ## Allocating -/

structure Placed (table : SortedTable DirectAllocation.start)
    (windowStart windowEnd length alignment selected : UInt64) : Prop where
  above : windowStart.toNat ≤ selected.toNat
  below : selected.toNat + length.toNat ≤ windowEnd.toNat
  aligned : Word64.IsPowerOfTwo alignment → alignment.toNat ∣ selected.toNat
  apart : ∀ block ∈ table.entries,
    block.extent.Separated ⟨selected.toNat, length.toNat⟩

section Allocating

variable {table : SortedTable DirectAllocation.start}
variable {searchStart searchEnd length alignment limit selected : UInt64}

theorem LiveBlocks.ascending (live : LiveBlocks table) : table.entries.Pairwise fun first second =>
      first.start.toNat + first.length.toNat ≤ second.start.toNat := by
  apply table.ascending.imp_of_mem
  intro first second firstMem secondMem below
  have separated := live.apart first firstMem second secondMem below.ne
  have secondNonempty := live.nonempty second secondMem
  rw [UInt64.lt_iff_toNat_lt] at below
  simp only [Separated, DirectAllocation.extent] at separated
  omega

theorem tryFindAllocatableRange_spec (live : LiveBlocks table)
    (roundable : Roundable table searchStart alignment)
    (found : tryFindAllocatableRange table searchStart searchEnd length alignment
      limit = some selected) :
    Placed table searchStart (min searchEnd limit) length alignment selected := by
  unfold tryFindAllocatableRange at found
  split at found
  case isTrue => cases found
  case isFalse =>
    simp only at found
    split at found
    case isTrue => cases found
    case isFalse =>
      obtain ⟨above, below, apart⟩ :=
        searchGaps_spec live.ascending roundable.fromEnds found
      have startsAbove := le_alignUp roundable.fromStart
      exact
        { above := by omega
          below := below
          aligned := fun power =>
            searchGaps_aligned power (dvd_alignUp _ power) found
          apart := apart }

theorem LiveBlocks.set (live : LiveBlocks table) {block : DirectAllocation}
    (nonempty : 0 < block.length.toNat)
    (bounded : block.start.toNat + block.length.toNat < 2 ^ 64)
    (apart : ∀ other ∈ table.entries, other.extent.Separated block.extent) :
    LiveBlocks (table.set block) where
  nonempty := by
    intro other member
    rcases SortedTable.mem_set.mp member with rfl | ⟨old, _⟩
    · exact nonempty
    · exact live.nonempty other old
  bounded := by
    intro other member
    rcases SortedTable.mem_set.mp member with rfl | ⟨old, _⟩
    · exact bounded
    · exact live.bounded other old
  apart := live.apart.set fun other member _ => apart other member

theorem LiveBlocks.remove (live : LiveBlocks table) (start : UInt64) :
    LiveBlocks (table.remove start) where
  nonempty := fun block member =>
    live.nonempty block (SortedTable.mem_remove.mp member).1
  bounded := fun block member =>
    live.bounded block (SortedTable.mem_remove.mp member).1
  apart := live.apart.remove start

theorem effectiveAlignment_idem (alignment : UInt64) :
    effectiveAlignment (effectiveAlignment alignment) =
      effectiveAlignment alignment := by
  unfold effectiveAlignment
  split <;> rfl

theorem tryAllocate_spec {memory after : DirectMemoryState} {memoryType : Int32}
    (live : LiveBlocks memory.directAllocations)
    (roundable : Roundable memory.directAllocations searchStart (effectiveAlignment alignment))
    (allocated : tryAllocate memory searchStart searchEnd length
      (effectiveAlignment alignment) memoryType limit = some (selected, after)) :
    Placed memory.directAllocations searchStart (min searchEnd limit) length
        (effectiveAlignment alignment) selected ∧
      LiveBlocks after.directAllocations ∧
      after.mainDirectMemoryPoolBase = memory.mainDirectMemoryPoolBase := by
  unfold tryAllocate at allocated
  rw [effectiveAlignment_idem] at allocated
  split at allocated
  case isTrue => cases allocated
  case isFalse notRefused =>
    cases found : tryFindAllocatableRange memory.directAllocations searchStart
        searchEnd length (effectiveAlignment alignment) limit with
    | none => simp [found] at allocated
    | some freePosition =>
      simp only [found] at allocated
      cases added : Word64.checkedAdd freePosition length with
      | none => simp [added] at allocated
      | some endAddress =>
        simp only [added, Option.some.injEq, Prod.mk.injEq] at allocated
        obtain ⟨rfl, rfl⟩ := allocated
        have placed := tryFindAllocatableRange_spec live roundable found
        have nonzero : length ≠ 0 := fun isZero => notRefused (.inl isZero)
        exact ⟨placed, live.set (Word64.toNat_pos nonzero)
          (Word64.checkedAdd_eq_some.mp added).1 placed.apart, rfl⟩

theorem clampSearchEnd_le (searchEnd : UInt64) :
    clampSearchEnd searchEnd ≤ directMemorySizeBytes := by
  unfold clampSearchEnd
  split
  · exact le_refl _
  · split
    · exact le_refl _
    · exact not_lt.mp ‹_›

end Allocating

/-! ## The calls -/

section Calls

variable {memory : DirectMemoryState} {length alignment outAddress selected : UInt64}
variable {memoryType : Int32} {written : Bool}

def Allocates (memory : DirectMemoryState) (outcome : AllocationOutcome)
    (placed : UInt64 → Prop) : Prop :=
  LiveBlocks outcome.after.directAllocations ∧
    (∀ selected, outcome.selected = some selected → placed selected) ∧
    (outcome.selected = none → outcome.after = memory)

theorem kernelAllocateDirectMemory_spec {searchStart searchEnd : UInt64}
    (live : LiveBlocks memory.directAllocations)
    (roundable : Roundable memory.directAllocations
      (clampSearchStart searchStart (clampSearchEnd searchEnd))
      (effectiveAlignment alignment)) :
    Allocates memory (kernelAllocateDirectMemory memory searchStart searchEnd length alignment
        memoryType outAddress written)
      (Placed memory.directAllocations (clampSearchStart searchStart (clampSearchEnd searchEnd))
        (clampSearchEnd searchEnd) length (effectiveAlignment alignment)) := by
  unfold kernelAllocateDirectMemory
  split
  case isTrue => exact ⟨live, by simp, fun _ => rfl⟩
  case isFalse =>
    simp only
    cases allocated : tryAllocate memory (clampSearchStart searchStart (clampSearchEnd searchEnd))
        (clampSearchEnd searchEnd) length (effectiveAlignment alignment)
        memoryType directMemorySizeBytes with
    | none => exact ⟨live, by simp [reportAllocation], fun _ => rfl⟩
    | some ended =>
      obtain ⟨selected, after⟩ := ended
      obtain ⟨placed, liveAfter, _⟩ :=
        tryAllocate_spec live roundable allocated
      rw [min_eq_left (clampSearchEnd_le searchEnd)] at placed
      refine ⟨liveAfter, ?_, by simp [reportAllocation]⟩
      intro _ isSelected
      obtain rfl := Option.some.inj isSelected
      exact placed

theorem mainAllocationLimit_congr {other : DirectMemoryState}
    (samePool : other.mainDirectMemoryPoolBase = memory.mainDirectMemoryPoolBase) :
    mainAllocationLimit other = mainAllocationLimit memory := by
  unfold mainAllocationLimit
  rw [samePool]

theorem poolLimit_eq {poolBase limit : UInt64}
    (added : Word64.checkedAdd poolBase directMemorySizeBytes = some limit) :
    poolLimit poolBase = limit := by
  rw [poolLimit, added, Option.getD_some]

@[simp]
theorem mainAllocationLimit_withPoolBase (poolBase : UInt64) :
    mainAllocationLimit (memory.withPoolBase poolBase) = poolLimit poolBase := by
  rw [mainAllocationLimit, DirectMemoryState.withPoolBase, Option.elim_some]

variable {after : DirectMemoryState}

theorem tryAllocateShifted_eq_some
    (allocated : tryAllocateShifted memory length alignment memoryType = some (selected, after)) :
    ∃ poolBase limit withoutPool, Word64.checkedAdd poolBase directMemorySizeBytes = some limit ∧
      tryAllocate memory 0 limit length alignment memoryType limit = some (selected, withoutPool) ∧
      after = withoutPool.withPoolBase poolBase := by
  unfold tryAllocateShifted at allocated
  split at allocated
  · cases allocated
  · obtain ⟨limit, shifted, tried⟩ := Option.bind_eq_some_iff.mp allocated
    obtain ⟨ended, recorded, isEnded⟩ := Option.map_eq_some_iff.mp tried
    obtain ⟨selectedEq, afterEq⟩ := Prod.mk.inj isEnded
    exact ⟨_, limit, ended.2, shifted, by rw [recorded, ← selectedEq], afterEq.symm⟩

theorem tryAllocateShifted_spec (live : LiveBlocks memory.directAllocations)
    (roundable : Roundable memory.directAllocations 0 (effectiveAlignment alignment))
    (allocated : tryAllocateShifted memory length
      (effectiveAlignment alignment) memoryType = some (selected, after)) :
    Placed memory.directAllocations 0 (mainAllocationLimit after) length
        (effectiveAlignment alignment) selected ∧
      LiveBlocks after.directAllocations := by
  obtain ⟨poolBase, limit, withoutPool, shifted, tried, rfl⟩ :=
    tryAllocateShifted_eq_some allocated
  obtain ⟨placed, liveAfter, _⟩ := tryAllocate_spec live roundable tried
  rw [min_self] at placed
  rw [mainAllocationLimit_withPoolBase, poolLimit_eq shifted]
  exact ⟨placed, liveAfter⟩

theorem kernelAllocateMainDirectMemory_spec (live : LiveBlocks memory.directAllocations)
    (roundable : Roundable memory.directAllocations 0 (effectiveAlignment alignment)) :
    Allocates memory (kernelAllocateMainDirectMemory memory length alignment memoryType
        outAddress written)
      (Placed memory.directAllocations 0
        (mainAllocationLimit (kernelAllocateMainDirectMemory memory length
          alignment memoryType outAddress written).after)
        length (effectiveAlignment alignment)) := by
  unfold kernelAllocateMainDirectMemory
  split
  case isTrue => exact ⟨live, by simp, fun _ => rfl⟩
  case isFalse =>
    simp only
    cases allocated : (tryAllocate memory 0 (mainAllocationLimit memory) length
        (effectiveAlignment alignment) memoryType
        (mainAllocationLimit memory)).or
          (tryAllocateShifted memory length (effectiveAlignment alignment) memoryType) with
    | none => exact ⟨live, by simp [reportAllocation], fun _ => rfl⟩
    | some ended =>
      obtain ⟨selected, after⟩ := ended
      have placedAndLive : Placed memory.directAllocations 0
          (mainAllocationLimit after) length (effectiveAlignment alignment)
          selected ∧ LiveBlocks after.directAllocations := by
        rcases Option.or_eq_some_iff.mp allocated with first | ⟨_, second⟩
        · obtain ⟨placed, liveAfter, samePool⟩ :=
            tryAllocate_spec live roundable first
          rw [min_self] at placed
          rw [mainAllocationLimit_congr samePool]
          exact ⟨placed, liveAfter⟩
        · exact tryAllocateShifted_spec live roundable second
      refine ⟨placedAndLive.2, ?_, by simp [reportAllocation]⟩
      intro _ isSelected
      obtain rfl := Option.some.inj isSelected
      exact placedAndLive.1

variable {start : UInt64}

theorem LiveBlocks.carveOut {table : SortedTable DirectAllocation.start}
    (live : LiveBlocks table) {owner : DirectAllocation}
    {ownerEnd releaseEnd : UInt64} (member : owner ∈ table.entries)
    (ended : owner.endAddress = some ownerEnd)
    (startsInside : owner.start ≤ start) (ordered : start ≤ releaseEnd)
    (endsInside : releaseEnd ≤ ownerEnd) :
    LiveBlocks (carveOut table owner ownerEnd start releaseEnd) := by
  obtain ⟨_, endEq⟩ := endAddress_eq_some.mp ended
  have endBound := ownerEnd.toNat_lt
  rw [UInt64.le_iff_toNat_le] at startsInside ordered endsInside
  have frontLength : (start - owner.start).toNat = start.toNat - owner.start.toNat :=
    UInt64.toNat_sub_of_le _ _ (UInt64.le_iff_toNat_le.mpr startsInside)
  have backLength : (ownerEnd - releaseEnd).toNat = ownerEnd.toNat - releaseEnd.toNat :=
    UInt64.toNat_sub_of_le _ _ (UInt64.le_iff_toNat_le.mpr endsInside)
  have removed := live.remove owner.start
  have apartFromOwner : ∀ other ∈ (table.remove owner.start).entries,
      other.extent.Separated owner.extent := by
    intro other otherMem
    obtain ⟨stored, different⟩ := SortedTable.mem_remove.mp otherMem
    exact live.apart other stored owner member different
  have backApart : ∀ other : DirectAllocation,
      other.extent.Separated owner.extent → other.extent.Separated
        ⟨releaseEnd.toNat, (ownerEnd - releaseEnd).toNat⟩ := by
    intro other separated
    refine (separated.symm.of_within ?_ ?_).symm
    · simp only [DirectAllocation.extent]
      omega
    · simp only [DirectAllocation.extent]
      omega
  unfold DirectMemory.carveOut
  by_cases hasFront : start > owner.start
  · have front : LiveBlocks ((table.remove owner.start).set
        { owner with length := start - owner.start }) := by
      rw [gt_iff_lt, UInt64.lt_iff_toNat_lt] at hasFront
      refine removed.set ?_ ?_ fun other otherMem => ?_
      · simp only
        omega
      · simp only
        omega
      · refine ((apartFromOwner other otherMem).symm.of_within ?_ ?_).symm
        · exact Nat.le_refl _
        · simp only [DirectAllocation.extent]
          omega
    simp only [hasFront, if_true]
    split
    case isFalse => exact front
    case isTrue hasBack =>
      rw [UInt64.lt_iff_toNat_lt] at hasBack
      refine front.set ?_ ?_ fun other otherMem => ?_
      · simp only
        omega
      · simp only
        omega
      · rcases SortedTable.mem_set.mp otherMem with rfl | ⟨old, _⟩
        · left
          simp only [DirectAllocation.extent]
          omega
        · exact backApart other (apartFromOwner other old)
  · simp only [hasFront, if_false]
    split
    case isFalse => exact removed
    case isTrue hasBack =>
      rw [UInt64.lt_iff_toNat_lt] at hasBack
      refine removed.set ?_ ?_ fun other otherMem =>
        backApart other (apartFromOwner other otherMem)
      · simp only
        omega
      · simp only
        omega

theorem tryReleaseRange_spec (live : LiveBlocks memory.directAllocations)
    (released : tryReleaseRange memory start length = some after) :
    LiveBlocks after.directAllocations := by
  unfold tryReleaseRange at released
  cases added : Word64.checkedAdd start length with
  | none => simp [added] at released
  | some releaseEnd =>
    simp only [added, Option.map_eq_some_iff] at released
    obtain ⟨⟨owner, ownerEnd⟩, found, rfl⟩ := released
    obtain ⟨candidate, member, isOwner⟩ :=
      List.exists_of_findSome?_eq_some found
    obtain ⟨endAddress, inside, isPair⟩ := Option.map_eq_some_iff.mp isOwner
    obtain ⟨rfl, rfl⟩ := Prod.mk.inj isPair
    obtain ⟨ended, contains⟩ := Option.filter_eq_some_iff.mp inside
    simp only [ge_iff_le, Bool.and_eq_true, decide_eq_true_eq] at contains
    have ordered : start ≤ releaseEnd := by
      rw [UInt64.le_iff_toNat_le, (Word64.checkedAdd_eq_some.mp added).2]
      omega
    exact live.carveOut member ended contains.1 ordered contains.2

end Calls

/-! ## Runs -/

def RoundsExactly (memory : DirectMemoryState) : DirectMemoryCall → Prop
  | .allocateDirect searchStart searchEnd _ alignment _ _ _ =>
      Roundable memory.directAllocations (clampSearchStart searchStart (clampSearchEnd searchEnd))
        (effectiveAlignment alignment)
  | .allocateMain _ alignment _ _ _ =>
      Roundable memory.directAllocations 0 (effectiveAlignment alignment)
  | .release _ _ => True
  | .checkedRelease _ _ => True

theorem liveBlocks_of_reachable {memory : DirectMemoryState}
    (reachable : Reachable Initial (onlyWhen RoundsExactly Step) memory) :
    LiveBlocks memory.directAllocations := by
  apply reachable.invariant_onlyWhen
  · rintro start rfl
    exact ⟨by simp [DirectMemoryState.initial],
      by simp [DirectMemoryState.initial], apartTable_empty⟩
  · rintro before call after live rounds rfl
    have released (start length : UInt64) : LiveBlocks
        ((tryReleaseRange before start length).getD before).directAllocations := by
      cases found : tryReleaseRange before start length with
      | none => exact live
      | some after => exact tryReleaseRange_spec live found
    cases call with
    | allocateDirect => exact (kernelAllocateDirectMemory_spec live rounds).1
    | allocateMain => exact (kernelAllocateMainDirectMemory_spec live rounds).1
    | release start length =>
      simp only [DirectMemoryCall.run, kernelReleaseDirectMemory]
      split
      · exact live
      · split
        · exact live
        · exact released start length
    | checkedRelease start length =>
      simp only [DirectMemoryCall.run, kernelCheckedReleaseDirectMemory]
      split
      · exact live
      · split
        · exact live
        · split
          · exact live
          · rename_i after found
            exact tryReleaseRange_spec live found

/-- As long as no rounding wraps, the live blocks are pairwise disjoint, and
each new block is placed inside its window and on a power-of-two alignment. -/
theorem live_blocks_disjoint_and_placed {memory : DirectMemoryState}
    (reachable : Reachable Initial (onlyWhen RoundsExactly Step) memory) :
    (memory.directAllocations.entries.map DirectAllocation.extent).Pairwise Separated ∧
    (∀ searchStart searchEnd length alignment memoryType outAddress written selected,
      Roundable memory.directAllocations (clampSearchStart searchStart (clampSearchEnd searchEnd))
        (effectiveAlignment alignment) →
      (kernelAllocateDirectMemory memory searchStart searchEnd length alignment
        memoryType outAddress written).selected = some selected →
      clampSearchEnd searchEnd ≤ directMemorySizeBytes ∧ Placed memory.directAllocations
          (clampSearchStart searchStart (clampSearchEnd searchEnd))
          (clampSearchEnd searchEnd) length (effectiveAlignment alignment)
          selected) ∧
    ∀ length alignment memoryType outAddress written selected,
      Roundable memory.directAllocations 0 (effectiveAlignment alignment) →
      (kernelAllocateMainDirectMemory memory length alignment memoryType
        outAddress written).selected = some selected →
      Placed memory.directAllocations 0
        (mainAllocationLimit (kernelAllocateMainDirectMemory memory length
          alignment memoryType outAddress written).after)
        length (effectiveAlignment alignment) selected := by
  have live := liveBlocks_of_reachable reachable
  refine ⟨live.apart.pairwise, ?_, ?_⟩
  · intro searchStart searchEnd length alignment memoryType outAddress written
      selected roundable isSelected
    exact ⟨clampSearchEnd_le searchEnd,
      (kernelAllocateDirectMemory_spec live roundable).2.1 selected isSelected⟩
  · intro length alignment memoryType outAddress written selected roundable isSelected
    exact (kernelAllocateMainDirectMemory_spec live roundable).2.1 selected isSelected

def oneBlock : DirectMemoryState :=
  DirectMemoryCall.run .initial (.allocateDirect 0 0x100000 0x4000 0x4000 0 0x1000 true)

theorem oneBlock_reachable : Reachable Initial (onlyWhen RoundsExactly Step) oneBlock := by
  have fresh : Reachable Initial (onlyWhen RoundsExactly Step)
      DirectMemoryState.initial := .start rfl
  have taken : onlyWhen RoundsExactly Step .initial
      (.allocateDirect 0 0x100000 0x4000 0x4000 0 0x1000 true) oneBlock := by
    refine ⟨⟨by decide +kernel, ?_⟩, rfl⟩
    simp [DirectMemoryState.initial]
  exact fresh.next taken

/-- The next block goes behind it. -/
theorem live_blocks_disjoint_and_placed_oneBlock :
    Placed oneBlock.directAllocations 0 0x100000 0x4000 0x10000 0x10000 := by
  have roundable : Roundable oneBlock.directAllocations
      (clampSearchStart 0 (clampSearchEnd 0x100000))
      (effectiveAlignment 0x10000) := by
    have blocks : oneBlock.directAllocations.entries = [⟨0, 0x4000, 0⟩] := by
      decide +kernel
    refine ⟨by decide +kernel, ?_⟩
    rw [blocks]
    decide +kernel
  have isSelected : (kernelAllocateDirectMemory oneBlock 0 0x100000 0x4000
      0x10000 0 0x1000 true).selected = some 0x10000 := by decide +kernel
  have window : clampSearchStart 0 (clampSearchEnd 0x100000) = 0 ∧
      clampSearchEnd 0x100000 = 0x100000 ∧ effectiveAlignment 0x10000 = 0x10000 :=
    by decide +kernel
  have placed := ((live_blocks_disjoint_and_placed oneBlock_reachable).2.1 0
    0x100000 0x4000 0x10000 0 0x1000 true 0x10000 roundable isSelected).2
  rwa [window.1, window.2.1, window.2.2] at placed

/-- A search start at the end of the memory falls back to zero, so the block
lies below the start that was asked for. -/
theorem block_below_searchStart : ¬ ∀ memory, Reachable Initial Step memory →
      ∀ searchStart searchEnd length alignment memoryType outAddress written selected,
      (kernelAllocateDirectMemory memory searchStart searchEnd length alignment
        memoryType outAddress written).selected = some selected →
      searchStart ≤ selected := by
  intro inWindow
  have isSelected : (kernelAllocateDirectMemory .initial 0x400000000 0x400000000
      0x4000 0x4000 0 0x1000 true).selected = some 0 := by decide +kernel
  have above := inWindow .initial (.start rfl) _ _ _ _ _ _ _ _ isSelected
  exact absurd above (by decide)

end DirectMemory
end SharpEmu
