import SharpEmu.DirectMemoryRuns
import SharpEmu.RangeValues

/-!
# Releasing direct memory

Releasing a range is a set difference: the addresses of the range become free, and
all others keep the memory types of their allocations.  A release fails when no
allocation contains its range.
-/

namespace SharpEmu
namespace DirectMemory

open Extent

def memoryTypesAt (table : SortedTable DirectAllocation.start) (address : ℕ) :
    Multiset Int32 :=
  valuesAt DirectAllocation.extent (fun allocation _ => allocation.memoryType) table.entries address

def DisjointAllocations (table : SortedTable DirectAllocation.start) : Prop :=
  ∀ address, coverage (table.entries.map DirectAllocation.extent) address ≤ 1

section Carving

variable {table : SortedTable DirectAllocation.start} {owner : DirectAllocation}
variable {ownerEnd start releaseEnd : UInt64} {address : ℕ}

theorem memoryTypesAt_set {allocation : DirectAllocation}
    (outside : ∀ other ∈ table.entries, other.start = allocation.start →
      ¬ other.extent.Contains address) :
    memoryTypesAt (table.set allocation) address =
      (if allocation.extent.Contains address then {allocation.memoryType} else 0) +
        memoryTypesAt table address := by
  unfold memoryTypesAt
  rw [valuesAt_set, valuesAt_remove_of_outside outside]

def withFront (table : SortedTable DirectAllocation.start) (owner : DirectAllocation)
    (start : UInt64) : SortedTable DirectAllocation.start :=
  if start > owner.start then
    (table.remove owner.start).set { owner with length := start - owner.start }
  else table.remove owner.start

theorem carveOut_eq : carveOut table owner ownerEnd start releaseEnd =
    if releaseEnd < ownerEnd then
      (withFront table owner start).set ⟨releaseEnd, ownerEnd - releaseEnd, owner.memoryType⟩
    else withFront table owner start := rfl

theorem mem_withFront {other : DirectAllocation}
    (member : other ∈ (withFront table owner start).entries) :
    other.start = owner.start ∧ start > owner.start ∨
      other ∈ (table.remove owner.start).entries := by
  unfold withFront at member
  split at member
  · rename_i hasFront
    rcases SortedTable.mem_set.mp member with rfl | ⟨old, -⟩
    · exact .inl ⟨rfl, hasFront⟩
    · exact .inr old
  · exact .inr member

theorem memoryTypesAt_withFront (startsInside : owner.start ≤ start) :
    memoryTypesAt (withFront table owner start) address =
      (if owner.start.toNat ≤ address ∧ address < start.toNat then
        {owner.memoryType} else 0) +
        memoryTypesAt (table.remove owner.start) address := by
  have frontLength : (start - owner.start).toNat =
      start.toNat - owner.start.toNat := UInt64.toNat_sub_of_le _ _ startsInside
  rw [UInt64.le_iff_toNat_le] at startsInside
  unfold withFront
  split
  · rw [memoryTypesAt_set]
    · congr 1
      apply if_congr _ rfl rfl
      simp only [DirectAllocation.extent, Contains, frontLength]
      omega
    · intro other member isStart
      exact absurd isStart (SortedTable.mem_remove.mp member).2
  · rename_i notAbove
    rw [gt_iff_lt, UInt64.lt_iff_toNat_lt] at notAbove
    rw [if_neg (by omega), zero_add]

theorem memoryTypesAt_carveOut (disjoint : DisjointAllocations table)
    (member : owner ∈ table.entries) (ended : owner.endAddress = some ownerEnd)
    (startsInside : owner.start ≤ start) (ordered : start ≤ releaseEnd)
    (endsInside : releaseEnd ≤ ownerEnd) :
    memoryTypesAt (carveOut table owner ownerEnd start releaseEnd) address =
      if start.toNat ≤ address ∧ address < releaseEnd.toNat then 0
      else memoryTypesAt table address := by
  obtain ⟨_, endEq⟩ := endAddress_eq_some.mp ended
  have backLength : (ownerEnd - releaseEnd).toNat =
      ownerEnd.toNat - releaseEnd.toNat := UInt64.toNat_sub_of_le _ _ endsInside
  have front : memoryTypesAt (withFront table owner start) address =
      (if owner.start.toNat ≤ address ∧ address < start.toNat then
        {owner.memoryType} else 0) +
        memoryTypesAt (table.remove owner.start) address :=
    memoryTypesAt_withFront startsInside
  rw [UInt64.le_iff_toNat_le] at startsInside ordered endsInside
  have others : ∀ point, owner.extent.Contains point →
      memoryTypesAt (table.remove owner.start) point = 0 :=
    fun point => valuesAt_remove_of_inside member (disjoint point)
  -- Nothing but an empty allocation starts where the range ends.
  have noneBehind : releaseEnd < ownerEnd →
      ∀ other ∈ (withFront table owner start).entries, other.start = releaseEnd →
        ¬ other.extent.Contains address := by
    intro hasBack other otherMember isStart inside
    rw [UInt64.lt_iff_toNat_lt] at hasBack
    rcases mem_withFront otherMember with ⟨isFront, hasFront⟩ | old
    · rw [gt_iff_lt, UInt64.lt_iff_toNat_lt, ← isFront, isStart] at hasFront
      omega
    · have inOwner : owner.extent.Contains releaseEnd.toNat := by
        simp only [DirectAllocation.extent, Contains]
        omega
      refine valuesAt_eq_zero.mp (others _ inOwner) other old ?_
      simp only [DirectAllocation.extent, Contains, isStart] at inside ⊢
      omega
  have carved : memoryTypesAt (carveOut table owner ownerEnd start releaseEnd) address =
      (if releaseEnd.toNat ≤ address ∧ address < ownerEnd.toNat then
        {owner.memoryType} else 0) +
        memoryTypesAt (withFront table owner start) address := by
    rw [carveOut_eq]
    split
    · rename_i hasBack
      rw [memoryTypesAt_set (noneBehind hasBack)]
      rw [UInt64.lt_iff_toNat_lt] at hasBack
      congr 1
      apply if_congr _ rfl rfl
      simp only [DirectAllocation.extent, Contains, backLength]
      omega
    · rename_i noBack
      rw [UInt64.lt_iff_toNat_lt] at noBack
      rw [if_neg (by omega), zero_add]
  have whole : memoryTypesAt table address =
      (if owner.start.toNat ≤ address ∧ address < ownerEnd.toNat then
        {owner.memoryType} else 0) +
        memoryTypesAt (table.remove owner.start) address := by
    rw [endEq]
    exact valuesAt_of_mem member
  have here : owner.start.toNat ≤ address ∧ address < ownerEnd.toNat →
      memoryTypesAt (table.remove owner.start) address = 0 := by
    rw [endEq]
    exact others address
  rw [carved, front, whole]
  by_cases inRange : start.toNat ≤ address ∧ address < releaseEnd.toNat
  · rw [if_pos inRange, here (by omega), if_neg (by omega), if_neg (by omega)]
    rfl
  · rw [if_neg inRange]
    by_cases inFront : owner.start.toNat ≤ address ∧ address < start.toNat
    · rw [if_pos inFront, if_neg (by omega), if_pos (by omega), zero_add]
    · rw [if_neg inFront, zero_add]
      congr 1
      apply if_congr _ rfl rfl
      omega

end Carving

theorem findOwner_eq_some {table : SortedTable DirectAllocation.start}
    {start releaseEnd ownerEnd : UInt64} {owner : DirectAllocation}
    (found : findOwner table start releaseEnd = some (owner, ownerEnd)) :
    owner ∈ table.entries ∧ owner.endAddress = some ownerEnd ∧
      owner.start ≤ start ∧ releaseEnd ≤ ownerEnd := by
  obtain ⟨candidate, member, isOwner⟩ := List.exists_of_findSome?_eq_some found
  obtain ⟨endAddress, inside, isPair⟩ := Option.map_eq_some_iff.mp isOwner
  obtain ⟨rfl, rfl⟩ := Prod.mk.inj isPair
  obtain ⟨ended, contains⟩ := Option.filter_eq_some_iff.mp inside
  simp only [ge_iff_le, Bool.and_eq_true, decide_eq_true_eq] at contains
  exact ⟨member, ended, contains.1, contains.2⟩

/-- A release fails and changes nothing, or it is a set difference: the addresses of
the range become free and the others keep their memory types. -/
theorem release_is_difference {memory : DirectMemoryState}
    (disjoint : DisjointAllocations memory.directAllocations)
    (start length : UInt64) :
    (tryReleaseRange memory start length = none ∧
        (kernelReleaseDirectMemory memory start length).2 = memory ∧
        (kernelCheckedReleaseDirectMemory memory start length).2 = memory) ∨
      ∃ after, tryReleaseRange memory start length = some after ∧
        ∀ address, memoryTypesAt after.directAllocations address =
          if start.toNat ≤ address ∧ address < start.toNat + length.toNat then 0
          else memoryTypesAt memory.directAllocations address := by
  cases released : tryReleaseRange memory start length with
  | none =>
    left
    refine ⟨rfl, ?_, ?_⟩
    · unfold kernelReleaseDirectMemory
      rw [released]
      split
      · rfl
      · split
        · rfl
        · rfl
    · unfold kernelCheckedReleaseDirectMemory
      rw [released]
      split
      · rfl
      · split
        · rfl
        · rfl
  | some after =>
    right
    refine ⟨after, rfl, ?_⟩
    unfold tryReleaseRange at released
    split at released
    · cases released
    · rename_i releaseEnd added
      obtain ⟨⟨owner, ownerEnd⟩, found, rfl⟩ :=
        Option.map_eq_some_iff.mp released
      obtain ⟨member, ended, startsInside, endsInside⟩ := findOwner_eq_some found
      have endEq := (Word64.checkedAdd_eq_some.mp added).2
      have ordered : start ≤ releaseEnd := by
        rw [UInt64.le_iff_toNat_le, endEq]
        omega
      intro address
      rw [← endEq]
      exact memoryTypesAt_carveOut disjoint member ended startsInside ordered endsInside

/-- One allocation of four pages, released in the middle. -/
theorem release_is_difference_middle : DisjointAllocations (DirectMemoryCall.run .initial
      (.allocateDirect 0 0x100000 0x10000 0x4000 3 0x1000 true)).directAllocations ∧
    ((tryReleaseRange (DirectMemoryCall.run .initial
        (.allocateDirect 0 0x100000 0x10000 0x4000 3 0x1000 true))
        0x4000 0x4000).map fun after =>
      (memoryTypesAt after.directAllocations 0x4000,
        memoryTypesAt after.directAllocations 0x8000)) = some (0, {3}) := by
  have disjoint : DisjointAllocations (DirectMemoryCall.run .initial
      (.allocateDirect 0 0x100000 0x10000 0x4000 3 0x1000 true)).directAllocations := by
    intro address
    have blocks : (DirectMemoryCall.run .initial (.allocateDirect 0 0x100000 0x10000 0x4000 3 0x1000
          true)).directAllocations.entries = [⟨0, 0x10000, 3⟩] := by
      decide +kernel
    rw [blocks]
    exact coverage_le_one_of_pairwise (List.pairwise_singleton _ _) address
  refine ⟨disjoint, ?_⟩
  rcases release_is_difference disjoint 0x4000 0x4000 with
    ⟨failed, -⟩ | ⟨after, released, pointwise⟩
  · exact absurd failed (by decide +kernel)
  · rw [released, Option.map_some, pointwise, pointwise]
    decide +kernel

end DirectMemory
end SharpEmu
