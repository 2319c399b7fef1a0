import SharpEmu.DirectMemoryRuns
import SharpEmu.MappedRegions

/-!
# Ranges of mapped regions

Changing the protection of a range succeeds when every address of it is mapped, and
then changes the protection of its addresses and nothing else.  Unmapping a range
removes the regions that lie in it, so it frees the range when no region reaches out
of it.
-/

namespace SharpEmu
namespace MappedRegions

open DirectMemory Extent

def DisjointRegions (regions : SortedTable MappedRegion.address) : Prop :=
  ∀ address, coverage (regions.entries.map MappedRegion.extent) address ≤ 1

theorem endAddress_eq_some {region : MappedRegion} {endAddress : UInt64} :
    region.endAddress = some endAddress ↔ region.address.toNat + region.length.toNat < 2 ^ 64 ∧
        endAddress.toNat = region.address.toNat + region.length.toNat :=
  Word64.checkedAdd_eq_some

/-! ## Unmapping -/

section Unmapping

variable {memory : KernelMemory} {address length : UInt64} {physicallyBacked : Bool}

/-- A region of the range reaches out of it. -/
def IsCut (address length : UInt64) (region : MappedRegion) : Prop :=
  (∃ point, address.toNat ≤ point ∧ point < address.toNat + length.toNat ∧
      region.extent.Contains point) ∧
    ¬ (address.toNat ≤ region.address.toNat ∧
      region.address.toNat + region.length.toNat ≤ address.toNat + length.toNat)

theorem mappedRegions_foldl_unmapRegion (removed : List MappedRegion) (memory : KernelMemory) :
    (removed.foldl unmapRegion memory).mappedRegions =
      removed.foldl (fun regions region => regions.remove region.address)
        memory.mappedRegions := by
  induction removed generalizing memory with
  | nil => rfl
  | cons region rest ih =>
    rw [List.foldl_cons, ih]
    rfl

theorem entries_foldl_unmapRegion (test : MappedRegion → Bool) (memory : KernelMemory) :
    ((memory.mappedRegions.entries.filter test).foldl unmapRegion memory).mappedRegions.entries =
      memory.mappedRegions.entries.filter fun region => !test region := by
  rw [mappedRegions_foldl_unmapRegion, SortedTable.entries_foldl_remove]
  apply List.filter_congr
  intro region member
  cases isTest : test region with
  | true =>
    rw [Bool.not_true, decide_eq_false_iff_not]
    intro others
    exact others region (List.mem_filter.mpr ⟨member, isTest⟩) rfl
  | false =>
    rw [Bool.not_false, decide_eq_true_eq]
    intro other otherMember sameAddress
    obtain ⟨stored, otherTest⟩ := List.mem_filter.mp otherMember
    rw [SortedTable.eq_of_key_eq member stored sameAddress, otherTest] at isTest
    cases isTest

theorem liesWithin_iff {region : MappedRegion} (fits : address.toNat + length.toNat < 2 ^ 64) :
    liesWithin address (address + length) region = true ↔ address.toNat ≤ region.address.toNat ∧
        region.address.toNat < address.toNat + length.toNat ∧
        region.address.toNat + region.length.toNat ≤ address.toNat + length.toNat := by
  have isEnd := Word64.toNat_add_of_lt fits
  unfold liesWithin
  simp only [Bool.and_eq_true, decide_eq_true_eq, UInt64.le_iff_toNat_le,
    UInt64.lt_iff_toNat_lt, isEnd]
  constructor
  · rintro ⟨⟨above, below⟩, short⟩
    have room : (address + length - region.address).toNat =
        address.toNat + length.toNat - region.address.toNat := by
      rw [UInt64.toNat_sub_of_le _ _ (UInt64.le_iff_toNat_le.mpr (by omega)), isEnd]
    exact ⟨above, below, by omega⟩
  · rintro ⟨above, below, short⟩
    have room : (address + length - region.address).toNat =
        address.toNat + length.toNat - region.address.toNat := by
      rw [UInt64.toNat_sub_of_le _ _ (UInt64.le_iff_toNat_le.mpr (by omega)), isEnd]
    exact ⟨⟨above, below⟩, by omega⟩

/-- What a successful call does to the table. -/
theorem kernelMunmap_ok
    (succeeds : (kernelMunmap memory address length physicallyBacked).result = .ok) :
    address.toNat + length.toNat < 2 ^ 64 ∧ (kernelMunmap memory address length
          physicallyBacked).after.mappedRegions.entries =
        memory.mappedRegions.entries.filter fun region =>
          !liesWithin address (address + length) region := by
  unfold kernelMunmap at succeeds ⊢
  split at succeeds
  · cases succeeds
  · rename_i isRange
    rw [if_neg isRange]
    have fits : ¬ 0xFFFFFFFFFFFFFFFF - address < length :=
      fun long => isRange (.inr (.inr long))
    have room : (0xFFFFFFFFFFFFFFFF - address).toNat = 2 ^ 64 - 1 - address.toNat := by
      rw [UInt64.toNat_sub_of_le _ _ (UInt64.le_iff_toNat_le.mpr (by
        have bound := address.toNat_lt
        change address.toNat ≤ 2 ^ 64 - 1
        omega))]
      rfl
    rw [UInt64.lt_iff_toNat_lt, room] at fits
    refine ⟨by have bound := address.toNat_lt; omega, ?_⟩
    dsimp only at succeeds ⊢
    split at succeeds
    · cases succeeds
    · rename_i found
      rw [if_neg found]
      exact entries_foldl_unmapRegion _ memory

/-- An unmapping leaves the addresses outside its range as they are, and frees its
range exactly when no region of the range reaches out of it. -/
theorem munmap_frees_range
    (succeeds : (kernelMunmap memory address length physicallyBacked).result = .ok) :
    ((∀ point, address.toNat ≤ point → point < address.toNat + length.toNat →
        bytesAt (kernelMunmap memory address length
          physicallyBacked).after.mappedRegions point = 0) ∧
      ∀ point, ¬ (address.toNat ≤ point ∧ point < address.toNat + length.toNat) →
        bytesAt (kernelMunmap memory address length physicallyBacked).after.mappedRegions point =
          bytesAt memory.mappedRegions point) ↔
    ∀ region ∈ memory.mappedRegions.entries, ¬ IsCut address length region := by
  obtain ⟨fits, entries⟩ := kernelMunmap_ok succeeds
  have outside : ∀ point, ¬ (address.toNat ≤ point ∧ point < address.toNat + length.toNat) →
      bytesAt (kernelMunmap memory address length physicallyBacked).after.mappedRegions point =
        bytesAt memory.mappedRegions point := by
    intro point isOutside
    have noneWithin : valuesAt MappedRegion.extent MappedRegion.byteAt
        (memory.mappedRegions.entries.filter
          (liesWithin address (address + length))) point = 0 := by
      apply valuesAt_eq_zero.mpr
      intro region member inside
      have within := (liesWithin_iff fits).mp (List.mem_filter.mp member).2
      simp only [MappedRegion.extent, Contains] at inside
      omega
    have parts : valuesAt MappedRegion.extent MappedRegion.byteAt _ point + _ =
        bytesAt memory.mappedRegions point :=
      valuesAt_filter_add (liesWithin address (address + length))
    rw [noneWithin, zero_add, ← entries] at parts
    exact parts
  constructor
  · rintro ⟨frees, -⟩ region member ⟨⟨point, above, below, inside⟩, reachesOut⟩
    have isFree := frees point above below
    unfold bytesAt at isFree
    rw [entries] at isFree
    refine valuesAt_eq_zero.mp isFree region (List.mem_filter.mpr ⟨member, ?_⟩) inside
    rw [Bool.not_eq_true', ← Bool.not_eq_true]
    intro within
    obtain ⟨first, -, last⟩ := (liesWithin_iff fits).mp within
    exact reachesOut ⟨first, last⟩
  · intro uncut
    refine ⟨?_, outside⟩
    intro point above below
    unfold bytesAt
    rw [entries]
    apply valuesAt_eq_zero.mpr
    intro region member inside
    obtain ⟨stored, notWithin⟩ := List.mem_filter.mp member
    rw [Bool.not_eq_true', ← Bool.not_eq_true] at notWithin
    apply notWithin
    apply (liesWithin_iff fits).mpr
    by_contra reachesOut
    apply uncut region stored
    refine ⟨⟨point, above, below, inside⟩, ?_⟩
    simp only [MappedRegion.extent, Contains] at inside
    omega

end Unmapping

def oneRegion : KernelMemory where
  mappedRegions := SortedTable.empty.set ⟨0x10000, 0x10000, 3, true, false, 0⟩
  directAllocations := .empty
  allocatedFlexibleBytes := 0x10000

/-- Three regions, one behind the other. -/
def neighbours : KernelMemory :=
  { oneRegion with
    mappedRegions := ((SortedTable.empty.set ⟨0x10000, 0x4000, 3, true, false, 0⟩).set
      ⟨0x14000, 0x4000, 1, false, true, 0⟩).set ⟨0x18000, 0x8000, 3, true, false, 0⟩ }

theorem munmap_frees_range_neighbours :
    (kernelMunmap neighbours 0x10000 0x8000 true).result = .ok ∧
      ∀ point, 0x10000 ≤ point → point < 0x18000 →
        bytesAt (kernelMunmap neighbours 0x10000 0x8000 true).after.mappedRegions point = 0 := by
  have succeeds : (kernelMunmap neighbours 0x10000 0x8000 true).result = .ok := by
    decide +kernel
  have entries : neighbours.mappedRegions.entries = [⟨0x10000, 0x4000, 3, true, false, 0⟩,
      ⟨0x14000, 0x4000, 1, false, true, 0⟩, ⟨0x18000, 0x8000, 3, true, false, 0⟩] := by
    decide +kernel
  refine ⟨succeeds, ((munmap_frees_range succeeds).mpr ?_).1⟩
  rw [entries]
  rintro region member ⟨⟨point, -, below, above, -⟩, reachesOut⟩
  simp only [List.mem_cons, List.not_mem_nil, or_false] at member
  rcases member with rfl | rfl | rfl
  · exact reachesOut (by decide)
  · exact reachesOut (by decide)
  · exact absurd (Nat.lt_of_le_of_lt above below) (by decide)

/-- Unmapping a page in the middle of a region succeeds and leaves it mapped. -/
theorem middle_page_stays_mapped : ¬ ∀ memory address length physicallyBacked,
      (kernelMunmap memory address length physicallyBacked).result = .ok →
      ∀ point, address.toNat ≤ point → point < address.toNat + length.toNat →
        bytesAt (kernelMunmap memory address length
          physicallyBacked).after.mappedRegions point = 0 := by
  intro frees
  have isFree := frees oneRegion 0x14000 0x4000 true (by decide +kernel) 0x14000
    (by decide) (by decide)
  exact absurd isFree (by decide +kernel)

/-! ## Changing protections -/

section Protecting

variable {address endAddress start stop : UInt64} {protection : Int32}
variable {regions : SortedTable MappedRegion.address} {region : MappedRegion}
variable {point : ℕ}

theorem byteAt_slice (point : ℕ) : MappedRegion.byteAt { region with
          address := start
          length := stop - start
          protection
          directStart :=
            if region.isDirect then region.directStart + (start - region.address)
            else 0 } point =
      { region.byteAt point with protection } := by
  unfold MappedRegion.byteAt
  cases isDirect : region.isDirect with
  | false => rfl
  | true =>
    have shift : region.directStart + (start - region.address) + (UInt64.ofNat point - start) =
          region.directStart + (UInt64.ofNat point - region.address) := by
      rw [UInt64.add_assoc]
      congr 1
      grind
    simp only [if_true, shift]

theorem bytesAt_addMappedRegionSlice (ordered : start.toNat ≤ stop.toNat)
    (free : start.toNat < stop.toNat → bytesAt regions start.toNat = 0) :
    bytesAt (addMappedRegionSlice regions region start stop protection) point =
      (if start.toNat ≤ point ∧ point < stop.toNat then
        {{ region.byteAt point with protection }} else 0) +
        bytesAt regions point := by
  unfold addMappedRegionSlice
  split
  · rename_i isEmpty
    rw [UInt64.le_iff_toNat_le] at isEmpty
    rw [if_neg (by omega), zero_add]
  · rename_i nonempty
    rw [UInt64.le_iff_toNat_le] at nonempty
    have sliceLength : (stop - start).toNat = stop.toNat - start.toNat :=
      UInt64.toNat_sub_of_le _ _ (UInt64.le_iff_toNat_le.mpr ordered)
    have bound := stop.toNat_lt
    unfold bytesAt
    rw [valuesAt_set, valuesAt_remove_of_outside]
    · congr 1
      simp only [MappedRegion.extent, Contains, sliceLength]
      by_cases inside : start.toNat ≤ point ∧ point < stop.toNat
      · rw [if_pos inside, if_pos (by omega), byteAt_slice]
      · rw [if_neg inside, if_neg (by omega)]
    · intro other member isStart inside
      refine valuesAt_eq_zero.mp (free (by omega)) other member ?_
      simp only [MappedRegion.extent, Contains, isStart] at inside ⊢
      omega

def protectedByteAt (address endAddress : UInt64) (protection : Int32)
    (region : MappedRegion) (point : ℕ) : MappedByte :=
  { region.byteAt point with
    protection :=
      if address.toNat ≤ point ∧ point < endAddress.toNat then protection
      else region.protection }

structure Meets (address endAddress : UInt64) (region : MappedRegion) : Prop where
  bounded : region.address.toNat + region.length.toNat < 2 ^ 64
  before : region.address.toNat < endAddress.toNat
  behind : address.toNat < region.address.toNat + region.length.toNat

theorem bytesAt_protectRegion (nonempty : address.toNat < endAddress.toNat)
    (meets : Meets address endAddress region)
    (free : ∀ point, region.extent.Contains point → bytesAt regions point = 0) :
    bytesAt (protectRegion address endAddress protection regions region) point =
      (if region.extent.Contains point then
        {protectedByteAt address endAddress protection region point} else 0) +
        bytesAt regions point := by
  obtain ⟨bounded, before, behind⟩ := meets
  have isEnd : (region.address + region.length).toNat =
      region.address.toNat + region.length.toNat := Word64.toNat_add_of_lt bounded
  have isStart := Word64.toNat_max region.address address
  have isStop := Word64.toNat_min (region.address + region.length) endAddress
  have freeHere : ∀ point, region.address.toNat ≤ point →
      point < region.address.toNat + region.length.toNat →
      bytesAt regions point = 0 := fun point above below => free point ⟨above, below⟩
  unfold protectRegion
  dsimp only
  -- The piece in front of the range.
  have front : ∀ point, bytesAt (if region.address < max region.address address then
        addMappedRegionSlice regions region region.address
          (max region.address address) region.protection
      else regions) point =
      (if region.address.toNat ≤ point ∧ point < address.toNat then
        {region.byteAt point} else 0) + bytesAt regions point := by
    intro point
    split
    · rename_i hasFront
      rw [UInt64.lt_iff_toNat_lt] at hasFront
      rw [bytesAt_addMappedRegionSlice hasFront.le fun _ =>
        freeHere _ (Nat.le_refl _) (by omega)]
      congr 1
      apply if_congr _ rfl rfl
      omega
    · rename_i noFront
      rw [UInt64.lt_iff_toNat_lt] at noFront
      rw [if_neg (by omega), zero_add]
  generalize (if region.address < max region.address address then
      addMappedRegionSlice regions region region.address
        (max region.address address) region.protection
    else regions) = withFront at front ⊢
  -- The piece in the range, in which some address is mapped.
  have middle : ∀ point, bytesAt (addMappedRegionSlice withFront region (max region.address address)
        (min (region.address + region.length) endAddress) protection) point =
      (if max region.address.toNat address.toNat ≤ point ∧
          point < min (region.address.toNat + region.length.toNat) endAddress.toNat then
        {{ region.byteAt point with protection }} else 0) +
      ((if region.address.toNat ≤ point ∧ point < address.toNat then
        {region.byteAt point} else 0) + bytesAt regions point) := by
    intro point
    rw [bytesAt_addMappedRegionSlice (by omega), front, isStart, isStop, isEnd]
    intro _
    rw [front, if_neg (by omega), zero_add]
    exact freeHere _ (by omega) (by omega)
  generalize addMappedRegionSlice withFront region (max region.address address)
    (min (region.address + region.length) endAddress) protection = withRange
    at middle ⊢
  have back : bytesAt (if min (region.address + region.length) endAddress <
        region.address + region.length then
        addMappedRegionSlice withRange region (min (region.address + region.length) endAddress)
          (region.address + region.length) region.protection
      else withRange) point =
      (if endAddress.toNat ≤ point ∧ point < region.address.toNat + region.length.toNat then
        {region.byteAt point} else 0) + bytesAt withRange point := by
    split
    · rename_i hasBack
      rw [UInt64.lt_iff_toNat_lt] at hasBack
      rw [bytesAt_addMappedRegionSlice hasBack.le]
      · congr 1
        apply if_congr _ rfl rfl
        omega
      · intro _
        rw [middle, if_neg (by omega), zero_add, if_neg (by omega), zero_add]
        exact freeHere _ (by omega) (by omega)
    · rename_i noBack
      rw [UInt64.lt_iff_toNat_lt] at noBack
      rw [if_neg (by omega), zero_add]
  have isInside : region.extent.Contains point ↔ region.address.toNat ≤ point ∧
      point < region.address.toNat + region.length.toNat := Iff.rfl
  rw [back, middle]
  unfold protectedByteAt
  by_cases inside : region.extent.Contains point
  · rw [if_pos inside]
    rw [isInside] at inside
    by_cases inRange : address.toNat ≤ point ∧ point < endAddress.toNat
    · rw [if_neg (by omega), if_pos (by omega), if_neg (by omega), if_pos inRange,
        zero_add, zero_add]
    · rw [if_neg (show ¬ (max region.address.toNat address.toNat ≤ point ∧ _) by
        omega), if_neg inRange]
      by_cases before : point < address.toNat
      · rw [if_neg (by omega), if_pos (by omega), zero_add, zero_add]
        rfl
      · rw [if_pos (by omega), if_neg (by omega), zero_add, zero_add]
        rfl
  · rw [if_neg inside]
    rw [isInside] at inside
    rw [if_neg (by omega), if_neg (by omega), if_neg (by omega), zero_add, zero_add]

theorem bytesAt_foldl_protectRegion {affected : List MappedRegion}
    (nonempty : address.toNat < endAddress.toNat)
    (meets : ∀ region ∈ affected, Meets address endAddress region)
    (disjoint : ∀ point, coverage (affected.map MappedRegion.extent) point ≤ 1)
    (free : ∀ region ∈ affected, ∀ point, region.extent.Contains point →
      bytesAt regions point = 0) :
    bytesAt (affected.foldl (protectRegion address endAddress protection) regions) point =
      valuesAt MappedRegion.extent (protectedByteAt address endAddress protection)
          affected point + bytesAt regions point := by
  induction affected generalizing regions with
  | nil => rw [List.foldl_nil, valuesAt_nil, zero_add]
  | cons region rest ih =>
    have here : ∀ point, bytesAt
        (protectRegion address endAddress protection regions region) point = _ :=
      fun point => bytesAt_protectRegion nonempty
        (meets region List.mem_cons_self) (free region List.mem_cons_self)
    have restDisjoint : ∀ point, coverage (rest.map MappedRegion.extent) point ≤ 1 := by
      intro point
      have once := disjoint point
      rw [List.map_cons, coverage_cons] at once
      omega
    rw [List.foldl_cons, ih (List.forall_mem_cons.mp meets).2 restDisjoint]
    · rw [here, valuesAt_cons, ← add_assoc]
      congr 1
      exact add_comm _ _
    · intro other member point inOther
      have covered : 0 < coverage (rest.map MappedRegion.extent) point :=
        coverage_pos.mpr ⟨_, List.mem_map_of_mem member, inOther⟩
      have once := disjoint point
      rw [List.map_cons, coverage_cons] at once
      have outside : ¬ region.extent.Contains point := by
        intro inside
        rw [if_pos inside] at once
        omega
      rw [here, if_neg outside, zero_add]
      exact free other (List.mem_cons_of_mem _ member) point inOther

def RangeMapped (regions : List MappedRegion) (start stop : ℕ) : Prop :=
  ∀ point, start ≤ point → point < stop → ∃ region ∈ regions, region.extent.Contains point

def RangeCovered (regions : List MappedRegion) (start stop : ℕ) : Prop :=
  RangeMapped (regions.filter fun region => region.endAddress.isSome) start stop

variable {entries : List MappedRegion} {cursor : UInt64}

theorem affectedRegions_spec {affected : List MappedRegion}
    (found : affectedRegions endAddress entries cursor = some affected)
    (nonempty : cursor.toNat < endAddress.toNat) :
    affected.Sublist entries ∧ (∀ region ∈ affected, Meets cursor endAddress region) ∧
      RangeMapped affected cursor.toNat endAddress.toNat := by
  induction entries generalizing affected cursor with
  | nil => cases found
  | cons region rest ih =>
    rw [affectedRegions] at found
    split at found
    · obtain ⟨sublist, meets, mapped⟩ := ih found nonempty
      exact ⟨sublist.cons region, meets, mapped⟩
    · rename_i regionEnd ended
      obtain ⟨bounded, isEnd⟩ := endAddress_eq_some.mp ended
      split at found
      · obtain ⟨sublist, meets, mapped⟩ := ih found nonempty
        exact ⟨sublist.cons region, meets, mapped⟩
      · rename_i behind
        rw [UInt64.le_iff_toNat_le] at behind
        split at found
        · cases found
        · rename_i before
          rw [gt_iff_lt, UInt64.lt_iff_toNat_lt] at before
          have isMet : Meets cursor endAddress region :=
            ⟨bounded, by omega, by omega⟩
          split at found
          · rename_i last
            rw [ge_iff_le, UInt64.le_iff_toNat_le] at last
            obtain rfl := Option.some.inj found
            refine ⟨List.singleton_sublist.mpr List.mem_cons_self, ?_, ?_⟩
            · intro other member
              rw [List.mem_singleton.mp member]
              exact isMet
            · intro point above below
              refine ⟨region, List.mem_singleton_self _, ?_⟩
              simp only [MappedRegion.extent, Contains]
              omega
          · rename_i notLast
            rw [ge_iff_le, UInt64.le_iff_toNat_le] at notLast
            obtain ⟨others, isOthers, rfl⟩ := Option.map_eq_some_iff.mp found
            obtain ⟨sublist, meets, mapped⟩ := ih isOthers (by omega)
            refine ⟨sublist.cons_cons region, ?_, ?_⟩
            · intro other member
              rcases List.mem_cons.mp member with rfl | later
              · exact isMet
              · obtain ⟨otherBounded, otherBefore, otherBehind⟩ := meets other later
                exact ⟨otherBounded, otherBefore, by omega⟩
            · intro point above below
              by_cases inRegion : point < regionEnd.toNat
              · refine ⟨region, List.mem_cons_self, ?_⟩
                simp only [MappedRegion.extent, Contains]
                omega
              · obtain ⟨other, member, inside⟩ := mapped point (by omega) below
                exact ⟨other, List.mem_cons_of_mem _ member, inside⟩

theorem affectedRegions_isSome (ascending : entries.Pairwise fun first second =>
      first.address < second.address)
    (nonempty : cursor.toNat < endAddress.toNat)
    (covered : RangeCovered entries cursor.toNat endAddress.toNat) :
    (affectedRegions endAddress entries cursor).isSome := by
  induction entries generalizing cursor with
  | nil =>
    obtain ⟨_, member, _⟩ := covered cursor.toNat (Nat.le_refl _) nonempty
    cases member
  | cons region rest ih =>
    obtain ⟨restAbove, restAscending⟩ := List.pairwise_cons.mp ascending
    rw [affectedRegions]
    cases ended : region.endAddress with
    | none =>
      have onlyRest : RangeCovered rest cursor.toNat endAddress.toNat := by
        unfold RangeCovered at covered
        rwa [List.filter_cons_of_neg (by rw [ended]; decide)] at covered
      exact ih restAscending nonempty onlyRest
    | some regionEnd =>
      have isEnd := (endAddress_eq_some.mp ended).2
      unfold RangeCovered at covered
      rw [List.filter_cons_of_pos (by rw [ended]; rfl)] at covered
      -- What this region does not map, the rest does.
      have coveredByRest : ∀ start : ℕ, cursor.toNat ≤ start →
          regionEnd.toNat ≤ start → RangeCovered rest start endAddress.toNat := by
        intro start aboveCursor aboveEnd point above below
        obtain ⟨other, member, inside⟩ := covered point (by omega) below
        rcases List.mem_cons.mp member with rfl | later
        · simp only [MappedRegion.extent, Contains] at inside
          omega
        · exact ⟨other, later, inside⟩
      dsimp only
      split
      · rename_i behind
        rw [UInt64.le_iff_toNat_le] at behind
        exact ih restAscending nonempty (coveredByRest _ (Nat.le_refl _) behind)
      · rename_i inFront
        rw [UInt64.le_iff_toNat_le] at inFront
        split
        · rename_i gap
          rw [gt_iff_lt, UInt64.lt_iff_toNat_lt] at gap
          obtain ⟨other, member, inside⟩ :=
            covered cursor.toNat (Nat.le_refl _) nonempty
          simp only [MappedRegion.extent, Contains] at inside
          rcases List.mem_cons.mp member with rfl | later
          · omega
          · have stored := (List.mem_filter.mp later).1
            have above := UInt64.lt_iff_toNat_lt.mp (restAbove other stored)
            omega
        · split
          · rfl
          · rename_i notLast
            rw [ge_iff_le, UInt64.le_iff_toNat_le] at notLast
            rw [Option.isSome_map]
            exact ih restAscending (by omega) (coveredByRest _ (by omega) (Nat.le_refl _))

end Protecting

section Applying

variable {address endAddress : UInt64} {protection : Int32}
variable {regions : SortedTable MappedRegion.address}
variable {affected : List MappedRegion}

theorem bytesAt_after (disjoint : DisjointRegions regions)
    (sublist : affected.Sublist regions.entries)
    (proper : address.toNat < endAddress.toNat)
    (meets : ∀ region ∈ affected, Meets address endAddress region)
    (mapped : RangeMapped affected address.toNat endAddress.toNat) (point : ℕ) :
    bytesAt (affected.foldl (protectRegion address endAddress protection)
        (affected.foldl (fun regions region => regions.remove region.address) regions)) point =
      if address.toNat ≤ point ∧ point < endAddress.toNat then
        (bytesAt regions point).map fun byte => { byte with protection }
      else bytesAt regions point := by
  have nodup := regions.nodup.sublist sublist
  have stored : ∀ region ∈ affected, region ∈ regions.entries :=
    fun region member => sublist.subset member
  have parts : ∀ point, bytesAt regions point =
      valuesAt MappedRegion.extent MappedRegion.byteAt affected point +
        bytesAt (affected.foldl (fun regions region =>
          regions.remove region.address) regions) point :=
    fun point => valuesAt_foldl_remove nodup stored
  -- A point of an affected region is in no other region.
  have free : ∀ region ∈ affected, ∀ point, region.extent.Contains point →
      bytesAt (affected.foldl (fun regions region =>
        regions.remove region.address) regions) point = 0 := by
    intro region member point inside
    have once := disjoint point
    have whole := congrArg Multiset.card (parts point)
    have covered : 0 < coverage (affected.map MappedRegion.extent) point :=
      coverage_pos.mpr ⟨_, List.mem_map_of_mem member, inside⟩
    rw [Multiset.card_add] at whole
    unfold bytesAt at whole
    rw [card_valuesAt, card_valuesAt] at whole
    rw [← Multiset.card_eq_zero]
    unfold bytesAt
    omega
  have affectedOnce : ∀ point, coverage (affected.map MappedRegion.extent) point ≤ 1 := by
    intro point
    exact ((sublist.map MappedRegion.extent).countP_le).trans (disjoint point)
  rw [bytesAt_foldl_protectRegion proper meets affectedOnce free, parts point]
  split
  · rename_i inRange
    obtain ⟨region, member, inside⟩ := mapped point inRange.1 inRange.2
    rw [free region member point inside, add_zero, add_zero, map_valuesAt]
    apply valuesAt_congr
    intro other _ _
    unfold protectedByteAt
    rw [if_pos inRange]
  · rename_i outside
    congr 1
    apply valuesAt_congr
    intro other _ _
    unfold protectedByteAt
    rw [if_neg outside]
    rfl

end Applying

/-! ## The memory types behind direct regions -/

/-- Where a region starts in physical memory, if an allocation holds that place. -/
def backingStart (directAllocations : SortedTable DirectAllocation.start)
    (region : MappedRegion) : Option UInt64 :=
  if region.isDirect then
    (tryFindDirectAllocation directAllocations region.directStart).map DirectAllocation.start
  else none

def extents (directAllocations : SortedTable DirectAllocation.start) : List (UInt64 × UInt64) :=
  directAllocations.entries.map fun allocation => (allocation.start, allocation.length)

/-- The allocations that hold the start of one of the regions have the memory type,
all others are as before. -/
def Retyped (memoryType : Int32) (regions : List MappedRegion)
    (before after : SortedTable DirectAllocation.start) : Prop :=
  ∀ start, after.get? start = (before.get? start).map fun allocation =>
    if ∃ region ∈ regions, backingStart before region = some start then
      { allocation with memoryType }
    else allocation

variable {before after : SortedTable DirectAllocation.start}

theorem backingStart_congr (same : extents after = extents before) (region : MappedRegion) :
    backingStart after region = backingStart before region := by
  have byExtents (table : SortedTable DirectAllocation.start) :
      (tryFindDirectAllocation table region.directStart).map DirectAllocation.start =
        ((extents table).find? fun extent =>
          (Word64.checkedAdd extent.1 extent.2).any fun candidateEnd =>
            extent.1 ≤ region.directStart && region.directStart < candidateEnd).map
              Prod.fst := by
    rw [extents, List.find?_map, Option.map_map]
    rfl
  rw [backingStart, backingStart, byExtents, byExtents, same]

theorem extents_retypeRegion (memoryType : Int32)
    (directAllocations : SortedTable DirectAllocation.start) (region : MappedRegion) :
    extents (retypeRegion memoryType directAllocations region) =
      extents directAllocations := by
  unfold retypeRegion
  split
  · split
    · rfl
    · next allocation found =>
      exact SortedTable.map_entries_set (List.mem_of_find?_eq_some found) rfl rfl
  · rfl

theorem retyped_retypeRegion (memoryType : Int32)
    (directAllocations : SortedTable DirectAllocation.start)
    (region : MappedRegion) :
    Retyped memoryType [region] directAllocations
      (retypeRegion memoryType directAllocations region) := by
  intro start
  simp only [List.mem_singleton, exists_eq_left]
  unfold retypeRegion backingStart
  split
  · cases found : tryFindDirectAllocation directAllocations region.directStart with
    | none => simp
    | some allocation =>
      have stored : allocation ∈ directAllocations.entries :=
        List.mem_of_find?_eq_some found
      simp only [Option.map_some, Option.some.injEq]
      rw [SortedTable.get?_set]
      by_cases isStart : allocation.start = start
      · subst isStart
        rw [SortedTable.get?_eq_some.mpr ⟨stored, rfl⟩]
        simp
      · have other : ¬ start = allocation.start := fun same => isStart same.symm
        simp [isStart, other]
  · simp

theorem retyped_foldl_retypeRegion (memoryType : Int32) (affected : List MappedRegion)
    (directAllocations : SortedTable DirectAllocation.start) :
    Retyped memoryType affected directAllocations
      (affected.foldl (retypeRegion memoryType) directAllocations) := by
  induction affected generalizing directAllocations with
  | nil =>
    intro start
    simp
  | cons region rest ih =>
    intro start
    rw [List.foldl_cons, ih, retyped_retypeRegion, Option.map_map]
    apply congrArg (fun change => (directAllocations.get? start).map change)
    funext allocation
    simp only [Function.comp_apply, List.mem_singleton, exists_eq_left, List.exists_mem_cons_iff,
      backingStart_congr (extents_retypeRegion memoryType directAllocations region)]
    by_cases isFirst : backingStart directAllocations region = some start
    · simp [isFirst]
    · simp [isFirst]

/-- A region has an address in the range, and its end is a 64-bit address. -/
def touches (start stop : ℕ) (region : MappedRegion) : Bool :=
  region.endAddress.isSome && max start region.address.toNat <
      min stop (region.address.toNat + region.length.toNat)

theorem length_pos_of_affected {entries affected : List MappedRegion} {cursor : UInt64}
    (found : affectedRegions endAddress entries cursor = some affected) :
    ∀ region ∈ affected, 0 < region.length.toNat := by
  induction entries generalizing affected cursor with
  | nil => cases found
  | cons region rest ih =>
    rw [affectedRegions] at found
    split at found
    · exact ih found
    · next regionEnd ended =>
      obtain ⟨-, isEnd⟩ := endAddress_eq_some.mp ended
      split at found
      · exact ih found
      · next behind =>
        split at found
        · cases found
        · next reached =>
          have nonempty : 0 < region.length.toNat := by
            simp only [UInt64.le_iff_toNat_le, gt_iff_lt, UInt64.lt_iff_toNat_lt] at behind reached
            omega
          split at found
          · cases found
            simpa using nonempty
          · obtain ⟨others, rest, rfl⟩ := Option.map_eq_some_iff.mp found
            rw [List.forall_mem_cons]
            exact ⟨nonempty, ih rest⟩

theorem mem_affected_iff (disjoint : DisjointRegions regions) {affected : List MappedRegion}
    (found : affectedRegions endAddress regions.entries address = some affected)
    (proper : address.toNat < endAddress.toNat) (region : MappedRegion) :
    region ∈ affected ↔
      region ∈ regions.entries.filter (touches address.toNat endAddress.toNat) := by
  obtain ⟨sublist, meets, mapped⟩ := affectedRegions_spec found proper
  rw [List.mem_filter, touches, Bool.and_eq_true, decide_eq_true_eq]
  constructor
  · intro member
    obtain ⟨bounded, before, behind⟩ := meets region member
    have nonempty := length_pos_of_affected found region member
    exact ⟨sublist.subset member, Option.isSome_iff_exists.mpr
      ⟨_, Word64.checkedAdd_isSome bounded⟩, by omega⟩
  · rintro ⟨member, -, common⟩
    -- the affected region at a common address is this one, as regions are disjoint
    obtain ⟨other, otherMember, otherHolds⟩ := mapped
      (max address.toNat region.address.toNat) (by omega) (by omega)
    have holds : region.extent.Contains (max address.toNat region.address.toNat) :=
      ⟨by simp [MappedRegion.extent], by simp only [MappedRegion.extent]; omega⟩
    by_contra absent
    have different : other.address ≠ region.address := fun same =>
      absent (SortedTable.eq_of_key_eq (sublist.subset otherMember) member same ▸ otherMember)
    have atMost := disjoint (max address.toNat region.address.toNat)
    rw [coverage_remove MappedRegion.extent member, if_pos holds] at atMost
    have atLeast := coverage_pos.mpr ⟨_, List.mem_map_of_mem
      (SortedTable.mem_remove.mpr ⟨sublist.subset otherMember, different⟩),
      otherHolds⟩
    omega

theorem Retyped.congr {memoryType : Int32} {regions others : List MappedRegion}
    (retyped : Retyped memoryType regions before after)
    (same : ∀ region, region ∈ regions ↔ region ∈ others) :
    Retyped memoryType others before after := by
  intro start
  rw [retyped start]
  simp only [same]

/-- A range is given a protection exactly when it is not empty and regions that
end inside the address space cover it; all else stays as it was. -/
theorem protection_changes_range {memory : KernelMemory}
    (disjoint : DisjointRegions memory.mappedRegions)
    (address length : UInt64) (protection : Int32) (memoryType : Option Int32) :
    let outcome := tryApplyMappedRegionProtection memory address length protection memoryType
    (outcome.2 = true ↔ length ≠ 0 ∧ RangeCovered memory.mappedRegions.entries address.toNat
        (address.toNat + length.toNat)) ∧
    (outcome.2 = true → (∀ point, bytesAt outcome.1.mappedRegions point =
        if address.toNat ≤ point ∧ point < address.toNat + length.toNat then
          (bytesAt memory.mappedRegions point).map fun byte =>
            { byte with protection }
        else bytesAt memory.mappedRegions point) ∧
      (memoryType = none → outcome.1.directAllocations = memory.directAllocations) ∧
      ∀ given, memoryType = some given → Retyped given (memory.mappedRegions.entries.filter
            (touches address.toNat (address.toNat + length.toNat)))
          memory.directAllocations outcome.1.directAllocations) ∧
    (outcome.2 = false → outcome.1 = memory) := by
  dsimp only
  unfold tryApplyMappedRegionProtection
  split
  · rename_i isEmpty
    simp [isEmpty]
  rename_i nonempty
  have positive := Word64.toNat_pos nonempty
  split
  · rename_i wraps
    have notCovered : ¬ RangeCovered memory.mappedRegions.entries address.toNat
        (address.toNat + length.toNat) := by
      intro covered
      have long : ¬ address.toNat + length.toNat < 2 ^ 64 := by
        intro fits
        rw [Word64.checkedAdd_isSome fits] at wraps
        cases wraps
      have addressBound := address.toNat_lt
      -- The last address of the address space is in no region that ends.
      obtain ⟨region, member, inside⟩ := covered (2 ^ 64 - 1) (by omega) (by omega)
      obtain ⟨regionEnd, ended⟩ :=
        Option.isSome_iff_exists.mp (List.mem_filter.mp member).2
      have bounded := (endAddress_eq_some.mp ended).1
      simp only [MappedRegion.extent, Contains] at inside
      omega
    simp [notCovered]
  · rename_i endAddress added
    have isEnd := (Word64.checkedAdd_eq_some.mp added).2
    rw [← isEnd]
    have proper : address.toNat < endAddress.toNat := by omega
    split
    · rename_i missed
      have notCovered : ¬ RangeCovered memory.mappedRegions.entries address.toNat
          endAddress.toNat := by
        intro covered
        have found :=
          affectedRegions_isSome memory.mappedRegions.ascending proper covered
        rw [missed] at found
        cases found
      simp [notCovered]
    · rename_i affected found
      obtain ⟨sublist, meets, mapped⟩ := affectedRegions_spec found proper
      refine ⟨iff_of_true rfl ⟨nonempty, ?_⟩, fun _ => ⟨?_, ?_, ?_⟩, ?_⟩
      · intro point above below
        obtain ⟨region, member, inside⟩ := mapped point above below
        refine ⟨region, List.mem_filter.mpr ⟨sublist.subset member, ?_⟩, inside⟩
        exact Option.isSome_iff_exists.mpr
          ⟨_, Word64.checkedAdd_isSome (meets region member).bounded⟩
      · intro point
        exact bytesAt_after disjoint sublist proper meets mapped point
      · rintro rfl
        rfl
      · rintro given rfl
        exact (retyped_foldl_retypeRegion given affected
          memory.directAllocations).congr (mem_affected_iff disjoint found proper)
      · intro impossible
        cases impossible

/-- A direct region over a direct allocation, and a region at the end of the address
space. -/
def twoRegions : KernelMemory where
  mappedRegions := (SortedTable.empty.set ⟨0x10000, 0x10000, 3, false, true, 0⟩).set
    ⟨0xFFFFFFFFFFFF0000, 0x10000, 3, true, false, 0⟩
  directAllocations := SortedTable.empty.set ⟨0, 0x10000, 0⟩
  allocatedFlexibleBytes := 0x10000

theorem protection_changes_range_page :
    (tryApplyMappedRegionProtection oneRegion 0x14000 0x4000 1 none).2 = true ∧
      bytesAt (tryApplyMappedRegionProtection oneRegion 0x14000 0x4000 1
        none).1.mappedRegions 0x14000 = {⟨1, true, false, 0⟩} := by
  have entries : oneRegion.mappedRegions.entries =
      [⟨0x10000, 0x10000, 3, true, false, 0⟩] := by decide +kernel
  have disjoint : DisjointRegions oneRegion.mappedRegions := by
    intro address
    rw [entries]
    exact List.countP_le_length
  obtain ⟨succeeds, changes, -⟩ :=
    protection_changes_range disjoint 0x14000 0x4000 1 none
  have covered : RangeCovered oneRegion.mappedRegions.entries 0x14000 0x18000 := by
    intro point above below
    refine ⟨⟨0x10000, 0x10000, 3, true, false, 0⟩, by decide +kernel, ?_⟩
    simp only [MappedRegion.extent, Contains]
    exact ⟨by change 0x10000 ≤ point; omega, by change point < 0x20000; omega⟩
  have isTrue := succeeds.mpr ⟨by decide, covered⟩
  refine ⟨isTrue, ((changes isTrue).1 0x14000).trans ?_⟩
  decide +kernel

/-- An empty range and the last addresses are refused although they are mapped, and a
memory type that is asked for replaces the one of the whole allocation. -/
theorem protection_differs_from_coverage :
    (RangeMapped twoRegions.mappedRegions.entries 0x10000 0x10000 ∧
      (tryApplyMappedRegionProtection twoRegions 0x10000 0 1 none).2 = false) ∧
    (RangeMapped twoRegions.mappedRegions.entries 0xFFFFFFFFFFFF0000 0xFFFFFFFFFFFF4000 ∧
      (tryApplyMappedRegionProtection twoRegions 0xFFFFFFFFFFFF0000 0x4000 1 none).2 = false) ∧
    (tryApplyMappedRegionProtection twoRegions 0x10000 0x4000 1 (some 7)).2 = true ∧
      (tryApplyMappedRegionProtection twoRegions 0x10000 0x4000 1
        (some 7)).1.directAllocations.get? 0 = some ⟨0, 0x10000, 7⟩ := by
  refine ⟨⟨fun point above below => by omega, by decide +kernel⟩,
    ⟨fun point above below => ?_, by decide +kernel⟩, by decide +kernel,
    by decide +kernel⟩
  refine ⟨⟨0xFFFFFFFFFFFF0000, 0x10000, 3, true, false, 0⟩, by decide +kernel, ?_⟩
  simp only [MappedRegion.extent, Contains]
  exact ⟨by change 0xFFFFFFFFFFFF0000 ≤ point; omega,
    by change point < 0xFFFFFFFFFFFF0000 + 0x10000; omega⟩

end MappedRegions
end SharpEmu
