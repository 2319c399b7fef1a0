import SharpEmu.DirectMemoryRuns

/-!
# The allocator and the availability query

Both walk the live allocations in ascending order and round each gap's start up to
the alignment.  The allocator stops at the first gap that is long enough, the query
keeps the widest.  So a length can be allocated exactly when it is at most the
width that the query reports, and the allocator finds the lowest place for it.
-/

namespace SharpEmu
namespace DirectMemory

open Extent

section Rounding

variable {value alignment multiple : UInt64}

theorem alignUp_le (power : Word64.IsPowerOfTwo alignment)
    (fits : value.toNat + (alignment.toNat - 1) < 2 ^ 64)
    (aligned : alignment.toNat ∣ multiple.toNat)
    (below : value.toNat ≤ multiple.toNat) :
    (alignUp value alignment).toNat ≤ multiple.toNat := by
  unfold alignUp
  split
  · exact below
  · exact Word64.wrappingRoundUp_le_of_dvd power fits aligned below

end Rounding

/-! ## The walks -/

structure FreePlace (blocks : List DirectAllocation)
    (candidate effectiveEnd length alignment place : UInt64) : Prop where
  above : candidate.toNat ≤ place.toNat
  below : place.toNat + length.toNat ≤ effectiveEnd.toNat
  aligned : alignment.toNat ∣ place.toNat
  apart : ∀ block ∈ blocks, block.extent.Separated ⟨place.toNat, length.toNat⟩

section Walks

variable {length alignment effectiveEnd candidate place : UInt64}
variable {block : DirectAllocation} {blocks rest : List DirectAllocation}

theorem FreePlace.tail (free : FreePlace (block :: rest) candidate effectiveEnd
      length alignment place) :
    FreePlace rest candidate effectiveEnd length alignment place where
  above := free.above
  below := free.below
  aligned := free.aligned
  apart := (List.forall_mem_cons.mp free.apart).2

theorem FreePlace.next {blockEnd : UInt64}
    (free : FreePlace (block :: rest) candidate effectiveEnd length alignment place)
    (power : Word64.IsPowerOfTwo alignment)
    (fits : blockEnd.toNat + (alignment.toNat - 1) < 2 ^ 64)
    (behind : blockEnd.toNat ≤ place.toNat) :
    FreePlace rest (alignUp blockEnd alignment) effectiveEnd length alignment place where
  above := alignUp_le power fits free.aligned behind
  below := free.below
  aligned := free.aligned
  apart := free.tail.apart

theorem searchGaps_lowest (positive : 0 < length.toNat) (power : Word64.IsPowerOfTwo alignment)
    (nonempty : ∀ block ∈ blocks, 0 < block.length.toNat)
    (roundable : ∀ block ∈ blocks,
      block.start.toNat + block.length.toNat + (alignment.toNat - 1) < 2 ^ 64)
    (free : FreePlace blocks candidate effectiveEnd length alignment place) :
    ∃ selected, searchGaps length alignment effectiveEnd blocks candidate =
      some selected ∧ selected.toNat ≤ place.toNat := by
  have windowEnd := free.below
  have windowStart := free.above
  induction blocks generalizing candidate with
  | nil =>
    have ends : endsBy candidate length effectiveEnd = true :=
      endsBy_iff.mpr (by omega)
    rw [searchGaps, if_pos ends]
    exact ⟨candidate, rfl, windowStart⟩
  | cons block rest ih =>
    obtain ⟨blockPositive, restNonempty⟩ := List.forall_mem_cons.mp nonempty
    obtain ⟨blockRoundable, restRoundable⟩ := List.forall_mem_cons.mp roundable
    have apart := free.apart block List.mem_cons_self
    simp only [Separated, DirectAllocation.extent] at apart
    obtain ⟨blockEnd, ended⟩ : ∃ blockEnd, block.endAddress = some blockEnd :=
      ⟨_, Word64.checkedAdd_isSome (by omega)⟩
    have endEq := (endAddress_eq_some.mp ended).2
    rw [searchGaps]
    simp only [ended]
    split
    · exact ih restNonempty restRoundable free.tail windowStart
    · rename_i inFront
      rw [UInt64.le_iff_toNat_le] at inFront
      split
      · exact ⟨candidate, rfl, windowStart⟩
      · rename_i tooShort
        have behind : blockEnd.toNat ≤ place.toNat := by
          rcases apart with blockFirst | placeFirst
          · omega
          · have gap := Word64.toNat_min block.start effectiveEnd
            refine absurd ⟨?_, endsBy_iff.mpr ?_⟩ tooShort
            · rw [UInt64.lt_iff_toNat_lt]
              omega
            · omega
        have next := free.next power (by omega) behind
        have roundedFrom : max candidate blockEnd = blockEnd :=
          max_eq_right (UInt64.le_iff_toNat_le.mpr (by omega))
        have nextAbove := next.above
        rw [roundedFrom, if_neg (by rw [ge_iff_le, UInt64.le_iff_toNat_le]; omega),
          if_neg (by rw [ge_iff_le, UInt64.le_iff_toNat_le]; omega)]
        exact ih restNonempty restRoundable next nextAbove

/-! ## The widest gap -/

theorem le_widen (span : UInt64 × UInt64) (candidate gapEnd : UInt64) :
    span.2.toNat ≤ (widen span candidate gapEnd).2.toNat := by
  unfold widen
  split
  · rename_i wider
    exact (UInt64.lt_iff_toNat_lt.mp wider.2).le
  · exact Nat.le_refl _

theorem gap_le_widen (span : UInt64 × UInt64) (candidate gapEnd : UInt64) :
    gapEnd.toNat - candidate.toNat ≤ (widen span candidate gapEnd).2.toNat := by
  unfold widen
  split
  · rename_i wider
    rw [UInt64.toNat_sub_of_le _ _ (UInt64.le_of_lt wider.1)]
  · rename_i notWider
    by_cases isGap : candidate < gapEnd
    · have bound : ¬ gapEnd - candidate > span.2 :=
        fun wider => notWider ⟨isGap, wider⟩
      rw [gt_iff_lt, UInt64.lt_iff_toNat_lt,
        UInt64.toNat_sub_of_le _ _ (UInt64.le_of_lt isGap)] at bound
      omega
    · rw [UInt64.lt_iff_toNat_lt] at isGap
      omega

theorem widen_cases (span : UInt64 × UInt64) (candidate gapEnd : UInt64) :
    widen span candidate gapEnd = span ∨ candidate.toNat < gapEnd.toNat ∧
      (widen span candidate gapEnd).1 = candidate ∧
      candidate.toNat + (widen span candidate gapEnd).2.toNat = gapEnd.toNat := by
  unfold widen
  split
  · rename_i wider
    have below := UInt64.lt_iff_toNat_lt.mp wider.1
    right
    refine ⟨below, rfl, ?_⟩
    rw [UInt64.toNat_sub_of_le _ _ (UInt64.le_of_lt wider.1)]
    omega
  · exact .inl rfl

theorem searchSpans_isSome (span : UInt64 × UInt64) (roundable : ∀ block ∈ blocks,
      block.start.toNat + block.length.toNat + (alignment.toNat - 1) < 2 ^ 64) :
    ∃ widest, searchSpans alignment effectiveEnd blocks candidate span =
      some widest := by
  induction blocks generalizing candidate span with
  | nil => exact ⟨_, rfl⟩
  | cons block rest ih =>
    obtain ⟨blockRoundable, restRoundable⟩ := List.forall_mem_cons.mp roundable
    obtain ⟨blockEnd, ended⟩ : ∃ blockEnd, block.endAddress = some blockEnd :=
      ⟨_, Word64.checkedAdd_isSome (by omega)⟩
    rw [searchSpans]
    simp only [ended]
    split
    · exact ih span restRoundable
    · split
      · exact ⟨_, rfl⟩
      · split
        · exact ⟨_, rfl⟩
        · exact ih _ restRoundable

variable {span widest : UInt64 × UInt64}

theorem searchSpans_wide (power : Word64.IsPowerOfTwo alignment)
    (nonempty : ∀ block ∈ blocks, 0 < block.length.toNat)
    (roundable : ∀ block ∈ blocks,
      block.start.toNat + block.length.toNat + (alignment.toNat - 1) < 2 ^ 64)
    (found : searchSpans alignment effectiveEnd blocks candidate span = some widest) :
    span.2.toNat ≤ widest.2.toNat ∧ ∀ length place, 0 < length.toNat →
        FreePlace blocks candidate effectiveEnd length alignment place →
        length.toNat ≤ widest.2.toNat := by
  induction blocks generalizing candidate span with
  | nil =>
    obtain rfl := Option.some.inj found
    refine ⟨le_widen _ _ _, ?_⟩
    intro length place positive free
    have gap := gap_le_widen span candidate effectiveEnd
    have above := free.above
    have below := free.below
    omega
  | cons block rest ih =>
    obtain ⟨blockPositive, restNonempty⟩ := List.forall_mem_cons.mp nonempty
    obtain ⟨blockRoundable, restRoundable⟩ := List.forall_mem_cons.mp roundable
    obtain ⟨blockEnd, ended⟩ : ∃ blockEnd, block.endAddress = some blockEnd :=
      ⟨_, Word64.checkedAdd_isSome (by omega)⟩
    have endEq := (endAddress_eq_some.mp ended).2
    rw [searchSpans] at found
    simp only [ended] at found
    split at found
    · obtain ⟨wider, longest⟩ := ih restNonempty restRoundable found
      exact ⟨wider, fun length place positive free =>
        longest length place positive free.tail⟩
    · rename_i inFront
      rw [UInt64.le_iff_toNat_le] at inFront
      have first := le_widen span candidate (min block.start effectiveEnd)
      have gap := gap_le_widen span candidate (min block.start effectiveEnd)
      -- A free place ends before the block or starts behind it.
      have before : ∀ length place : UInt64,
          FreePlace (block :: rest) candidate effectiveEnd length alignment place →
          length.toNat ≤ (widen span candidate (min block.start effectiveEnd)).2.toNat ∨
            blockEnd.toNat ≤ place.toNat := by
        intro length place free
        have apart := free.apart block List.mem_cons_self
        have above := free.above
        simp only [Separated, DirectAllocation.extent] at apart
        rcases apart with blockFirst | placeFirst
        · right
          omega
        · left
          have ends := Word64.toNat_min block.start effectiveEnd
          have inWindow := free.below
          omega
      split at found
      · rename_i pastWindow
        rw [ge_iff_le, UInt64.le_iff_toNat_le] at pastWindow
        obtain rfl := Option.some.inj found
        have second := le_widen (widen span candidate (min block.start effectiveEnd)) candidate
          effectiveEnd
        refine ⟨by omega, ?_⟩
        intro length place positive free
        have below := free.below
        rcases before length place free with short | behind
        · omega
        · omega
      · have roundedFrom : max candidate blockEnd = blockEnd :=
          max_eq_right (UInt64.le_iff_toNat_le.mpr (by omega))
        rw [roundedFrom] at found
        split at found
        · rename_i pastWindow
          rw [ge_iff_le, UInt64.le_iff_toNat_le] at pastWindow
          obtain rfl := Option.some.inj found
          have second := le_widen (widen span candidate (min block.start effectiveEnd))
            (alignUp blockEnd alignment) effectiveEnd
          refine ⟨by omega, ?_⟩
          intro length place positive free
          rcases before length place free with short | behind
          · omega
          · have next := free.next power (by omega) behind
            have above := next.above
            have below := next.below
            omega
        · obtain ⟨wider, longest⟩ := ih restNonempty restRoundable found
          refine ⟨by omega, ?_⟩
          intro length place positive free
          rcases before length place free with short | behind
          · omega
          · exact longest length place positive (free.next power (by omega) behind)

theorem searchSpans_free (power : Word64.IsPowerOfTwo alignment)
    (ascending : blocks.Pairwise fun first second =>
      first.start.toNat + first.length.toNat ≤ second.start.toNat)
    (roundable : ∀ block ∈ blocks,
      block.start.toNat + block.length.toNat + (alignment.toNat - 1) < 2 ^ 64)
    (aligned : alignment.toNat ∣ candidate.toNat)
    (found : searchSpans alignment effectiveEnd blocks candidate span = some widest) :
    widest = span ∨ FreePlace blocks candidate effectiveEnd widest.2 alignment widest.1 := by
  induction blocks generalizing candidate span with
  | nil =>
    obtain rfl := Option.some.inj found
    rcases widen_cases span candidate effectiveEnd with same | ⟨_, start, ends⟩
    · exact .inl same
    · right
      refine ⟨by rw [start], by rw [start, ends], ?_, by simp⟩
      rw [start]
      exact aligned
  | cons block rest ih =>
    obtain ⟨restAfter, restAscending⟩ := List.pairwise_cons.mp ascending
    obtain ⟨blockRoundable, restRoundable⟩ := List.forall_mem_cons.mp roundable
    obtain ⟨blockEnd, ended⟩ : ∃ blockEnd, block.endAddress = some blockEnd :=
      ⟨_, Word64.checkedAdd_isSome (by omega)⟩
    have endEq := (endAddress_eq_some.mp ended).2
    -- A gap that ends before the block is apart from the rest.
    have gapFree : ∀ (base : UInt64 × UInt64) (gapEnd : UInt64),
        gapEnd.toNat ≤ block.start.toNat → gapEnd.toNat ≤ effectiveEnd.toNat →
        widen base candidate gapEnd = base ∨ FreePlace (block :: rest) candidate effectiveEnd
            (widen base candidate gapEnd).2 alignment
            (widen base candidate gapEnd).1 := by
      intro base gapEnd beforeBlock inWindow
      rcases widen_cases base candidate gapEnd with same | ⟨_, start, ends⟩
      · exact .inl same
      · right
        have isAligned : alignment.toNat ∣ (widen base candidate gapEnd).1.toNat := by
          rw [start]
          exact aligned
        refine ⟨by rw [start], by rw [start]; omega, isAligned, ?_⟩
        intro other member
        right
        rcases List.mem_cons.mp member with rfl | inRest
        · simp only [DirectAllocation.extent, start]
          omega
        · have after := restAfter other inRest
          simp only [DirectAllocation.extent, start]
          omega
    -- What is free behind the block is free.
    have later : ∀ next : UInt64, blockEnd.toNat ≤ next.toNat →
        candidate.toNat ≤ next.toNat → ∀ length place,
        FreePlace rest next effectiveEnd length alignment place →
        FreePlace (block :: rest) candidate effectiveEnd length alignment
          place := by
      intro next behind above length place free
      have nextAbove := free.above
      refine ⟨by omega, free.below, free.aligned, ?_⟩
      intro other member
      rcases List.mem_cons.mp member with rfl | inRest
      · left
        simp only [DirectAllocation.extent]
        omega
      · exact free.apart other inRest
    rw [searchSpans] at found
    simp only [ended] at found
    split at found
    · rename_i behind
      rw [UInt64.le_iff_toNat_le] at behind
      rcases ih restAscending restRoundable aligned found with same | free
      · exact .inl same
      · exact .inr (later candidate behind (Nat.le_refl _) _ _ free)
    · rename_i inFront
      rw [UInt64.le_iff_toNat_le] at inFront
      have first := gapFree span (min block.start effectiveEnd)
        (UInt64.le_iff_toNat_le.mp (min_le_left _ _))
        (UInt64.le_iff_toNat_le.mp (min_le_right _ _))
      split at found
      · rename_i pastWindow
        rw [ge_iff_le, UInt64.le_iff_toNat_le] at pastWindow
        obtain rfl := Option.some.inj found
        rcases gapFree (widen span candidate (min block.start effectiveEnd))
          effectiveEnd pastWindow (Nat.le_refl _) with same | free
        · rw [same]
          exact first
        · exact .inr free
      · have roundedFrom : max candidate blockEnd = blockEnd :=
          max_eq_right (UInt64.le_iff_toNat_le.mpr (by omega))
        have rounded : blockEnd.toNat ≤ (alignUp blockEnd alignment).toNat :=
          le_alignUp (by omega)
        rw [roundedFrom] at found
        split at found
        · rename_i pastWindow
          obtain rfl := Option.some.inj found
          rw [widen, if_neg fun wider =>
            absurd wider.1 (UInt64.not_lt.mpr pastWindow)]
          exact first
        · rcases ih restAscending restRoundable (dvd_alignUp _ power) found with
            same | free
          · rw [same]
            exact first
          · exact .inr (later _ rounded (by omega) _ _ free)

end Walks

/-! ## Agreement -/

section Agreement

variable {table : SortedTable DirectAllocation.start}
variable {searchStart searchEnd alignment length : UInt64}

def availableLength (table : SortedTable DirectAllocation.start)
    (searchStart searchEnd alignment : UInt64) : UInt64 :=
  ((tryFindAvailableSpan table searchStart searchEnd alignment).map Prod.snd).getD 0

abbrev FreeInWindow (table : SortedTable DirectAllocation.start)
    (searchStart searchEnd length alignment place : UInt64) : Prop :=
  FreePlace table.entries searchStart (min searchEnd directMemorySizeBytes) length alignment place

theorem FreePlace.fromRounded {blocks : List DirectAllocation} {effectiveEnd place : UInt64}
    (free : FreePlace blocks searchStart effectiveEnd length alignment place)
    (power : Word64.IsPowerOfTwo alignment)
    (fits : searchStart.toNat + (alignment.toNat - 1) < 2 ^ 64) :
    FreePlace blocks (alignUp searchStart alignment) effectiveEnd length alignment place where
  above := alignUp_le power fits free.aligned free.above
  below := free.below
  aligned := free.aligned
  apart := free.apart

theorem tryFindAvailableSpan_spec (live : LiveBlocks table) (power : Word64.IsPowerOfTwo alignment)
    (roundable : Roundable table searchStart alignment)
    {span : UInt64 × UInt64}
    (found : tryFindAvailableSpan table searchStart searchEnd alignment = some span) :
    0 < span.2.toNat ∧ FreeInWindow table searchStart searchEnd span.2 alignment span.1 := by
  unfold tryFindAvailableSpan at found
  split at found
  · cases found
  · dsimp only at found
    split at found
    · cases found
    · obtain ⟨isWidest, nonzero⟩ := Option.filter_eq_some_iff.mp found
      have positive := Word64.toNat_pos (of_decide_eq_true nonzero)
      refine ⟨positive, ?_⟩
      have rounded := le_alignUp roundable.fromStart
      rcases searchSpans_free power live.ascending roundable.fromEnds
        (dvd_alignUp _ power) isWidest with isInitial | free
      · rw [isInitial] at positive
        exact absurd positive (Nat.lt_irrefl 0)
      · exact ⟨rounded.trans free.above, free.below, free.aligned, free.apart⟩

theorem le_availableLength (live : LiveBlocks table) (power : Word64.IsPowerOfTwo alignment)
    (roundable : Roundable table searchStart alignment)
    (positive : 0 < length.toNat) {place : UInt64}
    (free : FreeInWindow table searchStart searchEnd length alignment place) :
    length ≤ availableLength table searchStart searchEnd alignment := by
  have rounded := free.fromRounded power roundable.fromStart
  have above := rounded.above
  have below := rounded.below
  have windowEnd : (min searchEnd directMemorySizeBytes).toNat ≤ searchEnd.toNat :=
    UInt64.le_iff_toNat_le.mp (min_le_left _ _)
  have windowStart := free.above
  obtain ⟨widest, isWidest⟩ : ∃ widest, searchSpans alignment
      (min searchEnd directMemorySizeBytes) table.entries
      (alignUp searchStart alignment) (0, 0) = some widest :=
    searchSpans_isSome (0, 0) roundable.fromEnds
  have longest := (searchSpans_wide power live.nonempty roundable.fromEnds
    isWidest).2 length place positive rounded
  have nonzero : widest.2 ≠ 0 := Word64.toNat_ne_zero.mpr (by omega)
  unfold availableLength tryFindAvailableSpan
  rw [if_neg (by rw [ge_iff_le, UInt64.le_iff_toNat_le]; omega)]
  dsimp only
  rw [if_neg (by rw [ge_iff_le, UInt64.le_iff_toNat_le]; omega), isWidest,
    Option.filter_some, if_pos (decide_eq_true nonzero)]
  exact UInt64.le_iff_toNat_le.mpr longest

theorem tryFindAllocatableRange_lowest (live : LiveBlocks table)
    (power : Word64.IsPowerOfTwo alignment)
    (roundable : Roundable table searchStart alignment)
    (positive : 0 < length.toNat) {place : UInt64}
    (free : FreeInWindow table searchStart searchEnd length alignment place) :
    ∃ selected, tryFindAllocatableRange table searchStart searchEnd length alignment
      directMemorySizeBytes = some selected ∧ selected.toNat ≤ place.toNat := by
  have rounded := free.fromRounded power roundable.fromStart
  have above := rounded.above
  have below := rounded.below
  have windowEnd : (min searchEnd directMemorySizeBytes).toNat ≤ searchEnd.toNat :=
    UInt64.le_iff_toNat_le.mp (min_le_left _ _)
  have windowStart := free.above
  have noRequest : ¬ (length = 0 ∨ searchStart ≥ searchEnd) := by
    rintro (isZero | empty)
    · exact Word64.toNat_ne_zero.mpr positive isZero
    · rw [ge_iff_le, UInt64.le_iff_toNat_le] at empty
      omega
  unfold tryFindAllocatableRange
  rw [if_neg noRequest]
  dsimp only
  rw [if_neg (by rw [ge_iff_le, UInt64.le_iff_toNat_le]; omega)]
  exact searchGaps_lowest positive power live.nonempty roundable.fromEnds rounded

theorem effectiveAlignment_of_power (power : Word64.IsPowerOfTwo alignment) :
    effectiveAlignment alignment = alignment := if_neg power.1

variable {memory : DirectMemoryState} {memoryType : Int32} {selected : UInt64}

theorem tryAllocate_isSome (power : Word64.IsPowerOfTwo alignment)
    (live : LiveBlocks memory.directAllocations)
    (roundable : Roundable memory.directAllocations searchStart alignment)
    (found : tryFindAllocatableRange memory.directAllocations searchStart searchEnd
      length alignment directMemorySizeBytes = some selected) :
    ∃ after, tryAllocate memory searchStart searchEnd length alignment memoryType
      directMemorySizeBytes = some (selected, after) := by
  have placed := tryFindAllocatableRange_spec live roundable found
  have below := placed.below
  have bound := (min searchEnd directMemorySizeBytes).toNat_lt
  have isRequest : ¬ (length = 0 ∨ searchStart ≥ searchEnd) := by
    intro noRequest
    unfold tryFindAllocatableRange at found
    rw [if_pos noRequest] at found
    cases found
  unfold tryAllocate
  rw [if_neg isRequest, effectiveAlignment_of_power power, found]
  dsimp only
  rw [Word64.checkedAdd_isSome (by omega)]
  exact ⟨_, rfl⟩

theorem tryFindAllocatableRange_of_tryAllocate {after : DirectMemoryState}
    (power : Word64.IsPowerOfTwo alignment)
    (allocated : tryAllocate memory searchStart searchEnd length alignment memoryType
      directMemorySizeBytes = some (selected, after)) :
    length ≠ 0 ∧ tryFindAllocatableRange memory.directAllocations searchStart
      searchEnd length alignment directMemorySizeBytes = some selected := by
  unfold tryAllocate at allocated
  split at allocated
  · cases allocated
  · rename_i isRequest
    rw [effectiveAlignment_of_power power] at allocated
    refine ⟨fun isZero => isRequest (.inl isZero), ?_⟩
    split at allocated
    · cases allocated
    · rename_i freePosition found
      split at allocated
      · cases allocated
      · cases allocated
        exact found

end Agreement

/-- A length of at least one byte can be allocated exactly when it is at most
the reported one, and the allocator takes the lowest place. -/
theorem allocator_agrees_with_query {memory : DirectMemoryState}
    {searchStart searchEnd alignment : UInt64}
    (live : LiveBlocks memory.directAllocations)
    (power : Word64.IsPowerOfTwo alignment)
    (roundable : Roundable memory.directAllocations searchStart alignment) :
    (∀ length memoryType, length ≠ 0 →
      ((tryAllocate memory searchStart searchEnd length alignment memoryType
          directMemorySizeBytes).isSome ↔
        length ≤ availableLength memory.directAllocations searchStart searchEnd alignment)) ∧
    (∀ span, tryFindAvailableSpan memory.directAllocations searchStart searchEnd
        alignment = some span → 0 < span.2.toNat ∧
      FreeInWindow memory.directAllocations searchStart searchEnd span.2 alignment span.1) ∧
    ∀ length memoryType selected after,
      tryAllocate memory searchStart searchEnd length alignment memoryType
        directMemorySizeBytes = some (selected, after) →
      FreeInWindow memory.directAllocations searchStart searchEnd length alignment selected ∧
      ∀ place, FreeInWindow memory.directAllocations searchStart searchEnd length
        alignment place → selected ≤ place := by
  have placedFree : ∀ length selected,
      tryFindAllocatableRange memory.directAllocations searchStart searchEnd length
        alignment directMemorySizeBytes = some selected →
      FreeInWindow memory.directAllocations searchStart searchEnd length alignment
        selected := by
    intro length selected found
    have placed := tryFindAllocatableRange_spec live roundable found
    exact ⟨placed.above, placed.below, placed.aligned power, placed.apart⟩
  refine ⟨?_, fun span found => tryFindAvailableSpan_spec live power roundable found, ?_⟩
  · intro length memoryType nonzero
    have positive := Word64.toNat_pos nonzero
    constructor
    · intro isSome
      obtain ⟨⟨selected, after⟩, allocated⟩ := Option.isSome_iff_exists.mp isSome
      have found := (tryFindAllocatableRange_of_tryAllocate power allocated).2
      exact le_availableLength live power roundable positive (placedFree length selected found)
    · intro fits
      unfold availableLength at fits
      cases isSpan : tryFindAvailableSpan memory.directAllocations searchStart
          searchEnd alignment with
      | none =>
        rw [isSpan, UInt64.le_iff_toNat_le] at fits
        exact absurd (Nat.le_antisymm fits (Nat.zero_le _)) positive.ne'
      | some span =>
        rw [isSpan, UInt64.le_iff_toNat_le] at fits
        simp only [Option.map_some, Option.getD_some] at fits
        have free := (tryFindAvailableSpan_spec live power roundable isSpan).2
        have shorter : FreeInWindow memory.directAllocations searchStart searchEnd
            length alignment span.1 := by
          have below := free.below
          refine ⟨free.above, by omega, free.aligned, ?_⟩
          intro block member
          have apart := free.apart block member
          simp only [Separated] at apart ⊢
          omega
        obtain ⟨selected, found, -⟩ := tryFindAllocatableRange_lowest live power
          roundable positive shorter
        obtain ⟨after, allocated⟩ : ∃ after, tryAllocate memory searchStart
            searchEnd length alignment memoryType directMemorySizeBytes = some (selected, after) :=
          tryAllocate_isSome power live roundable found
        rw [allocated]
        rfl
  · intro length memoryType selected after allocated
    obtain ⟨nonzero, found⟩ := tryFindAllocatableRange_of_tryAllocate power allocated
    refine ⟨placedFree length selected found, ?_⟩
    intro place free
    obtain ⟨lowest, isLowest, below⟩ := tryFindAllocatableRange_lowest live power
      roundable (Word64.toNat_pos nonzero) free
    obtain rfl : lowest = selected := by
      rw [isLowest, Option.some.injEq] at found
      exact found
    exact UInt64.le_iff_toNat_le.mpr below

/-- With one page allocated at the start, four pages from the next aligned place. -/
theorem allocator_agrees_with_query_oneBlock :
    0x10000 ≤ availableLength oneBlock.directAllocations 0 0x100000 0x10000 := by
  have blocks : oneBlock.directAllocations.entries = [⟨0, 0x4000, 0⟩] := by
    decide +kernel
  have roundable : Roundable oneBlock.directAllocations 0 0x10000 := by
    refine ⟨by decide +kernel, ?_⟩
    intro block member
    rw [blocks] at member
    obtain rfl := List.mem_singleton.mp member
    decide +kernel
  exact ((allocator_agrees_with_query (liveBlocks_of_reachable oneBlock_reachable)
    (by decide +kernel) roundable).1 0x10000 0 (by decide)).mp (by decide +kernel)

/-- A request of no bytes is refused, whatever the query reports. -/
theorem empty_request_refused : ¬ ∀ memory searchStart searchEnd alignment length memoryType,
      LiveBlocks memory.directAllocations → Word64.IsPowerOfTwo alignment →
      ((tryAllocate memory searchStart searchEnd length alignment memoryType
          directMemorySizeBytes).isSome ↔
        length ≤ availableLength memory.directAllocations searchStart searchEnd alignment) := by
  intro agrees
  have live : LiveBlocks DirectMemoryState.initial.directAllocations :=
    ⟨by simp [DirectMemoryState.initial], by simp [DirectMemoryState.initial], apartTable_empty⟩
  have refused := (agrees .initial 0 0x100000 0x4000 0 0 live
    (by decide +kernel)).mpr (by decide +kernel)
  exact absurd refused (by decide +kernel)

end DirectMemory
end SharpEmu
