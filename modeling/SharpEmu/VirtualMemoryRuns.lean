import SharpEmu.VirtualMemoryBytes

/-!
# Reads and writes of guest memory

Every reachable region list is in order, so the binary search finds where a
range starts, the validation walk decides whether all of it permits the access,
and the copying walk that follows never leaves the list.
-/

namespace SharpEmu
namespace VirtualMemory

open Extent

variable {regions : List MappedRegion} {required : ProgramHeaderFlags}

/-! ## Finding the first region -/

theorem Ordered.passesPrefix (ordered : Ordered regions) (address : UInt64) :
    PartitionSearch.PassesPrefix
      (fun mapped => mapped.region.virtualAddress < address) regions := by
  apply ordered.ascending.imp_of_mem
  intro first second firstMem _ before secondBelow
  have endEq := (ordered.wellFormed first firstMem).endEq
  simp only [decide_eq_true_eq, UInt64.lt_iff_toNat_lt] at secondBelow ⊢
  omega

variable {address : UInt64} {mapped : MappedRegion}

theorem Ordered.starts_below (ordered : Ordered regions)
    (member : mapped ∈ regions.take (findInsertionIndex regions address)) :
    mapped.region.virtualAddress.toNat < address.toNat := by
  have passes := PartitionSearch.passes_of_mem_take (ordered.passesPrefix _) member
  simpa [UInt64.lt_iff_toNat_lt] using passes

theorem Ordered.starts_from (ordered : Ordered regions)
    (member : mapped ∈ regions.drop (findInsertionIndex regions address)) :
    address.toNat ≤ mapped.region.virtualAddress.toNat := by
  have fails := PartitionSearch.fails_of_mem_drop (ordered.passesPrefix _) member
  simpa [UInt64.lt_iff_toNat_lt] using fails

variable {later : ℕ} {first second : MappedRegion}

theorem Ordered.ends_before (ordered : Ordered regions) {earlier : ℕ} (before : earlier < later)
    (atEarlier : regions[earlier]? = some first)
    (atLater : regions[later]? = some second) :
    first.endAddress.toNat ≤ second.region.virtualAddress.toNat := by
  obtain ⟨earlierBound, rfl⟩ := List.getElem?_eq_some_iff.mp atEarlier
  obtain ⟨laterBound, rfl⟩ := List.getElem?_eq_some_iff.mp atLater
  exact List.pairwise_iff_getElem.mp ordered.ascending _ _ _ _ before

variable {index : ℕ}

theorem Ordered.ends_before_of_mem_take (ordered : Ordered regions)
    (firstMem : first ∈ regions.take index)
    (atIndex : regions[index]? = some second) :
    first.endAddress.toNat ≤ second.region.virtualAddress.toNat := by
  obtain ⟨earlier, atEarlier⟩ := List.mem_iff_getElem?.mp firstMem
  rw [List.getElem?_take] at atEarlier
  split at atEarlier
  case isTrue before => exact ordered.ends_before before atEarlier atIndex
  case isFalse => cases atEarlier

structure SplitsAt (regions : List MappedRegion) (point index : ℕ) : Prop where
  past : ∀ mapped ∈ regions.take index, mapped.endAddress.toNat ≤ point
  notPast : NotPast (regions.drop index) point

theorem Ordered.findContainingRegionIndex_some (ordered : Ordered regions)
    (found : findContainingRegionIndex regions address = some index) :
    SplitsAt regions address.toNat index := by
  have starting {mapped : MappedRegion}
      (member : mapped ∈ regions.drop (findInsertionIndex regions address)) :
      address.toNat < mapped.endAddress.toNat := by
    have starts := ordered.starts_from member
    have wellFormed := ordered.wellFormed mapped (List.mem_of_mem_drop member)
    have positive := wellFormed.positive
    have endEq := wellFormed.endEq
    omega
  unfold findContainingRegionIndex at found
  simp only at found
  split at found
  case isTrue exact_ =>
    obtain rfl := Option.some.inj found
    obtain ⟨mapped, atIndex, startsHere⟩ := (Option.any_eq_true _ _).mp exact_
    refine ⟨fun other member => ?_, fun other member => starting member⟩
    have before := ordered.ends_before_of_mem_take member atIndex
    rwa [of_decide_eq_true startsHere] at before
  case isFalse =>
    split at found
    case isTrue inside =>
      obtain rfl := Option.some.inj found
      obtain ⟨positive, isInside⟩ := inside
      obtain ⟨candidate, atIndex, before⟩ := (Option.any_eq_true _ _).mp isInside
      rw [decide_eq_true_eq, UInt64.lt_iff_toNat_lt] at before
      have candidateMem : candidate ∈ regions.take (findInsertionIndex regions address) := by
        refine List.mem_iff_getElem?.mpr ⟨findInsertionIndex regions address - 1, ?_⟩
        rw [List.getElem?_take, if_pos (by omega), atIndex]
      have startsBelow := ordered.starts_below candidateMem
      constructor
      · intro other member
        have ends := ordered.ends_before_of_mem_take member atIndex
        omega
      · intro other member
        rw [List.drop_eq_getElem?_toList_append, atIndex, Nat.sub_add_cancel positive] at member
        rcases List.mem_cons.mp member with rfl | later
        · exact before
        · exact starting later
    case isFalse => cases found

theorem Ordered.findContainingRegionIndex_none (ordered : Ordered regions)
    (absent : findContainingRegionIndex regions address = none) :
    ¬ Permits regions required address.toNat := by
  rintro ⟨mapped, member, contains, _⟩
  have inside := (ordered.wellFormed mapped member).contains_iff.mp contains
  unfold findContainingRegionIndex at absent
  simp only at absent
  split at absent
  case isTrue => cases absent
  case isFalse notExact =>
    split at absent
    case isTrue => cases absent
    case isFalse notInside =>
      rw [← List.take_append_drop (findInsertionIndex regions address) regions,
        List.mem_append] at member
      rcases member with inFront | inBack
      · obtain ⟨index, atIndex⟩ := List.mem_iff_getElem?.mp inFront
        rw [List.getElem?_take] at atIndex
        split at atIndex
        case isFalse => cases atIndex
        case isTrue before =>
          -- Only the last region in front could reach the address.
          by_cases isLast : index = findInsertionIndex regions address - 1
          · apply notInside
            rw [← isLast, atIndex]
            refine ⟨by omega, ?_⟩
            simpa [UInt64.lt_iff_toNat_lt] using inside.2
          · have bound := PartitionSearch.insertionIndex_le _ (ordered.passesPrefix address)
            have lastBound : findInsertionIndex regions address - 1 < regions.length := by
              unfold findInsertionIndex at before ⊢
              omega
            have atLast := List.getElem?_eq_getElem lastBound
            have ends := ordered.ends_before (by omega) atIndex atLast
            have lastMem : regions[findInsertionIndex regions address - 1] ∈
                regions.take (findInsertionIndex regions address) := by
              refine List.mem_iff_getElem?.mpr ⟨findInsertionIndex regions address - 1, ?_⟩
              rw [List.getElem?_take, if_pos (by omega), atLast]
            have below := ordered.starts_below lastMem
            omega
      · have starts := ordered.starts_from inBack
        rw [List.drop_eq_getElem?_toList_append] at inBack
        cases atIndex : regions[findInsertionIndex regions address]? with
        | none =>
          rw [List.drop_eq_nil_of_le] at inBack
          · rw [atIndex] at inBack
            cases inBack
          · have past := List.getElem?_eq_none_iff.mp atIndex
            omega
        | some next =>
          rw [atIndex, Option.toList_some, List.singleton_append] at inBack
          rw [atIndex] at notExact
          have nextMem : next ∈ regions.drop (findInsertionIndex regions address) := by
            rw [List.drop_eq_getElem?_toList_append, atIndex]
            exact List.mem_cons_self
          rcases List.mem_cons.mp inBack with rfl | later
          · apply notExact
            simp only [Option.any_some, decide_eq_true_eq, Word64.toNat_inj]
            omega
          · obtain ⟨index, atLater⟩ := List.mem_iff_getElem?.mp later
            rw [List.getElem?_drop] at atLater
            have ends := ordered.ends_before (by omega) atIndex atLater
            have nextStarts := ordered.starts_from nextMem
            have nextFormed :=
              ordered.wellFormed next (List.mem_of_mem_drop nextMem)
            have positive := nextFormed.positive
            have endEq := nextFormed.endEq
            omega

/-! ## Whole ranges -/

variable {point : ℕ}

theorem SplitsAt.permits_drop (ordered : Ordered regions)
    (splits : SplitsAt regions point index) (above : point ≤ later) :
    Permits (regions.drop index) required later ↔
      Permits regions required later := by
  constructor
  · rintro ⟨mapped, member, contains, allowed⟩
    exact ⟨mapped, List.mem_of_mem_drop member, contains, allowed⟩
  · rintro ⟨mapped, member, contains, allowed⟩
    have inside := (ordered.wellFormed mapped member).contains_iff.mp contains
    rw [← List.take_append_drop index regions, List.mem_append] at member
    rcases member with inFront | inBack
    · have ends := splits.past mapped inFront
      omega
    · exact ⟨mapped, inBack, contains, allowed⟩

def RangePermits (regions : List MappedRegion) (required : ProgramHeaderFlags)
    (address length : ℕ) : Prop :=
  ∀ point, address ≤ point → point < address + max length 1 → Permits regions required point

variable {length : ℕ}

theorem Ordered.tryValidateRange_some (ordered : Ordered regions)
    (found : tryValidateRange regions address length required = some index) :
    SplitsAt regions address.toNat index ∧ RangePermits regions required address.toNat length := by
  obtain ⟨searched, accepted⟩ := Option.filter_eq_some_iff.mp found
  have splits := ordered.findContainingRegionIndex_some searched
  refine ⟨splits, fun point above below => ?_⟩
  rw [validateFrom_iff (ordered.sublist (List.drop_sublist _ _)) splits.notPast] at accepted
  exact (splits.permits_drop ordered above).mp (accepted point above below)

theorem Ordered.tryValidateRange_none (ordered : Ordered regions)
    (absent : tryValidateRange regions address length required = none) :
    ¬ RangePermits regions required address.toNat length := by
  intro permits
  have atStart := permits address.toNat (Nat.le_refl _) (by omega)
  cases searched : findContainingRegionIndex regions address with
  | none => exact ordered.findContainingRegionIndex_none searched atStart
  | some index =>
    have splits := ordered.findContainingRegionIndex_some searched
    have accepted : validateFrom required (regions.drop index) address length =
        true := by
      rw [validateFrom_iff (ordered.sublist (List.drop_sublist _ _)) splits.notPast]
      intro point above below
      exact (splits.permits_drop ordered above).mpr (permits point above below)
    rw [tryValidateRange, searched] at absent
    simp [accepted] at absent

variable {back : List MappedRegion}

theorem byteAt_append_of_past {front : List MappedRegion}
    (past : ∀ mapped ∈ front, ¬ mapped.extent.Contains point) :
    byteAt (front ++ back) point = byteAt back point := by
  induction front with
  | nil => rfl
  | cons mapped rest ih =>
    rw [List.cons_append, byteAt, if_neg (past mapped List.mem_cons_self)]
    exact ih (List.forall_mem_cons.mp past).2

theorem byteAt_append_congr (front : List MappedRegion) {otherBack : List MappedRegion}
    (same : byteAt back point = byteAt otherBack point) :
    byteAt (front ++ back) point = byteAt (front ++ otherBack) point := by
  induction front with
  | nil => exact same
  | cons mapped rest ih =>
    rw [List.cons_append, List.cons_append, byteAt, byteAt, ih]

theorem SplitsAt.byteAt_front (ordered : Ordered regions) (splits : SplitsAt regions point index)
    (above : point ≤ later) :
    byteAt (regions.take index ++ back) later = byteAt back later := by
  apply byteAt_append_of_past
  intro mapped member contains
  have inside := (ordered.wellFormed mapped (List.mem_of_mem_take member)).contains_iff.mp contains
  have ends := splits.past mapped member
  omega

theorem SplitsAt.byteAt_drop (ordered : Ordered regions)
    (splits : SplitsAt regions point index) (above : point ≤ later) :
    byteAt (regions.drop index) later = byteAt regions later := by
  rw [← splits.byteAt_front ordered above, List.take_append_drop]

theorem SplitsAt.covered (ordered : Ordered regions) (splits : SplitsAt regions address.toNat index)
    (permits : RangePermits regions required address.toNat length) :
    ∀ offset < length, (byteAt (regions.drop index) (address.toNat + offset)).isSome := by
  intro offset before
  rw [splits.byteAt_drop ordered (Nat.le_add_right _ _)]
  exact (permits _ (by omega) (by omega)).byteAt_isSome ordered

/-! ## The contract -/

structure ByteContract (regions : List MappedRegion) : Prop where
  read : ∀ (address : UInt64) (length : ℕ),
    (RangePermits regions flagRead address.toNat length ∧
      ∃ bytes, tryRead regions address length = .ok (some bytes) ∧
        bytes.length = length ∧ ∀ offset < length,
          bytes[offset]? = byteAt regions (address.toNat + offset)) ∨
    (¬ RangePermits regions flagRead address.toNat length ∧
      tryRead regions address length = .ok none)
  write : ∀ (address : UInt64) (source : List UInt8),
    (RangePermits regions flagWrite address.toNat source.length ∧
      ∃ after, tryWrite regions address source = (.ok true, after) ∧
        after.map MappedRegion.shape = regions.map MappedRegion.shape ∧
        ∀ point, byteAt after point =
          if address.toNat ≤ point ∧ point < address.toNat + source.length then
            source[point - address.toNat]?
          else byteAt regions point) ∨
    (¬ RangePermits regions flagWrite address.toNat source.length ∧
      tryWrite regions address source = (.ok false, regions))

theorem Ordered.byteContract (ordered : Ordered regions) :
    ByteContract regions := by
  constructor
  · intro address length
    unfold tryRead
    cases validated : tryValidateRange regions address length flagRead with
    | none => exact .inr ⟨ordered.tryValidateRange_none validated, rfl⟩
    | some index =>
      obtain ⟨splits, permits⟩ := ordered.tryValidateRange_some validated
      obtain ⟨bytes, copied, lengthEq, bytesEq⟩ := copyFromRegions_spec
        (ordered.sublist (List.drop_sublist _ _)) splits.notPast
        (splits.covered ordered permits)
      refine .inl ⟨permits, bytes, ?_, lengthEq, ?_⟩
      · simp only [copied]
        rfl
      · intro offset before
        rw [bytesEq offset before, splits.byteAt_drop ordered (Nat.le_add_right _ _)]
  · intro address source
    unfold tryWrite
    cases validated : tryValidateRange regions address source.length flagWrite with
    | none => exact .inr ⟨ordered.tryValidateRange_none validated, rfl⟩
    | some index =>
      obtain ⟨splits, permits⟩ := ordered.tryValidateRange_some validated
      obtain ⟨after, copied, sameShape, bytesEq⟩ := copyToRegions_spec
        (ordered.sublist (List.drop_sublist _ _)) splits.notPast
        (splits.covered ordered permits)
      refine .inl ⟨permits, regions.take index ++ after, ?_, ?_, ?_⟩
      · simp only [copied]
        rfl
      · rw [List.map_append, sameShape, ← List.map_append, List.take_append_drop]
      · intro point
        split
        case isTrue written =>
          rw [splits.byteAt_front ordered written.1, bytesEq, if_pos written]
        case isFalse unwritten =>
          conv_rhs => rw [← List.take_append_drop index regions]
          apply byteAt_append_congr
          rw [bytesEq, if_neg unwritten]

/-! ## Runs -/

section Mapping

variable {virtualAddress endAddress : UInt64}

variable {other : MappedRegion}

theorem Ordered.ends_before_new (ordered : Ordered regions)
    (apart : overlapsNeighbour regions virtualAddress endAddress = false)
    (member : other ∈ regions)
    (below : other.region.virtualAddress < virtualAddress) :
    other.endAddress.toNat ≤ virtualAddress.toNat := by
  rw [← List.take_append_drop (findInsertionIndex regions virtualAddress) regions,
    List.mem_append] at member
  rw [UInt64.lt_iff_toNat_lt] at below
  rcases member with inFront | inBack
  · obtain ⟨index, atIndex⟩ := List.mem_iff_getElem?.mp inFront
    rw [List.getElem?_take] at atIndex
    split at atIndex
    case isFalse => cases atIndex
    case isTrue before =>
      have bound := PartitionSearch.insertionIndex_le _ (ordered.passesPrefix virtualAddress)
      have lastBound : findInsertionIndex regions virtualAddress - 1 < regions.length := by
        unfold findInsertionIndex at before ⊢
        omega
      have atLast := List.getElem?_eq_getElem lastBound
      simp only [overlapsNeighbour, Bool.or_eq_false_iff, atLast, Option.any_some] at apart
      have lastEnds : regions[findInsertionIndex regions virtualAddress -
          1].endAddress.toNat ≤ virtualAddress.toNat := by
        simpa [show 0 < findInsertionIndex regions virtualAddress by omega,
          UInt64.le_iff_toNat_le] using apart.1
      by_cases isLast : index = findInsertionIndex regions virtualAddress - 1
      · subst isLast
        rw [atLast, Option.some.injEq] at atIndex
        rwa [← atIndex]
      · have ends := ordered.ends_before (by omega) atIndex atLast
        have lastFormed := ordered.wellFormed _ (List.getElem_mem lastBound)
        have lastEnd := lastFormed.endEq
        omega
  · have starts := ordered.starts_from inBack
    omega

theorem Ordered.starts_after_new (ordered : Ordered regions)
    (apart : overlapsNeighbour regions virtualAddress endAddress = false)
    (member : other ∈ regions)
    (notBelow : ¬ other.region.virtualAddress < virtualAddress) :
    endAddress.toNat ≤ other.region.virtualAddress.toNat := by
  rw [← List.take_append_drop (findInsertionIndex regions virtualAddress) regions,
    List.mem_append] at member
  rw [UInt64.lt_iff_toNat_lt] at notBelow
  rcases member with inFront | inBack
  · exact absurd (ordered.starts_below inFront) notBelow
  · obtain ⟨index, atIndex⟩ := List.mem_iff_getElem?.mp inBack
    rw [List.getElem?_drop] at atIndex
    have bound := (List.getElem?_eq_some_iff.mp atIndex).1
    have nextBound : findInsertionIndex regions virtualAddress < regions.length := by omega
    have atNext := List.getElem?_eq_getElem nextBound
    simp only [overlapsNeighbour, Bool.or_eq_false_iff, atNext,
      Option.any_some, decide_eq_false_iff_not, gt_iff_lt, not_lt,
      UInt64.le_iff_toNat_le] at apart
    have nextStarts := apart.2
    cases index with
    | zero =>
      rw [Nat.add_zero, atNext, Option.some.injEq] at atIndex
      rwa [← atIndex]
    | succ index =>
      have ends := ordered.ends_before (by omega) atNext atIndex
      have nextFormed := ordered.wellFormed _ (List.getElem_mem nextBound)
      have nextEnd := nextFormed.endEq
      omega

end Mapping

variable {after : List MappedRegion}

theorem Ordered.map (ordered : Ordered regions)
    {virtualAddress memorySize fileOffset : UInt64} {fileData : List UInt8}
    {protection : ProgramHeaderFlags}
    (succeeds : map regions virtualAddress memorySize fileOffset fileData
      protection = .ok after) : Ordered after := by
  unfold VirtualMemory.map at succeeds
  split at succeeds
  case isTrue => cases succeeds
  split at succeeds
  case isTrue => cases succeeds
  split at succeeds
  case isTrue => cases succeeds
  rename_i nonzero fileFits _
  cases added : Word64.checkedAdd virtualAddress memorySize with
  | none =>
    rw [added] at succeeds
    cases succeeds
  | some endAddress =>
    simp only [added] at succeeds
    split at succeeds
    case isTrue => cases succeeds
    case isFalse notOverlapping =>
      obtain rfl := Except.ok.inj succeeds
      have apart := Bool.eq_false_iff.mpr notOverlapping
      obtain ⟨_, endEq⟩ := Word64.checkedAdd_eq_some.mp added
      constructor
      · intro mapped member
        rw [(PartitionSearch.insertAtPartition_perm _ _ _).mem_iff, List.mem_cons] at member
        rcases member with rfl | old
        · refine ⟨Word64.toNat_pos nonzero, endEq, ?_⟩
          simp only [List.length_append, List.length_replicate]
          omega
        · exact ordered.wellFormed mapped old
      · refine PartitionSearch.insertAtPartition_pairwise ordered.ascending
          (ordered.passesPrefix virtualAddress) ?_ ?_
        · intro other member below
          exact ordered.ends_before_new apart member (of_decide_eq_true below)
        · intro other member notBelow
          exact ordered.starts_after_new apart member (of_decide_eq_false notBelow)

theorem ordered_nil : Ordered [] where
  wellFormed := by simp
  ascending := List.Pairwise.nil

theorem ordered_of_reachable (reachable : Reachable Initial Step regions) :
    Ordered regions := by
  apply reachable.invariant
  · rintro start rfl
    exact ordered_nil
  · rintro before operation after ordered rfl
    cases operation with
    | map virtualAddress memorySize fileOffset fileData protection =>
      simp only [VirtualMemoryOperation.run]
      split
      case h_1 succeeds => exact ordered.map succeeds
      case h_2 => exact ordered
    | tryWrite virtualAddress source =>
      simp only [VirtualMemoryOperation.run]
      rcases ordered.byteContract.write virtualAddress source with
        ⟨_, after, written, sameShape, _⟩ | ⟨_, refused⟩
      · rw [written]
        exact ordered.of_shape sameShape
      · rw [refused]
        exact ordered
    | clear => exact ordered_nil

theorem Ordered.read_written (ordered : Ordered regions) {source bytes : List UInt8}
    (written : tryWrite regions address source = (.ok true, after))
    {offset count : ℕ} (inside : offset + count ≤ source.length)
    (wasRead : tryRead after (address + UInt64.ofNat offset) count = .ok (some bytes)) :
    bytes = (source.drop offset).take count := by
  rcases ordered.byteContract.write address source with
    ⟨permits, _, writes, sameShape, writtenBytes⟩ | ⟨_, refused⟩
  · rw [writes, Prod.mk.injEq] at written
    obtain rfl := written.2
    have orderedAfter := ordered.of_shape sameShape
    rcases orderedAfter.byteContract.read (address + UInt64.ofNat offset)
        count with ⟨_, _, reads, lengthEq, readBytes⟩ | ⟨_, refused⟩
    · rw [reads, Except.ok.injEq, Option.some.injEq] at wasRead
      subst wasRead
      apply List.ext_getElem?
      intro index
      by_cases before : index < count
      · -- The written range is mapped, so it does not wrap.
        obtain ⟨mapped, member, contains, _⟩ :=
          permits (address.toNat + offset) (by omega) (by omega)
        have inRegion :=
          (ordered.wellFormed mapped member).contains_iff.mp contains
        have endBound := mapped.endAddress.toNat_lt
        rw [readBytes index before, Word64.toNat_add_ofNat _ _ (by omega),
          writtenBytes, if_pos (by omega), List.getElem?_take, if_pos before,
          List.getElem?_drop]
        congr 1
        omega
      · rw [List.getElem?_eq_none (by omega), List.getElem?_eq_none]
        simp only [List.length_take, List.length_drop]
        omega
    · rw [refused] at wasRead
      cases wasRead
  · rw [refused, Prod.mk.injEq] at written
    cases written.1

/-- Reads and writes are decided by the permissions of the bytes they touch, a
write changes exactly its range, and a read inside it returns what was written. -/
theorem reads_and_writes_bytewise (reachable : Reachable Initial Step regions) :
    ByteContract regions ∧ ∀ (address : UInt64) (source bytes : List UInt8)
        (after : List MappedRegion) (offset count : ℕ),
        tryWrite regions address source = (.ok true, after) →
        offset + count ≤ source.length →
        tryRead after (address + UInt64.ofNat offset) count = .ok (some bytes) →
        bytes = (source.drop offset).take count := by
  have ordered := ordered_of_reachable reachable
  refine ⟨ordered.byteContract, ?_⟩
  intro address source bytes after offset count written inside wasRead
  exact ordered.read_written written inside wasRead

def backToBack : List MappedRegion :=
  VirtualMemoryOperation.run (VirtualMemoryOperation.run []
      (.map 0x1004 4 0 [] (flagRead ||| flagWrite)))
    (.map 0x1000 4 0 [1, 2] (flagRead ||| flagWrite))

theorem backToBack_reachable : Reachable Initial Step backToBack := by
  have run {before : List MappedRegion} (reachable : Reachable Initial Step before)
      (operation : VirtualMemoryOperation) :
      Reachable Initial Step (operation.run before) :=
    have taken : Step before operation (operation.run before) := rfl
    reachable.next taken
  exact run (run (.start rfl) _) _

/-- A write across both regions is read back. -/
theorem reads_and_writes_bytewise_backToBack :
    ∃ bytes, tryRead (tryWrite backToBack 0x1002 [7, 8, 9, 10]).2 0x1003 2 =
      .ok (some bytes) ∧ bytes = ([7, 8, 9, 10].drop 1).take 2 := by
  have written : tryWrite backToBack 0x1002 [7, 8, 9, 10] =
      (.ok true, (tryWrite backToBack 0x1002 [7, 8, 9, 10]).2) := by
    decide +kernel
  have wasRead : tryRead (tryWrite backToBack 0x1002 [7, 8, 9, 10]).2 0x1003 2 =
      .ok (some [8, 9]) := by decide +kernel
  exact ⟨_, wasRead, (reads_and_writes_bytewise backToBack_reachable).2 0x1002
    [7, 8, 9, 10] _ _ 1 2 written (by decide) wasRead⟩

/-- An empty read at an unmapped address fails, though each of its bytes is
readable. -/
theorem empty_read_refused : ¬ ∀ (regions : List MappedRegion), Reachable Initial Step regions →
      ∀ (address : UInt64) (length : ℕ),
        (∃ bytes, tryRead regions address length = .ok (some bytes)) ↔ ∀ offset < length,
            Permits regions flagRead (address.toNat + offset) := by
  intro claimed
  obtain ⟨bytes, succeeds⟩ :=
    (claimed [] (.start rfl) 0 0).mpr fun offset before => by omega
  have refused : tryRead [] 0 0 = .ok none := by decide +kernel
  rw [refused] at succeeds
  cases succeeds

end VirtualMemory
end SharpEmu
