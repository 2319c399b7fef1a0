import SharpEmu.VertexInputs
import Mathlib.Data.List.Forall2

/-!
# Captured vertex inputs

Bindings of one stride whose spans meet, or leave less than a record between them,
share one array, which is read from the least base to the greatest end.  A read longer
than one array may be is cut, and one that is refused is tried again at half the
length; the bindings beyond what was read are then rebased past the end of the array.
-/

namespace SharpEmu.Gen5ShaderScalarEvaluator

/-! ## Reads -/

/-- What a read leaves in an array: the guest's bytes up to the length that was read,
which is all of a span that fits and can be read at once. -/
structure IsRead (guest : GuestReader) (start span : ℕ) (data : PooledArray)
    (dataLength : ℕ) : Prop where
  length_le : dataLength ≤ data.length
  content : ∀ index < dataLength, index < span →
    data.content index = guest.byteAt (start + index)
  whole : span ≤ dataLength ↔
    span ≤ maxGlobalMemoryBindingBytes ∧ guest.accepts start span = true

variable {baseAddress size : ℕ}

theorem readableLength_le {guest : GuestReader} {dataLength : ℕ}
    (isRead : readableLength guest baseAddress size = some dataLength) :
    dataLength ≤ size := by
  induction size using Nat.strong_induction_on with
  | _ size ih =>
    rw [readableLength] at isRead
    split_ifs at isRead with small accepted last
    · exact Nat.le_of_eq (Option.some.inj isRead).symm
    · exact Nat.le_trans (ih _ (by omega) isRead) (by omega)

theorem accepts_of_readableLength {guest : GuestReader} {dataLength : ℕ}
    (isRead : readableLength guest baseAddress size = some dataLength) :
    guest.accepts baseAddress dataLength = true := by
  induction size using Nat.strong_induction_on with
  | _ size ih =>
    rw [readableLength] at isRead
    split_ifs at isRead with small accepted last
    · exact Option.some.inj isRead ▸ accepted
    · exact ih _ (by omega) isRead

theorem readableLength_of_accepts {guest : GuestReader}
    (accepted : guest.accepts baseAddress size) (large : 4 ≤ size) :
    readableLength guest baseAddress size = some size := by
  rw [readableLength, if_neg (Nat.not_lt.mpr large), if_pos accepted]

variable {pool : ArrayPool} {lending : ℕ}

theorem isRead_of_tryReadGlobalMemory
    {guest : GuestReader} {start dataLength : ℕ} {data : PooledArray}
    (bounded : size ≤ maxGlobalMemoryBindingBytes)
    (isResult : tryReadGlobalMemory pool lending guest start size = some (data, dataLength)) :
    data.lending = lending ∧ dataLength ≤ max size 4 ∧
      IsRead guest start size data dataLength := by
  unfold tryReadGlobalMemory at isResult
  rw [Nat.min_eq_left bounded] at isResult
  have rentedLength := pool.length_rent lending (max size 4)
  dsimp only at isResult
  split_ifs at isResult with refused small accepted
  · obtain ⟨rfl, rfl⟩ := Prod.mk.inj (Option.some.inj isResult)
    refine ⟨pool.lending_rent _ _, Nat.le_max_right _ _, ?_, ?_, ?_⟩
    · exact Nat.le_trans (Nat.le_max_right _ _) rentedLength
    · exact fun index _ inSpan => if_pos inSpan
    · exact ⟨fun _ => ⟨bounded, accepted⟩, fun _ => Nat.le_of_lt small⟩
  · obtain ⟨read, isLength, isPair⟩ := Option.map_eq_some_iff.mp isResult
    obtain ⟨rfl, rfl⟩ := Prod.mk.inj isPair
    have atMost := readableLength_le isLength
    refine ⟨pool.lending_rent _ _, Nat.le_trans atMost (Nat.le_max_left _ _), ?_, ?_, ?_⟩
    · exact Nat.le_trans atMost (Nat.le_trans (Nat.le_max_left _ _) rentedLength)
    · exact fun index inside _ => if_pos inside
    · constructor
      · intro all
        have isSize := Nat.le_antisymm atMost all
        exact ⟨bounded, isSize ▸ accepts_of_readableLength isLength⟩
      · rintro ⟨-, accepted⟩
        rw [readableLength_of_accepts accepted (Nat.not_lt.mp small)] at isLength
        exact Nat.le_of_eq (Option.some.inj isLength)

theorem isRead_of_readGroup {guest : GuestReader} {start finish dataLength : ℕ} {data : PooledArray}
    (isResult : readGroup pool guest lending start finish = some (data, dataLength)) :
    start < finish ∧ data.lending = lending ∧
      IsRead guest start (finish - start) data dataLength := by
  unfold readGroup groupByteCount at isResult
  by_cases nonempty : start < finish
  · rw [if_pos nonempty] at isResult
    split_ifs at isResult
    obtain ⟨isLending, atMost, read⟩ :=
      isRead_of_tryReadGlobalMemory (Nat.min_le_right _ _) isResult
    refine ⟨nonempty, isLending, read.length_le, ?_, ?_⟩
    · intro index inside inSpan
      apply read.content index inside
      unfold maxGlobalMemoryBindingBytes at *
      omega
    · by_cases fits : finish - start ≤ maxGlobalMemoryBindingBytes
      · rw [← Nat.min_eq_left fits]
        exact read.whole
      · -- What was read is no longer than the cap.
        unfold maxGlobalMemoryBindingBytes at *
        constructor
        · intro all
          omega
        · exact fun both => absurd both.1 fits
  · simp [nonempty] at isResult

/-! ## Groups -/

/-- Where the bytes of a binding end. -/
def VertexInputBinding.finish (binding : VertexInputBinding) : ℕ :=
  binding.baseAddress + binding.dataLength

/-- A span that the bindings of one stride fill without a gap of more than a record,
from the base of one of them to the end of one, and that no other comes as near to. -/
structure IsGroup (bindings : List VertexInputBinding) (stride start finish : ℕ) :
    Prop where
  opens : ∃ binding ∈ bindings, binding.stride = stride ∧ binding.baseAddress = start
  closes : ∃ binding ∈ bindings, binding.stride = stride ∧
    start ≤ binding.baseAddress ∧ binding.finish = finish
  apart : ∀ binding ∈ bindings, binding.stride = stride →
    binding.finish + stride < start ∨
      (start ≤ binding.baseAddress ∧ binding.finish ≤ finish) ∨
      finish + stride < binding.baseAddress
  covers : ∀ address, start ≤ address → address < finish →
    ∃ binding ∈ bindings, binding.stride = stride ∧ start ≤ binding.baseAddress ∧
      binding.baseAddress ≤ address ∧ address < binding.finish + stride

def ReadsWhole (guest : GuestReader) (start finish : ℕ) : Prop :=
  finish - start ≤ maxGlobalMemoryBindingBytes ∧ guest.accepts start (finish - start) = true

section Unique

variable {bindings : List VertexInputBinding} {stride start finish otherStart
  otherFinish : ℕ} {binding : VertexInputBinding}

theorem IsGroup.start_le (group : IsGroup bindings stride start finish)
    (other : IsGroup bindings stride otherStart otherFinish)
    (within : start ≤ binding.baseAddress ∧ binding.finish ≤ finish)
    (alsoWithin : otherStart ≤ binding.baseAddress ∧ binding.finish ≤ otherFinish) :
    otherStart ≤ start := by
  by_contra later
  unfold VertexInputBinding.finish at within alsoWithin
  -- A binding of the one group that covers the byte before the other group.
  obtain ⟨before, isBefore, sameStride, -, below, reaches⟩ :=
    group.covers (otherStart - 1) (by omega) (by omega)
  rcases other.apart before isBefore sameStride with left | inside | right <;> omega

theorem IsGroup.finish_le (group : IsGroup bindings stride start finish)
    (other : IsGroup bindings stride start otherFinish) : otherFinish ≤ finish := by
  by_contra longer
  obtain ⟨last, isLast, sameStride, above, isFinish⟩ := other.closes
  have beyond : finish + stride < last.baseAddress := by
    rcases group.apart last isLast sameStride with left | inside | right
    · unfold VertexInputBinding.finish at left
      omega
    · omega
    · exact right
  have ordered : last.baseAddress ≤ last.finish := Nat.le_add_right _ _
  -- A binding of the longer group that covers the first byte beyond the record.
  obtain ⟨across, isAcross, alsoStride, isFrom, below, reaches⟩ := other.covers
    (finish + stride) (by
      obtain ⟨one, -, -, isAbove, isEnd⟩ := group.closes
      unfold VertexInputBinding.finish at isEnd
      omega) (by omega)
  rcases group.apart across isAcross alsoStride with left | inside | right
  · unfold VertexInputBinding.finish at left
    omega
  · omega
  · omega

theorem IsGroup.eq_of_shared (group : IsGroup bindings stride start finish)
    (other : IsGroup bindings stride otherStart otherFinish)
    (within : start ≤ binding.baseAddress ∧ binding.finish ≤ finish)
    (alsoWithin : otherStart ≤ binding.baseAddress ∧ binding.finish ≤ otherFinish) :
    otherStart = start ∧ otherFinish = finish := by
  have sameStart := Nat.le_antisymm (group.start_le other within alsoWithin)
    (other.start_le group alsoWithin within)
  subst sameStart
  exact ⟨rfl, Nat.le_antisymm (group.finish_le other) (other.finish_le group)⟩

end Unique

/-! ## Extending a group -/

theorem saturatingAdd_of_fits {binding : VertexInputBinding} (fits : binding.finish ≤ ulongMax) :
    saturatingAdd binding.baseAddress binding.dataLength = binding.finish := by
  unfold VertexInputBinding.finish at fits ⊢
  exact if_neg (by omega)

theorem saturatingAdd_le (left right : ℕ) : saturatingAdd left right ≤ left + right := by
  unfold saturatingAdd
  split_ifs <;> omega

section Extend

variable {stride start finish : ℕ} {ordered bindings : List VertexInputBinding}
  (fits : ∀ binding ∈ ordered, binding.finish ≤ ulongMax)

include fits

theorem extendGroup_spec : (extendGroup stride finish ordered).2.1 ++
        (extendGroup stride finish ordered).2.2 = ordered ∧
      finish ≤ (extendGroup stride finish ordered).1 ∧
      ∀ member ∈ (extendGroup stride finish ordered).2.1, member.stride = stride ∧
          member.finish ≤ (extendGroup stride finish ordered).1 := by
  induction ordered generalizing finish with
  | nil => exact ⟨rfl, Nat.le_refl _, by simp [extendGroup]⟩
  | cons candidate ordered ih =>
    obtain ⟨candidateFits, fits⟩ := List.forall_mem_cons.mp fits
    rw [extendGroup]
    split_ifs with joins
    · rw [saturatingAdd_of_fits candidateFits]
      obtain ⟨isSplit, reaches, within⟩ := @ih (max finish candidate.finish) fits
      refine ⟨congrArg (candidate :: ·) isSplit, ?_, ?_⟩
      · exact Nat.le_trans (Nat.le_max_left _ _) reaches
      · intro member isMember
        obtain rfl | later := List.mem_cons.mp isMember
        · exact ⟨joins.1, Nat.le_trans (Nat.le_max_right _ _) reaches⟩
        · exact within member later
    · exact ⟨rfl, Nat.le_refl _, by simp⟩

/-- A group is closed by one of its bindings and filled by them. -/
theorem extendGroup_fills (isPart : ∀ binding ∈ ordered, binding ∈ bindings)
    (above : ∀ binding ∈ ordered, binding.stride = stride → start ≤ binding.baseAddress)
    (closes : ∃ binding ∈ bindings, binding.stride = stride ∧
      start ≤ binding.baseAddress ∧ binding.finish = finish)
    (covers : ∀ address, start ≤ address → address < finish →
      ∃ binding ∈ bindings, binding.stride = stride ∧ start ≤ binding.baseAddress ∧
        binding.baseAddress ≤ address ∧ address < binding.finish + stride) :
    (∃ binding ∈ bindings, binding.stride = stride ∧ start ≤ binding.baseAddress ∧
        binding.finish = (extendGroup stride finish ordered).1) ∧
      ∀ address, start ≤ address → address < (extendGroup stride finish ordered).1 →
        ∃ binding ∈ bindings, binding.stride = stride ∧ start ≤ binding.baseAddress ∧
          binding.baseAddress ≤ address ∧ address < binding.finish + stride := by
  induction ordered generalizing finish with
  | nil => exact ⟨closes, covers⟩
  | cons candidate ordered ih =>
    obtain ⟨candidateFits, fits⟩ := List.forall_mem_cons.mp fits
    obtain ⟨candidatePart, isPart⟩ := List.forall_mem_cons.mp isPart
    obtain ⟨candidateAbove, above⟩ := List.forall_mem_cons.mp above
    rw [extendGroup]
    split_ifs with joins
    · rw [saturatingAdd_of_fits candidateFits]
      have isFrom := candidateAbove joins.1
      have near := Nat.le_trans joins.2 (saturatingAdd_le _ _)
      refine ih fits isPart above ?_ ?_
      · rcases Nat.le_total finish candidate.finish with shorter | longer
        · exact ⟨candidate, candidatePart, joins.1, isFrom, (Nat.max_eq_right shorter).symm⟩
        · rw [Nat.max_eq_left longer]
          exact closes
      · intro address isAbove below
        rcases Nat.lt_or_ge address candidate.baseAddress with before | after
        · rcases Nat.lt_or_ge address finish with inside | gap
          · exact covers address isAbove inside
          · -- The gap before the candidate is less than a record.
            obtain ⟨last, isLast, sameStride, lastAbove, isFinish⟩ := closes
            refine ⟨last, isLast, sameStride, lastAbove, ?_, by omega⟩
            unfold VertexInputBinding.finish at isFinish
            omega
        · rcases Nat.lt_or_ge address finish with inside | beyond
          · exact covers address isAbove inside
          · exact ⟨candidate, candidatePart, joins.1, isFrom, after, by omega⟩
    · exact ⟨closes, covers⟩

/-- What does not join a group is of another stride, or more than a record beyond. -/
theorem extendGroup_rest (sorted : ordered.Pairwise Precedes)
    (strides : ∀ binding ∈ ordered, stride ≤ binding.stride) :
    ∀ binding ∈ (extendGroup stride finish ordered).2.2, binding.stride = stride →
      (extendGroup stride finish ordered).1 + stride < binding.baseAddress := by
  induction ordered generalizing finish with
  | nil => simp [extendGroup]
  | cons candidate ordered ih =>
    obtain ⟨candidateFits, fits⟩ := List.forall_mem_cons.mp fits
    obtain ⟨candidateStride, strides⟩ := List.forall_mem_cons.mp strides
    rw [extendGroup]
    split_ifs with joins
    · exact ih fits sorted.of_cons strides
    · intro binding isBinding sameStride
      have isAfter : candidate.stride = stride ∧ candidate.baseAddress ≤ binding.baseAddress := by
        rcases List.mem_cons.mp isBinding with rfl | later
        · exact ⟨sameStride, Nat.le_refl _⟩
        · have precedes := List.rel_of_pairwise_cons sorted later
          unfold Precedes at precedes
          omega
      have notNear : ¬ candidate.baseAddress ≤ saturatingAdd finish stride :=
        fun near => joins ⟨isAfter.1, near⟩
      have candidateBelow : candidate.baseAddress ≤ ulongMax :=
        Nat.le_trans (Nat.le_add_right _ _) candidateFits
      unfold saturatingAdd at notNear
      split_ifs at notNear <;> omega

end Extend

/-! ## Captured bindings -/

/-- A captured binding stands for a pending one: only its base, offset and data are
other, and what was read of the bytes that it designates is at its offset. -/
structure Captures (guest : GuestReader) (binding : VertexInputBinding)
    (captured : CapturedBinding) : Prop where
  same : captured.toVertexInputBinding =
    { binding with
      baseAddress := captured.baseAddress
      offsetBytes := captured.offsetBytes
      dataLength := captured.dataLength }
  base_le : captured.baseAddress ≤ binding.baseAddress
  offset_eq : captured.offsetBytes =
    binding.baseAddress - captured.baseAddress + binding.offsetBytes
  offset_lt : captured.offsetBytes < 2 ^ 32
  length_le : captured.dataLength ≤ captured.data.length
  content : ∀ index < binding.dataLength,
    binding.baseAddress - captured.baseAddress + index < captured.dataLength →
    captured.data.content (binding.baseAddress - captured.baseAddress + index) =
      guest.byteAt (binding.baseAddress + index)

/-- The span of a binding lies within its array, with the bytes that it designates. -/
structure InArray (guest : GuestReader) (binding : VertexInputBinding)
    (captured : CapturedBinding) : Prop where
  inside : binding.baseAddress - captured.baseAddress + binding.dataLength ≤
    captured.dataLength
  content : ∀ index < binding.dataLength,
    captured.data.content (binding.baseAddress - captured.baseAddress + index) =
      guest.byteAt (binding.baseAddress + index)

theorem Captures.inArray_iff {guest : GuestReader} {binding : VertexInputBinding}
    {captured : CapturedBinding} (captures : Captures guest binding captured) :
    InArray guest binding captured ↔
      binding.finish ≤ captured.baseAddress + captured.dataLength := by
  have base := captures.base_le
  unfold VertexInputBinding.finish
  constructor
  · intro inArray
    have inside := inArray.inside
    omega
  · intro reached
    exact ⟨by omega, fun index below => captures.content index below (by omega)⟩

section Groups

variable {guest : GuestReader} {start finish dataLength : ℕ} {data : PooledArray}
  (read : IsRead guest start (finish - start) data dataLength)

include read

theorem captures_of_rebase {dataPooled : Bool} {binding : VertexInputBinding}
    {captured : CapturedBinding} (base_le : start ≤ binding.baseAddress)
    (within : binding.finish ≤ finish)
    (isRebased : rebase start data dataLength dataPooled binding = some captured) :
    Captures guest binding captured ∧ captured.data = data ∧
      captured.dataPooled = dataPooled ∧ captured.baseAddress = start ∧
      captured.dataLength = dataLength := by
  unfold rebase at isRebased
  dsimp only at isRebased
  split_ifs at isRebased with overflows
  obtain rfl := Option.some.inj isRebased
  unfold VertexInputBinding.finish at within
  refine ⟨⟨rfl, base_le, rfl, Nat.not_le.mp overflows, read.length_le, ?_⟩, rfl, rfl, rfl, rfl⟩
  intro index inside inRead
  dsimp only at inRead ⊢
  have isContent := read.content (binding.baseAddress - start + index) inRead (by omega)
  have isAddress : start + (binding.baseAddress - start + index) =
      binding.baseAddress + index := by omega
  rw [isAddress] at isContent
  exact isContent

variable {members : List VertexInputBinding} {captured : List CapturedBinding}

theorem captures_of_mapM
    (within : ∀ member ∈ members, start ≤ member.baseAddress ∧ member.finish ≤ finish)
    (isRebased : members.mapM (rebase start data dataLength false) = some captured) :
    List.Forall₂ (Captures guest) members captured ∧
      ∀ binding ∈ captured, binding.data = data ∧ binding.dataPooled = false ∧
        binding.baseAddress = start ∧ binding.dataLength = dataLength := by
  induction members generalizing captured with
  | nil =>
    obtain rfl := Option.some.inj isRebased
    exact ⟨.nil, by simp⟩
  | cons member members ih =>
    rw [List.forall_mem_cons] at within
    rw [List.mapM_cons] at isRebased
    obtain ⟨first, isFirst, isRebased⟩ := Option.bind_eq_some_iff.mp isRebased
    obtain ⟨others, isOthers, isRebased⟩ := Option.bind_eq_some_iff.mp isRebased
    obtain rfl := Option.some.inj isRebased
    obtain ⟨captures, rebased⟩ :=
      captures_of_rebase read within.1.1 within.1.2 isFirst
    obtain ⟨later, othersRebased⟩ := ih within.2 isOthers
    exact ⟨.cons captures later, List.forall_mem_cons.mpr ⟨rebased, othersRebased⟩⟩

theorem captures_of_rebaseGroup {first : VertexInputBinding} (isStart : first.baseAddress = start)
    (within : ∀ member ∈ first :: members, start ≤ member.baseAddress ∧ member.finish ≤ finish)
    (isRebased : rebaseGroup data dataLength first members = some captured) :
    List.Forall₂ (Captures guest) (first :: members) captured ∧
      ownedArrays captured = [data.lending] ∧
      (∀ binding ∈ captured, ∃ owner ∈ captured, owner.dataPooled ∧ owner.data = binding.data) ∧
      ∀ binding ∈ captured, binding.baseAddress = start ∧ binding.dataLength = dataLength := by
  unfold rebaseGroup at isRebased
  rw [isStart] at isRebased
  rw [List.forall_mem_cons] at within
  obtain ⟨owner, isOwner, isRebased⟩ := Option.bind_eq_some_iff.mp isRebased
  obtain ⟨others, isOthers, isRebased⟩ := Option.bind_eq_some_iff.mp isRebased
  obtain rfl := Option.some.inj isRebased
  obtain ⟨captures, ownerData, owns, ownerSpan⟩ :=
    captures_of_rebase read within.1.1 within.1.2 isOwner
  obtain ⟨later, rebased⟩ := captures_of_mapM read within.2 isOthers
  refine ⟨.cons captures later, ?_, ?_, ?_⟩
  · have noOther : others.filter (·.dataPooled) = [] := by
      rw [List.filter_eq_nil_iff]
      exact fun binding member => by simp [(rebased binding member).2.1]
    rw [ownedArrays, List.filter_cons_of_pos owns, noOther, List.map_singleton, ownerData]
  · intro binding member
    refine ⟨owner, List.mem_cons_self, owns, ?_⟩
    obtain rfl | other := List.mem_cons.mp member
    · rfl
    · rw [ownerData, (rebased binding other).1]
  · exact List.forall_mem_cons.mpr ⟨ownerSpan, fun binding member => (rebased binding member).2.2⟩

end Groups

/-- All the spans of a group are in its array when the one that ends last is. -/
theorem inArrays_iff {guest : GuestReader} {start finish dataLength : ℕ}
    {members : List VertexInputBinding} {captured : List CapturedBinding}
    (captures : List.Forall₂ (Captures guest) members captured)
    (rebased : ∀ binding ∈ captured, binding.baseAddress = start ∧ binding.dataLength = dataLength)
    (within : ∀ member ∈ members, member.finish ≤ finish)
    (closes : ∃ member ∈ members, member.finish = finish) :
    List.Forall₂ (InArray guest) members captured ↔ finish ≤ start + dataLength := by
  have reaches : List.Forall₂ (InArray guest) members captured ↔
      ∀ member ∈ members, member.finish ≤ start + dataLength := by
    clear within closes
    induction captures with
    | nil => simp
    | cons captures _ ih =>
      rw [List.forall_mem_cons] at rebased
      rw [List.forall₂_cons, List.forall_mem_cons, captures.inArray_iff, rebased.1.1,
        rebased.1.2, ih rebased.2]
  rw [reaches]
  constructor
  · intro all
    obtain ⟨last, isLast, rfl⟩ := closes
    exact all last isLast
  · exact fun reached member isMember => Nat.le_trans (within member isMember) reached

/-! ## Runs over the groups -/

theorem ownedArrays_append (left right : List CapturedBinding) :
    ownedArrays (left ++ right) = ownedArrays left ++ ownedArrays right := by
  simp [ownedArrays]

theorem forall₂_append_iff {α β : Type} {relation : α → β → Prop} {left others : List α}
    {right more : List β} (sameLength : left.length = right.length) :
    List.Forall₂ relation (left ++ others) (right ++ more) ↔
      List.Forall₂ relation left right ∧ List.Forall₂ relation others more := by
  constructor
  · intro all
    have first := List.forall₂_take_append _ right more all
    have second := List.forall₂_drop_append _ right more all
    rw [← sameLength, List.take_left] at first
    rw [← sameLength, List.drop_left] at second
    exact ⟨first, second⟩
  · exact fun both => List.rel_append both.1 both.2

/-- The bindings that are still to be captured come after those that are not: the ones
of a stride more than a record beyond them. -/
structure Remaining (pending before ordered : List VertexInputBinding) : Prop where
  mem_iff : ∀ binding, binding ∈ pending ↔ binding ∈ before ∨ binding ∈ ordered
  sorted : ordered.Pairwise Precedes
  fits : ∀ binding ∈ ordered, binding.finish ≤ ulongMax
  beyond : ∀ binding ∈ before, ∀ other ∈ ordered, binding.stride = other.stride →
    binding.finish + other.stride < other.baseAddress

section Group

variable {pending before ordered : List VertexInputBinding} {first : VertexInputBinding}

/-- The group that a binding opens, with the bindings that join it and those left. -/
def groupOf (first : VertexInputBinding) (ordered : List VertexInputBinding) :
    ℕ × List VertexInputBinding × List VertexInputBinding :=
  extendGroup first.stride (saturatingAdd first.baseAddress first.dataLength) ordered

variable (remaining : Remaining pending before (first :: ordered))

include remaining

theorem Remaining.members : (groupOf first ordered).2.1 ++ (groupOf first ordered).2.2 = ordered ∧
      ∀ member ∈ first :: (groupOf first ordered).2.1, member.stride = first.stride ∧
        first.baseAddress ≤ member.baseAddress ∧
        member.finish ≤ (groupOf first ordered).1 := by
  obtain ⟨firstFits, fits⟩ := List.forall_mem_cons.mp remaining.fits
  unfold groupOf
  obtain ⟨isSplit, reaches, within⟩ := @extendGroup_spec first.stride
    (saturatingAdd first.baseAddress first.dataLength) _ fits
  refine ⟨isSplit, List.forall_mem_cons.mpr ⟨⟨rfl, Nat.le_refl _, ?_⟩, ?_⟩⟩
  · rw [← saturatingAdd_of_fits firstFits]
    exact reaches
  · intro member isMember
    obtain ⟨sameStride, atMost⟩ := within member isMember
    refine ⟨sameStride, ?_, atMost⟩
    have precedes := List.rel_of_pairwise_cons remaining.sorted
      (isSplit ▸ List.mem_append_left _ isMember)
    unfold Precedes at precedes
    omega

theorem Remaining.rest_beyond :
    ∀ binding ∈ (groupOf first ordered).2.2, binding.stride = first.stride →
      (groupOf first ordered).1 + first.stride < binding.baseAddress := by
  apply extendGroup_rest (List.forall_mem_cons.mp remaining.fits).2 remaining.sorted.of_cons
  intro binding isBinding
  have precedes := List.rel_of_pairwise_cons remaining.sorted isBinding
  unfold Precedes at precedes
  omega

theorem Remaining.isGroup :
    IsGroup pending first.stride first.baseAddress (groupOf first ordered).1 := by
  obtain ⟨isSplit, members⟩ := remaining.members
  have isFirst : first ∈ pending := (remaining.mem_iff first).mpr (.inr List.mem_cons_self)
  obtain ⟨firstFits, fits⟩ := List.forall_mem_cons.mp remaining.fits
  have fills := @extendGroup_fills first.stride first.baseAddress
    (saturatingAdd first.baseAddress first.dataLength) _ pending fits
    (fun binding isBinding =>
      (remaining.mem_iff binding).mpr (.inr (List.mem_cons_of_mem _ isBinding)))
    (fun binding isBinding sameStride => by
      have precedes := List.rel_of_pairwise_cons remaining.sorted isBinding
      unfold Precedes at precedes
      omega)
    ⟨first, isFirst, rfl, Nat.le_refl _, (saturatingAdd_of_fits firstFits).symm⟩
    (fun address above below =>
      ⟨first, isFirst, rfl, Nat.le_refl _, above, by
        rw [saturatingAdd_of_fits firstFits] at below
        omega⟩)
  refine ⟨⟨first, isFirst, rfl, rfl⟩, fills.1, ?_, fills.2⟩
  intro binding isBinding sameStride
  rcases (remaining.mem_iff binding).mp isBinding with done | later
  · have gap := remaining.beyond binding done first List.mem_cons_self sameStride
    exact .inl gap
  · rw [← isSplit, ← List.cons_append] at later
    rcases List.mem_append.mp later with member | rest
    · exact .inr (.inl (members binding member).2)
    · exact .inr (.inr (remaining.rest_beyond binding rest sameStride))

theorem Remaining.rest : Remaining pending (before ++ first :: (groupOf first ordered).2.1)
      (groupOf first ordered).2.2 := by
  obtain ⟨isSplit, members⟩ := remaining.members
  have isRest : ∀ binding ∈ (groupOf first ordered).2.2, binding ∈ first :: ordered :=
    fun binding isBinding =>
      List.mem_cons_of_mem _ (isSplit ▸ List.mem_append_right _ isBinding)
  constructor
  · intro binding
    have isPart : binding ∈ ordered ↔ binding ∈ (groupOf first ordered).2.1 ∨
        binding ∈ (groupOf first ordered).2.2 := by
      rw [← List.mem_append, isSplit]
    rw [remaining.mem_iff, List.mem_append, List.mem_cons, List.mem_cons, isPart,
      or_assoc, or_assoc]
  · exact (List.pairwise_append.mp (isSplit ▸ remaining.sorted.of_cons)).2.1
  · exact fun binding isBinding => remaining.fits binding (isRest binding isBinding)
  · intro binding isBinding other isOther sameStride
    rcases List.mem_append.mp isBinding with done | member
    · exact remaining.beyond binding done other (isRest other isOther) sameStride
    · obtain ⟨isStride, -, atMost⟩ := members binding member
      have gap := remaining.rest_beyond other isOther (sameStride.symm.trans isStride)
      omega

end Group

/-- Each group that one of the bindings opens is read whole. -/
def GroupsRead (guest : GuestReader) (pending ordered : List VertexInputBinding) : Prop :=
  ∀ stride start finish, IsGroup pending stride start finish →
    (∃ binding ∈ ordered, binding.stride = stride ∧ binding.baseAddress = start) →
      ReadsWhole guest start finish

section Run

variable {guest : GuestReader} {pending before ordered : List VertexInputBinding}
  {first : VertexInputBinding}

theorem Remaining.groupsRead_iff (remaining : Remaining pending before (first :: ordered)) :
    GroupsRead guest pending (first :: ordered) ↔
      ReadsWhole guest first.baseAddress (groupOf first ordered).1 ∧
        GroupsRead guest pending (groupOf first ordered).2.2 := by
  obtain ⟨isSplit, members⟩ := remaining.members
  constructor
  · intro all
    refine ⟨all _ _ _ remaining.isGroup ⟨first, List.mem_cons_self, rfl, rfl⟩, ?_⟩
    rintro stride start finish group ⟨binding, isRest, opens⟩
    exact all stride start finish group
      ⟨binding, List.mem_cons_of_mem _ (isSplit ▸ List.mem_append_right _ isRest), opens⟩
  · rintro ⟨here, later⟩ stride start finish group ⟨binding, isBinding, isStride, isStart⟩
    rw [← isSplit, ← List.cons_append] at isBinding
    rcases List.mem_append.mp isBinding with member | rest
    · -- The binding lies in both groups, so that they are one.
      obtain ⟨sameStride, within⟩ := members binding member
      obtain rfl := isStride.symm.trans sameStride
      have inGroup : start ≤ binding.baseAddress ∧ binding.finish ≤ finish := by
        refine ⟨isStart.ge, ?_⟩
        have isPending := (remaining.mem_iff binding).mpr
          (.inr (isSplit ▸ List.mem_append_left _ member))
        have reaches : start ≤ finish := by
          obtain ⟨last, -, -, above, isFinish⟩ := group.closes
          unfold VertexInputBinding.finish at isFinish
          omega
        rcases group.apart binding isPending sameStride with left | inside | right
        · unfold VertexInputBinding.finish at left
          omega
        · exact inside.2
        · omega
      obtain ⟨rfl, rfl⟩ := remaining.isGroup.eq_of_shared group within inGroup
      exact here
    · exact later stride start finish group ⟨binding, rest, isStride, isStart⟩

/-- What a group of bindings comes to once its span is read. -/
theorem captures_of_group (remaining : Remaining pending before (first :: ordered))
    {pool : ArrayPool} {lending dataLength : ℕ} {data : PooledArray}
    {bindings : List CapturedBinding}
    (isRead : readGroup pool guest lending first.baseAddress (groupOf first ordered).1 =
      some (data, dataLength))
    (isRebased : rebaseGroup data dataLength first (groupOf first ordered).2.1 = some bindings) :
    List.Forall₂ (Captures guest) (first :: (groupOf first ordered).2.1) bindings ∧
      (List.Forall₂ (InArray guest) (first :: (groupOf first ordered).2.1) bindings ↔
        ReadsWhole guest first.baseAddress (groupOf first ordered).1) ∧
      ownedArrays bindings = [lending] ∧
      ∀ binding ∈ bindings, ∃ owner ∈ bindings, owner.dataPooled ∧ owner.data = binding.data := by
  obtain ⟨isSplit, members⟩ := remaining.members
  obtain ⟨nonempty, rfl, read⟩ := isRead_of_readGroup isRead
  obtain ⟨captures, owned, owners, rebased⟩ := captures_of_rebaseGroup read rfl
    (fun member isMember => (members member isMember).2) isRebased
  refine ⟨captures, ?_, owned, owners⟩
  rw [inArrays_iff captures rebased (fun member isMember => (members member isMember).2.2),
    ReadsWhole, ← read.whole]
  · omega
  · obtain ⟨last, isLast, isStride, above, isFinish⟩ := remaining.isGroup.closes
    refine ⟨last, ?_, isFinish⟩
    rcases (remaining.mem_iff last).mp isLast with done | later
    · have gap := remaining.beyond last done first List.mem_cons_self isStride
      unfold VertexInputBinding.finish at gap
      omega
    · rw [← isSplit, ← List.cons_append] at later
      rcases List.mem_append.mp later with member | rest
      · exact member
      · have gap := remaining.rest_beyond last rest isStride
        unfold VertexInputBinding.finish at isFinish
        omega

theorem captures_of_captureGroups (pool : ArrayPool) (lending : ℕ)
    (captured : List CapturedBinding) {before ordered : List VertexInputBinding}
    (remaining : Remaining pending before ordered) (result : List CapturedBinding)
    (isResult : captureGroups pool guest lending captured ordered = .captured result) :
    ∃ bindings count, result = captured ++ bindings ∧
      List.Forall₂ (Captures guest) ordered bindings ∧
      (List.Forall₂ (InArray guest) ordered bindings ↔ GroupsRead guest pending ordered) ∧
      ownedArrays bindings = List.range' lending count ∧
      ∀ binding ∈ bindings, ∃ owner ∈ bindings, owner.dataPooled ∧ owner.data = binding.data := by
  induction isLength : ordered.length using Nat.strong_induction_on
    generalizing lending captured before ordered with
  | _ length ih =>
    rw [captureGroups.eq_def] at isResult
    cases ordered with
    | nil =>
      obtain rfl := CaptureResult.captured.inj isResult
      refine ⟨[], 0, (List.append_nil _).symm, .nil, ?_, rfl, by simp⟩
      refine iff_of_true .nil ?_
      rintro _ _ _ _ ⟨_, isNone, _⟩
      cases isNone
    | cons first ordered =>
      have isSplit := remaining.members.1
      dsimp only at isResult
      rw [← groupOf] at isResult
      split at isResult
      · cases isResult
      next data dataLength isRead =>
        split at isResult
        · cases isResult
        next group isRebased =>
          obtain ⟨captures, inArrays, owned, owners⟩ :=
            captures_of_group remaining isRead isRebased
          obtain ⟨bindings, count, rfl, later, laterInArrays, laterOwned, laterOwners⟩ :=
            ih _ (isLength ▸ Nat.lt_succ_of_le (length_extendGroup _ _ _)) (lending + 1)
              (captured ++ group) remaining.rest isResult rfl
          have isOrdered : first :: ordered = (first :: (groupOf first ordered).2.1) ++
              (groupOf first ordered).2.2 := congrArg (first :: ·) isSplit.symm
          refine ⟨group ++ bindings, count + 1, List.append_assoc _ _ _, ?_, ?_, ?_, ?_⟩
          · rw [isOrdered]
            exact List.rel_append captures later
          · rw [remaining.groupsRead_iff, ← inArrays, ← laterInArrays,
              ← forall₂_append_iff captures.length_eq, ← isOrdered]
          · rw [ownedArrays_append, owned, laterOwned]
            rfl
          · intro binding member
            obtain here | there := List.mem_append.mp member
            · obtain ⟨owner, isOwner, owns⟩ := owners binding here
              exact ⟨owner, List.mem_append_left _ isOwner, owns⟩
            · obtain ⟨owner, isOwner, owns⟩ := laterOwners binding there
              exact ⟨owner, List.mem_append_right _ isOwner, owns⟩

theorem returned_of_captureGroups (pool : ArrayPool) (lending : ℕ)
    (captured : List CapturedBinding) {before ordered : List VertexInputBinding}
    (remaining : Remaining pending before ordered) (address : ℕ) (bytes : ℕ) (stride : ℕ)
    (returned : List ℕ) (isResult : captureGroups pool guest lending captured ordered =
      .failed address bytes stride returned) :
    ∃ count, returned = ownedArrays captured ++ List.range' lending count := by
  induction isLength : ordered.length using Nat.strong_induction_on
    generalizing lending captured before ordered with
  | _ length ih =>
    rw [captureGroups.eq_def] at isResult
    cases ordered with
    | nil => cases isResult
    | cons first ordered =>
      dsimp only at isResult
      rw [← groupOf] at isResult
      split at isResult
      next =>
        injection isResult with _ _ _ isReturned
        exact ⟨0, isReturned ▸ (List.append_nil _).symm⟩
      next data dataLength isRead =>
        split at isResult
        · cases isResult
        next group isRebased =>
          obtain ⟨-, -, owned, -⟩ := captures_of_group remaining isRead isRebased
          obtain ⟨count, rfl⟩ :=
            ih _ (isLength ▸ Nat.lt_succ_of_le (length_extendGroup _ _ _)) (lending + 1)
              (captured ++ group) remaining.rest isResult rfl
          refine ⟨count + 1, ?_⟩
          rw [ownedArrays_append, owned, List.append_assoc]
          rfl

end Run

/-! ## Captures -/

theorem precedes_total (left right : VertexInputBinding) :
    Precedes left right ∨ Precedes right left := by
  unfold Precedes
  omega

theorem precedes_trans {first second third : VertexInputBinding}
    (left : Precedes first second) (right : Precedes second third) :
    Precedes first third := by
  unfold Precedes at *
  omega

theorem pairwise_insertionSort (pending : List VertexInputBinding) :
    (pending.insertionSort Precedes).Pairwise Precedes := by
  have : Std.Total Precedes := ⟨precedes_total⟩
  have : IsTrans VertexInputBinding Precedes := ⟨fun _ _ _ => precedes_trans⟩
  exact List.pairwise_insertionSort Precedes pending

theorem remaining_of_sort {pending : List VertexInputBinding}
    (fits : ∀ binding ∈ pending, binding.finish ≤ ulongMax) :
    Remaining pending [] (pending.insertionSort Precedes) where
  mem_iff binding := by
    rw [List.mem_insertionSort]
    exact ⟨.inr, fun member => member.resolve_left List.not_mem_nil⟩
  sorted := pairwise_insertionSort pending
  fits binding isBinding := fits binding ((List.mem_insertionSort Precedes).mp isBinding)
  beyond _ isNone := absurd isNone List.not_mem_nil

def CaptureResult.spans : CaptureResult → List (ℕ × ℕ)
  | .captured bindings => bindings.map fun binding =>
      (binding.offsetBytes, binding.dataLength)
  | .failed _ _ _ _ | .overflow => []

def clearedArrays : ArrayPool :=
  ⟨fun lending length => ⟨lending, length, fun _ => 0⟩, fun _ _ => rfl,
    fun _ _ => Nat.le_refl _⟩

/-- Two mappings that follow one another; a read does not go over both. -/
def twoMappings : GuestReader where
  byteAt address := UInt8.ofNat address
  accepts start length :=
    (0x100000 ≤ start && start + length ≤ 0x200000) ||
      (0x200000 ≤ start && start + length ≤ 0x300000)

/-- Two attributes of one interleaved record, and an attribute of another buffer. -/
def interleaved : List VertexInputBinding :=
  [⟨0, 0, 4, 10, 0, 0x101000, 16, 4, 0x100⟩, ⟨8, 1, 4, 10, 0, 0x101008, 16, 0, 0x100⟩,
    ⟨16, 2, 4, 10, 0, 0x201000, 16, 0, 0x100⟩]

theorem interleaved_spans :
    (tryCaptureVertexInputData clearedArrays twoMappings interleaved).spans =
      [(4, 0x108), (8, 0x108), (0, 0x100)] := by
  simp [tryCaptureVertexInputData, captureGroups, extendGroup, readGroup,
    Precedes, saturatingAdd, ulongMax, groupByteCount, interleaved, twoMappings,
    tryReadGlobalMemory, readableLength, maxGlobalMemoryBindingBytes, rebaseGroup,
    rebase, sortByLocation, CaptureResult.spans, clearedArrays]

theorem mem_interleaved {binding : VertexInputBinding} (member : binding ∈ interleaved) :
    binding.stride = 16 ∧ (0x101000 ≤ binding.baseAddress ∧ binding.finish ≤ 0x101108 ∨
        binding.baseAddress = 0x201000 ∧ binding.finish = 0x201100) := by
  unfold interleaved at member
  simp only [List.mem_cons, List.not_mem_nil, or_false] at member
  rcases member with rfl | rfl | rfl <;> decide

theorem interleaved_groupsRead (stride start finish : ℕ)
    (group : IsGroup interleaved stride start finish) :
    ReadsWhole twoMappings start finish := by
  obtain ⟨first, isFirst, -, isStart⟩ := group.opens
  obtain ⟨last, isLast, -, above, isFinish⟩ := group.closes
  have firstSpan := (mem_interleaved isFirst).2
  have lastSpan := (mem_interleaved isLast).2
  have ordered : first.baseAddress ≤ first.finish := Nat.le_add_right _ _
  -- No group reaches from one buffer into the other.
  have parted : ¬ (start ≤ 0x102000 ∧ 0x102000 < finish) := by
    rintro ⟨below, beyond⟩
    obtain ⟨across, isAcross, sameStride, -, isBelow, reaches⟩ :=
      group.covers 0x102000 below beyond
    obtain ⟨isStride, span⟩ := mem_interleaved isAcross
    omega
  unfold ReadsWhole maxGlobalMemoryBindingBytes twoMappings
  simp only [Bool.or_eq_true, Bool.and_eq_true, decide_eq_true_eq]
  have isSpan : last.baseAddress ≤ last.finish := Nat.le_add_right _ _
  omega

end SharpEmu.Gen5ShaderScalarEvaluator
