import SharpEmu.VirtualMemory

/-!
# Guest memory byte by byte

The list of mapped regions stands for a partial map from addresses to bytes.
Validation decides whether a whole range is mapped with a permission, the two
copying walks read and overwrite exactly that range, and every run of the
operations keeps the list in the order that the walks rely on.
-/

namespace SharpEmu
namespace VirtualMemory

open Extent

def MappedRegion.extent (mapped : MappedRegion) : Extent :=
  ⟨mapped.region.virtualAddress.toNat, mapped.region.memorySize.toNat⟩

/-- A region covers some bytes, ends inside the address space and has a byte of
backing memory for each address. -/
structure MappedRegion.WellFormed (mapped : MappedRegion) : Prop where
  positive : 0 < mapped.region.memorySize.toNat
  endEq : mapped.endAddress.toNat =
    mapped.region.virtualAddress.toNat + mapped.region.memorySize.toNat
  backed : mapped.backingMemory.length = mapped.region.memorySize.toNat

structure Ordered (regions : List MappedRegion) : Prop where
  wellFormed : ∀ mapped ∈ regions, mapped.WellFormed
  ascending : regions.Pairwise fun first second =>
    first.endAddress.toNat ≤ second.region.virtualAddress.toNat

def Permits (regions : List MappedRegion) (required : ProgramHeaderFlags) (point : ℕ) : Prop :=
  ∃ mapped ∈ regions, mapped.extent.Contains point ∧ mapped.region.protection &&& required ≠ 0

def byteAt : List MappedRegion → ℕ → Option UInt8
  | [], _ => none
  | mapped :: rest, point =>
      if mapped.extent.Contains point then
        mapped.backingMemory[point - mapped.extent.start]?
      else byteAt rest point

theorem Ordered.tail {mapped : MappedRegion} {rest : List MappedRegion}
    (ordered : Ordered (mapped :: rest)) : Ordered rest where
  wellFormed := (List.forall_mem_cons.mp ordered.wellFormed).2
  ascending := (List.pairwise_cons.mp ordered.ascending).2

theorem Ordered.sublist {regions part : List MappedRegion}
    (ordered : Ordered regions) (sublist : part.Sublist regions) :
    Ordered part where
  wellFormed := fun mapped member =>
    ordered.wellFormed mapped (sublist.subset member)
  ascending := ordered.ascending.sublist sublist

/-! ## Overwriting a buffer -/

variable {buffer chunk : List UInt8} {offset : ℕ}

theorem length_splice (fits : offset + chunk.length ≤ buffer.length) :
    (splice buffer offset chunk).length = buffer.length := by
  simp [splice]
  omega

theorem getElem?_splice (fits : offset + chunk.length ≤ buffer.length) (index : ℕ) :
    (splice buffer offset chunk)[index]? =
      if offset ≤ index ∧ index < offset + chunk.length then
        chunk[index - offset]?
      else buffer[index]? := by
  have takeLength : (buffer.take offset).length = offset := by
    rw [List.length_take]
    omega
  rw [splice, List.append_assoc, List.getElem?_append, takeLength,
    List.getElem?_append, List.getElem?_take, List.getElem?_drop]
  by_cases before : index < offset
  · simp [before, Nat.not_le.mpr before]
  · by_cases inside : index - offset < chunk.length
    · simp only [before, if_false, inside, if_true]
      rw [if_pos (by omega)]
    · simp only [before, if_false, inside]
      rw [if_neg (by omega)]
      congr 1
      omega

/-! ## The first region of a list -/

section FirstRegion

variable {mapped : MappedRegion} {rest : List MappedRegion}
variable {required : ProgramHeaderFlags} {point : ℕ}

theorem Ordered.starts_after (ordered : Ordered (mapped :: rest))
    {other : MappedRegion} (member : other ∈ rest) :
    mapped.endAddress.toNat ≤ other.extent.start :=
  (List.pairwise_cons.mp ordered.ascending).1 other member

theorem MappedRegion.WellFormed.contains_iff (wellFormed : mapped.WellFormed) :
    mapped.extent.Contains point ↔ mapped.region.virtualAddress.toNat ≤ point ∧
        point < mapped.endAddress.toNat := by
  rw [wellFormed.endEq]
  rfl

theorem Ordered.permits_iff_first (ordered : Ordered (mapped :: rest))
    (below : point < mapped.endAddress.toNat) :
    Permits (mapped :: rest) required point ↔ mapped.extent.Contains point ∧
        mapped.region.protection &&& required ≠ 0 := by
  constructor
  · rintro ⟨other, member, contains, allowed⟩
    rcases List.mem_cons.mp member with rfl | inRest
    · exact ⟨contains, allowed⟩
    · have starts := ordered.starts_after inRest
      have above := contains.1
      omega
  · rintro ⟨contains, allowed⟩
    exact ⟨mapped, List.mem_cons_self, contains, allowed⟩

theorem Ordered.permits_iff_rest (ordered : Ordered (mapped :: rest))
    (above : mapped.endAddress.toNat ≤ point) :
    Permits (mapped :: rest) required point ↔ Permits rest required point := by
  have wellFormed := ordered.wellFormed mapped List.mem_cons_self
  constructor
  · rintro ⟨other, member, contains, allowed⟩
    rcases List.mem_cons.mp member with rfl | inRest
    · have below := (wellFormed.contains_iff.mp contains).2
      omega
    · exact ⟨other, inRest, contains, allowed⟩
  · rintro ⟨other, member, contains, allowed⟩
    exact ⟨other, List.mem_cons_of_mem _ member, contains, allowed⟩

theorem byteAt_eq_none (outside : ∀ other ∈ rest, ¬ other.extent.Contains point) :
    byteAt rest point = none := by
  induction rest with
  | nil => rfl
  | cons head tail ih =>
    rw [byteAt, if_neg (outside head List.mem_cons_self)]
    exact ih (List.forall_mem_cons.mp outside).2

theorem Ordered.byteAt_rest (ordered : Ordered (mapped :: rest))
    (below : point < mapped.endAddress.toNat) : byteAt rest point = none := by
  apply byteAt_eq_none
  intro other member contains
  have starts := ordered.starts_after member
  have above := contains.1
  omega

theorem Ordered.byteAt_of_le (ordered : Ordered (mapped :: rest))
    (above : mapped.endAddress.toNat ≤ point) :
    byteAt (mapped :: rest) point = byteAt rest point := by
  have wellFormed := ordered.wellFormed mapped List.mem_cons_self
  rw [byteAt, if_neg]
  intro contains
  have below := (wellFormed.contains_iff.mp contains).2
  omega

theorem Permits.byteAt_isSome {regions : List MappedRegion}
    (ordered : Ordered regions) (permits : Permits regions required point) :
    (byteAt regions point).isSome := by
  induction regions with
  | nil =>
    obtain ⟨_, member, _⟩ := permits
    cases member
  | cons mapped rest ih =>
    have wellFormed := ordered.wellFormed mapped List.mem_cons_self
    by_cases here : mapped.extent.Contains point
    · have inBuffer : point - mapped.extent.start <
          mapped.backingMemory.length := by
        rw [wellFormed.backed]
        simp only [Contains, MappedRegion.extent] at here ⊢
        omega
      rw [byteAt, if_pos here, List.getElem?_eq_getElem inBuffer]
      rfl
    · rw [byteAt, if_neg here]
      apply ih ordered.tail
      obtain ⟨other, member, contains, allowed⟩ := permits
      rcases List.mem_cons.mp member with rfl | inRest
      · exact absurd contains here
      · exact ⟨other, inRest, contains, allowed⟩

end FirstRegion

/-! ## The walks -/

section Walks

variable {required : ProgramHeaderFlags} {regions : List MappedRegion}
variable {currentAddress : UInt64}

def NotPast (regions : List MappedRegion) (point : ℕ) : Prop :=
  ∀ mapped ∈ regions, point < mapped.endAddress.toNat

theorem Ordered.notPast_rest {mapped : MappedRegion}
    {rest : List MappedRegion} (ordered : Ordered (mapped :: rest))
    {point : ℕ} (atMost : point ≤ mapped.endAddress.toNat) :
    NotPast rest point := by
  intro other member
  have starts := ordered.starts_after member
  have wellFormed := ordered.tail.wellFormed other member
  have positive := wellFormed.positive
  have endEq := wellFormed.endEq
  simp only [MappedRegion.extent] at starts
  omega

variable {remaining : ℕ}

theorem validateFrom_iff (ordered : Ordered regions)
    (notPast : NotPast regions currentAddress.toNat) :
    validateFrom required regions currentAddress remaining = true ↔
      ∀ point, currentAddress.toNat ≤ point → point < currentAddress.toNat + max remaining 1 →
          Permits regions required point := by
  induction regions generalizing currentAddress remaining with
  | nil =>
    simp only [validateFrom, Bool.false_eq_true, false_iff]
    intro allPermitted
    obtain ⟨_, member, _⟩ :=
      allPermitted currentAddress.toNat (Nat.le_refl _) (by omega)
    cases member
  | cons mapped rest ih =>
    have wellFormed := ordered.wellFormed mapped List.mem_cons_self
    have beforeEnd := notPast mapped List.mem_cons_self
    rw [validateFrom]
    split
    case isTrue rejected =>
      simp only [Bool.false_eq_true, false_iff]
      intro allPermitted
      obtain ⟨contains, allowed⟩ := (ordered.permits_iff_first beforeEnd).mp
        (allPermitted currentAddress.toNat (Nat.le_refl _) (by omega))
      have inside := wellFormed.contains_iff.mp contains
      simp only [UInt64.lt_iff_toNat_lt, ge_iff_le, UInt64.le_iff_toNat_le] at rejected
      rcases rejected with starts | ends | denied
      · omega
      · omega
      · exact allowed denied
    case isFalse accepted =>
      simp only [not_or, UInt64.lt_iff_toNat_lt, Nat.not_lt] at accepted
      obtain ⟨starts, _, allowed⟩ := accepted
      have allowedHere (point : ℕ) (above : currentAddress.toNat ≤ point)
          (below : point < mapped.endAddress.toNat) :
          Permits (mapped :: rest) required point :=
        (ordered.permits_iff_first below).mpr
          ⟨wellFormed.contains_iff.mpr ⟨by omega, below⟩, allowed⟩
      have availableEq : (mapped.endAddress - currentAddress).toNat =
          mapped.endAddress.toNat - currentAddress.toNat :=
        UInt64.toNat_sub_of_le _ _ (UInt64.le_iff_toNat_le.mpr (by omega))
      by_cases fits : remaining ≤ (mapped.endAddress - currentAddress).toNat
      · have done : remaining - min remaining (mapped.endAddress - currentAddress).toNat = 0 := by
          omega
        simp only [done, if_true, ite_self, true_iff]
        exact fun point above below => allowedHere point above (by omega)
      · -- The rest of the range starts where this region ends.
        have notDone : remaining -
            min remaining (mapped.endAddress - currentAddress).toNat ≠ 0 := by
          omega
        have chunkEq : min remaining (mapped.endAddress - currentAddress).toNat =
              mapped.endAddress.toNat - currentAddress.toNat := by
          omega
        have endBound := mapped.endAddress.toNat_lt
        have nextEq := Word64.toNat_add_ofNat currentAddress
          (mapped.endAddress.toNat - currentAddress.toNat) (by omega)
        rw [if_neg (by omega)]
        simp only [notDone, if_false]
        rw [chunkEq, ih ordered.tail (ordered.notPast_rest (by omega))]
        constructor
        · intro allPermitted point above below
          by_cases here : point < mapped.endAddress.toNat
          · exact allowedHere point above here
          · exact (ordered.permits_iff_rest (Nat.le_of_not_lt here)).mpr
              (allPermitted point (by omega) (by omega))
        · intro allPermitted point above below
          exact (ordered.permits_iff_rest (by omega)).mp (allPermitted point (by omega) (by omega))

/-- The part of a range that the first region holds: where it lies in the
buffer, and that the range goes on where the region ends. -/
structure FirstChunk (mapped : MappedRegion) (currentAddress : UInt64)
    (offset chunkLength remaining : ℕ) : Prop where
  startEq : currentAddress.toNat = mapped.extent.start + offset
  fits : offset + chunkLength ≤ mapped.backingMemory.length
  within : chunkLength ≤ remaining
  nextEq : (currentAddress + UInt64.ofNat chunkLength).toNat =
    currentAddress.toNat + chunkLength
  atMost : currentAddress.toNat + chunkLength ≤ mapped.endAddress.toNat
  atEnd : chunkLength < remaining →
    currentAddress.toNat + chunkLength = mapped.endAddress.toNat
  contained : ∀ point, currentAddress.toNat ≤ point →
    point < currentAddress.toNat + chunkLength → mapped.extent.Contains point

theorem Ordered.firstChunk {mapped : MappedRegion} {rest : List MappedRegion}
    (ordered : Ordered (mapped :: rest)) (remaining : ℕ)
    (notPast : NotPast (mapped :: rest) currentAddress.toNat)
    (covered : (byteAt (mapped :: rest) currentAddress.toNat).isSome) :
    FirstChunk mapped currentAddress (currentAddress - mapped.region.virtualAddress).toNat
      (min remaining (mapped.backingMemory.length -
        (currentAddress - mapped.region.virtualAddress).toNat)) remaining := by
  have wellFormed := ordered.wellFormed mapped List.mem_cons_self
  have beforeEnd := notPast mapped List.mem_cons_self
  have backed := wellFormed.backed
  have endEq := wellFormed.endEq
  have endBound := mapped.endAddress.toNat_lt
  have contains : mapped.extent.Contains currentAddress.toNat := by
    by_contra outside
    rw [byteAt, if_neg outside, ordered.byteAt_rest beforeEnd] at covered
    cases covered
  have inside := wellFormed.contains_iff.mp contains
  have offsetEq : (currentAddress - mapped.region.virtualAddress).toNat =
      currentAddress.toNat - mapped.region.virtualAddress.toNat :=
    UInt64.toNat_sub_of_le _ _ (UInt64.le_iff_toNat_le.mpr inside.1)
  constructor
  · simp only [MappedRegion.extent]
    omega
  · omega
  · exact Nat.min_le_left _ _
  · exact Word64.toNat_add_ofNat _ _ (by omega)
  · omega
  · omega
  · intro point above below
    exact wellFormed.contains_iff.mpr (by omega)

theorem copyFromRegions_spec (ordered : Ordered regions)
    (notPast : NotPast regions currentAddress.toNat)
    (covered : ∀ index < remaining, (byteAt regions (currentAddress.toNat + index)).isSome) :
    ∃ bytes, copyFromRegions regions currentAddress remaining = .ok bytes ∧
      bytes.length = remaining ∧
      ∀ index < remaining, bytes[index]? = byteAt regions (currentAddress.toNat + index) := by
  induction regions generalizing currentAddress remaining with
  | nil =>
    cases remaining with
    | zero => exact ⟨[], by simp [copyFromRegions]⟩
    | succ remaining => exact absurd (covered 0 (by omega)) (by simp [byteAt])
  | cons mapped rest ih =>
    cases remaining with
    | zero => exact ⟨[], by simp [copyFromRegions]⟩
    | succ remaining =>
      have chunk := ordered.firstChunk (remaining + 1) notPast (covered 0 (by omega))
      rw [copyFromRegions]
      simp only
      generalize (currentAddress - mapped.region.virtualAddress).toNat = offset at chunk ⊢
      generalize min (remaining + 1) (mapped.backingMemory.length - offset) = chunkLength at chunk ⊢
      obtain ⟨startEq, fits, within, nextEq, atMost, atEnd, contained⟩ := chunk
      have restCovered : ∀ index < remaining + 1 - chunkLength, (byteAt rest ((currentAddress +
            UInt64.ofNat chunkLength).toNat + index)).isSome := by
        intro index before
        rw [nextEq, Nat.add_assoc, ← ordered.byteAt_of_le (by omega)]
        exact covered _ (by omega)
      obtain ⟨bytes, copied, lengthEq, bytesEq⟩ := ih
        ordered.tail (ordered.notPast_rest (by omega)) restCovered
      rw [if_neg (by omega), copied]
      have takeLength : ((mapped.backingMemory.drop offset).take
          chunkLength).length = chunkLength := by
        simp only [List.length_take, List.length_drop]
        omega
      refine ⟨_, rfl, ?_, ?_⟩
      · rw [List.length_append, takeLength, lengthEq]
        omega
      · intro index before
        rw [List.getElem?_append, takeLength]
        split
        case isTrue inChunk =>
          rw [List.getElem?_take, if_pos inChunk, List.getElem?_drop, byteAt,
            if_pos (contained _ (by omega) (by omega)), startEq]
          congr 1
          omega
        case isFalse afterChunk =>
          rw [bytesEq _ (by omega), nextEq, ordered.byteAt_of_le (by omega)]
          congr 1
          omega

def MappedRegion.shape (mapped : MappedRegion) : VirtualMemoryRegion × UInt64 × ℕ :=
  (mapped.region, mapped.endAddress, mapped.backingMemory.length)

theorem Ordered.of_shape {before after : List MappedRegion} (ordered : Ordered before)
    (sameShape : after.map MappedRegion.shape = before.map MappedRegion.shape) :
    Ordered after where
  wellFormed := by
    intro mapped member
    have shapeMem : mapped.shape ∈ before.map MappedRegion.shape := by
      rw [← sameShape]
      exact List.mem_map_of_mem member
    obtain ⟨old, oldMem, shapeEq⟩ := List.mem_map.mp shapeMem
    have wellFormed := ordered.wellFormed old oldMem
    simp only [MappedRegion.shape, Prod.mk.injEq] at shapeEq
    obtain ⟨regionEq, endEq, lengthEq⟩ := shapeEq
    exact
      { positive := regionEq ▸ wellFormed.positive
        endEq := regionEq ▸ endEq ▸ wellFormed.endEq
        backed := by rw [← lengthEq, ← regionEq, wellFormed.backed] }
  ascending := by
    have shapes : (before.map MappedRegion.shape).Pairwise fun first second =>
        first.2.1.toNat ≤ second.1.virtualAddress.toNat :=
      List.pairwise_map.mpr ordered.ascending
    rw [← sameShape] at shapes
    exact List.pairwise_map.mp shapes

/-- Writing a mapped range overwrites exactly its bytes. -/
theorem copyToRegions_spec (ordered : Ordered regions) {source : List UInt8}
    (notPast : NotPast regions currentAddress.toNat)
    (covered : ∀ index < source.length, (byteAt regions (currentAddress.toNat + index)).isSome) :
    ∃ after, copyToRegions regions currentAddress source = (.ok (), after) ∧
      after.map MappedRegion.shape = regions.map MappedRegion.shape ∧
      ∀ point, byteAt after point =
        if currentAddress.toNat ≤ point ∧ point < currentAddress.toNat + source.length then
          source[point - currentAddress.toNat]?
        else byteAt regions point := by
  induction regions generalizing currentAddress source with
  | nil =>
    cases source with
    | nil => exact ⟨[], rfl, rfl, fun point => by rw [if_neg (by simp)]⟩
    | cons byte bytes =>
      exact absurd (covered 0 (by simp)) (by simp [byteAt])
  | cons mapped rest ih =>
    cases source with
    | nil =>
      exact ⟨mapped :: rest, rfl, rfl, fun point => by
        rw [if_neg (by simp only [List.length_nil]; omega)]⟩
    | cons byte bytes =>
      have chunk := ordered.firstChunk (byte :: bytes).length notPast (covered 0 (by simp))
      rw [copyToRegions]
      simp only
      have wellFormed := ordered.wellFormed mapped List.mem_cons_self
      generalize byte :: bytes = source at chunk covered ⊢
      generalize (currentAddress - mapped.region.virtualAddress).toNat = offset at chunk ⊢
      generalize min source.length (mapped.backingMemory.length - offset) = chunkLength at chunk ⊢
      obtain ⟨startEq, fits, within, nextEq, atMost, atEnd, contained⟩ := chunk
      have restCovered : ∀ index < (source.drop chunkLength).length, (byteAt rest ((currentAddress +
            UInt64.ofNat chunkLength).toNat + index)).isSome := by
        intro index before
        rw [List.length_drop] at before
        rw [nextEq, Nat.add_assoc, ← ordered.byteAt_of_le (by omega)]
        exact covered _ (by omega)
      obtain ⟨after, copied, sameShape, bytesEq⟩ := ih
        ordered.tail (ordered.notPast_rest (by omega)) restCovered
      have takeLength : (source.take chunkLength).length = chunkLength := by
        rw [List.length_take]
        omega
      have spliceFits : offset + (source.take chunkLength).length ≤
          mapped.backingMemory.length := by omega
      rw [if_neg (by omega), copied]
      refine ⟨_, rfl, ?_, ?_⟩
      · simp only [List.map_cons, sameShape, MappedRegion.shape, length_splice spliceFits]
      · intro point
        by_cases here : mapped.extent.Contains point
        · have inside := wellFormed.contains_iff.mp here
          have above := here.1
          have sameTest : (offset ≤ point - mapped.extent.start ∧
              point - mapped.extent.start < offset + chunkLength) ↔
              currentAddress.toNat ≤ point ∧ point < currentAddress.toNat + source.length := by
            omega
          have newByte : byteAt ({ mapped with
              backingMemory := splice mapped.backingMemory offset
                (source.take chunkLength) } :: after) point =
              (splice mapped.backingMemory offset (source.take chunkLength))[
                point - mapped.extent.start]? := if_pos here
          have oldByte : byteAt (mapped :: rest) point =
              mapped.backingMemory[point - mapped.extent.start]? :=
            if_pos here
          rw [newByte, oldByte, getElem?_splice spliceFits, takeLength]
          simp only [sameTest]
          split
          case isTrue overwritten =>
            rw [List.getElem?_take, if_pos (by omega)]
            congr 1
            omega
          case isFalse => rfl
        · have sameTest : ((currentAddress + UInt64.ofNat chunkLength).toNat ≤
              point ∧ point < (currentAddress + UInt64.ofNat chunkLength).toNat +
                  (source.drop chunkLength).length) ↔
              currentAddress.toNat ≤ point ∧ point < currentAddress.toNat + source.length := by
            rw [List.length_drop, nextEq]
            have notInChunk : ¬ (currentAddress.toNat ≤ point ∧
                point < currentAddress.toNat + chunkLength) :=
              fun inChunk => here (contained point inChunk.1 inChunk.2)
            omega
          have newByte : byteAt ({ mapped with
              backingMemory := splice mapped.backingMemory offset
                (source.take chunkLength) } :: after) point =
              byteAt after point := if_neg here
          have oldByte : byteAt (mapped :: rest) point = byteAt rest point :=
            if_neg here
          rw [newByte, oldByte, bytesEq]
          simp only [sameTest]
          split
          case isTrue overwritten =>
            rw [← sameTest] at overwritten
            rw [List.getElem?_drop, nextEq]
            congr 1
            omega
          case isFalse => rfl

end Walks

end VirtualMemory
end SharpEmu
