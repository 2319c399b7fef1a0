import SharpEmu.StorageBuffers

/-!
# The bytes of storage buffers

Loads and stores of bytes change and give exactly the bytes at their addresses.
A byte beyond the end of the buffer is loaded as zero and not stored.
-/

namespace SharpEmu.Gen5Spirv

open Spirv

/-! ## The bytes of a word -/

def byteOf (word : Word) (lane : ℕ) : BitVec 8 :=
  word.extractLsb' (8 * lane) 8

def StorageBuffer.byte (buffer : StorageBuffer) (address : Word) : Option (BitVec 8) :=
  buffer.words[address.toNat / 4]?.map (byteOf · (address.toNat % 4))

def withByte (word : Word) (lane : ℕ) (byte : BitVec 8) : Word :=
  (word &&& ~~~((0xFF : Word) <<< (8 * lane))) ||| byte.setWidth 32 <<< (8 * lane)

theorem getLsbD_mask (lane index : ℕ) : ((0xFF : Word) <<< (8 * lane)).getLsbD index =
      decide (index < 32 ∧ 8 * lane ≤ index ∧ index < 8 * lane + 8) := by
  have isMask (bit : ℕ) : (0xFF : Word).getLsbD bit = decide (bit < 8) := by
    change Nat.testBit (2 ^ 8 - 1) bit = _
    exact Nat.testBit_two_pow_sub_one 8 bit
  rw [BitVec.getLsbD_shiftLeft, isMask]
  grind

variable {lane : ℕ}

theorem byteOf_withByte (word : Word) (inside : lane < 4)
    (byte : BitVec 8) : byteOf (withByte word lane byte) lane = byte := by
  ext bit isBit
  unfold byteOf withByte
  rw [BitVec.getElem_extractLsb', BitVec.getLsbD_or, BitVec.getLsbD_and,
    BitVec.getLsbD_not, getLsbD_mask, BitVec.getLsbD_shiftLeft,
    BitVec.getLsbD_setWidth]
  have isIndex : 8 * lane + bit - 8 * lane = bit := by omega
  rw [isIndex, ← BitVec.getLsbD_eq_getElem]
  grind

theorem byteOf_withByte_of_ne (word : Word) {other : ℕ}
    (different : other ≠ lane) (byte : BitVec 8) :
    byteOf (withByte word lane byte) other = byteOf word other := by
  ext bit isBit
  unfold byteOf withByte
  rw [BitVec.getElem_extractLsb', BitVec.getElem_extractLsb',
    BitVec.getLsbD_or, BitVec.getLsbD_and, BitVec.getLsbD_not, getLsbD_mask,
    BitVec.getLsbD_shiftLeft, BitVec.getLsbD_setWidth]
  rcases Nat.lt_or_gt_of_ne different with below | above
  · grind
  · have beyond : byte.getLsbD (8 * other + bit - 8 * lane) = false :=
      BitVec.getLsbD_of_ge _ _ (by omega)
    rw [beyond]
    grind

/-! ## Words of a buffer -/

section Words

variable (anything : Word) (buffer : StorageBuffer) (dwordAddress : Word)

theorem isBufferWordInRange_iff : isBufferWordInRange buffer dwordAddress = true ↔
      dwordAddress.toNat < buffer.words.length := by
  unfold isBufferWordInRange
  rw [decide_eq_true_iff, BitVec.lt_def, buffer.toNat_length]

theorem loadBufferWord_eq : loadBufferWord anything buffer dwordAddress =
      buffer.words[dwordAddress.toNat]?.getD 0 := by
  unfold loadBufferWord
  dsimp only
  by_cases inRange : dwordAddress.toNat < buffer.words.length
  · rw [(isBufferWordInRange_iff buffer dwordAddress).mpr inRange, select_true,
      select_true, List.getD_eq_getElem?_getD,
      List.getElem?_eq_getElem inRange]
    rfl
  · rw [Bool.eq_false_iff.mpr ((isBufferWordInRange_iff buffer dwordAddress).not.mpr inRange),
      select_false, List.getElem?_eq_none (Nat.not_lt.mp inRange)]
    rfl

theorem words_storeBufferWord (value : Word) : (storeBufferWord buffer dwordAddress value).words =
      buffer.words.set dwordAddress.toNat value := by
  unfold storeBufferWord
  by_cases inRange : dwordAddress.toNat < buffer.words.length
  · rw [if_pos ((isBufferWordInRange_iff buffer dwordAddress).mpr inRange)]
    rfl
  · rw [if_neg ((isBufferWordInRange_iff buffer dwordAddress).not.mpr inRange),
      List.set_eq_of_length_le (Nat.not_lt.mp inRange)]

end Words

/-! ## Loading -/

def StorageBuffer.byteOrZero (buffer : StorageBuffer) (address : Word) : ℕ :=
  ((buffer.byte address).getD 0).toNat

theorem StorageBuffer.byteOrZero_lt (buffer : StorageBuffer) (address : Word) :
    buffer.byteOrZero address < 2 ^ 8 :=
  BitVec.isLt _

def loadedBytes (buffer : StorageBuffer) (address : Word) : ℕ → ℕ
  | 0 => 0
  | count + 1 => loadedBytes buffer address count +
      buffer.byteOrZero (address + .ofNat 32 count) * 2 ^ (8 * count)

theorem loadedBytes_lt (buffer : StorageBuffer) (address : Word) (count : ℕ) :
    loadedBytes buffer address count < 2 ^ (8 * count) := by
  induction count with
  | zero => exact Nat.two_pow_pos _
  | succ count ih =>
    have byteLt := buffer.byteOrZero_lt (address + .ofNat 32 count)
    have isPower : 2 ^ (8 * (count + 1)) = 2 ^ 8 * 2 ^ (8 * count) := by
      rw [Nat.mul_succ, Nat.add_comm, Nat.pow_add]
    rw [loadedBytes, isPower]
    have bound : (buffer.byteOrZero (address + .ofNat 32 count) + 1) *
        2 ^ (8 * count) ≤ 2 ^ 8 * 2 ^ (8 * count) :=
      Nat.mul_le_mul_right _ byteLt
    rw [Nat.succ_mul] at bound
    omega

theorem addressAt_eq (byteAddress : Word) (index : ℕ) :
    addressAt byteAddress index = byteAddress + .ofNat 32 index := by
  unfold addressAt
  split
  · next isZero =>
    rw [isZero]
    exact (BitVec.add_zero byteAddress).symm
  · rfl

theorem toNat_bitOffset (address : Word) :
    ((address &&& 3) <<< 3).toNat = 8 * (address.toNat % 4) := by
  have isLane := toNat_and_low address 3 2 rfl
  have laneLt : address.toNat % 2 ^ 2 < 4 := Nat.mod_lt _ (by decide)
  rw [toNat_shiftLeft_of_lt, isLane]
  · exact Nat.mul_comm _ _
  · rw [isLane]
    omega

theorem toNat_byteOf (word : Word) (lane : ℕ) :
    (byteOf word lane).toNat = word.toNat / 2 ^ (8 * lane) % 2 ^ 8 := by
  unfold byteOf
  rw [BitVec.extractLsb'_toNat, Nat.shiftRight_eq_div_pow]

theorem byteOrZero_eq (anything : Word) (buffer : StorageBuffer) (address : Word) :
    buffer.byteOrZero address = (byteOf (loadBufferWord anything buffer (address >>> 2))
        (address.toNat % 4)).toNat := by
  unfold StorageBuffer.byteOrZero StorageBuffer.byte
  have isIndex : (address >>> 2).toNat = address.toNat / 4 :=
    toNat_shiftRight address 2
  rw [loadBufferWord_eq, isIndex]
  cases buffer.words[address.toNat / 4]? with
  | none =>
    rw [Option.map_none, Option.getD_none, Option.getD_none, toNat_byteOf]
    change 0 = 0 / _ % _
    rw [Nat.zero_div, Nat.zero_mod]
  | some word => rfl

variable {index : ℕ}

theorem loadBufferByte_eq {anything : Word} {buffer : StorageBuffer}
    {byteAddress result : Word} (inside : index < 4)
    (small : result.toNat < 2 ^ (8 * index)) :
    ∃ next, loadBufferByte anything buffer byteAddress result index = some next ∧
      next.toNat = result.toNat + buffer.byteOrZero (byteAddress + .ofNat 32 index) *
          2 ^ (8 * index) := by
  unfold loadBufferByte
  rw [addressAt_eq]
  generalize byteAddress + .ofNat 32 index = address
  have laneLt : address.toNat % 4 < 4 := Nat.mod_lt _ (by decide)
  have isOffset := toNat_bitOffset address
  have isShift : (BitVec.ofNat 32 (index * 8)).toNat % 32 = 8 * index := by
    rw [BitVec.toNat_ofNat]
    omega
  simp only [shiftRightLogical_eq, shiftLeftLogical_eq, Option.pure_def,
    Option.bind_eq_bind, Option.bind_some, BitVec.reduceToNat, Nat.reduceMod,
    isOffset, isShift]
  refine ⟨_, rfl, ?_⟩
  have isAmount : 8 * (address.toNat % 4) % 32 = 8 * (address.toNat % 4) := by
    omega
  have isByte : (loadBufferWord anything buffer (address >>> 2) >>>
      (8 * (address.toNat % 4)) &&& 0xFF).toNat = buffer.byteOrZero address := by
    rw [toNat_and_low _ _ 8 rfl, toNat_shiftRight, byteOrZero_eq anything, toNat_byteOf]
  have byteLt := buffer.byteOrZero_lt address
  have fits : buffer.byteOrZero address * 2 ^ (8 * index) < 2 ^ 32 := by
    calc buffer.byteOrZero address * 2 ^ (8 * index) < 2 ^ 8 * 2 ^ (8 * index) :=
          Nat.mul_lt_mul_of_pos_right byteLt (Nat.two_pow_pos _)
      _ = 2 ^ (8 + 8 * index) := (Nat.pow_add 2 _ _).symm
      _ ≤ 2 ^ 32 := Nat.pow_le_pow_right (by decide) (by omega)
  rw [isAmount]
  generalize loadBufferWord anything buffer (address >>> 2) >>>
    (8 * (address.toNat % 4)) &&& 0xFF = byte at *
  have isHigh : (byte <<< (8 * index)).toNat = buffer.byteOrZero address * 2 ^ (8 * index) := by
    rw [toNat_shiftLeft_of_lt, isByte]
    rw [isByte]
    exact fits
  rw [BitVec.or_comm, toNat_or_low ⟨_, isHigh.trans (Nat.mul_comm _ _)⟩ small, isHigh, Nat.add_comm]

variable {count : ℕ}

theorem foldlM_loadBufferByte (anything : Word) (buffer : StorageBuffer)
    (byteAddress : Word) (small : count ≤ 4) :
    ∃ word, (List.range count).foldlM (loadBufferByte anything buffer byteAddress) 0 = some word ∧
      word.toNat = loadedBytes buffer byteAddress count := by
  induction count with
  | zero => exact ⟨0, rfl, rfl⟩
  | succ count ih =>
    obtain ⟨word, isLoaded, isValue⟩ := ih (by omega)
    have bound := loadedBytes_lt buffer byteAddress count
    rw [← isValue] at bound
    obtain ⟨next, isNext, nextValue⟩ := loadBufferByte_eq (by omega) bound
    refine ⟨next, ?_, ?_⟩
    · rw [List.range_succ, List.foldlM_append, isLoaded]
      exact (Option.bind_eq_some_iff).mpr ⟨word, rfl, by
        rw [List.foldlM_cons, isNext]
        rfl⟩
    · rw [nextValue, isValue]
      rfl

theorem loadUnalignedBufferWord_eq (anything : Word) (buffer : StorageBuffer) (byteAddress : Word) :
    loadUnalignedBufferWord anything buffer byteAddress =
      some (.ofNat 32 (loadedBytes buffer byteAddress 4)) := by
  obtain ⟨word, isLoaded, isValue⟩ :=
    foldlM_loadBufferByte anything buffer byteAddress (Nat.le_refl 4)
  unfold loadUnalignedBufferWord
  rw [isLoaded, ← isValue, BitVec.ofNat_toNat, BitVec.setWidth_eq]

/-! ## Storing -/

theorem shiftRight_and_mask (word : Word) (lane : ℕ) :
    word >>> (8 * lane) &&& 0xFF = (byteOf word lane).setWidth 32 := by
  apply BitVec.eq_of_toNat_eq
  rw [toNat_and_low _ _ 8 rfl, toNat_shiftRight, BitVec.toNat_setWidth, toNat_byteOf]
  have byteLt := Nat.mod_lt (word.toNat / 2 ^ (8 * lane)) (Nat.two_pow_pos 8)
  omega

theorem byte_storeBufferWord (anything : Word) (buffer : StorageBuffer)
    (address : Word) (byte : BitVec 8) (place : Word) :
    (storeBufferWord buffer (address >>> 2)
        (withByte (loadBufferWord anything buffer (address >>> 2))
          (address.toNat % 4) byte)).byte place =
      if place = address then (buffer.byte place).map fun _ => byte
      else buffer.byte place := by
  have isIndex : (address >>> 2).toNat = address.toNat / 4 :=
    toNat_shiftRight address 2
  unfold StorageBuffer.byte
  rw [words_storeBufferWord, loadBufferWord_eq, isIndex, List.getElem?_set]
  by_cases sameWord : address.toNat / 4 = place.toNat / 4
  · rw [if_pos sameWord, sameWord]
    by_cases isPlace : place = address
    · rw [if_pos isPlace, isPlace]
      split
      · next inside =>
        rw [List.getElem?_eq_getElem inside, Option.map_some, Option.map_some,
          Option.map_some, byteOf_withByte _ (Nat.mod_lt _ (by decide))]
      · next beyond =>
        rw [List.getElem?_eq_none (Nat.not_lt.mp beyond)]
        rfl
    · rw [if_neg isPlace]
      have otherLane : place.toNat % 4 ≠ address.toNat % 4 := by
        intro sameLane
        apply isPlace
        apply BitVec.eq_of_toNat_eq
        omega
      split
      · next inside =>
        rw [List.getElem?_eq_getElem inside, Option.map_some, Option.map_some,
          byteOf_withByte_of_ne _ otherLane]
        rfl
      · next beyond =>
        rw [List.getElem?_eq_none (Nat.not_lt.mp beyond)]
  · rw [if_neg sameWord, if_neg]
    rintro rfl
    exact sameWord rfl

theorem exists_storeBufferByte (anything byteAddress value : Word)
    (buffer : StorageBuffer) (inside : index < 4) :
    ∃ after, storeBufferByte anything byteAddress value buffer index = some after ∧
      after.words.length = buffer.words.length ∧
      ∀ place, after.byte place =
        if place = byteAddress + .ofNat 32 index then
          (buffer.byte place).map fun _ => byteOf value index
        else buffer.byte place := by
  unfold storeBufferByte
  rw [addressAt_eq]
  generalize byteAddress + .ofNat 32 index = address
  have laneLt : address.toNat % 4 < 4 := Nat.mod_lt _ (by decide)
  have isOffset := toNat_bitOffset address
  have isShift : (BitVec.ofNat 32 (index * 8)).toNat % 32 = 8 * index := by
    rw [BitVec.toNat_ofNat]
    omega
  have isAmount : 8 * (address.toNat % 4) % 32 = 8 * (address.toNat % 4) := by
    omega
  simp only [shiftRightLogical_eq, shiftLeftLogical_eq, Option.pure_def,
    Option.bind_eq_bind, Option.bind_some, BitVec.reduceToNat, Nat.reduceMod,
    isOffset, isShift, isAmount, shiftRight_and_mask]
  refine ⟨_, rfl, ?_, fun place => ?_⟩
  · rw [words_storeBufferWord, List.length_set]
  · exact byte_storeBufferWord anything buffer address (byteOf value index) place

def StoredBytes (buffer : StorageBuffer) (address value : Word) (count : ℕ)
    (after : StorageBuffer) : Prop :=
  ∀ place : Word, after.byte place =
    if (place - address).toNat < count then
      (buffer.byte place).map fun _ => byteOf value (place - address).toNat
    else buffer.byte place

theorem foldlM_storeBufferByte (anything byteAddress value : Word)
    (buffer : StorageBuffer) (small : count ≤ 4) :
    ∃ after, (List.range count).foldlM
        (storeBufferByte anything byteAddress value) buffer = some after ∧
      after.words.length = buffer.words.length ∧
      StoredBytes buffer byteAddress value count after := by
  induction count with
  | zero => exact ⟨buffer, rfl, rfl, fun _ => rfl⟩
  | succ count ih =>
    obtain ⟨before, isBefore, sameLength, stored⟩ := ih (by omega)
    obtain ⟨after, isNext, nextLength, nextBytes⟩ := exists_storeBufferByte
      anything byteAddress value before (show count < 4 by omega)
    refine ⟨after, ?_, nextLength.trans sameLength, fun place => ?_⟩
    · rw [List.range_succ, List.foldlM_append, isBefore]
      exact Option.bind_eq_some_iff.mpr ⟨before, rfl, by
        rw [List.foldlM_cons, isNext]
        rfl⟩
    · rw [nextBytes, stored place]
      have isCount : (BitVec.ofNat 32 count).toNat = count := by
        rw [BitVec.toNat_ofNat, Nat.mod_eq_of_lt (by omega)]
      by_cases isPlace : place = byteAddress + .ofNat 32 count
      · have isIndex : (place - byteAddress).toNat = count := by
          rw [isPlace, BitVec.add_comm, BitVec.add_sub_cancel, isCount]
        rw [if_pos isPlace, isIndex, if_neg (Nat.lt_irrefl count), if_pos (Nat.lt_succ_self count)]
      · have notIndex : (place - byteAddress).toNat ≠ count := by
          intro isIndex
          apply isPlace
          rw [← isIndex, BitVec.ofNat_toNat, BitVec.setWidth_eq,
            BitVec.add_comm, BitVec.sub_add_cancel]
        rw [if_neg isPlace]
        split
        · next less => rw [if_pos (by omega)]
        · next notLess => rw [if_neg (by omega)]

end SharpEmu.Gen5Spirv
