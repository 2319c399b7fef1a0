import SharpEmu.StorageBufferBytes

/-!
# Sub-dword accesses

What the loads and stores of parts of words do for each opcode: the low bytes are
extended to a word, or to one half of the destination whose other half is kept,
and a load after a store gives what was stored.
-/

namespace SharpEmu.Gen5Spirv

open Spirv

/-! ## What the opcodes prescribe -/

inductive Half where
  | low | high
deriving DecidableEq

namespace SubdwordLoad

def byteCount : SubdwordLoad → ℕ
  | .ubyte | .sbyte | .ubyteD16 | .ubyteD16Hi | .sbyteD16 | .sbyteD16Hi => 1
  | .ushort | .sshort | .shortD16 | .shortD16Hi => 2

def signed : SubdwordLoad → Bool
  | .sbyte | .sshort | .sbyteD16 | .sbyteD16Hi => true
  | .ubyte | .ushort | .ubyteD16 | .ubyteD16Hi | .shortD16 | .shortD16Hi =>
      false

def half : SubdwordLoad → Option Half
  | .ubyte | .sbyte | .ushort | .sshort => none
  | .ubyteD16 | .sbyteD16 | .shortD16 => some .low
  | .ubyteD16Hi | .sbyteD16Hi | .shortD16Hi => some .high

def extend (load : SubdwordLoad) (width bytes : ℕ) : BitVec width :=
  let field := BitVec.ofNat (8 * load.byteCount) bytes
  if load.signed then field.signExtend width else field.setWidth width

def result (load : SubdwordLoad) (bytes : ℕ) (previous : Word) : Word :=
  match load.half with
  | none => load.extend 32 bytes
  | some .low => previous.extractLsb' 16 16 ++ load.extend 16 bytes
  | some .high => load.extend 16 bytes ++ previous.extractLsb' 0 16

end SubdwordLoad

namespace SubdwordStore

def byteCount : SubdwordStore → ℕ
  | .byte | .byteD16Hi => 1
  | .short | .shortD16Hi => 2

def sourceShift : SubdwordStore → Word
  | .byte | .short => 0
  | .byteD16Hi | .shortD16Hi => 16

end SubdwordStore

/-! ## Opcodes -/

def emitSubdwordLoad (opcode : String) (anything : Word)
    (buffer : StorageBuffer) (byteAddress previous : Word) : Option Word := do
  let info ← tryGetSubdwordLoadInfo opcode
  loadSubdwordBufferValue anything buffer byteAddress previous info.byteCount
    info.signExtend info.d16 info.d16High

theorem tryGetSubdwordLoadInfo_name (kind : MemoryKind) (load : SubdwordLoad) :
    tryGetSubdwordLoadInfo (kind.name ++ load.name) =
      some ⟨load.byteCount, load.signed, load.half.isSome, load.half = some .high⟩ := by
  cases kind <;> cases load <;> decide +kernel

theorem tryGetSubdwordStoreInfo_name (kind : MemoryKind) (store : SubdwordStore) :
    tryGetSubdwordStoreInfo (kind.name ++ store.name) =
      some (store.byteCount, store.sourceShift) := by
  cases kind <;> cases store <;> decide +kernel

/-! ## Loads -/

theorem loadedBytes_mod (buffer : StorageBuffer) (address : Word) (count : ℕ) :
    ∀ more, loadedBytes buffer address (count + more) % 2 ^ (8 * count) =
      loadedBytes buffer address count
  | 0 => Nat.mod_eq_of_lt (loadedBytes_lt buffer address count)
  | more + 1 => by
      have isPower : 2 ^ (8 * (count + more)) = 2 ^ (8 * more) * 2 ^ (8 * count) := by
        rw [← Nat.pow_add]
        congr 1
        omega
      rw [← Nat.add_assoc, loadedBytes, isPower, ← Nat.mul_assoc, Nat.add_mul_mod_self_right]
      exact loadedBytes_mod buffer address count more

theorem getLsbD_lowMask (index : ℕ) : (0x0000FFFF : Word).getLsbD index = decide (index < 16) := by
  change Nat.testBit (2 ^ 16 - 1) index = _
  exact Nat.testBit_two_pow_sub_one 16 index

theorem getLsbD_highMask (index : ℕ) :
    (0xFFFF0000 : Word).getLsbD index = decide (16 ≤ index ∧ index < 32) := by
  have isShifted : (0xFFFF0000 : Word) = (0x0000FFFF : Word) <<< 16 := by
    decide
  rw [isShifted, BitVec.getLsbD_shiftLeft, getLsbD_lowMask]
  grind

theorem low_half (previous value : Word) : ((previous &&& 0xFFFF0000) ||| (value &&& 0xFFFF)) =
      previous.extractLsb' 16 16 ++ value.setWidth 16 := by
  apply BitVec.eq_of_getLsbD_eq
  intro bit isBit
  rw [BitVec.getLsbD_or, BitVec.getLsbD_and, BitVec.getLsbD_and,
    getLsbD_highMask, getLsbD_lowMask, BitVec.getLsbD_append,
    BitVec.getLsbD_extractLsb', BitVec.getLsbD_setWidth]
  grind

theorem high_half (previous value : Word) :
    ((previous &&& (0x0000FFFF : Word)) ||| ((value &&& 0xFFFF) <<< 16)) =
      value.setWidth 16 ++ previous.extractLsb' 0 16 := by
  apply BitVec.eq_of_getLsbD_eq
  intro bit isBit
  rw [BitVec.getLsbD_or, BitVec.getLsbD_and, BitVec.getLsbD_shiftLeft,
    BitVec.getLsbD_and, getLsbD_lowMask, getLsbD_lowMask,
    BitVec.getLsbD_append, BitVec.getLsbD_extractLsb', BitVec.getLsbD_setWidth]
  grind

variable {raw : Word}

theorem bitFieldSExtract_low {width : ℕ} (fits : width ≤ 32) :
    bitFieldSExtract raw 0 (.ofNat 32 width) =
      some ((BitVec.ofNat width raw.toNat).signExtend 32) := by
  have isWidth : (BitVec.ofNat 32 width).toNat = width := by
    rw [BitVec.toNat_ofNat, Nat.mod_eq_of_lt (by omega)]
  have inside : (0 : Word).toNat + (BitVec.ofNat 32 width).toNat ≤ 32 := by
    rw [isWidth]
    change 0 + width ≤ 32
    omega
  unfold bitFieldSExtract
  rw [if_pos inside, isWidth, BitVec.ofNat_toNat]
  change some ((raw.extractLsb' 0 width).signExtend 32) = _
  rw [BitVec.setWidth_eq_extractLsb' fits]

theorem ofNat_mod_two_pow (width value : ℕ) :
    BitVec.ofNat width (value % 2 ^ width) = BitVec.ofNat width value := by
  apply BitVec.eq_of_toNat_eq
  rw [BitVec.toNat_ofNat, BitVec.toNat_ofNat, Nat.mod_mod]

theorem byteCount_le (load : SubdwordLoad) : load.byteCount ≤ 2 := by
  cases load <;> decide

theorem extend_of_bytes (load : SubdwordLoad) (bytes : ℕ)
    (isRaw : raw.toNat = bytes % 2 ^ (8 * load.byteCount)) :
    extendLoaded raw (load.byteCount * 8) load.signed = some (load.extend 32 bytes) := by
  have atMost := byteCount_le load
  unfold extendLoaded
  unfold SubdwordLoad.extend
  dsimp only
  split
  · rw [Nat.mul_comm load.byteCount, bitFieldSExtract_low (by omega), isRaw, ofNat_mod_two_pow]
  · apply congrArg some
    apply BitVec.eq_of_toNat_eq
    rw [BitVec.toNat_setWidth, BitVec.toNat_ofNat, ← isRaw, Nat.mod_eq_of_lt raw.isLt]

theorem setWidth_extend (load : SubdwordLoad) (bytes : ℕ) :
    (load.extend 32 bytes).setWidth 16 = load.extend 16 bytes := by
  have atMost := byteCount_le load
  unfold SubdwordLoad.extend
  dsimp only
  generalize BitVec.ofNat (8 * load.byteCount) bytes = field
  apply BitVec.eq_of_getLsbD_eq
  intro bit isBit
  split
  · rw [BitVec.getLsbD_setWidth, BitVec.getLsbD_signExtend, BitVec.getLsbD_signExtend]
    grind
  · rw [BitVec.getLsbD_setWidth, BitVec.getLsbD_setWidth, BitVec.getLsbD_setWidth]
    grind

theorem toNat_and_loadMask (load : SubdwordLoad) (word : Word) :
    (word &&& (if load.byteCount = 1 then 0xFF else 0xFFFF)).toNat =
      word.toNat % 2 ^ (8 * load.byteCount) := by
  cases load with
  | ubyte | sbyte | ubyteD16 | ubyteD16Hi | sbyteD16 | sbyteD16Hi =>
    exact toNat_and_low word 0xFF 8 rfl
  | ushort | sshort | shortD16 | shortD16Hi =>
    exact toNat_and_low word 0xFFFF 16 rfl

theorem emitSubdwordLoad_eq (kind : MemoryKind) (load : SubdwordLoad)
    (anything : Word) (buffer : StorageBuffer) (byteAddress previous : Word) :
    emitSubdwordLoad (kind.name ++ load.name) anything buffer byteAddress previous =
      some (load.result (loadedBytes buffer byteAddress load.byteCount) previous) := by
  have atMost := byteCount_le load
  have wordLt := loadedBytes_lt buffer byteAddress 4
  have isLow := loadedBytes_mod buffer byteAddress load.byteCount (4 - load.byteCount)
  rw [Nat.add_sub_of_le (by omega)] at isLow
  have isRaw : ((.ofNat 32 (loadedBytes buffer byteAddress 4) : Word) &&&
      (if load.byteCount = 1 then 0xFF else 0xFFFF)).toNat =
        loadedBytes buffer byteAddress load.byteCount % 2 ^ (8 * load.byteCount) := by
    rw [toNat_and_loadMask, BitVec.toNat_ofNat, Nat.mod_eq_of_lt wordLt, isLow,
      Nat.mod_eq_of_lt (loadedBytes_lt _ _ _)]
  unfold emitSubdwordLoad loadSubdwordBufferValue
  rw [tryGetSubdwordLoadInfo_name, loadUnalignedBufferWord_eq]
  simp only [Option.bind_eq_bind, Option.bind_some, extend_of_bytes load _ isRaw]
  unfold SubdwordLoad.result
  rw [← setWidth_extend]
  rcases load.half with - | - | -
  · rfl
  · exact congrArg some (low_half _ _)
  · simp only [shiftLeftLogical_eq]
    exact congrArg some (high_half _ _)

/-! ## Stores -/

theorem loadedBytes_of_stored {buffer after : StorageBuffer}
    {address value : Word} {count : ℕ} (small : count ≤ 4)
    (stored : StoredBytes buffer address value count after)
    (inside : ∀ index < count, (buffer.byte (address + .ofNat 32 index)).isSome) :
    ∀ part ≤ count, loadedBytes after address part = value.toNat % 2 ^ (8 * part)
  | 0, _ => (Nat.mod_one value.toNat).symm
  | part + 1, isPart => by
      have isIndex : (address + .ofNat 32 part - address).toNat = part := by
        rw [BitVec.add_comm, BitVec.add_sub_cancel, BitVec.toNat_ofNat, Nat.mod_eq_of_lt (by omega)]
      have isByte : after.byte (address + .ofNat 32 part) = some (byteOf value part) := by
        obtain ⟨byte, isSome⟩ :=
          Option.isSome_iff_exists.mp (inside part (by omega))
        rw [stored, isIndex, if_pos (by omega), isSome, Option.map_some]
      have isPower : 2 ^ (8 * (part + 1)) = 2 ^ (8 * part) * 2 ^ 8 := by
        rw [Nat.mul_succ, Nat.pow_add]
      rw [loadedBytes, loadedBytes_of_stored small stored inside part (by omega),
        StorageBuffer.byteOrZero, isByte, Option.getD_some, toNat_byteOf,
        isPower, Nat.mod_mul, Nat.mul_comm (2 ^ (8 * part))]

/-- Stores change the addressed bytes and no others, loads give them, and a load
after a store of the same bytes gives what was stored. -/
theorem buffer_bytes (anything : Word) (buffer : StorageBuffer)
    (address value sourceShift : Word) {count : ℕ} (small : count ≤ 4) :
    (∃ after, storeBufferBytes anything buffer address value count sourceShift = some after ∧
      after.words.length = buffer.words.length ∧
      StoredBytes buffer address (value >>> (sourceShift.toNat % 32)) count after ∧
      ((∀ index < count, (buffer.byte (address + .ofNat 32 index)).isSome) →
        loadedBytes after address count =
          (value >>> (sourceShift.toNat % 32)).toNat % 2 ^ (8 * count))) ∧
    loadUnalignedBufferWord anything buffer address =
      some (.ofNat 32 (loadedBytes buffer address 4)) ∧
    (∀ kind load previous, emitSubdwordLoad (MemoryKind.name kind ++ SubdwordLoad.name load)
          anything buffer address previous =
        some (load.result (loadedBytes buffer address load.byteCount) previous)) ∧
    ∀ kind store, tryGetSubdwordStoreInfo (MemoryKind.name kind ++ SubdwordStore.name store) =
        some (store.byteCount, store.sourceShift) := by
  obtain ⟨after, isAfter, sameLength, stored⟩ := foldlM_storeBufferByte
    anything address (value >>> (sourceShift.toNat % 32)) buffer small
  refine ⟨⟨after, ?_, sameLength, stored, fun inside => ?_⟩, ?_, ?_, ?_⟩
  · unfold storeBufferBytes
    rw [shiftRightLogical_eq]
    exact isAfter
  · exact loadedBytes_of_stored small stored inside count (Nat.le_refl count)
  · exact loadUnalignedBufferWord_eq anything buffer address
  · exact fun kind load previous =>
      emitSubdwordLoad_eq kind load anything buffer address previous
  · exact tryGetSubdwordStoreInfo_name

def twoWords : StorageBuffer where
  words := [0x33221100, 0x77665544]
  fits := by decide

/-- Two bytes that straddle the words are stored and loaded again. -/
theorem buffer_bytes_straddling : ∃ after, storeBufferBytes 0 twoWords 3 0xAABB 2 0 = some after ∧
      loadedBytes after 3 2 = 0xAABB := by
  obtain ⟨⟨after, isStored, -, -, isLoaded⟩, -⟩ :=
    buffer_bytes 0 twoWords 3 0xAABB 0 (show 2 ≤ 4 by decide)
  exact ⟨after, isStored, isLoaded (by decide)⟩

end SharpEmu.Gen5Spirv
