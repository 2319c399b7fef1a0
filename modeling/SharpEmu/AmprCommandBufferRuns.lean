import SharpEmu.AmprCommandBuffers

/-!
# Completing what was appended

The records appended to a command buffer lie one behind the other in its data
buffer, and the walk that completes it finds each of them where it was put.  What
completion should do is stated without the encoding: `replay` performs the effects
of a list of append operations in order, up to the first that guest memory refuses.

A completed record may write guest memory, also over the records behind it; the
replay theorem is about the operations whose writes leave those records alone.
-/

namespace SharpEmu.Ampr

inductive AppendOperation
  | readFile (fileId : UInt32)
      (destination size fileOffset bytesRead : UInt64)
  | kernelEventQueue (equeue ident completionToken userData : UInt64)
  | writeAddress (address value : UInt64)
  deriving DecidableEq

namespace AppendOperation

def record : AppendOperation → Span
  | readFile fileId destination size fileOffset bytesRead =>
      readFileRecord fileId destination size fileOffset bytesRead
  | kernelEventQueue equeue ident completionToken userData =>
      kernelEventQueueRecord equeue ident completionToken userData
  | writeAddress address value => writeAddressRecord address value

/-- What completing the operation's record should do, if guest memory allows
it.  The file of a read record has been read before the record is appended. -/
def effect : AppendOperation → World → Option World
  | readFile _ _ _ _ _, world => some world
  | kernelEventQueue equeue ident completionToken userData, world =>
      some (world.enqueueEvent equeue
        ⟨ident, kernelEventFilterAmpr, 0x20, 0, completionToken, userData⟩)
  | writeAddress address value, world =>
      (world.memory.tryWriteUInt64 address value).map fun memory =>
        { world with memory := memory }

def readable (memory : GuestMemory) (recordAddress : UInt64) : AppendOperation → Bool
  | readFile _ _ _ _ _ => memory.canRead recordAddress 4
  | kernelEventQueue _ _ _ _ =>
      memory.canRead recordAddress 4 && memory.canRead recordAddress kernelEventQueueRecordSize
  | writeAddress _ _ =>
      memory.canRead recordAddress 4 && memory.canRead recordAddress writeAddressRecordSize

end AppendOperation

def recordsLength (operations : List AppendOperation) : ℕ :=
  (operations.map fun operation => operation.record.length).sum

namespace World

def append (world : World) (commandBuffer : UInt64) : AppendOperation → Bool × World
  | .readFile fileId destination size fileOffset bytesRead =>
      world.appendReadFileRecord commandBuffer fileId destination size fileOffset bytesRead
  | .kernelEventQueue equeue ident completionToken userData =>
      world.appendKernelEventQueueRecord commandBuffer equeue ident completionToken userData
  | .writeAddress address value =>
      world.appendWriteAddressRecord commandBuffer address value

def appendAll (commandBuffer : UInt64) : World → List AppendOperation → World × List AppendOperation
  | world, [] => (world, [])
  | world, operation :: rest =>
      let (appended, next) := world.append commandBuffer operation
      let (final, successes) := appendAll commandBuffer next rest
      (final, if appended then operation :: successes else successes)

def replay (buffer : UInt64) : World → ℕ → List AppendOperation → OrbisGen2Result × World
  | world, _, [] => (.ok, world)
  | world, offset, operation :: rest =>
      if operation.readable world.memory (buffer + UInt64.ofNat offset) then
        match operation.effect world with
        | none => (.memoryFault, world)
        | some performed =>
            replay buffer performed (offset + operation.record.length) rest
      else (.memoryFault, world)

end World

def Spares (address buffer : UInt64) (first last : ℕ) : Prop :=
  ∀ index, first ≤ index → index < last → 8 ≤ (buffer + UInt64.ofNat index - address).toNat

def Undisturbed (buffer : UInt64) : ℕ → List AppendOperation → Prop
  | _, [] => True
  | offset, .writeAddress address _ :: rest =>
      Spares address buffer (offset + writeAddressRecordSize)
          (offset + writeAddressRecordSize + recordsLength rest) ∧
        Undisturbed buffer (offset + writeAddressRecordSize) rest
  | offset, .readFile _ _ _ _ _ :: rest =>
      Undisturbed buffer (offset + readFileRecordSize) rest
  | offset, .kernelEventQueue _ _ _ _ :: rest =>
      Undisturbed buffer (offset + kernelEventQueueRecordSize) rest

def Opened (world : World) (commandBuffer buffer size : UInt64) : Prop :=
  commandBuffer ≠ 0 ∧ world.commandBuffers commandBuffer = some ⟨buffer, size, 0, 0⟩

def RecordAt (memory : GuestMemory) (address : UInt64) (record : Span) : Prop :=
  ∀ index < record.length, memory.bytes (address + UInt64.ofNat index) = record.bytes index

def Laid (memory : GuestMemory) (buffer : UInt64) : ℕ → List AppendOperation → Prop
  | _, [] => True
  | offset, operation :: rest =>
      RecordAt memory (buffer + UInt64.ofNat offset) operation.record ∧
        Laid memory buffer (offset + operation.record.length) rest

@[simp] theorem recordsLength_nil : recordsLength [] = 0 := rfl

@[simp] theorem recordsLength_cons (operation : AppendOperation) (rest : List AppendOperation) :
    recordsLength (operation :: rest) = operation.record.length + recordsLength rest := by
  simp [recordsLength]

@[simp] theorem recordsLength_append (first second : List AppendOperation) :
    recordsLength (first ++ second) = recordsLength first + recordsLength second := by
  simp [recordsLength]

namespace AppendOperation

@[simp] theorem record_length_readFile (fileId : UInt32)
    (destination size fileOffset bytesRead : UInt64) :
    (readFile fileId destination size fileOffset bytesRead).record.length =
      readFileRecordSize :=
  rfl

@[simp] theorem record_length_kernelEventQueue (equeue ident completionToken userData : UInt64) :
    (kernelEventQueue equeue ident completionToken userData).record.length =
      kernelEventQueueRecordSize :=
  rfl

@[simp] theorem record_length_writeAddress (address value : UInt64) :
    (writeAddress address value).record.length = writeAddressRecordSize :=
  rfl

theorem record_length_bounds (operation : AppendOperation) :
    0x20 ≤ operation.record.length ∧ operation.record.length ≤ 0x30 := by
  cases operation
  · simp [readFileRecordSize]
  · simp [kernelEventQueueRecordSize]
  · simp [writeAddressRecordSize]

end AppendOperation

theorem length_le_recordsLength (operations : List AppendOperation) :
    0x20 * operations.length ≤ recordsLength operations := by
  induction operations with
  | nil => simp
  | cons operation rest ih =>
    have atLeast := operation.record_length_bounds.1
    simp only [List.length_cons, recordsLength_cons]
    omega

section Fields

variable (fileId : UInt32) (destination size fileOffset bytesRead : UInt64)
variable (equeue ident completionToken userData address value : UInt64)

variable {offset : ℕ}

theorem uint32_of_load {span : ℕ → UInt8} {field : UInt32}
    (loaded : LittleEndian.load span offset 4 = field.toNat % 256 ^ 4) :
    UInt32.ofNat (LittleEndian.load span offset 4) = field := by
  have bound : field.toNat < 256 ^ 4 := field.toNat_lt
  rw [loaded, Nat.mod_eq_of_lt bound, UInt32.ofNat_toNat]

theorem uint64_of_load {span : ℕ → UInt8} {field : UInt64}
    (loaded : LittleEndian.load span offset 8 = field.toNat % 256 ^ 8) :
    UInt64.ofNat (LittleEndian.load span offset 8) = field := by
  have bound : field.toNat < 256 ^ 8 := field.toNat_lt
  rw [loaded, Nat.mod_eq_of_lt bound, UInt64.ofNat_toNat]

theorem readFileRecord_type : (readFileRecord fileId destination size fileOffset
      bytesRead).readUInt32LittleEndian 0 = readFileRecordType := by
  apply uint32_of_load
  simp (disch := omega) only [readFileRecord, Span.writeUInt64LittleEndian,
    Span.writeUInt32LittleEndian, LittleEndian.load_store_apart,
    LittleEndian.load_store_same]

theorem kernelEventQueueRecord_type : (kernelEventQueueRecord equeue ident completionToken
      userData).readUInt32LittleEndian 0 = kernelEventQueueRecordType := by
  apply uint32_of_load
  simp (disch := omega) only [kernelEventQueueRecord,
    Span.writeUInt64LittleEndian, Span.writeUInt32LittleEndian,
    Span.writeInt16LittleEndian, LittleEndian.load_store_apart,
    LittleEndian.load_store_same]

theorem kernelEventQueueRecord_filter : ((kernelEventQueueRecord equeue ident completionToken
      userData).readUInt32LittleEndian 4).toUInt16.toInt16 =
      kernelEventFilterAmpr := by
  have low : LittleEndian.load (kernelEventQueueRecord equeue ident
      completionToken userData).bytes 4 2 = kernelEventFilterAmpr.toUInt16.toNat % 256 ^ 2 := by
    simp (disch := omega) only [kernelEventQueueRecord,
      Span.writeUInt64LittleEndian, Span.writeUInt32LittleEndian,
      Span.writeInt16LittleEndian, LittleEndian.load_store_apart,
      LittleEndian.load_store_same]
  have high : LittleEndian.load (kernelEventQueueRecord equeue ident
      completionToken userData).bytes 6 2 = 0 := by
    simp (disch := omega) only [kernelEventQueueRecord, Span.cleared,
      Span.writeUInt64LittleEndian, Span.writeUInt32LittleEndian,
      Span.writeInt16LittleEndian, LittleEndian.load_store_apart,
      LittleEndian.load_zero]
  rw [Span.readUInt32LittleEndian, LittleEndian.load_add _ 4 2 2, low, high]
  decide

theorem kernelEventQueueRecord_words :
    let record := kernelEventQueueRecord equeue ident completionToken userData
    record.readUInt64LittleEndian 8 = equeue ∧ record.readUInt64LittleEndian 0x10 = ident ∧
      record.readUInt64LittleEndian 0x18 = userData ∧
      record.readUInt64LittleEndian 0x20 = completionToken := by
  refine ⟨?_, ?_, ?_, ?_⟩
  all_goals
    apply uint64_of_load
    simp (disch := omega) only [kernelEventQueueRecord,
      Span.writeUInt64LittleEndian, LittleEndian.load_store_apart,
      LittleEndian.load_store_same]

theorem kernelEventQueueRecord_extra : (kernelEventQueueRecord equeue ident completionToken
      userData).readUInt64LittleEndian 0x28 = 0 := by
  apply uint64_of_load
  simp (disch := omega) only [kernelEventQueueRecord, Span.cleared,
    Span.writeUInt64LittleEndian, Span.writeUInt32LittleEndian,
    Span.writeInt16LittleEndian, LittleEndian.load_store_apart,
    LittleEndian.load_zero]
  rfl

theorem writeAddressRecord_type : (writeAddressRecord address value).readUInt32LittleEndian 0 =
      writeAddressRecordType := by
  apply uint32_of_load
  simp (disch := omega) only [writeAddressRecord, Span.writeUInt64LittleEndian,
    Span.writeUInt32LittleEndian, LittleEndian.load_store_apart,
    LittleEndian.load_store_same]

theorem writeAddressRecord_address :
    (writeAddressRecord address value).readUInt64LittleEndian 8 = address := by
  apply uint64_of_load
  simp (disch := omega) only [writeAddressRecord, Span.writeUInt64LittleEndian,
    LittleEndian.load_store_apart, LittleEndian.load_store_same]

theorem writeAddressRecord_value :
    (writeAddressRecord address value).readUInt64LittleEndian 0x10 = value := by
  apply uint64_of_load
  simp only [writeAddressRecord, Span.writeUInt64LittleEndian, LittleEndian.load_store_same]

end Fields

section Decoding

variable {memory : GuestMemory} {address : UInt64} {record span : Span}

variable {length offset : ℕ}

theorem load_tryRead (lies : RecordAt memory address record)
    {count : ℕ} (inside : offset + count ≤ record.length)
    (wasRead : memory.tryRead address length = some span) :
    LittleEndian.load span.bytes offset count = LittleEndian.load record.bytes offset count := by
  rw [GuestMemory.tryRead, Option.ite_none_right_eq_some] at wasRead
  obtain ⟨_, wasRead⟩ := wasRead
  cases wasRead
  apply LittleEndian.load_congr
  intro index bound
  exact lies (offset + index) (by omega)

theorem readUInt32_tryRead (lies : RecordAt memory address record)
    (inside : offset + 4 ≤ record.length)
    (wasRead : memory.tryRead address length = some span) :
    span.readUInt32LittleEndian offset = record.readUInt32LittleEndian offset := by
  simp only [Span.readUInt32LittleEndian, load_tryRead lies inside wasRead]

theorem readUInt64_tryRead (lies : RecordAt memory address record)
    (inside : offset + 8 ≤ record.length)
    (wasRead : memory.tryRead address length = some span) :
    span.readUInt64LittleEndian offset = record.readUInt64LittleEndian offset := by
  simp only [Span.readUInt64LittleEndian, load_tryRead lies inside wasRead]

theorem tryRead_of_canRead (readable : memory.canRead address length = true) :
    memory.tryRead address length = some ⟨length, fun index =>
      memory.bytes (address + UInt64.ofNat index)⟩ :=
  if_pos readable

theorem tryRead_of_not_canRead (unreadable : ¬ memory.canRead address length = true) :
    memory.tryRead address length = none :=
  if_neg unreadable

theorem tryReadUInt32_record {operation : AppendOperation}
    (lies : RecordAt memory address operation.record) :
    memory.tryReadUInt32 address =
      if memory.canRead address 4 then
        some (operation.record.readUInt32LittleEndian 0)
      else none := by
  have longEnough := operation.record_length_bounds.1
  by_cases readable : memory.canRead address 4 = true
  · have wasRead := tryRead_of_canRead readable
    rw [GuestMemory.tryReadUInt32, if_pos readable, wasRead, Option.map_some,
      readUInt32_tryRead lies (by omega) wasRead]
  · rw [GuestMemory.tryReadUInt32, if_neg readable,
      tryRead_of_not_canRead readable, Option.map_none]

end Decoding

section Completion

variable {world : World} {recordAddress : UInt64}

theorem completeKernelEventQueueRecord_eq {equeue ident completionToken userData : UInt64}
    (lies : RecordAt world.memory recordAddress
      (kernelEventQueueRecord equeue ident completionToken userData)) :
    world.completeKernelEventQueueRecord recordAddress =
      if world.memory.canRead recordAddress kernelEventQueueRecordSize then
        (AppendOperation.kernelEventQueue equeue ident completionToken userData).effect world
      else none := by
  by_cases readable : world.memory.canRead recordAddress kernelEventQueueRecordSize = true
  · have wasRead := tryRead_of_canRead readable
    have field (offset : ℕ) (inside : offset + 8 ≤ 0x30) :=
      readUInt64_tryRead lies inside wasRead
    have filterField := readUInt32_tryRead lies (show 4 + 4 ≤ 0x30 by omega) wasRead
    rw [World.completeKernelEventQueueRecord, if_pos readable, wasRead]
    obtain ⟨isEqueue, isIdent, isUserData, isData⟩ :=
      kernelEventQueueRecord_words equeue ident completionToken userData
    simp only [filterField, field 8 (by omega), field 0x10 (by omega),
      field 0x18 (by omega), field 0x20 (by omega), field 0x28 (by omega),
      kernelEventQueueRecord_filter, isEqueue, isIdent, isUserData, isData,
      kernelEventQueueRecord_extra]
    rfl
  · rw [World.completeKernelEventQueueRecord, if_neg readable, tryRead_of_not_canRead readable]

theorem completeWriteAddressRecord_eq {address value : UInt64}
    (lies : RecordAt world.memory recordAddress (writeAddressRecord address value)) :
    world.completeWriteAddressRecord recordAddress =
      if world.memory.canRead recordAddress writeAddressRecordSize then
        (AppendOperation.writeAddress address value).effect world
      else none := by
  by_cases readable : world.memory.canRead recordAddress writeAddressRecordSize = true
  · have wasRead := tryRead_of_canRead readable
    have field (offset : ℕ) (inside : offset + 8 ≤ 0x20) :=
      readUInt64_tryRead lies inside wasRead
    rw [World.completeWriteAddressRecord, if_pos readable, wasRead]
    simp only [field 8 (by omega), field 0x10 (by omega),
      writeAddressRecord_address, writeAddressRecord_value]
    rfl
  · rw [World.completeWriteAddressRecord, if_neg readable, tryRead_of_not_canRead readable]

theorem completeRecords_record {operation : AppendOperation}
    {buffer writeOffset offset : UInt64} (fuel : ℕ)
    (more : offset < writeOffset)
    (lies : RecordAt world.memory (buffer + offset) operation.record) :
    World.completeRecords (fuel + 1) world buffer writeOffset offset =
      if operation.readable world.memory (buffer + offset) then
        match operation.effect world with
        | none => some (.memoryFault, world)
        | some performed =>
          World.completeRecords fuel performed buffer writeOffset
            (offset + UInt64.ofNat operation.record.length)
      else some (.memoryFault, world) := by
  rw [World.completeRecords, if_pos more, tryReadUInt32_record lies]
  by_cases typeReadable : world.memory.canRead (buffer + offset) 4 = true
  · rw [if_pos typeReadable]
    cases operation with
    | readFile fileId destination size fileOffset bytesRead =>
      have typeField := readFileRecord_type fileId destination size fileOffset bytesRead
      simp only [AppendOperation.record, typeField, if_true,
        AppendOperation.readable, typeReadable, AppendOperation.effect]
      rfl
    | kernelEventQueue equeue ident completionToken userData =>
      have typeField := kernelEventQueueRecord_type equeue ident completionToken userData
      have completed := completeKernelEventQueueRecord_eq lies
      have notReadFile : ¬ kernelEventQueueRecordType = readFileRecordType := by decide
      simp only [AppendOperation.record, typeField, if_neg notReadFile,
        if_true, completed, AppendOperation.readable, typeReadable,
        Bool.true_and]
      by_cases bodyReadable : world.memory.canRead (buffer + offset)
          kernelEventQueueRecordSize = true
      · simp only [if_pos bodyReadable]
        rfl
      · simp only [if_neg bodyReadable]
    | writeAddress address value =>
      have typeField := writeAddressRecord_type address value
      have completed := completeWriteAddressRecord_eq lies
      have notReadFile : ¬ writeAddressRecordType = readFileRecordType := by
        decide
      have notEvent : ¬ writeAddressRecordType = kernelEventQueueRecordType := by decide
      simp only [AppendOperation.record, typeField, if_neg notReadFile,
        if_neg notEvent, if_true, completed, AppendOperation.readable,
        typeReadable, Bool.true_and]
      by_cases bodyReadable : world.memory.canRead (buffer + offset) writeAddressRecordSize = true
      · simp only [if_pos bodyReadable]
        rfl
      · simp only [if_neg bodyReadable]
  · rw [if_neg typeReadable, if_neg]
    cases operation <;> simp [AppendOperation.readable, typeReadable]

end Completion

section Layout

variable {memory : GuestMemory} {buffer : UInt64}

theorem toNat_sub_bytes (buffer : UInt64) {first second : ℕ}
    (firstBound : first < 2 ^ 64) (secondBound : second < 2 ^ 64) :
    (buffer + UInt64.ofNat first - (buffer + UInt64.ofNat second)).toNat =
      (2 ^ 64 - second + first) % 2 ^ 64 := by
  have bufferBound := buffer.toNat_lt
  rw [UInt64.toNat_sub, UInt64.toNat_add, UInt64.toNat_add,
    UInt64.toNat_ofNat', UInt64.toNat_ofNat', Nat.mod_eq_of_lt firstBound,
    Nat.mod_eq_of_lt secondBound]
  omega

theorem write_bytes_outside {address location : UInt64} {span : Span}
    (outside : span.length ≤ (location - address).toNat) :
    (memory.write address span).bytes location = memory.bytes location :=
  if_neg (by omega)

theorem RecordAt.write {address : UInt64} {span : Span} (short : span.length ≤ 2 ^ 64) :
    RecordAt (memory.write address span) address span := by
  intro index bound
  have distance : (address + UInt64.ofNat index - address).toNat = index := by
    have fromStart := toNat_sub_bytes address (show index < 2 ^ 64 by omega)
      (show 0 < 2 ^ 64 by omega)
    rw [show UInt64.ofNat 0 = 0 from rfl, UInt64.add_zero] at fromStart
    omega
  simp only [GuestMemory.write, distance, if_pos bound]

theorem Laid.agree {other : GuestMemory} {offset : ℕ} {operations : List AppendOperation}
    (laid : Laid memory buffer offset operations)
    (agree : ∀ index, offset ≤ index → index < offset + recordsLength operations →
        other.bytes (buffer + UInt64.ofNat index) = memory.bytes (buffer + UInt64.ofNat index)) :
    Laid other buffer offset operations := by
  induction operations generalizing offset with
  | nil => trivial
  | cons operation rest ih =>
    rw [recordsLength_cons] at agree
    obtain ⟨lies, restLaid⟩ := laid
    constructor
    · intro index bound
      have place : buffer + UInt64.ofNat offset + UInt64.ofNat index =
          buffer + UInt64.ofNat (offset + index) := by
        rw [UInt64.ofNat_add, UInt64.add_assoc]
      rw [place, agree (offset + index) (by omega) (by omega), ← place]
      exact lies index bound
    · apply ih restLaid
      intro index atLeast below
      exact agree index (by omega) (by omega)

theorem Laid.snoc {offset : ℕ} {operations : List AppendOperation} {operation : AppendOperation}
    (laid : Laid memory buffer offset operations)
    (lies : RecordAt memory (buffer + UInt64.ofNat (offset + recordsLength operations))
      operation.record) :
    Laid memory buffer offset (operations ++ [operation]) := by
  induction operations generalizing offset with
  | nil => exact ⟨lies, trivial⟩
  | cons first rest ih =>
    obtain ⟨firstLies, restLaid⟩ := laid
    rw [recordsLength_cons, ← Nat.add_assoc] at lies
    exact ⟨firstLies, ih restLaid lies⟩

theorem AppendOperation.effect_memory {operation : AppendOperation}
    {world performed : World} (isEffect : operation.effect world = some performed) :
    performed.memory = world.memory ∨
      ∃ address value span, operation = .writeAddress address value ∧
        span.length = 8 ∧ performed.memory = world.memory.write address span := by
  cases operation with
  | readFile fileId destination size fileOffset bytesRead =>
    cases isEffect
    exact .inl rfl
  | kernelEventQueue equeue ident completionToken userData =>
    cases isEffect
    left
    rw [World.enqueueEvent]
    split <;> rfl
  | writeAddress address value =>
    right
    rw [AppendOperation.effect, GuestMemory.tryWriteUInt64, GuestMemory.tryWrite] at isEffect
    split at isEffect
    · cases isEffect
      exact ⟨address, value, _, rfl, rfl, rfl⟩
    · cases isEffect

end Layout

section Walks

variable {buffer writeOffset : UInt64}

variable {offset : ℕ} {operation : AppendOperation} {rest : List AppendOperation}

theorem Undisturbed.tail (undisturbed : Undisturbed buffer offset (operation :: rest)) :
    Undisturbed buffer (offset + operation.record.length) rest := by
  cases operation with
  | readFile fileId destination size fileOffset bytesRead =>
    exact undisturbed
  | kernelEventQueue equeue ident completionToken userData =>
    exact undisturbed
  | writeAddress address value => exact undisturbed.2

theorem Laid.performed {world performed : World}
    (laid : Laid world.memory buffer (offset + operation.record.length) rest)
    (undisturbed : Undisturbed buffer offset (operation :: rest))
    (isEffect : operation.effect world = some performed) :
    Laid performed.memory buffer (offset + operation.record.length) rest := by
  rcases AppendOperation.effect_memory isEffect with
    unchanged | ⟨address, value, span, rfl, width, written⟩
  · rw [unchanged]
    exact laid
  · apply laid.agree
    intro index atLeast below
    rw [written]
    apply write_bytes_outside
    rw [width]
    exact undisturbed.1 index atLeast below

variable {fuel : ℕ}

theorem completeRecords_replay {world : World} {operations : List AppendOperation}
    (laid : Laid world.memory buffer offset operations)
    (undisturbed : Undisturbed buffer offset operations)
    (ends : offset + recordsLength operations = writeOffset.toNat)
    (enough : operations.length < fuel) :
    World.completeRecords fuel world buffer writeOffset (UInt64.ofNat offset) =
      some (world.replay buffer offset operations) := by
  have writeOffsetBound := writeOffset.toNat_lt
  induction operations generalizing world offset fuel with
  | nil =>
    obtain ⟨fuel, rfl⟩ := Nat.exists_eq_succ_of_ne_zero (by omega : fuel ≠ 0)
    have atEnd : ¬ UInt64.ofNat offset < writeOffset := by
      rw [UInt64.lt_iff_toNat_lt, UInt64.toNat_ofNat']
      simp only [recordsLength_nil] at ends
      omega
    rw [World.completeRecords, if_neg atEnd, World.replay]
  | cons operation rest ih =>
    obtain ⟨fuel, rfl⟩ := Nat.exists_eq_succ_of_ne_zero (by omega : fuel ≠ 0)
    have longEnough := operation.record_length_bounds.1
    rw [recordsLength_cons] at ends
    have more : UInt64.ofNat offset < writeOffset := by
      rw [UInt64.lt_iff_toNat_lt, UInt64.toNat_ofNat']
      omega
    rw [completeRecords_record fuel more laid.1, World.replay]
    by_cases isReadable : operation.readable world.memory (buffer + UInt64.ofNat offset) = true
    · simp only [if_pos isReadable]
      rcases isEffect : operation.effect world with _ | performed
      · rfl
      · have restLaid := laid.2.performed undisturbed isEffect
        simp only
        rw [← UInt64.ofNat_add]
        apply ih restLaid undisturbed.tail (by omega)
        simp only [List.length_cons] at enough
        omega
    · simp only [if_neg isReadable]

/-- The walk ends whatever guest memory holds, unless the offset can pass the
end of the address space. -/
theorem completeRecords_terminates {world : World} {offset : UInt64}
    (roomBehind : writeOffset.toNat + 0x30 ≤ 2 ^ 64)
    (enough : writeOffset.toNat - offset.toNat < fuel) :
    (World.completeRecords fuel world buffer writeOffset offset).isSome := by
  induction fuel generalizing world offset with
  | zero => omega
  | succ fuel ih =>
    rw [World.completeRecords]
    split
    case isFalse => rfl
    case isTrue more =>
      rw [UInt64.lt_iff_toNat_lt] at more
      have advance (amount : ℕ) (positive : 0 < amount)
          (small : amount ≤ 0x30) : writeOffset.toNat -
            (offset + UInt64.ofNat amount).toNat < fuel := by
        rw [Word64.toNat_add_ofNat _ _ (by omega)]
        omega
      split
      · rfl
      · split_ifs
        · exact ih (advance _ (by decide) (by decide))
        · split
          · rfl
          · exact ih (advance _ (by decide) (by decide))
        · split
          · rfl
          · exact ih (advance _ (by decide) (by decide))
        · rfl

end Walks

section Appending

variable {world : World} {commandBuffer buffer size : UInt64}

/-- A command buffer holds the records of some operations, in order and behind
one another. -/
structure Recorded (world : World) (commandBuffer buffer size : UInt64)
    (operations : List AppendOperation) : Prop where
  registered : world.commandBuffers commandBuffer =
    some ⟨buffer, size, UInt64.ofNat (recordsLength operations),
      UInt64.ofNat operations.length⟩
  fits : recordsLength operations ≤ size.toNat
  laid : Laid world.memory buffer 0 operations

theorem append_eq (world : World) (commandBuffer : UInt64) (operation : AppendOperation) :
    world.append commandBuffer operation =
      world.appendCommandBufferRecord commandBuffer operation.record := by
  cases operation <;> rfl

variable {state : CommandBufferState}

theorem tryGetCommandBufferState_registered
    (registered : world.commandBuffers commandBuffer = some state) :
    world.tryGetCommandBufferState commandBuffer = some (state, world) := by
  rw [World.tryGetCommandBufferState, registered]

variable {operation : AppendOperation}

theorem append_failed (registered : world.commandBuffers commandBuffer = some state)
    (failed : (world.append commandBuffer operation).1 = false) :
    (world.append commandBuffer operation).2 = world := by
  rw [append_eq, World.appendCommandBufferRecord,
    tryGetCommandBufferState_registered registered] at failed ⊢
  simp only at failed ⊢
  split at failed
  · rw [if_pos ‹_›]
  · rw [if_neg ‹_›]
    split at failed
    · simp only [*]
    · cases failed

theorem append_succeeded (registered : world.commandBuffers commandBuffer = some state)
    (appended : (world.append commandBuffer operation).1 = true) :
    state.writeOffset.toNat + operation.record.length ≤ state.size.toNat ∧
      (world.append commandBuffer operation).2 = { world with
          memory := world.memory.write (state.buffer + state.writeOffset)
            operation.record }.setCommandBuffer commandBuffer
          { state with
            writeOffset := state.writeOffset + UInt64.ofNat operation.record.length
            commandCount := state.commandCount + 1 } := by
  have short := operation.record_length_bounds.2
  rw [append_eq, World.appendCommandBufferRecord,
    tryGetCommandBufferState_registered registered] at appended ⊢
  simp only at appended ⊢
  split at appended
  · cases appended
  · rename_i accepted
    rw [if_neg accepted]
    rw [GuestMemory.tryWrite] at appended ⊢
    split at appended
    · cases appended
    · rename_i memory written
      rw [Option.ite_none_right_eq_some] at written
      obtain ⟨_, written⟩ := written
      cases written
      push Not at accepted
      obtain ⟨_, inside, enoughLeft⟩ := accepted
      rw [UInt64.le_iff_toNat_le, UInt64.toNat_sub_of_le _ _ inside,
        UInt64.toNat_ofNat', Nat.mod_eq_of_lt (by omega)] at enoughLeft
      rw [UInt64.le_iff_toNat_le] at inside
      exact ⟨by omega, rfl⟩

variable {operations : List AppendOperation}

theorem Recorded.append (recorded : Recorded world commandBuffer buffer size operations)
    (appended : (world.append commandBuffer operation).1 = true) :
    Recorded (world.append commandBuffer operation).2 commandBuffer buffer size
      (operations ++ [operation]) := by
  have sizeBound := size.toNat_lt
  have fits := recorded.fits
  obtain ⟨room, next⟩ := append_succeeded recorded.registered appended
  simp only [UInt64.toNat_ofNat'] at room
  rw [Nat.mod_eq_of_lt (by omega)] at room
  rw [next]
  constructor
  · simp [World.setCommandBuffer]
  · rw [recordsLength_append, recordsLength_cons, recordsLength_nil]
    exact room
  · apply Laid.snoc
    · apply recorded.laid.agree
      intro index _ below
      apply write_bytes_outside
      rw [toNat_sub_bytes buffer (by omega) (by omega)]
      omega
    · rw [Nat.zero_add]
      exact RecordAt.write (by omega)

theorem Recorded.appendAll (recorded : Recorded world commandBuffer buffer size operations)
    (requests : List AppendOperation) :
    Recorded (world.appendAll commandBuffer requests).1 commandBuffer buffer
      size (operations ++ (world.appendAll commandBuffer requests).2) := by
  induction requests generalizing world operations with
  | nil =>
    rw [World.appendAll, List.append_nil]
    exact recorded
  | cons request rest ih =>
    rw [World.appendAll]
    rcases appended : (world.append commandBuffer request).1 with _ | _
    · have unchanged := append_failed recorded.registered appended
      simp only [appended, unchanged, Bool.false_eq_true, if_false]
      exact ih recorded
    · have next := ih (recorded.append appended)
      simp only [appended, if_true]
      rw [List.append_assoc, List.singleton_append] at next
      exact next

/-- A command buffer opened empty and given any append operations stays within
its size, and completion performs what was appended. -/
theorem appended_records_replayed (commandBuffer buffer size : UInt64)
    (world : World) (opened : Opened world commandBuffer buffer size)
    (requests : List AppendOperation) :
    ∃ state, (world.appendAll commandBuffer requests).1.commandBuffers commandBuffer = some state ∧
        state.buffer = buffer ∧ state.size = size ∧
        state.writeOffset ≤ state.size ∧
        state.commandCount.toNat = (world.appendAll commandBuffer requests).2.length ∧
        (∀ operation, ((world.appendAll commandBuffer requests).1.append commandBuffer
            operation).1 = false →
          ((world.appendAll commandBuffer requests).1.append commandBuffer
            operation).2 = (world.appendAll commandBuffer requests).1) ∧
        (state.writeOffset.toNat + 0x30 ≤ 2 ^ 64 → ∀ fuel, state.writeOffset.toNat < fuel →
            ((world.appendAll commandBuffer requests).1.completeCommandBuffer
              fuel commandBuffer).isSome) ∧
        (Undisturbed buffer 0 (world.appendAll commandBuffer requests).2 →
          ∀ fuel, (world.appendAll commandBuffer requests).2.length < fuel →
            (world.appendAll commandBuffer requests).1.completeCommandBuffer fuel commandBuffer =
              some ((world.appendAll commandBuffer requests).1.replay buffer 0
                (world.appendAll commandBuffer requests).2)) := by
  have empty : Recorded world commandBuffer buffer size [] :=
    ⟨opened.2, by simp, trivial⟩
  have recorded := empty.appendAll requests
  rw [List.nil_append] at recorded
  generalize world.appendAll commandBuffer requests = ended at recorded ⊢
  obtain ⟨final, appended⟩ := ended
  simp only at recorded ⊢
  have sizeBound := size.toNat_lt
  have fits := recorded.fits
  have counted := length_le_recordsLength appended
  have offset_eq : (UInt64.ofNat (recordsLength appended)).toNat =
      recordsLength appended := by
    rw [UInt64.toNat_ofNat', Nat.mod_eq_of_lt (by omega)]
  refine ⟨_, recorded.registered, rfl, rfl, ?_, ?_, ?_, ?_, ?_⟩
  · rw [UInt64.le_iff_toNat_le, offset_eq]
    exact fits
  · rw [UInt64.toNat_ofNat', Nat.mod_eq_of_lt (by omega)]
  · intro operation failed
    exact append_failed recorded.registered failed
  · intro roomBehind fuel enough
    rw [World.completeCommandBuffer, if_neg opened.1,
      tryGetCommandBufferState_registered recorded.registered]
    apply completeRecords_terminates roomBehind
    omega
  · intro undisturbed fuel enough
    rw [World.completeCommandBuffer, if_neg opened.1,
      tryGetCommandBufferState_registered recorded.registered]
    apply completeRecords_replay recorded.laid undisturbed _ enough
    rw [offset_eq, Nat.zero_add]

def zeroMemory : GuestMemory := ⟨fun _ => 0, fun _ _ => true, fun _ _ => true⟩

def sampleWorld : World where
  memory := zeroMemory
  commandBuffers := fun commandBuffer =>
    if commandBuffer = 0x1000 then some ⟨0x2000, 0x60, 0, 0⟩ else none
  eventQueues := fun handle => handle = 7
  pendingEvents := fun _ => []

theorem appended_records_replayed_sample :
    ∃ state, (sampleWorld.appendAll 0x1000 [.writeAddress 0x3000 5,
      .kernelEventQueue 7 1 2 3, .readFile 1 0 0 0 0]).1.commandBuffers
        0x1000 = some state ∧ state.commandCount.toNat = 2 := by
  obtain ⟨state, registered, _, _, _, counted, _⟩ :=
    appended_records_replayed 0x1000 0x2000 0x60 sampleWorld
      ⟨by decide, by decide⟩ [.writeAddress 0x3000 5,
        .kernelEventQueue 7 1 2 3, .readFile 1 0 0 0 0]
  refine ⟨state, registered, counted.trans ?_⟩
  decide +kernel

/-- The first record writes zero over the type of the second: both were
appended, and completion ends at the second without queueing its event. -/
theorem completion_stops_at_overwritten_record : Opened sampleWorld 0x1000 0x2000 0x60 ∧
      (sampleWorld.appendAll 0x1000 [.writeAddress 0x2020 0, .kernelEventQueue 7 1 2 3]).2 =
          [.writeAddress 0x2020 0, .kernelEventQueue 7 1 2 3] ∧
      ((sampleWorld.appendAll 0x1000 [.writeAddress 0x2020 0,
        .kernelEventQueue 7 1 2 3]).1.completeCommandBuffer 3 0x1000).map
          (fun ended => (ended.1, ended.2.pendingEvents 7)) =
        some (.invalidArgument, []) := by
  refine ⟨⟨by decide, by decide⟩, ?_, ?_⟩
  · decide +kernel
  · decide +kernel

end Appending

section Opening

variable {world opened : World} {commandBuffer buffer size aux0 aux1 : UInt64}

theorem commandBufferSetBuffer_opens
    (succeeds : world.commandBufferSetBuffer commandBuffer buffer size = (.ok, opened)) :
    Opened opened commandBuffer buffer size := by
  rw [World.commandBufferSetBuffer] at succeeds
  split at succeeds
  · cases succeeds
  · rename_i nonzero
    rw [World.writeCommandBufferPointers] at succeeds
    rcases visible : world.writeVisibleCommandBufferPointers commandBuffer
        buffer size with _ | written
    · rw [visible] at succeeds
      cases succeeds
    · rw [visible] at succeeds
      cases succeeds
      exact ⟨nonzero, Function.update_self _ _ _⟩

theorem commandBufferReset_opens
    (succeeds : world.commandBufferReset commandBuffer = (.ok, opened)) :
    ∃ buffer size, Opened opened commandBuffer buffer size := by
  rw [World.commandBufferReset] at succeeds
  split at succeeds
  · cases succeeds
  · rename_i nonzero
    split at succeeds
    · cases succeeds
    · rename_i bufferPointers wasRead
      refine ⟨bufferPointers.readUInt64LittleEndian 0, bufferPointers.readUInt64LittleEndian 8, ?_⟩
      apply commandBufferSetBuffer_opens
      rw [World.commandBufferSetBuffer, if_neg nonzero]
      exact succeeds

theorem initializeCommandBuffer_opens {clear : Bool} (nonzero : commandBuffer ≠ 0)
    (succeeds : world.initializeCommandBuffer commandBuffer buffer size aux0
      aux1 clear = some opened) :
    ∃ buffer size, Opened opened commandBuffer buffer size := by
  simp only [World.initializeCommandBuffer] at succeeds
  split at succeeds
  · rw [Option.map_eq_some_iff] at succeeds
    obtain ⟨memory, _, rfl⟩ := succeeds
    exact ⟨buffer, size, nonzero, Function.update_self _ _ _⟩
  · split at succeeds
    · cases succeeds
    · rw [Option.map_eq_some_iff] at succeeds
      obtain ⟨memory, _, rfl⟩ := succeeds
      exact ⟨_, _, nonzero, Function.update_self _ _ _⟩

theorem commandBufferConstructor_opens (nonzero : commandBuffer ≠ 0)
    (succeeds : world.commandBufferConstructor commandBuffer buffer size = (.ok, opened)) :
    ∃ buffer size, Opened opened commandBuffer buffer size := by
  rw [World.commandBufferConstructor, if_neg nonzero] at succeeds
  split at succeeds
  · cases succeeds
  · rename_i initialized isInitialized
    cases succeeds
    exact initializeCommandBuffer_opens nonzero isInitialized

theorem aprCommandBufferConstructor_opens (nonzero : commandBuffer ≠ 0)
    (succeeds : world.aprCommandBufferConstructor commandBuffer aux0 aux1 = (.ok, opened)) :
    ∃ buffer size, Opened opened commandBuffer buffer size := by
  rw [World.aprCommandBufferConstructor, if_neg nonzero] at succeeds
  split at succeeds
  · cases succeeds
  · rename_i initialized isInitialized
    cases succeeds
    exact initializeCommandBuffer_opens nonzero isInitialized

end Opening

end SharpEmu.Ampr
