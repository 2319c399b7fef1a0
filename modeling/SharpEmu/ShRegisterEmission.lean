import SharpEmu.AgcPacketBuilderRuns
import SharpEmu.ShRegisterPackets

/-!
# Emitting register packets

With room behind the cursor that lies apart from the header of the command
buffer, every reservation succeeds without the guest's callback, and the packets
of all runs lie one behind the other from the first cursor on.
-/

namespace SharpEmu.Agc.PacketBuilders

open Addressed

variable {tryCallGuestFunction : GuestCallback} {commandBuffer : UInt64}

theorem run_writeAll {memory after : GuardedMemory} {address : UInt64}
    {values : List UInt32} (writes : Writes memory address values after)
    (next : PacketBuilder) :
    (run tryCallGuestFunction commandBuffer (writeAll address values next) memory).memory =
      (run tryCallGuestFunction commandBuffer next after).memory := by
  induction values generalizing memory address with
  | nil =>
    cases writes
    rfl
  | cons value rest ih =>
    obtain ⟨between, written, more⟩ := writes
    rw [writeAll, run]
    simp only [written]
    exact ih more

theorem toNat_getRemainingCommandDwords (cursorUp cursorDown : UInt64) (reservedDwords : UInt32) :
    (getRemainingCommandDwords cursorUp cursorDown reservedDwords).toNat =
      min ((cursorDown.toNat - cursorUp.toNat) / 4) 0xFFFFFFFF -
        reservedDwords.toNat := by
  have reservedLt := reservedDwords.toNat_lt
  have largest : (0xFFFFFFFF : UInt64).toNat = 0xFFFFFFFF := rfl
  have four : (4 : UInt64).toNat = 4 := rfl
  have available : (if cursorUp ≤ cursorDown then
      min ((cursorDown - cursorUp) / 4) 0xFFFFFFFF else 0 : UInt64).toNat =
      min ((cursorDown.toNat - cursorUp.toNat) / 4) 0xFFFFFFFF := by
    by_cases ordered : cursorUp ≤ cursorDown
    · have difference : ((cursorDown - cursorUp) / 4).toNat =
          (cursorDown.toNat - cursorUp.toNat) / 4 := by
        rw [UInt64.toNat_div, UInt64.toNat_sub_of_le _ _ ordered, four]
      rw [if_pos ordered, ← difference, ← largest]
      rcases UInt64.le_total ((cursorDown - cursorUp) / 4) 0xFFFFFFFF with
        fewer | more
      · rw [Nat.min_eq_left (UInt64.le_iff_toNat_le.mp fewer)]
        exact congrArg UInt64.toNat (if_pos fewer)
      · rw [Nat.min_eq_right (UInt64.le_iff_toNat_le.mp more)]
        change (if (cursorDown - cursorUp) / 4 ≤ 0xFFFFFFFF then
          (cursorDown - cursorUp) / 4 else 0xFFFFFFFF : UInt64).toNat = _
        split
        next fewer => rw [UInt64.le_antisymm fewer more]
        next => rfl
    · rw [if_neg ordered]
      rw [UInt64.le_iff_toNat_le, Nat.not_le] at ordered
      rw [Nat.sub_eq_zero_of_le ordered.le]
      rfl
  rw [getRemainingCommandDwords]
  generalize (if cursorUp ≤ cursorDown then
      min ((cursorDown - cursorUp) / 4) 0xFFFFFFFF else 0 : UInt64) = found
    at available ⊢
  have foundLt : found.toNat < 2 ^ 32 := by
    rw [available]
    omega
  rw [← available]
  split
  next more =>
    rw [UInt64.lt_iff_toNat_lt, UInt32.toNat_toUInt64] at more
    rw [UInt32.toNat_sub, UInt64.toNat_toUInt32]
    omega
  next fewer =>
    rw [UInt64.lt_iff_toNat_lt, UInt32.toNat_toUInt64] at fewer
    rw [UInt32.toNat_zero]
    omega

structure Ready (commandBuffer : UInt64) (memory : GuardedMemory)
    (position : UInt64) (dwords : ℕ) : Prop where
  header : ∃ header, readHeader memory commandBuffer = some header ∧
    header.cursorUp = position ∧
    dwords ≤ (getRemainingCommandDwords header.cursorUp header.cursorDown
      header.reservedDwords).toNat
  cursor : memory.CanWrite (commandBuffer + commandBufferCursorUpOffset) 8
  packets : memory.CanWrite position (4 * dwords)
  apart : Apart position (4 * dwords)
    (commandBuffer + commandBufferCursorUpOffset) 36

theorem header_offsets (commandBuffer : UInt64) : commandBuffer + commandBufferCursorDownOffset =
        commandBuffer + commandBufferCursorUpOffset + 8 ∧
      commandBuffer + commandBufferCallbackOffset =
        commandBuffer + commandBufferCursorUpOffset + 16 ∧
      commandBuffer + commandBufferUserDataOffset =
        commandBuffer + commandBufferCursorUpOffset + 24 ∧
      commandBuffer + commandBufferReservedDwOffset =
        commandBuffer + commandBufferCursorUpOffset + 32 := by
  simp only [UInt64.add_assoc]
  exact ⟨rfl, rfl, rfl, rfl⟩

theorem readBytes_offset_congr {memory other : GuardedMemory} {start : UInt64} {total : ℕ}
    (same : ∀ index < total, other.bytes (start + .ofNat index) =
      memory.bytes (start + .ofNat index))
    (offset : UInt64) {count : ℕ} (inside : offset.toNat + count ≤ total) :
    readBytes other.bytes (start + offset) count =
      readBytes memory.bytes (start + offset) count := by
  apply readBytes_congr
  intro index isInside
  have isSum : start + offset + .ofNat index = start + .ofNat (offset.toNat + index) := by
    rw [UInt64.ofNat_add, UInt64.ofNat_toNat, UInt64.add_assoc]
  rw [isSum]
  exact same _ (by omega)

theorem readHeader_congr {memory other : GuardedMemory} (same : ∀ index < 36,
      other.bytes (commandBuffer + commandBufferCursorUpOffset + .ofNat index) =
        memory.bytes (commandBuffer + commandBufferCursorUpOffset + .ofNat index)) :
    readHeader other commandBuffer = readHeader memory commandBuffer := by
  have cursorUp : readBytes other.bytes (commandBuffer + commandBufferCursorUpOffset) 8 =
      readBytes memory.bytes (commandBuffer + commandBufferCursorUpOffset) 8 :=
    readBytes_congr fun index inside => same index (by omega)
  obtain ⟨down, callback, user, reserved⟩ := header_offsets commandBuffer
  simp only [readHeader, GuardedMemory.tryReadUInt64, tryReadUInt32, readWord,
    down, callback, user, reserved, cursorUp,
    readBytes_offset_congr same 8 (show 8 + 8 ≤ 36 by decide),
    readBytes_offset_congr same 16 (show 16 + 8 ≤ 36 by decide),
    readBytes_offset_congr same 24 (show 24 + 8 ≤ 36 by decide),
    readBytes_offset_congr same 32 (show 32 + 4 ≤ 36 by decide)]

theorem readHeader_of_tryWriteUInt64 {memory after : GuardedMemory}
    {header : CommandBufferHeader} {cursorUp : UInt64}
    (isHeader : readHeader memory commandBuffer = some header)
    (written : memory.tryWriteUInt64
      (commandBuffer + commandBufferCursorUpOffset) cursorUp = some after) :
    readHeader after commandBuffer = some { header with cursorUp := cursorUp } := by
  have kept (offset : UInt64) (count : ℕ) (low : 8 ≤ offset.toNat)
      (high : offset.toNat + count ≤ 36) :
      readBytes after.bytes (commandBuffer + commandBufferCursorUpOffset + offset) count =
        readBytes memory.bytes (commandBuffer + commandBufferCursorUpOffset + offset) count := by
    apply GuardedMemory.readBytes_of_tryWrite_apart written
    · rw [length_bytesOf]
      decide
    · rw [length_bytesOf]
      have apart : Apart (commandBuffer + commandBufferCursorUpOffset + 0) 8
          (commandBuffer + commandBufferCursorUpOffset + offset) count :=
        apart_of_offsets_lt_half _ (Or.inl low) (by decide) (by omega)
      rw [UInt64.add_zero] at apart
      exact apart
  have moved := tryReadUInt64_of_tryWriteUInt64 written
  obtain ⟨down, callback, user, reserved⟩ := header_offsets commandBuffer
  simp only [readHeader, Option.bind_eq_bind, Option.pure_def,
    Option.bind_eq_some_iff, Option.some.injEq] at isHeader ⊢
  obtain ⟨_, -, cursorDown, isDown, callback', isCallback, userData, isUser,
    reservedDwords, isReserved, rfl⟩ := isHeader
  refine ⟨cursorUp, moved, cursorDown, ?_, callback', ?_, userData, ?_, reservedDwords, ?_, rfl⟩
  · rw [down] at isDown ⊢
    rw [GuardedMemory.tryReadUInt64, readWord, kept 8 8 (by decide) (by decide)]
    exact isDown
  · rw [callback] at isCallback ⊢
    rw [GuardedMemory.tryReadUInt64, readWord, kept 16 8 (by decide) (by decide)]
    exact isCallback
  · rw [user] at isUser ⊢
    rw [GuardedMemory.tryReadUInt64, readWord, kept 24 8 (by decide) (by decide)]
    exact isUser
  · rw [reserved] at isReserved ⊢
    rw [tryReadUInt32, readWord, kept 32 4 (by decide) (by decide)]
    exact isReserved

theorem sub_add_ofNat (start : UInt64) (index : ℕ) :
    start + .ofNat index - start = .ofNat index := by
  rw [UInt64.add_comm, UInt64.add_sub_cancel]

theorem outside_of_fewer {start other : UInt64} {count total : ℕ}
    (outside : inRange start total other = false) (fits : count ≤ total) :
    inRange start count other = false := by
  simp only [inRange, decide_eq_false_iff_not] at outside ⊢
  omega

theorem outside_of_part {start other : UInt64} {offset count total : ℕ}
    (outside : inRange start total other = false)
    (fits : offset + count ≤ total) (small : total ≤ 2 ^ 63) :
    inRange (start + .ofNat offset) count other = false := by
  cases isInside : inRange (start + .ofNat offset) count other with
  | false => rfl
  | true =>
    obtain ⟨index, inside, rfl⟩ := exists_index_of_inRange isInside
    rw [UInt64.add_assoc, ← UInt64.ofNat_add, inRange, sub_add_ofNat,
      decide_eq_false_iff_not, UInt64.toNat_ofNat'] at outside
    omega

theorem apart_symm {first second : UInt64} {count otherCount : ℕ}
    (apart : Apart first count second otherCount) (small : count ≤ 2 ^ 64) :
    Apart second otherCount first count := by
  intro index inside
  cases isInside : inRange second otherCount (first + .ofNat index) with
  | false => rfl
  | true =>
    obtain ⟨other, otherInside, same⟩ := exists_index_of_inRange isInside
    have outside := apart other otherInside
    rw [← same, inRange, sub_add_ofNat, decide_eq_false_iff_not, UInt64.toNat_ofNat'] at outside
    omega

variable (tryCallGuestFunction) in
theorem Ready.step {memory : GuardedMemory} {position : UInt64} {dwords : ℕ}
    (ready : Ready commandBuffer memory position dwords) (small : dwords < 2 ^ 32)
    (values : List UInt32) (some' : values ≠ [])
    (fits : values.length ≤ dwords) :
    ∃ reserved final, tryAllocateCommandDwords tryCallGuestFunction memory commandBuffer
          (UInt32.ofNat values.length) = ⟨reserved, false, some position⟩ ∧
        Writes reserved position values final ∧
        Ready commandBuffer final (position + .ofNat (4 * values.length)) (dwords - values.length) ∧
        ∀ other, inRange position (4 * values.length) other = false →
          inRange (commandBuffer + commandBufferCursorUpOffset) 8 other = false →
          final.bytes other = memory.bytes other := by
  obtain ⟨⟨header, isHeader, rfl, room⟩, cursor, packets, apart⟩ := ready
  have positive : 0 < values.length := List.length_pos_iff.mpr some'
  have size : (UInt32.ofNat values.length).toNat = values.length := by
    rw [UInt32.toNat_ofNat']
    exact Nat.mod_eq_of_lt (by omega)
  have moved : header.cursorUp + (UInt32.ofNat values.length).toUInt64 * 4 =
        header.cursorUp + .ofNat (4 * values.length) := by
    have bytes : (UInt32.ofNat values.length).toUInt64 * 4 = .ofNat (4 * values.length) := by
      apply UInt64.toNat_inj.mp
      rw [UInt64.toNat_mul, UInt32.toNat_toUInt64, size, UInt64.toNat_ofNat', Nat.mul_comm]
      rfl
    rw [bytes]
  have succeeds : (memory.tryWriteUInt64 (commandBuffer + commandBufferCursorUpOffset)
      (header.cursorUp + .ofNat (4 * values.length))).isSome := by
    rw [GuardedMemory.tryWriteUInt64, GuardedMemory.isSome_tryWrite, length_bytesOf]
    exact cursor
  obtain ⟨reserved, written⟩ := Option.isSome_iff_exists.mp succeeds
  have sameReserved := GuardedMemory.sameAccess_of_tryWrite written
  have canWrite : reserved.CanWrite header.cursorUp (4 * values.length) :=
    sameReserved.canWrite_iff.mpr fun index inside =>
      packets index (by omega)
  obtain ⟨final, writes⟩ := exists_writes values canWrite
  have sameFinal := sameReserved.trans writes.sameAccess
  have headerKept : readHeader final commandBuffer =
      readHeader reserved commandBuffer := by
    apply readHeader_congr
    intro index inside
    apply writes.outside
    exact outside_of_fewer (apart index inside) (by omega)
  have headerFinal := headerKept.trans (readHeader_of_tryWriteUInt64 isHeader written)
  refine ⟨reserved, final, ?_, writes, ⟨⟨_, headerFinal, rfl, ?_⟩,
    sameFinal.canWrite_iff.mpr cursor, ?_, ?_⟩, ?_⟩
  · have notEmpty : UInt32.ofNat values.length ≠ 0 := by
      intro zero
      rw [zero] at size
      exact absurd size.symm (by simpa using positive.ne')
    have enough : ¬getRemainingCommandDwords header.cursorUp header.cursorDown
        header.reservedDwords < UInt32.ofNat values.length := by
      rw [UInt32.lt_iff_toNat_lt, size]
      omega
    rw [tryAllocateCommandDwords, if_neg notEmpty]
    simp only [isHeader, if_neg enough, storeCursor, moved, written]
  · rw [toNat_getRemainingCommandDwords] at room ⊢
    have behind : (header.cursorUp + .ofNat (4 * values.length)).toNat =
        header.cursorUp.toNat + 4 * values.length := by
      have downLt := header.cursorDown.toNat_lt
      rw [UInt64.toNat_add, UInt64.toNat_ofNat']
      omega
    dsimp only
    rw [behind]
    omega
  · apply sameFinal.canWrite_iff.mpr
    intro index inside
    rw [UInt64.add_assoc, ← UInt64.ofNat_add]
    exact packets _ (by omega)
  · intro index inside
    exact outside_of_part (apart index inside) (by omega) (by omega)
  · intro other outside notCursor
    rw [writes.outside outside]
    refine GuardedMemory.tryWrite_outside written ?_ ?_
    · rw [length_bytesOf]
      decide
    · rw [length_bytesOf]
      exact notCursor

/-! ### All packets of a call -/

def splitRuns : ℕ → List RegisterDefaultValue →
    List (RegisterDefaultValue × List RegisterDefaultValue)
  | 0, _ => []
  | _ + 1, [] => []
  | turns + 1, head :: rest =>
      (head, (takeRun head rest).1) :: splitRuns turns (takeRun head rest).2

def packetDwords (runs : List (RegisterDefaultValue × List RegisterDefaultValue)) :
    List UInt32 :=
  runs.flatMap fun entries => runDwords entries.1 entries.2

theorem length_runDwords (head : RegisterDefaultValue) (tail : List RegisterDefaultValue) :
    (runDwords head tail).length = tail.length + 3 := by
  simp [runDwords]

theorem ofNat_length_runDwords (head : RegisterDefaultValue) (tail : List RegisterDefaultValue) :
    UInt32.ofNat (tail.length + 1) + 2 = UInt32.ofNat (runDwords head tail).length := by
  rw [length_runDwords, UInt32.ofNat_add, UInt32.ofNat_add, UInt32.add_assoc]
  rfl

/-- Where a packet ends and the next one begins. -/
theorem position_append (position : UInt64) (front back : ℕ) :
    position + .ofNat (4 * front) + .ofNat (4 * back) = position + .ofNat (4 * (front + back)) := by
  rw [UInt64.add_assoc, ← UInt64.ofNat_add, Nat.mul_add]

theorem Ready.cursor_eq {memory : GuardedMemory} {position : UInt64}
    {dwords : ℕ} (ready : Ready commandBuffer memory position dwords) :
    PacketBuilders.cursor commandBuffer memory = some position := by
  obtain ⟨⟨header, isHeader, rfl, -⟩, -, -, -⟩ := ready
  exact cursor_of_readHeader isHeader

variable (tryCallGuestFunction) in
theorem run_emitRuns (turns : ℕ) (registers : List RegisterDefaultValue)
    (firstCommandAddress : UInt64) {memory : GuardedMemory} {position : UInt64}
    {dwords : ℕ} (ready : Ready commandBuffer memory position dwords)
    (small : dwords < 2 ^ 30)
    (fits : (packetDwords (splitRuns turns registers)).length ≤ dwords) :
    let final := (run tryCallGuestFunction commandBuffer
      (emitRuns turns registers firstCommandAddress) memory).memory
    Holds final position (packetDwords (splitRuns turns registers)) ∧
      cursor commandBuffer final = some (position +
        .ofNat (4 * (packetDwords (splitRuns turns registers)).length)) ∧
      ∀ other, inRange position (4 * dwords) other = false →
        inRange (commandBuffer + commandBufferCursorUpOffset) 8 other = false →
        final.bytes other = memory.bytes other := by
  have unmoved {memory : GuardedMemory} {position : UInt64} {dwords : ℕ}
      (ready : Ready commandBuffer memory position dwords) :
      cursor commandBuffer memory = some (position + .ofNat (4 * 0)) :=
    ready.cursor_eq.trans (congrArg some (UInt64.add_zero _).symm)
  induction turns generalizing registers firstCommandAddress memory position dwords with
  | zero => exact ⟨trivial, unmoved ready, fun _ _ _ => rfl⟩
  | succ turns ih =>
    cases registers with
    | nil => exact ⟨trivial, unmoved ready, fun _ _ _ => rfl⟩
    | cons head rest =>
      have isSplit : packetDwords (splitRuns (turns + 1) (head :: rest)) =
          runDwords head (takeRun head rest).1 ++
            packetDwords (splitRuns turns (takeRun head rest).2) := rfl
      rw [isSplit, List.length_append] at fits
      obtain ⟨reserved, between, allocated, writes, behind, firstFrame⟩ :=
        ready.step tryCallGuestFunction (by omega)
          (runDwords head (takeRun head rest).1) (List.cons_ne_nil _ _)
          (by omega)
      obtain ⟨more, moved, frame⟩ := ih (takeRun head rest).2
        (if firstCommandAddress = 0 then position
          else firstCommandAddress) behind (by omega) (by omega)
      have isRun : (run tryCallGuestFunction commandBuffer
          (emitRuns (turns + 1) (head :: rest) firstCommandAddress)
          memory).memory = (run tryCallGuestFunction commandBuffer
            (emitRuns turns (takeRun head rest).2 (if firstCommandAddress = 0 then position
                else firstCommandAddress)) between).memory := by
        rw [← ofNat_length_runDwords] at allocated
        rw [emitRuns, run]
        simp only [allocated]
        exact run_writeAll writes _
      simp only [isRun, isSplit, List.length_append]
      have laterApart : Apart (position + .ofNat (4 * (runDwords head
            (takeRun head rest).1).length))
          (4 * (dwords - (runDwords head (takeRun head rest).1).length))
          (position + 0)
          (4 * (runDwords head (takeRun head rest).1).length) := by
        apply apart_of_offsets_lt_half
        · right
          rw [UInt64.toNat_zero, UInt64.toNat_ofNat']
          omega
        · rw [UInt64.toNat_ofNat']
          omega
        · rw [UInt64.toNat_zero]
          omega
      rw [UInt64.add_zero] at laterApart
      have headerApart := apart_symm ready.apart (by omega)
      refine ⟨holds_append.mpr ⟨?_, more⟩, ?_, ?_⟩
      · have here := writes.holds (by omega)
        apply here.congr
        intro index inside
        apply frame
        · exact laterApart index inside
        · exact outside_of_fewer (headerApart index (by omega)) (by decide)
      · rw [moved, position_append]
      · intro other outside notCursor
        rw [frame other (outside_of_part outside (by omega) (by omega)) notCursor,
          firstFrame other (outside_of_fewer outside (by omega)) notCursor]

end SharpEmu.Agc.PacketBuilders
