import SharpEmu.StoredRanges
import SharpEmu.SubmittedDraws

/-!
# The parameters that draw packets prescribe

A draw packet and the state packets before it prescribe a draw.  The renderer
gets it as prescribed when the packet asks for nothing that the parser leaves
out: an index base of its own, a record that differs from the state, a vertex
or instance to start from.
-/

namespace SharpEmu.Agc.Draws

open Addressed PacketBuilders

inductive DrawOperands
  | auto (count : UInt32)
  | index2 (base : UInt64) (count : UInt32)
  | indexOffset2 (firstIndex count : UInt32)
  | indirect (count instanceCount firstVertex firstInstance : UInt32)
  | indexIndirect
      (count instanceCount firstIndex baseVertex firstInstance : UInt32)

def readDrawOperands (context : DrawContext) (packet : SubmittedPacket) :
    DrawKind → Option DrawOperands
  | .nopAuto | .auto => (packet.dword 1).map .auto
  | .multiAuto =>
      (packet.dword 3).map fun control : UInt32 =>
        .auto ((control >>> 21) &&& 0x7FF)
  | .index2 => do
      let low ← packet.dword 2
      let high ← packet.dword 3
      let count ← packet.dword 4
      return .index2 (wideAddress low high) count
  | .indexOffset2 => do
      let firstIndex ← packet.dword 2
      let count ← packet.dword 3
      return .indexOffset2 firstIndex count
  | .indirect => do
      let dataOffset ← packet.dword 1
      let record := context.indirectArgsAddress + dataOffset.toUInt64
      let count ← tryReadUInt32 packet.memory record
      let instanceCount ← tryReadUInt32 packet.memory (record + 4)
      let firstVertex ← tryReadUInt32 packet.memory (record + 8)
      let firstInstance ← tryReadUInt32 packet.memory (record + 12)
      return .indirect count instanceCount firstVertex firstInstance
  | .indexIndirect => do
      let dataOffset ← packet.dword 1
      let record := context.indirectArgsAddress + dataOffset.toUInt64
      let count ← tryReadUInt32 packet.memory record
      let instanceCount ← tryReadUInt32 packet.memory (record + 4)
      let firstIndex ← tryReadUInt32 packet.memory (record + 8)
      let baseVertex ← tryReadUInt32 packet.memory (record + 12)
      let firstInstance ← tryReadUInt32 packet.memory (record + 16)
      return .indexIndirect count instanceCount firstIndex baseVertex firstInstance

structure IndexSource where
  base : UInt64
  firstIndex : UInt32

structure DrawParameters where
  count : UInt32
  instanceCount : UInt32
  indices : Option IndexSource
  /-- What is added to the number of every vertex. -/
  baseVertex : UInt32
  firstInstance : UInt32

def DrawOperands.parameters (context : DrawContext) : DrawOperands → DrawParameters
  | .auto count => ⟨count, context.instanceCount, none, 0, 0⟩
  | .index2 base count => ⟨count, context.instanceCount, some ⟨base, 0⟩, 0, 0⟩
  | .indexOffset2 firstIndex count =>
      ⟨count, context.instanceCount, some ⟨context.indexBufferAddress, firstIndex⟩, 0, 0⟩
  | .indirect count instanceCount firstVertex firstInstance =>
      ⟨count, instanceCount, none, firstVertex, firstInstance⟩
  | .indexIndirect count instanceCount firstIndex baseVertex firstInstance =>
      ⟨count, instanceCount, some ⟨context.indexBufferAddress, firstIndex⟩,
        baseVertex, firstInstance⟩

structure PrescribedDraw where
  memory : GuardedMemory
  context : DrawContext
  parameters : DrawParameters

/-- A draw of nothing or of no instance need not reach the renderer. -/
def prescribedDraw (context : DrawContext) (packet : SubmittedPacket) :
    Option PrescribedDraw := do
  let kind ← drawKind context packet
  let operands ← readDrawOperands context packet kind
  let parameters := operands.parameters context
  if parameters.count = 0 ∨ parameters.instanceCount = 0 then none
  else some ⟨packet.memory, context, parameters⟩

/-- What a dword tells of a packet that has this opcode and no fewer dwords. -/
def SubmittedPacket.told (packet : SubmittedPacket) (opcode dwords : UInt32) (index : UInt64) :
    Option UInt32 :=
  if packet.header.toNat / 2 ^ 8 % 2 ^ 8 = opcode.toNat ∧
      dwords.toNat ≤ packet.header.toNat / 2 ^ 16 % 2 ^ 14 + 2 then
    packet.dword index
  else none

def prescribedContext (before : DrawContext) (packet : SubmittedPacket) : DrawContext :=
  let reset := if packet.resets then .initial else before
  { registers := applySubmittedRegisters packet.memory reset.registers
      packet.address packet.length packet.op packet.register
    indirectArgsAddress :=
      if packet.told 0x11 4 1 = some 1 then
        (packet.memory.tryReadUInt64 (packet.address + 8)).getD reset.indirectArgsAddress
      else reset.indirectArgsAddress
    indexBufferAddress :=
      match packet.told 0x26 3 1, packet.told 0x26 3 2 with
      | some low, some high => .ofNat (low.toNat + 2 ^ 32 * high.toNat)
      | _, _ => reset.indexBufferAddress
    indexSize := (packet.told 0x2A 2 1).elim reset.indexSize (· % 4)
    instanceCount := (packet.told 0x2F 2 1).elim reset.instanceCount (max 1) }

def prescribedDraws : DrawContext → List SubmittedPacket → List PrescribedDraw
  | _, [] => []
  | before, packet :: rest =>
      let context := prescribedContext before packet
      (prescribedDraw context packet).toList ++ prescribedDraws context rest

/-! ### State packets -/

theorem wideAddress_eq (low high : UInt32) :
    wideAddress low high = .ofNat (low.toNat + 2 ^ 32 * high.toNat) := by
  have lowLt := low.toNat_lt
  have highLt := high.toNat_lt
  rw [wideAddress, ← UInt64.toNat_inj, UInt64.toNat_or, UInt64.toNat_shiftLeft,
    UInt32.toNat_toUInt64, UInt32.toNat_toUInt64, UInt64.toNat_ofNat', Nat.or_comm]
  change high.toNat <<< 32 % 2 ^ 64 ||| _ = _
  rw [Nat.shiftLeft_eq, Nat.mul_comm, Nat.mod_eq_of_lt (by omega), Nat.mod_eq_of_lt (by omega),
    ← Nat.two_pow_add_eq_or_of_lt lowLt, Nat.add_comm]

theorem told_eq (packet : SubmittedPacket) (opcode dwords : UInt32) (index : UInt64) :
    packet.told opcode dwords index =
      if packet.op = opcode ∧ dwords ≤ packet.length then packet.dword index else none := by
  have isOp : packet.op.toNat = packet.header.toNat / 2 ^ 8 % 2 ^ 8 := by
    rw [SubmittedPacket.op, UInt32.toNat_and, UInt32.toNat_shiftRight, ← Nat.shiftRight_eq_div_pow]
    exact Nat.and_two_pow_sub_one_eq_mod _ 8
  have isLength : packet.length.toNat = packet.header.toNat / 2 ^ 16 % 2 ^ 14 + 2 := by
    rw [SubmittedPacket.length, PacketBuilders.pm4Length, UInt32.toNat_add, UInt32.toNat_and,
      UInt32.toNat_shiftRight, ← Nat.shiftRight_eq_div_pow]
    change ((packet.header.toNat >>> 16 &&& 0x3FFF) + 2) % 2 ^ 32 = _
    rw [Nat.and_two_pow_sub_one_eq_mod _ 14]
    omega
  simp only [SubmittedPacket.told, ← isOp, ← isLength, UInt32.toNat_inj, UInt32.le_iff_toNat_le]

theorem applyStatePacket_eq (before : DrawContext) (packet : SubmittedPacket) :
    applyStatePacket before packet = prescribedContext before packet := by
  have isSize (value : UInt32) : value &&& 3 = value % 4 := by
    rw [← UInt32.toNat_inj, UInt32.toNat_and, UInt32.toNat_mod]
    exact Nat.and_two_pow_sub_one_eq_mod _ 2
  have isCount (value : UInt32) : (if value = 0 then 1 else value) = max 1 value := by
    split
    next isZero => rw [isZero]; rfl
    next more =>
      have positive : 1 ≤ value :=
        UInt32.le_iff_toNat_le.mpr (Nat.pos_of_ne_zero (UInt32.toNat_inj.not.mpr more))
      exact (if_pos positive).symm
  simp only [applyStatePacket, prescribedContext, told_eq, isSize, isCount, wideAddress_eq,
    itSetBase, itIndexBase, itIndexType, itNumInstances]
  generalize (if packet.resets then DrawContext.initial else before) = reset
  by_cases isBase : packet.op = 0x11
  · simp +decide only [isBase, false_and, true_and, if_false, Option.elim_none]
    cases packet.dword 1 with
    | none => grind
    | some => cases packet.memory.tryReadUInt64 (packet.address + 8) <;> grind
  by_cases isIndexBase : packet.op = 0x26
  · simp +decide only [isIndexBase, false_and, true_and, if_false, Option.elim_none]
    cases packet.dword 1 with
    | none => grind
    | some => cases packet.dword 2 <;> grind
  by_cases isIndexType : packet.op = 0x2A
  · simp +decide only [isIndexType, false_and, true_and, if_false, Option.elim_none]
    grind
  by_cases isNumInstances : packet.op = 0x2F
  · simp +decide only [isNumInstances, false_and, true_and, if_false, Option.elim_none]
    grind
  · simp only [isBase, isIndexBase, isIndexType, isNumInstances, false_and, if_false,
      Option.elim_none, reduceCtorEq]

/-! ### A draw as prescribed -/

/-- Indices of 16, 32 and 8 bits. -/
def elementBytes (indexSize : UInt32) : ℕ :=
  if indexSize = 0 then 2 else if indexSize = 1 then 4 else 1

/-- Strips and fans restart. -/
def restarts (primitiveType : UInt32) : Bool :=
  primitiveType = 3 || primitiveType = 5 || primitiveType = 6 || primitiveType = 0x11

def TranslatedDraw.Fetches (draw : TranslatedDraw) (vertex : UInt32) : Prop :=
  match draw.indexBuffer with
  | none => vertex < draw.vertexCount
  | some buffer =>
      vertex ∈ indexValues (bytesPerIndex buffer.is32Bit) draw.vertexCount.toNat buffer.data ∧
        ¬(restarts draw.primitiveType ∧ vertex = restartMarker buffer.is32Bit)

def TranslatedDraw.RecordsCover (draw : TranslatedDraw) : Prop :=
  ∀ vertex, draw.Fetches vertex → ∀ records ∈ draw.vertexRecords, vertex < records

def PrescribedDraw.IsIndexBuffer (prescribed : PrescribedDraw)
    (source : IndexSource) (buffer : GuestIndexBuffer) : Prop :=
  let width := elementBytes prescribed.context.indexSize
  bytesPerIndex buffer.is32Bit = width ∧ readBytes prescribed.memory.bytes
      (source.base + source.firstIndex.toUInt64 * UInt64.ofNat width)
      (prescribed.parameters.count.toNat * width) = some buffer.data

def TranslatedDraw.Carries (draw : TranslatedDraw) (prescribed : PrescribedDraw) : Prop :=
  let parameters := prescribed.parameters
  draw.vertexCount = parameters.count ∧ draw.instanceCount = parameters.instanceCount ∧
    parameters.baseVertex = 0 ∧ parameters.firstInstance = 0 ∧
    (match parameters.indices, draw.indexBuffer with
      | none, none => True
      | some source, some buffer => prescribed.IsIndexBuffer source buffer
      | _, _ => False) ∧
    draw.RecordsCover

/-! ### What the parser can follow -/

def maxDrawCount : UInt32 := 1048576

/-- The indices are of a size that is known and can be read, and none of them
is a restart marker unless the primitives restart. -/
def IndicesWithin (context : DrawContext) (memory : GuardedMemory)
    (firstIndex count : UInt32) : Prop :=
  context.indexBufferAddress ≠ 0 ∧ context.indexSize < 2 ∧ ∃ data, readBytes memory.bytes
        (indexAddress context.indexBufferAddress context.is32Bit firstIndex)
        (count.toNat * bytesPerIndex context.is32Bit) = some data ∧
      (restarts context.primitiveType ∨ restartMarker context.is32Bit ∉
          indexValues (bytesPerIndex context.is32Bit) count.toNat data)

/-- The operands ask for nothing that the parser leaves out. -/
def DrawOperands.Within (state : SubmittedDrawState) (memory : GuardedMemory) : DrawOperands → Prop
  | .auto count => count ≤ maxDrawCount
  | .index2 base count =>
      count ≤ maxDrawCount ∧ base = state.indexBufferAddress ∧
        IndicesWithin state.toDrawContext memory 0 count
  | .indexOffset2 firstIndex count =>
      count ≤ maxDrawCount ∧ IndicesWithin state.toDrawContext memory firstIndex count
  | .indirect count instanceCount firstVertex firstInstance =>
      count ≤ maxDrawCount ∧ instanceCount = state.instanceCount ∧
        firstVertex = 0 ∧ firstInstance = 0
  | .indexIndirect count instanceCount firstIndex baseVertex firstInstance =>
      count ≤ maxDrawCount ∧ instanceCount = state.instanceCount ∧
        firstIndex = state.drawIndexOffset ∧ baseVertex = 0 ∧
        firstInstance = 0 ∧
        IndicesWithin state.toDrawContext memory firstIndex count

def DrawOperands.count : DrawOperands → UInt32
  | .auto count | .index2 _ count | .indexOffset2 _ count
  | .indirect count _ _ _ | .indexIndirect count _ _ _ _ => count

def PacketWithin (state : SubmittedDrawState) (packet : SubmittedPacket) : Prop :=
  ∀ kind, drawKind state.toDrawContext packet = some kind →
    ∃ operands, readDrawOperands state.toDrawContext packet kind = some operands ∧
      (operands.count = 0 ∨ operands.Within state packet.memory)

def PacketsWithin : SubmittedDrawState → List SubmittedPacket → Prop
  | _, [] => True
  | before, packet :: rest =>
      PacketWithin (stateOf before packet) packet ∧
        PacketsWithin (submitPacket before packet).1 rest

/-! ### The indices that are looked through -/

theorem toNat_max (first second : UInt32) :
    (max first second).toNat = max first.toNat second.toNat := by
  change (if first ≤ second then second else first).toNat = _
  split
  next less => exact (max_eq_right (UInt32.le_iff_toNat_le.mp less)).symm
  next more =>
    rw [UInt32.le_iff_toNat_le, Nat.not_le] at more
    exact (max_eq_left (Nat.le_of_lt more)).symm

variable {width : ℕ} {data : List UInt8}

theorem indexValues_take {count length : ℕ} (inside : count * width ≤ length) :
    indexValues width count (data.take length) = indexValues width count data := by
  induction count generalizing data length with
  | zero => rfl
  | succ count ih =>
    rw [Nat.succ_mul] at inside
    rw [indexValues, indexValues, List.take_take,
      Nat.min_eq_left (by omega), List.drop_take, ih (by omega)]

theorem indexValues_add (width front back : ℕ) (data : List UInt8) :
    indexValues width (front + back) data = indexValues width front data ++
        indexValues width back (data.drop (front * width)) := by
  induction front generalizing data with
  | zero => rw [Nat.zero_add, Nat.zero_mul, List.drop_zero]; rfl
  | succ front ih =>
    rw [Nat.succ_add, indexValues, indexValues, ih, List.drop_drop,
      Nat.succ_mul, Nat.add_comm width, List.cons_append]

theorem scanIndices_eq {memory : GuardedMemory} {is32Bit : Bool}
    {turns remaining : ℕ} {address : UInt64}
    (seen : SeenIndices) (enough : remaining ≤ turns)
    (isRead : readBytes memory.bytes address (remaining * bytesPerIndex is32Bit) = some data) :
    scanIndices memory is32Bit turns address remaining seen =
      some ((indexValues (bytesPerIndex is32Bit) remaining data).foldl
        (.see (restartMarker is32Bit)) seen) := by
  induction turns generalizing remaining address data seen with
  | zero =>
    obtain rfl := Nat.le_zero.mp enough
    rfl
  | succ turns ih =>
    rw [scanIndices]
    split
    next done => rw [done]; rfl
    next more =>
      have chunkPositive : 0 < chunkBytes / bytesPerIndex is32Bit := by
        cases is32Bit with
        | true => decide
        | false => decide
      generalize isChunk : min remaining (chunkBytes / bytesPerIndex is32Bit) = chunk
      obtain ⟨rest, rfl⟩ : ∃ rest, remaining = chunk + rest :=
        Nat.exists_eq_add_of_le (by omega)
      rw [Nat.add_mul] at isRead
      have here := readBytes_take isRead (Nat.le_add_right (chunk * bytesPerIndex is32Bit) _)
      have behind := readBytes_drop_take isRead (Nat.le_refl _)
      simp only [here, Nat.add_sub_cancel_left]
      rw [ih _ (by omega) behind, indexValues_take (Nat.le_refl _),
        indexValues_take (Nat.le_refl _), ← List.foldl_append,
        ← indexValues_add]

theorem lt_of_mem_indexValues {count : ℕ}
    {value : UInt32} (isValue : value ∈ indexValues width count data) :
    value.toNat < 256 ^ width := by
  induction count generalizing data with
  | zero => cases isValue
  | succ count ih =>
    cases isValue with
    | head =>
      rw [UInt32.toNat_ofNat']
      calc wordOf (data.take width) % 2 ^ 32
        _ ≤ wordOf (data.take width) := Nat.mod_le _ _
        _ < 256 ^ (data.take width).length := wordOf_lt _
        _ ≤ 256 ^ width := Nat.pow_le_pow_right (by decide) (List.length_take_le _ _)
    | tail _ later => exact ih later

/-- No index is the largest number, and the maximum counts from zero. -/
structure SeenIndices.Valid (seen : SeenIndices) : Prop where
  notLargest : seen.maxIndex ≠ 0xFFFFFFFF
  zero_of_none : seen.sawIndex = false → seen.maxIndex = 0

variable {seen : SeenIndices}

theorem SeenIndices.Valid.toNat_records
    (valid : seen.Valid) : seen.records.toNat = seen.maxIndex.toNat + 1 := by
  have small := seen.maxIndex.toNat_lt
  have notLargest : seen.maxIndex.toNat ≠ 0xFFFFFFFF := fun same =>
    valid.notLargest (UInt32.toNat.inj same)
  rw [SeenIndices.records]
  split
  next =>
    rw [UInt32.toNat_add]
    exact Nat.mod_eq_of_lt (by change _ + 1 < _; omega)
  next notSeen =>
    rw [valid.zero_of_none (by simpa [valid.notLargest] using notSeen)]
    rfl

theorem foldl_see (marker : UInt32) (values : List UInt32) (valid : seen.Valid)
    (small : ∀ value ∈ values, value ≠ marker → value ≠ 0xFFFFFFFF) :
    (values.foldl (.see marker) seen).Valid ∧
      seen.maxIndex.toNat ≤ (values.foldl (.see marker) seen).maxIndex.toNat ∧
      ∀ value ∈ values, value ≠ marker →
        value.toNat ≤ (values.foldl (.see marker) seen).maxIndex.toNat := by
  induction values generalizing seen with
  | nil => exact ⟨valid, Nat.le_refl _, fun _ isValue => nomatch isValue⟩
  | cons value rest ih =>
    have smallRest := (List.forall_mem_cons.mp small).2
    rw [List.foldl_cons, SeenIndices.see]
    by_cases isMarker : value = marker
    · rw [if_pos isMarker]
      obtain ⟨validRest, grows, covers⟩ := ih valid smallRest
      refine ⟨validRest, grows, ?_⟩
      rw [List.forall_mem_cons]
      exact ⟨fun notMarker => absurd isMarker notMarker, covers⟩
    · rw [if_neg isMarker]
      have isMax := toNat_max seen.maxIndex value
      have validNext : SeenIndices.Valid ⟨max seen.maxIndex value, true⟩ := by
        refine ⟨?_, fun isFalse => nomatch isFalse⟩
        change (if seen.maxIndex ≤ value then value else seen.maxIndex) ≠ _
        split
        next => exact small value List.mem_cons_self isMarker
        next => exact valid.notLargest
      obtain ⟨validRest, grows, covers⟩ := ih validNext smallRest
      dsimp only at grows
      refine ⟨validRest, by omega, ?_⟩
      rw [List.forall_mem_cons]
      exact ⟨fun _ => by omega, covers⟩

/-! ### Draws that the parser can follow -/

section Draws

variable {memory : GuardedMemory} {state : SubmittedDrawState} {count : UInt32}

theorem not_dropped (positive : count ≠ 0) (few : count ≤ maxDrawCount) :
    ¬(count = 0 ∨ 1048576 < count) := by
  rintro (isZero | many)
  · exact positive isZero
  · exact absurd few (UInt32.not_le.mpr many)

variable (state) in
theorem tryTranslateGuestDraw_auto (positive : count ≠ 0) (few : count ≤ maxDrawCount) :
    ∃ draw, tryTranslateGuestDraw memory state count false = some draw ∧
      draw.Carries ⟨memory, state.toDrawContext, count, state.instanceCount, none, 0, 0⟩ := by
  rw [tryTranslateGuestDraw, if_neg (not_dropped positive few)]
  refine ⟨_, rfl, rfl, rfl, rfl, rfl, trivial, ?_⟩
  intro vertex fetched records isRecords
  obtain rfl := Option.some.inj isRecords
  have fetched : vertex < count := fetched
  rw [UInt32.lt_iff_toNat_lt] at fetched ⊢
  have isMax := toNat_max count (max state.instanceCount 1)
  omega

theorem see_start_valid : SeenIndices.Valid ⟨0, false⟩ :=
  ⟨by decide, fun _ => rfl⟩

variable (state) in
theorem tryTranslateGuestDraw_indexed (positive : count ≠ 0) (few : count ≤ maxDrawCount)
    (within : IndicesWithin state.toDrawContext memory state.drawIndexOffset count) :
    ∃ draw, tryTranslateGuestDraw memory state count true = some draw ∧
      draw.Carries ⟨memory, state.toDrawContext, count, state.instanceCount,
        some ⟨state.indexBufferAddress, state.drawIndexOffset⟩, 0, 0⟩ := by
  obtain ⟨hasBase, known, data, isRead, unmarked⟩ := within
  have width : bytesPerIndex state.is32Bit = elementBytes state.indexSize := by
    have small := UInt32.lt_iff_toNat_lt.mp known
    have cases' : state.indexSize = 0 ∨ state.indexSize = 1 := by
      rw [← UInt32.toNat_inj, ← UInt32.toNat_inj]
      change _ < 2 at small
      change _ = 0 ∨ _ = 1
      omega
    obtain isShort | isLong := cases'
    · simp [DrawContext.is32Bit, isShort, bytesPerIndex, elementBytes]
    · simp [DrawContext.is32Bit, isLong, bytesPerIndex, elementBytes]
  have present : ¬(state.indexBufferAddress = 0 ∨ count = 0) := by
    simp [hasBase, positive]
  have isBuffer : createGuestIndexBuffer memory state count = some ⟨data, state.is32Bit⟩ := by
    rw [createGuestIndexBuffer, if_neg present, SubmittedDrawState.indexAddress,
      isRead, Option.map_some]
  have scanned := scanIndices_eq ⟨0, false⟩ (Nat.le_refl _) isRead
  rw [tryTranslateGuestDraw, if_neg (not_dropped positive few), if_pos rfl]
  refine ⟨_, rfl, rfl, rfl, rfl, rfl, ?_, ?_⟩
  · simp only [isBuffer, PrescribedDraw.IsIndexBuffer, ← width]
    exact ⟨trivial, isRead⟩
  · intro vertex fetched records isRecords
    simp only [TranslatedDraw.Fetches, isBuffer] at fetched
    obtain ⟨isIndex, noRestart⟩ := fetched
    have notMarker : vertex ≠ restartMarker state.is32Bit := by
      rintro rfl
      obtain restarting | notThere := unmarked
      · exact noRestart ⟨restarting, rfl⟩
      · exact notThere isIndex
    obtain ⟨valid, -, covers⟩ := foldl_see (restartMarker state.is32Bit)
      (indexValues (bytesPerIndex state.is32Bit) count.toNat data)
      see_start_valid (by
        intro value isValue notMarker isLargest
        have below := lt_of_mem_indexValues isValue
        cases isWide : state.is32Bit with
        | true =>
          rw [isWide] at notMarker
          exact notMarker isLargest
        | false =>
          rw [isWide, isLargest] at below
          exact absurd below (by decide))
    have inside := covers vertex isIndex notMarker
    simp only [tryGetRequiredVertexRecordCount, Bool.not_true,
      Bool.false_eq_true, if_false, if_neg present,
      SubmittedDrawState.indexAddress, scanned, Option.map_some] at isRecords
    obtain rfl := Option.some.inj isRecords
    rw [UInt32.lt_iff_toNat_lt, toNat_max, valid.toNat_records]
    omega

end Draws

/-! ### The packets of a queue -/

variable {packet : SubmittedPacket} {kind : DrawKind} {operands : DrawOperands}

/-- The count is that of the operands; the index offset behind it is that of the
packet, or an earlier one where the packet has none. -/
theorem tryReadSubmittedDrawCount_eq {state : SubmittedDrawState}
    (isRead : readDrawOperands state.toDrawContext packet kind = some operands) :
    tryReadSubmittedDrawCount state packet kind = (some operands.count,
        match operands with
        | .index2 _ _ => 0
        | .indexOffset2 firstIndex _ => firstIndex
        | _ => state.drawIndexOffset) := by
  cases kind with
  | nopAuto | auto | multiAuto =>
    obtain ⟨value, isValue, rfl⟩ := Option.map_eq_some_iff.mp isRead
    simp [tryReadSubmittedDrawCount, isValue, DrawOperands.count]
  | index2 | indexOffset2 | indirect | indexIndirect =>
    simp only [readDrawOperands, Option.bind_eq_bind, Option.bind_eq_some_iff,
      Option.pure_def, Option.some.injEq] at isRead
    grind [tryReadSubmittedDrawCount, DrawOperands.count]

theorem drawSubmitted_carries {state : SubmittedDrawState}
    (isRead : readDrawOperands state.toDrawContext packet kind = some operands)
    (positive : operands.count ≠ 0)
    (within : operands.Within state packet.memory) :
    ∃ draw, (drawSubmitted state packet kind).2 = some draw ∧
      draw.Carries ⟨packet.memory, state.toDrawContext,
        operands.parameters state.toDrawContext⟩ := by
  have indexed : kind.indexed = (operands.parameters state.toDrawContext).indices.isSome := by
    cases kind with
    | nopAuto | auto | multiAuto =>
      obtain ⟨value, -, rfl⟩ := Option.map_eq_some_iff.mp isRead
      rfl
    | index2 | indexOffset2 | indirect | indexIndirect =>
      simp only [readDrawOperands, Option.bind_eq_bind,
        Option.bind_eq_some_iff, Option.pure_def, Option.some.injEq] at isRead
      grind [DrawKind.indexed, DrawOperands.parameters]
  simp only [drawSubmitted, tryReadSubmittedDrawCount_eq isRead, Option.bind_some, indexed]
  cases operands with
  | auto count => exact tryTranslateGuestDraw_auto state positive within
  | indirect count instanceCount firstVertex firstInstance =>
    obtain ⟨few, rfl, rfl, rfl⟩ := within
    exact tryTranslateGuestDraw_auto state positive few
  | index2 base count =>
    obtain ⟨few, rfl, within⟩ := within
    exact tryTranslateGuestDraw_indexed { state with drawIndexOffset := 0 } positive few within
  | indexOffset2 firstIndex count =>
    obtain ⟨few, within⟩ := within
    exact tryTranslateGuestDraw_indexed { state with drawIndexOffset := firstIndex } positive
      few within
  | indexIndirect count instanceCount firstIndex baseVertex firstInstance =>
    obtain ⟨few, rfl, rfl, rfl, rfl, within⟩ := within
    exact tryTranslateGuestDraw_indexed state positive few within

theorem applyStatePacket_instanceCount {before : DrawContext}
    (instances : before.instanceCount ≠ 0) (packet : SubmittedPacket) :
    (applyStatePacket before packet).instanceCount ≠ 0 := by
  have reset : (if packet.resets then DrawContext.initial
      else before).instanceCount ≠ 0 := by
    split
    next => decide
    next => exact instances
  grind [applyStatePacket]

theorem DrawOperands.Within.instanceCount {state : SubmittedDrawState} {memory : GuardedMemory}
    (within : operands.Within state memory) :
    (operands.parameters state.toDrawContext).instanceCount =
      state.instanceCount := by
  cases operands with
  | auto | index2 | indexOffset2 => rfl
  | indirect => exact within.2.1
  | indexIndirect => exact within.2.1

variable {before : SubmittedDrawState}

theorem submitPacket_carries (instances : before.instanceCount ≠ 0)
    (within : PacketWithin (stateOf before packet) packet) :
    List.Forall₂ TranslatedDraw.Carries (submitPacket before packet).2.toList
      (prescribedDraw (applyStatePacket before.toDrawContext packet) packet).toList := by
  change List.Forall₂ _ _ (prescribedDraw (stateOf before packet).toDrawContext packet).toList
  have instances : (stateOf before packet).instanceCount ≠ 0 :=
    applyStatePacket_instanceCount instances packet
  rw [submitPacket, prescribedDraw]
  generalize stateOf before packet = state at within instances
  dsimp only
  cases isKind : drawKind state.toDrawContext packet with
  | none => exact .nil
  | some kind =>
    obtain ⟨operands, isRead, follows⟩ := within kind isKind
    have isCount : (operands.parameters state.toDrawContext).count =
        operands.count := by
      cases operands with
      | auto | index2 | indexOffset2 | indirect | indexIndirect => rfl
    simp only [Option.bind_eq_bind, Option.bind_some, isRead, isCount]
    by_cases isZero : operands.count = 0
    · rw [if_pos (.inl isZero)]
      simp only [drawSubmitted, tryReadSubmittedDrawCount_eq isRead,
        Option.bind_some, tryTranslateGuestDraw, if_pos (Or.inl isZero)]
      exact .nil
    · have follows := follows.resolve_left isZero
      rw [if_neg (by simp [isZero, follows.instanceCount, instances])]
      obtain ⟨draw, isDraw, carries⟩ :=
        drawSubmitted_carries isRead isZero follows
      rw [isDraw]
      exact .cons carries .nil

theorem submitPacket_context (before : SubmittedDrawState) (packet : SubmittedPacket) :
    (submitPacket before packet).1.toDrawContext =
      applyStatePacket before.toDrawContext packet := by
  rw [submitPacket]
  split
  next => rfl
  next => rfl

theorem submitPackets_carry_from
    {packets : List SubmittedPacket} (instances : before.instanceCount ≠ 0)
    (within : PacketsWithin before packets) :
    List.Forall₂ TranslatedDraw.Carries (submitPackets before packets)
      (prescribedDraws before.toDrawContext packets) := by
  induction packets generalizing before with
  | nil => exact .nil
  | cons packet rest ih =>
    obtain ⟨here, later⟩ := within
    have context := submitPacket_context before packet
    have restCarries := ih (by
      rw [context]
      exact applyStatePacket_instanceCount instances packet) later
    rw [context] at restCarries
    rw [prescribedDraws, ← applyStatePacket_eq]
    exact List.rel_append (submitPacket_carries instances here) restCarries

/-- At 0x100 a base of 0x200, and at 0x10C a draw of three indices from there
on; the indices are zero. -/
def drawMemory : GuardedMemory where
  bytes := fun address =>
    if address < 0x300 then
      some (if address = 0x105 ∨ address = 0x115 then 2
        else if address = 0x110 ∨ address = 0x11C then 3 else 0)
    else none
  writable := fun _ => true

def indexBasePacket : SubmittedPacket := ⟨drawMemory, 0x100, 0xC0012600⟩
def drawIndex2Packet : SubmittedPacket := ⟨drawMemory, 0x10C, 0xC0042700⟩

end SharpEmu.Agc.Draws
