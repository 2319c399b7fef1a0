import SharpEmu.ShRegisterPackets

/-!
# Draws of a submitted command buffer

State packets set where the indices lie, their size and the number of
instances.  Draw packets bring the rest, in their own dwords or in a record in
memory.  The renderer is given a count, a number of instances, a copy of the
indices and the number of vertex records; it draws from vertex and instance
zero on.
-/

namespace SharpEmu.Agc.Draws

open Addressed PacketBuilders

def itSetBase : UInt32 := 0x11
def itDrawIndirect : UInt32 := 0x24
def itDrawIndexIndirect : UInt32 := 0x25
def itIndexBase : UInt32 := 0x26
def itDrawIndex2 : UInt32 := 0x27
def itIndexType : UInt32 := 0x2A
def itDrawIndexAuto : UInt32 := 0x2D
def itNumInstances : UInt32 := 0x2F
def itDrawIndexMultiAuto : UInt32 := 0x30
def itDrawIndexOffset2 : UInt32 := 0x35
def rDrawIndexAuto : UInt32 := 0x04
def rDrawReset : UInt32 := 0x05
def rAcbReset : UInt32 := 0x09
def vgtPrimitiveType : UInt32 := 0x242

/-- A packet of a queue, and the memory at the time it is parsed. -/
structure SubmittedPacket where
  memory : GuardedMemory
  address : UInt64
  header : UInt32

namespace SubmittedPacket

variable (packet : SubmittedPacket)

def length : UInt32 := PacketBuilders.pm4Length packet.header
def op : UInt32 := (packet.header >>> 8) &&& 0xFF
def register : UInt32 := (packet.header >>> 2) &&& 0x3F

def dword (index : UInt64) : Option UInt32 :=
  tryReadUInt32 packet.memory (packet.address + 4 * index)

def resets : Bool :=
  packet.op = PacketBuilders.itNop &&
    (packet.register = rDrawReset || packet.register = rAcbReset) &&
    2 ≤ packet.length

end SubmittedPacket

/-- What the state packets of a queue have set. -/
structure DrawContext where
  registers : SubmittedRegisters
  indirectArgsAddress : UInt64
  indexBufferAddress : UInt64
  indexSize : UInt32
  instanceCount : UInt32

def DrawContext.initial : DrawContext :=
  ⟨⟨fun _ => none, fun _ => none, fun _ => none⟩, 0, 0, 0, 1⟩

def wideAddress (low high : UInt32) : UInt64 :=
  low.toUInt64 ||| (high.toUInt64 <<< 32)

def applyStatePacket (before : DrawContext) (packet : SubmittedPacket) :
    DrawContext :=
  let reset := if packet.resets then .initial else before
  let context : DrawContext :=
    { reset with
      registers := applySubmittedRegisters packet.memory reset.registers
        packet.address packet.length packet.op packet.register }
  if packet.op = itSetBase ∧ 4 ≤ packet.length then
    match packet.dword 1, packet.memory.tryReadUInt64 (packet.address + 8) with
    | some baseSelector, some address =>
        if baseSelector = 1 then { context with indirectArgsAddress := address }
        else context
    | _, _ => context
  else if packet.op = itIndexBase ∧ 3 ≤ packet.length then
    match packet.dword 1, packet.dword 2 with
    | some low, some high =>
        { context with indexBufferAddress := wideAddress low high }
    | _, _ => context
  else if packet.op = itIndexType ∧ 2 ≤ packet.length then
    match packet.dword 1 with
    | some indexSize => { context with indexSize := indexSize &&& 3 }
    | none => context
  else if packet.op = itNumInstances ∧ 2 ≤ packet.length then
    match packet.dword 1 with
    | some count => { context with instanceCount := if count = 0 then 1 else count }
    | none => context
  else context

/-- The draw packets that the parser accepts. -/
inductive DrawKind
  | nopAuto | auto | multiAuto | index2 | indexOffset2 | indirect | indexIndirect
  deriving DecidableEq

def drawKind (context : DrawContext) (packet : SubmittedPacket) :
    Option DrawKind :=
  let indirectReady := 5 ≤ packet.length ∧ context.indirectArgsAddress ≠ 0
  if packet.op = PacketBuilders.itNop then
    if packet.register = rDrawIndexAuto ∧ 2 ≤ packet.length then some .nopAuto
    else none
  else if packet.op = itDrawIndexAuto ∧ 3 ≤ packet.length then some .auto
  else if packet.op = itDrawIndex2 ∧ 6 ≤ packet.length then some .index2
  else if packet.op = itDrawIndexOffset2 ∧ 5 ≤ packet.length then
    some .indexOffset2
  else if packet.op = itDrawIndexMultiAuto ∧ 4 ≤ packet.length then
    some .multiAuto
  else if packet.op = itDrawIndirect ∧ indirectReady then some .indirect
  else if packet.op = itDrawIndexIndirect ∧ indirectReady then
    some .indexIndirect
  else none

def DrawKind.indexed : DrawKind → Bool
  | .index2 | .indexOffset2 | .indexIndirect => true
  | .nopAuto | .auto | .multiAuto | .indirect => false

structure SubmittedDrawState extends DrawContext where
  drawIndexOffset : UInt32

def SubmittedDrawState.initial : SubmittedDrawState := ⟨.initial, 0⟩

def tryReadSubmittedDrawCount (state : SubmittedDrawState)
    (packet : SubmittedPacket) : DrawKind → Option UInt32 × UInt32
  | .nopAuto | .auto => (packet.dword 1, state.drawIndexOffset)
  | .index2 => (packet.dword 4, 0)
  | .indexOffset2 =>
      match packet.dword 2 with
      | none => (none, state.drawIndexOffset)
      | some indexOffset => (packet.dword 3, indexOffset)
  | .multiAuto =>
      ((packet.dword 3).map fun control : UInt32 => (control >>> 21) &&& 0x7FF,
        state.drawIndexOffset)
  | .indirect | .indexIndirect =>
      ((packet.dword 1).bind fun dataOffset => tryReadUInt32 packet.memory
          (state.indirectArgsAddress + dataOffset.toUInt64),
        state.drawIndexOffset)

/-! ### Indices and vertex records -/

def bytesPerIndex (is32Bit : Bool) : ℕ := if is32Bit then 4 else 2

def restartMarker (is32Bit : Bool) : UInt32 :=
  if is32Bit then 0xFFFFFFFF else 0xFFFF

def indexValues (width : ℕ) : ℕ → List UInt8 → List UInt32
  | 0, _ => []
  | count + 1, data =>
      UInt32.ofNat (wordOf (data.take width)) :: indexValues width count (data.drop width)

structure GuestIndexBuffer where
  data : List UInt8
  is32Bit : Bool

structure TranslatedDraw where
  primitiveType : UInt32
  vertexCount : UInt32
  instanceCount : UInt32
  indexBuffer : Option GuestIndexBuffer
  /-- Nothing stands for all records of the vertex buffers. -/
  vertexRecords : Option UInt32

def DrawContext.is32Bit (context : DrawContext) : Bool := context.indexSize ≠ 0

def indexAddress (base : UInt64) (is32Bit : Bool) (first : UInt32) : UInt64 :=
  base + first.toUInt64 * UInt64.ofNat (bytesPerIndex is32Bit)

def SubmittedDrawState.indexAddress (state : SubmittedDrawState) : UInt64 :=
  Draws.indexAddress state.indexBufferAddress state.is32Bit state.drawIndexOffset

def createGuestIndexBuffer (memory : GuardedMemory) (state : SubmittedDrawState)
    (indexCount : UInt32) : Option GuestIndexBuffer :=
  if state.indexBufferAddress = 0 ∨ indexCount = 0 then none
  else
    (readBytes memory.bytes state.indexAddress (indexCount.toNat * bytesPerIndex state.is32Bit)).map
        fun data => ⟨data, state.is32Bit⟩

structure SeenIndices where
  maxIndex : UInt32
  sawIndex : Bool

def SeenIndices.see (marker : UInt32) (seen : SeenIndices) (value : UInt32) :
    SeenIndices :=
  if value = marker then seen else ⟨max seen.maxIndex value, true⟩

def chunkBytes : ℕ := 64 * 1024

def scanIndices (memory : GuardedMemory) (is32Bit : Bool) :
    ℕ → UInt64 → ℕ → SeenIndices → Option SeenIndices
  | 0, _, _, seen => some seen
  | turns + 1, address, remaining, seen =>
      if remaining = 0 then some seen
      else
        let chunkIndices := min remaining (chunkBytes / bytesPerIndex is32Bit)
        let bytes := chunkIndices * bytesPerIndex is32Bit
        match readBytes memory.bytes address bytes with
        | none => none
        | some span =>
            scanIndices memory is32Bit turns (address + .ofNat bytes) (remaining - chunkIndices)
              ((indexValues (bytesPerIndex is32Bit) chunkIndices span).foldl
                (.see (restartMarker is32Bit)) seen)

def SeenIndices.records (seen : SeenIndices) : UInt32 :=
  if seen.sawIndex ∧ seen.maxIndex ≠ 0xFFFFFFFF then seen.maxIndex + 1 else 1

def tryGetRequiredVertexRecordCount (memory : GuardedMemory)
    (state : SubmittedDrawState) (drawCount : UInt32) (indexed : Bool) :
    Option UInt32 :=
  if !indexed then some (max drawCount (max state.instanceCount 1))
  else if state.indexBufferAddress = 0 ∨ drawCount = 0 then none
  else
    (scanIndices memory state.is32Bit drawCount.toNat state.indexAddress
      drawCount.toNat ⟨0, false⟩).map
        fun seen => max seen.records (max state.instanceCount 1)

def DrawContext.primitiveType (context : DrawContext) : UInt32 :=
  (context.registers.ucRegisters vgtPrimitiveType).getD 0

def tryTranslateGuestDraw (memory : GuardedMemory) (state : SubmittedDrawState)
    (vertexCount : UInt32) (indexed : Bool) : Option TranslatedDraw :=
  if vertexCount = 0 ∨ 1048576 < vertexCount then none
  else some
    { primitiveType := state.primitiveType
      vertexCount := vertexCount
      instanceCount := state.instanceCount
      indexBuffer :=
        if indexed then createGuestIndexBuffer memory state vertexCount else none
      vertexRecords :=
        tryGetRequiredVertexRecordCount memory state vertexCount indexed }

def drawSubmitted (state : SubmittedDrawState) (packet : SubmittedPacket)
    (kind : DrawKind) : SubmittedDrawState × Option TranslatedDraw :=
  let (drawCount, drawIndexOffset) := tryReadSubmittedDrawCount state packet kind
  let state := { state with drawIndexOffset := drawIndexOffset }
  (state, drawCount.bind fun count =>
    tryTranslateGuestDraw packet.memory state count kind.indexed)

def stateOf (before : SubmittedDrawState) (packet : SubmittedPacket) :
    SubmittedDrawState :=
  ⟨applyStatePacket before.toDrawContext packet,
    if packet.resets then 0 else before.drawIndexOffset⟩

def submitPacket (before : SubmittedDrawState) (packet : SubmittedPacket) :
    SubmittedDrawState × Option TranslatedDraw :=
  let state := stateOf before packet
  match drawKind state.toDrawContext packet with
  | none => (state, none)
  | some kind => drawSubmitted state packet kind

def submitPackets : SubmittedDrawState → List SubmittedPacket → List TranslatedDraw
  | _, [] => []
  | state, packet :: rest =>
      let (next, draw) := submitPacket state packet
      draw.toList ++ submitPackets next rest

end SharpEmu.Agc.Draws
