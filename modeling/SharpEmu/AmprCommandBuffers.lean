import SharpEmu.LittleEndianSpans
import SharpEmu.MachineWords
import Mathlib.Logic.Function.Basic

/-!
# AMPR command buffers

A command buffer is a header in guest memory that names a data buffer and its
size.  The exports append fixed-size records to the data buffer and keep, outside
guest memory, the write offset and the number of commands.  Completing a command
buffer walks the records from guest memory and performs what they ask for.

Guest memory is its bytes and its answers to which ranges may be read and
written; these answers do not depend on the bytes.
-/

namespace SharpEmu.Ampr

inductive OrbisGen2Result
  | ok
  | invalidArgument
  | memoryFault
  deriving DecidableEq, Repr

structure Span where
  length : ℕ
  bytes : ℕ → UInt8

namespace Span

def cleared (length : ℕ) : Span := ⟨length, fun _ => 0⟩

def writeInt16LittleEndian (span : Span) (offset : ℕ) (value : Int16) : Span :=
  { span with
    bytes := LittleEndian.store span.bytes offset 2 value.toUInt16.toNat }

def writeUInt32LittleEndian (span : Span) (offset : ℕ) (value : UInt32) :
    Span :=
  { span with bytes := LittleEndian.store span.bytes offset 4 value.toNat }

def writeUInt64LittleEndian (span : Span) (offset : ℕ) (value : UInt64) :
    Span :=
  { span with bytes := LittleEndian.store span.bytes offset 8 value.toNat }

def readUInt32LittleEndian (span : Span) (offset : ℕ) : UInt32 :=
  UInt32.ofNat (LittleEndian.load span.bytes offset 4)

def readUInt64LittleEndian (span : Span) (offset : ℕ) : UInt64 :=
  UInt64.ofNat (LittleEndian.load span.bytes offset 8)

end Span

structure GuestMemory where
  bytes : UInt64 → UInt8
  canRead : UInt64 → ℕ → Bool
  canWrite : UInt64 → ℕ → Bool

namespace GuestMemory

def tryRead (memory : GuestMemory) (address : UInt64) (length : ℕ) :
    Option Span :=
  if memory.canRead address length then
    some ⟨length, fun index => memory.bytes (address + UInt64.ofNat index)⟩
  else none

def write (memory : GuestMemory) (address : UInt64) (span : Span) :
    GuestMemory :=
  { memory with
    bytes := fun location =>
      if (location - address).toNat < span.length then
        span.bytes (location - address).toNat
      else memory.bytes location }

def tryWrite (memory : GuestMemory) (address : UInt64) (span : Span) :
    Option GuestMemory :=
  if memory.canWrite address span.length then some (memory.write address span)
  else none

def tryReadUInt32 (memory : GuestMemory) (address : UInt64) : Option UInt32 :=
  (memory.tryRead address 4).map fun span => span.readUInt32LittleEndian 0

def tryWriteUInt64 (memory : GuestMemory) (address value : UInt64) :
    Option GuestMemory :=
  memory.tryWrite address ((Span.cleared 8).writeUInt64LittleEndian 0 value)

end GuestMemory

structure CommandBufferState where
  buffer : UInt64
  size : UInt64
  writeOffset : UInt64
  commandCount : UInt64
  deriving DecidableEq, Repr

structure KernelQueuedEvent where
  ident : UInt64
  filter : Int16
  flags : UInt16
  fflags : UInt32
  data : UInt64
  userData : UInt64
  deriving DecidableEq

/-- What the exports read and change: guest memory, the table of command
buffers, and the kernel event queues with their pending events. -/
structure World where
  memory : GuestMemory
  commandBuffers : UInt64 → Option CommandBufferState
  eventQueues : UInt64 → Bool
  pendingEvents : UInt64 → List KernelQueuedEvent

def commandBufferHeaderSize : ℕ := 0x28
def commandBufferSelfOffset : ℕ := 0x00
def commandBufferDataOffset : ℕ := 0x08
def commandBufferSizeOffset : ℕ := 0x10
def commandBufferAux0Offset : ℕ := 0x18
def commandBufferAux1Offset : ℕ := 0x20
def readFileRecordSize : ℕ := 0x30
def kernelEventQueueRecordSize : ℕ := 0x30
def writeAddressRecordSize : ℕ := 0x20
def readFileRecordType : UInt32 := 1
def kernelEventQueueRecordType : UInt32 := 2
def writeAddressRecordType : UInt32 := 3
def kernelEventFilterAmpr : Int16 := -16

namespace World

def setCommandBuffer (world : World) (commandBuffer : UInt64)
    (state : CommandBufferState) : World :=
  { world with
    commandBuffers := Function.update world.commandBuffers commandBuffer (some state) }

def updateCommandBufferState (world : World)
    (commandBuffer buffer size writeOffset : UInt64) : World :=
  world.setCommandBuffer commandBuffer ⟨buffer, size, writeOffset, 0⟩

def tryGetCommandBufferState (world : World) (commandBuffer : UInt64) :
    Option (CommandBufferState × World) :=
  match world.commandBuffers commandBuffer with
  | some state => some (state, world)
  | none =>
      match world.memory.tryRead
          (commandBuffer + UInt64.ofNat commandBufferDataOffset) 16 with
      | some pointers =>
          let state : CommandBufferState :=
            ⟨pointers.readUInt64LittleEndian 0, pointers.readUInt64LittleEndian 8, 0, 0⟩
          some (state, world.setCommandBuffer commandBuffer state)
      | none => none

def writeVisibleCommandBufferPointers (world : World)
    (commandBuffer buffer size : UInt64) : Option World :=
  let pointers := (((Span.cleared 24).writeUInt64LittleEndian 0
    commandBuffer).writeUInt64LittleEndian 8 buffer).writeUInt64LittleEndian 16 size
  (world.memory.tryWrite (commandBuffer + UInt64.ofNat commandBufferSelfOffset) pointers).map
    fun memory => { world with memory := memory }

def writeCommandBufferPointers (world : World)
    (commandBuffer buffer size writeOffset : UInt64) : Option World :=
  (world.writeVisibleCommandBufferPointers commandBuffer buffer size).map
    fun written =>
      written.updateCommandBufferState commandBuffer buffer size writeOffset

/-- A header is either built from scratch or read back and completed. -/
def initializeCommandBuffer (world : World)
    (commandBuffer buffer size aux0 aux1 : UInt64) (clear : Bool) :
    Option World :=
  let fill (header : Span) (buffer size : UInt64) : Option World :=
    let header := header.writeUInt64LittleEndian commandBufferSelfOffset commandBuffer
    let header := header.writeUInt64LittleEndian commandBufferDataOffset buffer
    let header := header.writeUInt64LittleEndian commandBufferSizeOffset size
    let header := header.writeUInt64LittleEndian commandBufferAux0Offset aux0
    let header := header.writeUInt64LittleEndian commandBufferAux1Offset aux1
    (world.memory.tryWrite commandBuffer header).map fun memory =>
      { world with memory := memory }.updateCommandBufferState commandBuffer buffer size 0
  if clear then fill (Span.cleared commandBufferHeaderSize) buffer size
  else
    match world.memory.tryRead commandBuffer commandBufferHeaderSize with
    | none => none
    | some header =>
        fill header (header.readUInt64LittleEndian commandBufferDataOffset)
          (header.readUInt64LittleEndian commandBufferSizeOffset)

def commandBufferConstructor (world : World)
    (commandBuffer buffer size : UInt64) : OrbisGen2Result × World :=
  if commandBuffer = 0 then (.ok, world)
  else
    match world.initializeCommandBuffer commandBuffer buffer size 0 0 true with
    | none => (.memoryFault, world)
    | some initialized => (.ok, initialized)

def aprCommandBufferConstructor (world : World)
    (commandBuffer aux0 aux1 : UInt64) : OrbisGen2Result × World :=
  if commandBuffer = 0 then (.ok, world)
  else
    match world.initializeCommandBuffer commandBuffer 0 0 aux0 aux1 false with
    | none => (.memoryFault, world)
    | some initialized => (.ok, initialized)

def commandBufferSetBuffer (world : World)
    (commandBuffer buffer size : UInt64) : OrbisGen2Result × World :=
  if commandBuffer = 0 then (.invalidArgument, world)
  else
    match world.writeCommandBufferPointers commandBuffer buffer size 0 with
    | none => (.memoryFault, world)
    | some written => (.ok, written)

def commandBufferReset (world : World) (commandBuffer : UInt64) : OrbisGen2Result × World :=
  if commandBuffer = 0 then (.invalidArgument, world)
  else
    match world.memory.tryRead
        (commandBuffer + UInt64.ofNat commandBufferDataOffset) 16 with
    | none => (.memoryFault, world)
    | some bufferPointers =>
        match world.writeCommandBufferPointers commandBuffer
            (bufferPointers.readUInt64LittleEndian 0)
            (bufferPointers.readUInt64LittleEndian 8) 0 with
        | none => (.memoryFault, world)
        | some written => (.ok, written)

def appendCommandBufferRecord (world : World) (commandBuffer : UInt64)
    (record : Span) : Bool × World :=
  match world.tryGetCommandBufferState commandBuffer with
  | none => (false, world)
  | some (state, world) =>
      let recordSize := UInt64.ofNat record.length
      if state.buffer = 0 ∨ state.writeOffset > state.size ∨
          recordSize > state.size - state.writeOffset then
        (false, world)
      else
        match world.memory.tryWrite (state.buffer + state.writeOffset)
            record with
        | none => (false, world)
        | some memory =>
            (true, { world with memory := memory }.setCommandBuffer commandBuffer
                { state with
                  writeOffset := state.writeOffset + recordSize
                  commandCount := state.commandCount + 1 })

end World

def readFileRecord (fileId : UInt32) (destination size fileOffset bytesRead : UInt64) : Span :=
  let record := Span.cleared readFileRecordSize
  let record := record.writeUInt32LittleEndian 0x00 readFileRecordType
  let record := record.writeUInt32LittleEndian 0x04 fileId
  let record := record.writeUInt64LittleEndian 0x08 destination
  let record := record.writeUInt64LittleEndian 0x10 size
  let record := record.writeUInt64LittleEndian 0x18 fileOffset
  record.writeUInt64LittleEndian 0x20 bytesRead

def kernelEventQueueRecord (equeue ident completionToken userData : UInt64) :
    Span :=
  let record := Span.cleared kernelEventQueueRecordSize
  let record := record.writeUInt32LittleEndian 0x00 kernelEventQueueRecordType
  let record := record.writeInt16LittleEndian 0x04 kernelEventFilterAmpr
  let record := record.writeUInt64LittleEndian 0x08 equeue
  let record := record.writeUInt64LittleEndian 0x10 ident
  let record := record.writeUInt64LittleEndian 0x18 userData
  record.writeUInt64LittleEndian 0x20 completionToken

def writeAddressRecord (address value : UInt64) : Span :=
  let record := Span.cleared writeAddressRecordSize
  let record := record.writeUInt32LittleEndian 0x00 writeAddressRecordType
  let record := record.writeUInt64LittleEndian 0x08 address
  record.writeUInt64LittleEndian 0x10 value

namespace World

def appendReadFileRecord (world : World) (commandBuffer : UInt64)
    (fileId : UInt32) (destination size fileOffset bytesRead : UInt64) :
    Bool × World :=
  world.appendCommandBufferRecord commandBuffer
    (readFileRecord fileId destination size fileOffset bytesRead)

def appendKernelEventQueueRecord (world : World) (commandBuffer : UInt64)
    (equeue ident completionToken userData : UInt64) : Bool × World :=
  world.appendCommandBufferRecord commandBuffer
    (kernelEventQueueRecord equeue ident completionToken userData)

def appendWriteAddressRecord (world : World) (commandBuffer : UInt64)
    (address value : UInt64) : Bool × World :=
  world.appendCommandBufferRecord commandBuffer (writeAddressRecord address value)

def enqueueEvent (world : World) (handle : UInt64) (queuedEvent : KernelQueuedEvent) : World :=
  if world.eventQueues handle then
    { world with
      pendingEvents := Function.update world.pendingEvents handle
        (world.pendingEvents handle ++ [queuedEvent]) }
  else world

def completeKernelEventQueueRecord (world : World) (recordAddress : UInt64) :
    Option World :=
  match world.memory.tryRead recordAddress kernelEventQueueRecordSize with
  | none => none
  | some record =>
      let filter := (record.readUInt32LittleEndian 0x04).toUInt16.toInt16
      let equeue := record.readUInt64LittleEndian 0x08
      let ident := record.readUInt64LittleEndian 0x10
      let userData := record.readUInt64LittleEndian 0x18
      let data := record.readUInt64LittleEndian 0x20
      let extra := record.readUInt64LittleEndian 0x28
      some (world.enqueueEvent equeue ⟨ident, filter, 0x20, extra.toUInt32, data, userData⟩)

def completeWriteAddressRecord (world : World) (recordAddress : UInt64) :
    Option World :=
  match world.memory.tryRead recordAddress writeAddressRecordSize with
  | none => none
  | some record =>
      let address := record.readUInt64LittleEndian 0x08
      let value := record.readUInt64LittleEndian 0x10
      (world.memory.tryWriteUInt64 address value).map fun memory =>
        { world with memory := memory }

/-- The walk over the records.  A record that is damaged can send the offset
around the end of the address space, so the number of records is bounded by
fuel. -/
def completeRecords : ℕ → World → UInt64 → UInt64 → UInt64 → Option (OrbisGen2Result × World)
  | 0, _, _, _, _ => none
  | fuel + 1, world, buffer, writeOffset, offset =>
      if offset < writeOffset then
        match world.memory.tryReadUInt32 (buffer + offset) with
        | none => some (.memoryFault, world)
        | some recordType =>
            if recordType = readFileRecordType then
              completeRecords fuel world buffer writeOffset
                (offset + UInt64.ofNat readFileRecordSize)
            else if recordType = kernelEventQueueRecordType then
              match world.completeKernelEventQueueRecord (buffer + offset) with
              | none => some (.memoryFault, world)
              | some completed =>
                  completeRecords fuel completed buffer writeOffset
                    (offset + UInt64.ofNat kernelEventQueueRecordSize)
            else if recordType = writeAddressRecordType then
              match world.completeWriteAddressRecord (buffer + offset) with
              | none => some (.memoryFault, world)
              | some completed =>
                  completeRecords fuel completed buffer writeOffset
                    (offset + UInt64.ofNat writeAddressRecordSize)
            else some (.invalidArgument, world)
      else some (.ok, world)

def completeCommandBuffer (fuel : ℕ) (world : World) (commandBuffer : UInt64) :
    Option (OrbisGen2Result × World) :=
  if commandBuffer = 0 then some (.invalidArgument, world)
  else
    match world.tryGetCommandBufferState commandBuffer with
    | none => some (.memoryFault, world)
    | some (state, world) =>
        completeRecords fuel world state.buffer state.writeOffset 0

end World

end SharpEmu.Ampr
