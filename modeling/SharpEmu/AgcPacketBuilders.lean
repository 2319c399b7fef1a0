import SharpEmu.StoredRanges

/-!
# Packet builders

An AGC packet builder checks its arguments, reads its inputs from guest memory,
reserves the dwords of a packet by moving the cursor of a command buffer behind
them, and writes the packet dword by dword.  Some builders read inputs between
the dwords, and some emit several packets.  A read, a reservation or a write
that fails ends the call with a null pointer.
-/

namespace SharpEmu.Agc.PacketBuilders

open Addressed

def commandBufferCursorUpOffset : UInt64 := 0x10
def commandBufferCursorDownOffset : UInt64 := 0x18
def commandBufferCallbackOffset : UInt64 := 0x20
def commandBufferUserDataOffset : UInt64 := 0x28
def commandBufferReservedDwOffset : UInt64 := 0x30

def tryReadUInt32 (memory : GuardedMemory) (address : UInt64) :
    Option UInt32 :=
  (readWord memory.bytes address 4).map UInt64.toUInt32

/-- The guest function behind a callback address: whether it could be called
with the command buffer, the dwords needed and the user data, and the memory it
leaves. -/
abbrev GuestCallback :=
  GuardedMemory → UInt64 → UInt64 → UInt64 → UInt64 → Bool × GuardedMemory

/-- A packet builder after its start: what it does next with guest memory and
with the command buffer. -/
inductive PacketBuilder
  | returnPointer (pointer : UInt64)
  | readUInt32 (address : UInt64) (next : UInt32 → PacketBuilder)
  | readUInt64 (address : UInt64) (next : UInt64 → PacketBuilder)
  | allocate (sizeDwords : UInt32) (next : UInt64 → PacketBuilder)
  | writeUInt32 (address : UInt64) (value : UInt32) (next : PacketBuilder)

def getRemainingCommandDwords (cursorUp cursorDown : UInt64) (reservedDwords : UInt32) : UInt32 :=
  let availableDwords : UInt64 :=
    if cursorUp ≤ cursorDown then min ((cursorDown - cursorUp) / 4) 0xFFFFFFFF
    else 0
  if reservedDwords.toUInt64 < availableDwords then
    availableDwords.toUInt32 - reservedDwords
  else 0

structure CommandBufferHeader where
  cursorUp : UInt64
  cursorDown : UInt64
  callback : UInt64
  userData : UInt64
  reservedDwords : UInt32

def readHeader (memory : GuardedMemory) (commandBuffer : UInt64) :
    Option CommandBufferHeader := do
  let cursorUp ← memory.tryReadUInt64 (commandBuffer + commandBufferCursorUpOffset)
  let cursorDown ←
    memory.tryReadUInt64 (commandBuffer + commandBufferCursorDownOffset)
  let callback ←
    memory.tryReadUInt64 (commandBuffer + commandBufferCallbackOffset)
  let userData ←
    memory.tryReadUInt64 (commandBuffer + commandBufferUserDataOffset)
  let reservedDwords ←
    tryReadUInt32 memory (commandBuffer + commandBufferReservedDwOffset)
  return ⟨cursorUp, cursorDown, callback, userData, reservedDwords⟩

/-- The header again after the callback, without the fields that are not read
twice. -/
def rereadHeader (memory : GuardedMemory) (commandBuffer : UInt64) :
    Option (UInt64 × UInt64 × UInt32) := do
  let cursorUp ← memory.tryReadUInt64 (commandBuffer + commandBufferCursorUpOffset)
  let cursorDown ←
    memory.tryReadUInt64 (commandBuffer + commandBufferCursorDownOffset)
  let reservedDwords ←
    tryReadUInt32 memory (commandBuffer + commandBufferReservedDwOffset)
  return (cursorUp, cursorDown, reservedDwords)

/-- How a reservation ends: the memory it leaves, whether the guest's callback
was called, and the address of the packet when it succeeds. -/
structure Allocation where
  memory : GuardedMemory
  called : Bool
  address : Option UInt64

def storeCursor (memory : GuardedMemory) (commandBuffer : UInt64)
    (sizeDwords : UInt32) (cursorUp : UInt64) (called : Bool) : Allocation :=
  let nextCursor := cursorUp + sizeDwords.toUInt64 * 4
  match memory.tryWriteUInt64 (commandBuffer + commandBufferCursorUpOffset)
      nextCursor with
  | none => ⟨memory, called, none⟩
  | some after => ⟨after, called, some cursorUp⟩

def allocateAfterCallback (tryCallGuestFunction : GuestCallback)
    (memory : GuardedMemory) (commandBuffer : UInt64) (sizeDwords : UInt32)
    (header : CommandBufferHeader) : Allocation :=
  if header.callback = 0 then ⟨memory, false, none⟩
  else
    let (completed, after) := tryCallGuestFunction memory header.callback
      commandBuffer (sizeDwords.toUInt64 + header.reservedDwords.toUInt64)
      header.userData
    if completed then
      match rereadHeader after commandBuffer with
      | none => ⟨after, true, none⟩
      | some (cursorUp, cursorDown, reservedDwords) =>
          if getRemainingCommandDwords cursorUp cursorDown reservedDwords <
              sizeDwords then ⟨after, true, none⟩
          else storeCursor after commandBuffer sizeDwords cursorUp true
    else ⟨after, true, none⟩

def tryAllocateCommandDwords (tryCallGuestFunction : GuestCallback)
    (memory : GuardedMemory) (commandBuffer : UInt64) (sizeDwords : UInt32) :
    Allocation :=
  if sizeDwords = 0 then ⟨memory, false, none⟩
  else
    match readHeader memory commandBuffer with
    | none => ⟨memory, false, none⟩
    | some header =>
        if getRemainingCommandDwords header.cursorUp header.cursorDown
            header.reservedDwords < sizeDwords then
          allocateAfterCallback tryCallGuestFunction memory commandBuffer sizeDwords header
        else storeCursor memory commandBuffer sizeDwords header.cursorUp false

/-- A finished call: the pointer it returns, the memory it leaves, whether the
callback was called, and the dwords reserved and written on the way. -/
structure Call where
  pointer : UInt64
  memory : GuardedMemory
  called : Bool
  reserved : List UInt32
  written : List UInt64

variable (tryCallGuestFunction : GuestCallback) (commandBuffer : UInt64)

def run : PacketBuilder → GuardedMemory → Call
  | .returnPointer pointer, memory => ⟨pointer, memory, false, [], []⟩
  | .readUInt32 address next, memory =>
      match tryReadUInt32 memory address with
      | none => ⟨0, memory, false, [], []⟩
      | some value => run (next value) memory
  | .readUInt64 address next, memory =>
      match memory.tryReadUInt64 address with
      | none => ⟨0, memory, false, [], []⟩
      | some value => run (next value) memory
  | .allocate sizeDwords next, memory =>
      let allocation := tryAllocateCommandDwords tryCallGuestFunction memory
        commandBuffer sizeDwords
      match allocation.address with
      | none => ⟨0, allocation.memory, allocation.called, [], []⟩
      | some address =>
          let rest := run (next address) allocation.memory
          { rest with
            called := allocation.called || rest.called
            reserved := sizeDwords :: rest.reserved }
  | .writeUInt32 address value next, memory =>
      match memory.tryWriteUInt32 address value with
      | none => ⟨0, memory, false, [], []⟩
      | some after =>
          let rest := run next after
          { rest with written := address :: rest.written }

/-! ### The builders -/

def pm4 (lengthDwords op register : UInt32) : UInt32 :=
  let count : UInt32 := (lengthDwords &&& 0xFFFF) - 2
  let header : UInt32 := 0xC0000000
  header ||| ((count &&& 0x3FFF) <<< 16) ||| ((op &&& 0xFF) <<< 8) ||| ((register &&& 0x3F) <<< 2)

def itNop : UInt32 := 0x10
def itIndexBufferSize : UInt32 := 0x13
def itIndexBase : UInt32 := 0x26
def itDrawIndex2 : UInt32 := 0x27
def itSetShReg : UInt32 := 0x76
def rZero : UInt32 := 0x00
def rWriteData : UInt32 := 0x15

def low (value : UInt64) : UInt32 := value.toUInt32
def high (value : UInt64) : UInt32 := (value >>> 32).toUInt32

def writeAll (address : UInt64) : List UInt32 → PacketBuilder → PacketBuilder
  | [], next => next
  | value :: rest, next =>
      .writeUInt32 address value (writeAll (address + 4) rest next)

def cbNop (dwordCount : UInt32) : PacketBuilder :=
  if commandBuffer = 0 ∨ dwordCount < 2 ∨ 0x4001 < dwordCount then
    .returnPointer 0
  else
    .allocate dwordCount fun commandAddress =>
      writeAll commandAddress (pm4 dwordCount itNop rZero ::
          List.replicate (dwordCount.toNat - 1) 0)
        (.returnPointer commandAddress)

def dcbDrawIndex (indexCount : UInt32) (indexAddress : UInt64)
    (modifier : UInt32) : PacketBuilder :=
  if commandBuffer = 0 ∨ modifier ≠ 0x40000000 then .returnPointer 0
  else
    .allocate 5 fun baseCommand =>
      writeAll baseCommand [pm4 3 itIndexBase 0, low indexAddress, high indexAddress,
          pm4 2 itIndexBufferSize 0, indexCount]
        (.allocate 6 fun drawCommand =>
          writeAll drawCommand [pm4 6 itDrawIndex2 0, indexCount, low indexAddress,
              high indexAddress, indexCount, 0]
            (.returnPointer drawCommand))

def copyDwords (source target : UInt64) : ℕ → PacketBuilder → PacketBuilder
  | 0, next => next
  | count + 1, next =>
      .readUInt32 source fun value =>
        .writeUInt32 target value (copyDwords (source + 4) (target + 4) count next)

def dcbWriteData (rsi rdx destinationAddress dataAddress : UInt64)
    (dwordCount : UInt32) (stackAddress : UInt64) : PacketBuilder :=
  let destination := low (rsi &&& 0xFF)
  let cachePolicy := low (rdx &&& 0xFF)
  .readUInt64 (stackAddress + 8) fun incrementRaw =>
  .readUInt64 (stackAddress + 16) fun writeConfirmRaw =>
    let increment := low (incrementRaw &&& 0xFF)
    let writeConfirm := low (writeConfirmRaw &&& 0xFF)
    if commandBuffer = 0 ∨ destinationAddress = 0 ∨ dataAddress = 0 ∨
        0x3FFD < dwordCount then .returnPointer 0
    else
      let packetDwords := dwordCount + 4
      .allocate packetDwords fun commandAddress =>
        writeAll commandAddress [pm4 packetDwords itNop rWriteData,
            destination ||| (cachePolicy <<< 8) ||| (increment <<< 16) ||| (writeConfirm <<< 24),
            low destinationAddress, high destinationAddress]
          (copyDwords dataAddress (commandAddress + 16) dwordCount.toNat
            (.returnPointer commandAddress))

structure RegisterDefaultValue where
  offset : UInt32
  value : UInt32
  deriving DecidableEq, Repr

def readRegisters (registersAddress : UInt64) :
    ℕ → ℕ → (List RegisterDefaultValue → PacketBuilder) → PacketBuilder
  | 0, _, next => next []
  | count + 1, index, next =>
      let entryAddress := registersAddress + UInt64.ofNat (index * 8)
      .readUInt32 entryAddress fun offset =>
        .readUInt32 (entryAddress + 4) fun value =>
          readRegisters registersAddress count (index + 1) fun rest =>
            next (⟨offset, value⟩ :: rest)

def takeRun (previous : RegisterDefaultValue) : List RegisterDefaultValue →
      List RegisterDefaultValue × List RegisterDefaultValue
  | [] => ([], [])
  | entry :: rest =>
      if entry.offset = previous.offset + 1 then
        let (taken, left) := takeRun entry rest
        (entry :: taken, left)
      else ([], entry :: rest)

def runDwords (head : RegisterDefaultValue) (tail : List RegisterDefaultValue) : List UInt32 :=
  pm4 (UInt32.ofNat (tail.length + 1) + 2) itSetShReg 0 ::
    (head.offset &&& 0xFFFF) :: (head :: tail).map (·.value)

def emitRuns : ℕ → List RegisterDefaultValue → UInt64 → PacketBuilder
  | 0, _, firstCommandAddress => .returnPointer firstCommandAddress
  | _ + 1, [], firstCommandAddress => .returnPointer firstCommandAddress
  | turns + 1, head :: rest, firstCommandAddress =>
      let (tail, left) := takeRun head rest
      .allocate (UInt32.ofNat (tail.length + 1) + 2) fun commandAddress =>
        writeAll commandAddress (runDwords head tail) (emitRuns turns left
            (if firstCommandAddress = 0 then commandAddress
              else firstCommandAddress))

/-- The sorting of the pairs by offset is a parameter: the library does not
promise an order for equal offsets. -/
def cbSetShRegistersDirect (sort : List RegisterDefaultValue → List RegisterDefaultValue)
    (registersAddress : UInt64) (registerCount : UInt32) : PacketBuilder :=
  if registerCount = 0 then .returnPointer 0
  else if commandBuffer = 0 ∨ registersAddress = 0 ∨ 4096 < registerCount then
    .returnPointer 0
  else
    readRegisters registersAddress registerCount.toNat 0 fun registers =>
      emitRuns registers.length (sort registers) 0

end SharpEmu.Agc.PacketBuilders
