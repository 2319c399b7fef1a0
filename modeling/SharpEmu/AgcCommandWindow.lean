import SharpEmu.AgcLabelSignals

/-!
# The window of a command buffer

A command buffer is copied as a whole when its parsing starts, and the parser's
reads inside it are served from this window.  Effects on guest memory are applied
at once while there is no presenter, and otherwise by the render thread, in their
order but later.  An effect that overlaps the window drops it, but only the window
of the thread that applies the effect.

The parser is a deterministic program that sees guest memory through its reads.
-/

namespace SharpEmu.Agc.CommandWindow

open Addressed LabelSignals

/-! ## Effects -/

def runWrites : List Act → Memory → Memory
  | .write address data :: rest, memory =>
      match tryWrite memory address data with
      | none => memory
      | some written => runWrites rest written
  | _, memory => memory

def runActs : List Act → Memory → Memory
  | [], memory => memory
  | .write address data :: rest, memory =>
      match tryWrite memory address data with
      | none => memory
      | some written => runActs rest written
  | .copy source destination count :: rest, memory =>
      match (readBytes memory source count).bind
          (tryWrite memory destination) with
      | none => memory
      | some written => runActs rest written
  | .fill source destination count :: rest, memory =>
      match readWord memory source 4 with
      | none => memory
      | some value => runActs rest
          (runWrites (tryFillGuestMemory value.toUInt32 destination count) memory)
  | .record _ _ :: rest, memory => runActs rest memory
  | .latch _ _ :: rest, memory => runActs rest memory

def invalidatedRange : ProducerPacket → UInt64 × UInt64
  | .releaseMemStandard control destinationAddress _ _ =>
      let (destination, dataSelection) :=
        decodeStandardReleaseMemControl control
      let writeLength :=
        if dataSelection = 1 then 4
        else if 2 ≤ dataSelection ∧ dataSelection ≤ 4 then 8 else 0
      if (destination = 0 ∨ destination = 1) ∧ destinationAddress ≠ 0 then
        (destinationAddress, writeLength)
      else (destinationAddress, 0)
  | .releaseMem control destinationAddress _ _ =>
      let dataSelection := control >>> 16 &&& 0xff
      (destinationAddress,
        if dataSelection = 1 then 4
        else if dataSelection = 2 ∨ dataSelection = 3 then 8 else 0)
  | .writeData standardPacket control destinationAddress values =>
      let (_, incrementAddress) :=
        if standardPacket then decodeStandardWriteDataControl control
        else decodeAgcWriteDataControl control
      (destinationAddress,
        if incrementAddress then UInt64.ofNat (4 * values.length) else 4)
  | .dmaData _ byteCount destinationAddress _ =>
      (destinationAddress, byteCount.toUInt64)
  | .standardDmaData control _ _ destinationLow destinationHigh command =>
      let byteCount := command &&& 0x1fffff
      let destinationSelect := control >>> 20 &&& 3
      (wide destinationLow destinationHigh,
        if command >>> 24 &&& 3 ≠ 0 ∨ ¬(destinationSelect = 0 ∨ destinationSelect = 3) ∨
            (destinationSelect = 0 ∧ command >>> 27 &&& 1 ≠ 0) then 0
        else byteCount.toUInt64)

/-- What a packet does to guest memory: an effect of the parser's own, or what the
shaders of a draw or dispatch write, which the host brings back. -/
inductive PacketEffect
  | ordered (packet : ProducerPacket)
  | shaders (writes : List (UInt64 × List UInt8))

def PacketEffect.apply : PacketEffect → Memory → Memory
  | .ordered packet, memory => runActs packet.acts memory
  | .shaders writes, memory =>
      writes.foldl (fun memory write =>
        (tryWrite memory write.1 write.2).getD memory) memory

def applyAll (effects : List PacketEffect) (memory : Memory) : Memory :=
  effects.foldl (fun memory effect => effect.apply memory) memory

/-! ## The parser -/

inductive Request
  | beginParse (commandAddress : UInt64) (dwordCount : UInt32)
  | endParse
  | readUInt32 (address : UInt64)
  | readUInt64 (address : UInt64)
  | packet (effect : PacketEffect)
  | acquireMem

inductive Answer
  | value (word : UInt64)
  | unreadable
  | threw
  | done
  deriving DecidableEq

abbrev Parser := List Answer → Option Request

def answerOf : Option UInt64 → Answer
  | some word => .value word
  | none => .unreadable

structure SequentialQueue where
  memory : Memory
  answers : List Answer

def SequentialQueue.perform (queue : SequentialQueue) : Request → SequentialQueue
  | .readUInt32 address =>
      ⟨queue.memory, queue.answers ++ [answerOf (readWord queue.memory address 4)]⟩
  | .readUInt64 address =>
      ⟨queue.memory, queue.answers ++ [answerOf (readWord queue.memory address 8)]⟩
  | .packet effect => ⟨effect.apply queue.memory, queue.answers ++ [.done]⟩
  | .beginParse _ _ => ⟨queue.memory, queue.answers ++ [.done]⟩
  | .endParse => ⟨queue.memory, queue.answers ++ [.done]⟩
  | .acquireMem => ⟨queue.memory, queue.answers ++ [.done]⟩

def sequentialRun (parser : Parser) (memory : Memory) : ℕ → SequentialQueue
  | 0 => ⟨memory, []⟩
  | count + 1 =>
      let queue := sequentialRun parser memory count
      match parser queue.answers with
      | none => queue
      | some request => queue.perform request

/-- The bytes of a command buffer from its address on. -/
structure Window where
  start : UInt64
  bytes : List UInt8

def Window.length (window : Window) : UInt64 :=
  UInt64.ofNat window.bytes.length

structure ParserState where
  memory : Memory
  /-- The window of the thread that parses. -/
  window : Option Window
  presenterRunning : Bool
  /-- What the render thread has yet to apply, in order. -/
  deferred : List PacketEffect
  answers : List Answer

namespace ParserState

variable (state : ParserState)

def answered (answer : Answer) : ParserState :=
  { state with answers := state.answers ++ [answer] }

/-- The check that the window covers a read, in 64-bit arithmetic. -/
def isServed (window : Window) (address count : UInt64) : Bool :=
  decide (window.start ≤ address) && decide (address - window.start + count ≤ window.length)

/-- Read a word; a position behind the window makes the span throw. -/
def tryRead (address : UInt64) (count : ℕ) : Answer :=
  match state.window.filter (isServed · address (UInt64.ofNat count)) with
  | some window =>
      let position := (address - window.start).toNat
      if position < window.bytes.length then
        .value (UInt64.ofNat (wordOf ((window.bytes.drop position).take count)))
      else .threw
  | none => answerOf (readWord state.memory address count)

def overlapsWindow (window : Window) (address length : UInt64) : Bool :=
  decide (length ≠ 0) && decide (address < window.start + window.length) &&
    decide (window.start < address + length)

def invalidateDcbWindowIfOverlaps (address length : UInt64) : ParserState :=
  { state with
    window := state.window.filter (!overlapsWindow · address length) }

/-- An effect that is applied at once, on the thread that parses. -/
def applyNow : PacketEffect → ParserState
  | .ordered packet =>
      let (address, length) := invalidatedRange packet
      { state.invalidateDcbWindowIfOverlaps address length with
        memory := (PacketEffect.ordered packet).apply state.memory }
  | .shaders writes =>
      { state with memory := (PacketEffect.shaders writes).apply state.memory }

def submitOrderedGpuSideEffect (effect : PacketEffect) : ParserState :=
  if state.presenterRunning then
    { state with deferred := state.deferred ++ [effect] }
  else state.applyNow effect

def beginParse (commandAddress : UInt64) (dwordCount : UInt32) : ParserState :=
  if commandAddress = 0 ∨ dwordCount = 0 ∨ 1000000 < dwordCount then state
  else
    match readBytes state.memory commandAddress (4 * dwordCount.toNat) with
    | none => state
    | some bytes => { state with window := some ⟨commandAddress, bytes⟩ }

def perform : Request → ParserState
  | .readUInt32 address => state.answered (state.tryRead address 4)
  | .readUInt64 address => state.answered (state.tryRead address 8)
  | .packet effect => (state.submitOrderedGpuSideEffect effect).answered .done
  | .beginParse commandAddress dwordCount =>
      (state.beginParse commandAddress dwordCount).answered .done
  | .endParse => { state with window := none }.answered .done
  | .acquireMem => { state with window := none }.answered .done

/-- The render thread applies the oldest effect; its own window is empty. -/
def applyDeferred : ParserState :=
  match state.deferred with
  | [] => state
  | effect :: rest =>
      { state with memory := effect.apply state.memory, deferred := rest }

end ParserState

/-! ## Steps -/

inductive Action
  | request (request : Request)
  | applyDeferred
  | startPresenter

inductive Step (parser : Parser) : ParserState → Action → ParserState → Prop
  | request {state : ParserState} {request : Request}
      (isNext : parser state.answers = some request) :
      Step parser state (.request request) (state.perform request)
  | applyDeferred {state : ParserState} :
      Step parser state .applyDeferred state.applyDeferred
  | startPresenter {state : ParserState} :
      Step parser state .startPresenter { state with presenterRunning := true }

def IsStart (memory : Memory) (state : ParserState) : Prop :=
  state = ⟨memory, none, false, [], []⟩

end SharpEmu.Agc.CommandWindow
