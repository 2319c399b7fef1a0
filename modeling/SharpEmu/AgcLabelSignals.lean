import SharpEmu.AddressedBytes
import SharpEmu.AgcSubmissions
import SharpEmu.TransitionRuns

/-!
# Signals of GPU labels

A wait compares its label and, when it is not satisfied, registers a waiter; both
happen on the thread that parses, while the effects of packets run on the render
thread and the guest stores to its memory.  Draining takes the waiters that are
latched, those whose label is satisfied, and those that have waited long enough
and that the last recorded value satisfies.

A queue is said to be signalled when a packet of another queue gives its label a
satisfying value, or when anything does before the waiter is registered.
-/

namespace SharpEmu.Agc.LabelSignals

open Addressed

/-! ## Producers -/

/-- The parts of an effect that other threads cannot see half of. -/
inductive Act
  | write (address : UInt64) (data : List UInt8)
  /-- Read a chunk, and write it next. -/
  | copy (source destination : UInt64) (count : ℕ)
  /-- Read a dword, and fill a range with it next. -/
  | fill (source destination : UInt64) (count : ℕ)
  /-- Note the last produced value of a label. -/
  | record (address value : UInt64)
  | latch (address value : UInt64)
  deriving DecidableEq

def decodeStandardReleaseMemControl (control : UInt32) : UInt32 × UInt32 :=
  (control >>> 16 &&& 3, control >>> 29 &&& 7)

def decodeStandardWriteDataControl (control : UInt32) : UInt32 × Bool :=
  (control >>> 8 &&& 0xf, control &&& 0x10000 = 0)

def decodeAgcWriteDataControl (control : UInt32) : UInt32 × Bool :=
  (control &&& 0xff, control >>> 16 &&& 0xff = 0)

/-- The packets whose effects write guest memory; a release also comes with the
clock that it samples. -/
inductive ProducerPacket
  | releaseMemStandard (control : UInt32) (destinationAddress data : UInt64)
      (timestamp : UInt64)
  | releaseMem (control : UInt32) (destinationAddress data : UInt64)
      (timestamp : UInt64)
  | writeData (standardPacket : Bool) (control : UInt32)
      (destinationAddress : UInt64) (values : List UInt32)
  | dmaData (compactLayout : Bool) (byteCount : UInt32)
      (destinationAddress sourceAddress : UInt64)
  | standardDmaData (control sourceLow sourceHigh destinationLow
      destinationHigh command : UInt32)

def writeUInt32 (address : UInt64) (value : UInt32) : Act :=
  .write address (bytesOf 4 value.toNat)

def writeUInt64 (address value : UInt64) : Act :=
  .write address (bytesOf 8 value.toNat)

/-- The write of a release, with its value recorded. -/
def produce (dataSelection : UInt32) (destinationAddress data timestamp : UInt64) :
    List Act :=
  if dataSelection = 1 then
    [writeUInt32 destinationAddress data.toUInt32,
      .record destinationAddress data.toUInt32.toUInt64,
      .latch destinationAddress data.toUInt32.toUInt64]
  else if dataSelection = 2 then
    [writeUInt64 destinationAddress data, .record destinationAddress data,
      .latch destinationAddress data]
  else [writeUInt64 destinationAddress timestamp]

def chunkLength : ℕ := 64 * 1024

def chunks (byteCount : ℕ) : List (ℕ × ℕ) :=
  (List.range ((byteCount + chunkLength - 1) / chunkLength)).map fun index =>
    (index * chunkLength, min chunkLength (byteCount - index * chunkLength))

def tryFillGuestMemory (value : UInt32) (destinationAddress : UInt64) (byteCount : ℕ) : List Act :=
  (chunks byteCount).map fun (offset, count) =>
    .write (destinationAddress + UInt64.ofNat offset) ((List.range count).map fun index =>
        (bytesOf 4 value.toNat).getD (index % 4) 0)

def tryCopyGuestMemory (sourceAddress destinationAddress : UInt64) (byteCount : ℕ) : List Act :=
  if sourceAddress = destinationAddress then []
  else
    (chunks byteCount).map fun (offset, count) =>
      .copy (sourceAddress + UInt64.ofNat offset) (destinationAddress + UInt64.ofNat offset) count

def wide (low high : UInt32) : UInt64 := low.toUInt64 ||| high.toUInt64 <<< 32

def applySubmittedStandardDmaDataSnapshot (control sourceLow sourceHigh
    destinationLow destinationHigh command : UInt32) : List Act :=
  let byteCount := (command &&& 0x1fffff).toNat
  let sourceSelect := control >>> 29 &&& 3
  let destinationSelect := control >>> 20 &&& 3
  let destinationAddress := wide destinationLow destinationHigh
  if byteCount = 0 ∨ command >>> 24 &&& 3 ≠ 0 ∨ ¬(destinationSelect = 0 ∨ destinationSelect = 3) ∨
      (destinationSelect = 0 ∧ command >>> 27 &&& 1 ≠ 0) then []
  else if (sourceSelect = 0 ∨ sourceSelect = 3) ∧ (sourceSelect = 3 ∨ command >>> 26 &&& 1 = 0) then
    if command >>> 28 &&& 1 ≠ 0 then
      [.fill (wide sourceLow sourceHigh) destinationAddress byteCount]
    else tryCopyGuestMemory (wide sourceLow sourceHigh) destinationAddress byteCount
  else if sourceSelect = 2 then
    tryFillGuestMemory sourceLow destinationAddress byteCount
  else []

def ProducerPacket.acts : ProducerPacket → List Act
  | .releaseMemStandard control destinationAddress data timestamp =>
      let (destination, dataSelection) :=
        decodeStandardReleaseMemControl control
      if (destination = 0 ∨ destination = 1) ∧ destinationAddress ≠ 0 ∧
          1 ≤ dataSelection ∧ dataSelection ≤ 4 then
        produce dataSelection destinationAddress data timestamp
      else []
  | .releaseMem control destinationAddress data timestamp =>
      let dataSelection := control >>> 16 &&& 0xff
      if 1 ≤ dataSelection ∧ dataSelection ≤ 3 then
        produce dataSelection destinationAddress data timestamp
      else []
  | .writeData standardPacket control destinationAddress values =>
      let (destination, incrementAddress) :=
        if standardPacket then decodeStandardWriteDataControl control
        else decodeAgcWriteDataControl control
      if destination = 1 ∨ destination = 2 ∨ destination = 4 ∨ destination = 5
      then
        values.zipIdx.map fun (value, index) =>
          writeUInt32 (if incrementAddress then
              destinationAddress + UInt64.ofNat (4 * index)
            else destinationAddress) value
      else []
  | .dmaData compactLayout byteCount destinationAddress sourceAddress =>
      if byteCount = 0 ∨ 256 * 1024 * 1024 < byteCount ∨ destinationAddress = 0
      then []
      else if compactLayout ∧ 0x10000 ≤ destinationAddress ∧ sourceAddress ≤ 0xffffffff then
        tryFillGuestMemory sourceAddress.toUInt32 destinationAddress byteCount.toNat
      else if sourceAddress = 0 then []
      else tryCopyGuestMemory sourceAddress destinationAddress byteCount.toNat
  | .standardDmaData control sourceLow sourceHigh destinationLow
      destinationHigh command =>
      applySubmittedStandardDmaDataSnapshot control sourceLow sourceHigh
        destinationLow destinationHigh command

structure Effect where
  queue : Queue
  remaining : List Act

/-! ## Waiters -/

/-- A waiter; for specification only, that its label was signalled. -/
structure Waiting where
  waiter : WaitingDcb
  signalled : Bool
  deriving DecidableEq

def labelBytes (waiter : WaitingDcb) : ℕ := if waiter.is64Bit then 8 else 4

def isLabelSatisfied (memory : Memory) (waiter : WaitingDcb) : Bool :=
  (readWord memory waiter.waitAddress (labelBytes waiter)).any waiter.compare

def isProducedSatisfied (lastProduced : List (UInt64 × UInt64)) (waiter : WaitingDcb) : Bool :=
  (lastProduced.lookup waiter.waitAddress).any waiter.compare

structure LabelState where
  memory : Memory
  /-- The wait that has been compared and is about to be registered. -/
  comparing : Option Waiting
  waiters : List Waiting
  lastProduced : List (UInt64 × UInt64)
  effects : ℕ → Effect

namespace LabelState

variable (state : LabelState)

/-- Mark the waits whose label a write satisfies: those of other queues, and the
one that is not registered yet. -/
def notice (queue : Option Queue) (address : UInt64) (count : ℕ) (memory : Memory) : LabelState :=
  let satisfies (waiting : Waiting) :=
    rangesMeet address count waiting.waiter.waitAddress (labelBytes waiting.waiter) &&
      isLabelSatisfied memory waiting.waiter
  { state with
    memory := memory
    comparing := state.comparing.map fun waiting =>
      { waiting with signalled := waiting.signalled || satisfies waiting }
    waiters := state.waiters.map fun waiting =>
      { waiting with
        signalled := waiting.signalled ||
          (queue.any (· ≠ waiting.waiter.state) && satisfies waiting) } }

def setEffect (slot : ℕ) (effect : Effect) : LabelState :=
  { state with effects := Function.update state.effects slot effect }

@[simp] theorem setEffect_effects (slot : ℕ) (effect : Effect) :
    (state.setEffect slot effect).effects = Function.update state.effects slot effect :=
  rfl

/-- `RecordProduced` before it latches: the table is emptied when it is full. -/
def recorded (lastProduced : List (UInt64 × UInt64)) (address value : UInt64) :
    List (UInt64 × UInt64) :=
  let kept := if 8192 ≤ lastProduced.length then [] else lastProduced
  (address, value) :: kept.filter fun entry => entry.1 ≠ address

def latchSatisfiedByValue (address value : UInt64) : LabelState :=
  { state with
    waiters := state.waiters.map fun waiting =>
      if waiting.waiter.waitAddress = address ∧ waiting.waiter.latched = false ∧
          waiting.waiter.compare value then
        { waiting with waiter := { waiting.waiter with latched := true } }
      else waiting }

/-- The next part of an effect; a read or write that fails ends the effect. -/
def advance (slot : ℕ) : LabelState :=
  let effect := state.effects slot
  match effect.remaining with
  | [] => state
  | .write address data :: rest =>
      match tryWrite state.memory address data with
      | none => state.setEffect slot { effect with remaining := [] }
      | some memory =>
          (state.notice (some effect.queue) address data.length memory).setEffect
            slot { effect with remaining := rest }
  | .copy source destination count :: rest =>
      match readBytes state.memory source count with
      | none => state.setEffect slot { effect with remaining := [] }
      | some data => state.setEffect slot
          { effect with remaining := .write destination data :: rest }
  | .fill source destination count :: rest =>
      match readWord state.memory source 4 with
      | none => state.setEffect slot { effect with remaining := [] }
      | some value => state.setEffect slot
          { effect with
            remaining :=
              tryFillGuestMemory value.toUInt32 destination count ++ rest }
  | .record address value :: rest =>
      { state with
        lastProduced := recorded state.lastProduced address value }.setEffect
          slot { effect with remaining := rest }
  | .latch address value :: rest =>
      (state.latchSatisfiedByValue address value).setEffect slot { effect with remaining := rest }

def cpuStore (address : UInt64) (data : List UInt8) : LabelState :=
  match tryWrite state.memory address data with
  | none => state
  | some memory => state.notice none address data.length memory

def collectSatisfied : LabelState :=
  { state with
    waiters := state.waiters.filter fun waiting =>
      !(waiting.waiter.latched || isLabelSatisfied state.memory waiting.waiter) }

def collectDeadlockBroken (gpuDeadlockBreakTicks nowTicks : ℤ) : LabelState :=
  { state with
    waiters := state.waiters.filter fun waiting =>
      !(decide (gpuDeadlockBreakTicks ≤ nowTicks - waiting.waiter.registeredTicks) &&
        isProducedSatisfied state.lastProduced waiting.waiter) }

def compareLabel (waiter : WaitingDcb) : Option WaitingDcb :=
  if waiter.compareFunction = 0 ∨ waiter.compareFunction = 7 then none
  else if waiter.waitAddress = 0 ∨ waiter.mask = 0 ∨
      waiter.waitAddress % (if waiter.is64Bit then 8 else 4) ≠ 0 then none
  else
    match readWord state.memory waiter.waitAddress (labelBytes waiter) with
    | none => none
    | some value =>
        if waiter.compare value then none
        else some { waiter with latched := false }

end LabelState

/-! ## Steps -/

inductive Action
  | issue (slot : ℕ) (queue : Queue) (packet : ProducerPacket)
  | advance (slot : ℕ)
  | cpuStore (address : UInt64) (data : List UInt8)
  | compare (waiter : WaitingDcb)
  | register
  | collectSatisfied
  | collectDeadlockBroken (nowTicks : ℤ)

inductive Step (gpuDeadlockBreakTicks : ℤ) :
    LabelState → Action → LabelState → Prop
  | issue {state : LabelState} {slot : ℕ} {queue : Queue}
      {packet : ProducerPacket} (free : (state.effects slot).remaining = []) :
      Step gpuDeadlockBreakTicks state (.issue slot queue packet)
        (state.setEffect slot ⟨queue, packet.acts⟩)
  | advance {state : LabelState} {slot : ℕ} :
      Step gpuDeadlockBreakTicks state (.advance slot) (state.advance slot)
  | cpuStore {state : LabelState} {address : UInt64} {data : List UInt8} :
      Step gpuDeadlockBreakTicks state (.cpuStore address data)
        (state.cpuStore address data)
  | compare {state : LabelState} {waiter unsatisfied : WaitingDcb}
      (idle : state.comparing = none)
      (waits : state.compareLabel waiter = some unsatisfied) :
      Step gpuDeadlockBreakTicks state (.compare waiter)
        { state with comparing := some ⟨unsatisfied, false⟩ }
  | register {state : LabelState} {waiting : Waiting}
      (compared : state.comparing = some waiting) :
      Step gpuDeadlockBreakTicks state .register
        { state with
          comparing := none
          waiters := state.waiters ++ [waiting] }
  | collectSatisfied {state : LabelState} (idle : state.comparing = none) :
      Step gpuDeadlockBreakTicks state .collectSatisfied state.collectSatisfied
  | collectDeadlockBroken {state : LabelState} {nowTicks : ℤ}
      (idle : state.comparing = none) :
      Step gpuDeadlockBreakTicks state (.collectDeadlockBroken nowTicks)
        (state.collectDeadlockBroken gpuDeadlockBreakTicks nowTicks)

/-- Nothing waits, and no effect is under way. -/
def IsStart (state : LabelState) : Prop :=
  state.comparing = none ∧ state.waiters = [] ∧ state.lastProduced = [] ∧
    ∀ slot, (state.effects slot).remaining = []

end SharpEmu.Agc.LabelSignals
