import SharpEmu.AddressedBytes
import SharpEmu.RingBuffers
import Mathlib.Data.UInt

/-!
# Kernel event queues

Events that were triggered stay pending in a queue until a thread waits for them.  The
pending events are kept in a ring buffer that only grows.  A wait takes events from the
queue and then writes them, and their number, to the guest's memory.
-/

namespace SharpEmu.KernelEventQueues

open Addressed (GuardedMemory bytesOf readBytes)

structure KernelQueuedEvent where
  ident : UInt64
  filter : Int16
  flags : UInt16
  fflags : UInt32
  data : UInt64
  userData : UInt64
deriving DecidableEq, Repr

def KernelQueuedEvent.default : KernelQueuedEvent := ⟨0, 0, 0, 0, 0, 0⟩

def KernelQueuedEvent.hasKey (event : KernelQueuedEvent) (ident : UInt64) (filter : Int16) :
    Bool :=
  event.ident = ident ∧ event.filter = filter

abbrev KernelEventDeque := RingBuffer KernelQueuedEvent

namespace KernelEventDeque

def new : KernelEventDeque where
  items := Array.replicate 4 .default
  head := 0
  count := 0
  head_lt := by decide
  count_le := by decide

/-- No array has a length that does not fit in a signed word; growing to it throws. -/
def addLast (deque : KernelEventDeque) (item : KernelQueuedEvent) : Option KernelEventDeque :=
  if deque.count = deque.items.size ∧ 2 ^ 31 ≤ deque.items.size * 2 then none
  else some (RingBuffer.addLast .default deque item)

def findIndex (deque : KernelEventDeque) (ident : UInt64) (filter : Int16) : Option ℕ :=
  (List.range deque.count).find? fun index => (deque.get index).hasKey ident filter

def queueOrUpdateEvent (deque : KernelEventDeque) (queuedEvent : KernelQueuedEvent) :
    Option KernelEventDeque :=
  match deque.findIndex queuedEvent.ident queuedEvent.filter with
  | none => deque.addLast queuedEvent
  | some pendingIndex =>
      let fflags := max ((deque.get pendingIndex).fflags + 1) queuedEvent.fflags
      some (deque.set pendingIndex { queuedEvent with fflags })

/-- The event of a display; `tickCount` is the time, and the data also tells how many
times the event was triggered. -/
def displayEvent (ident : UInt64) (filter : Int16) (eventHint userData tickCount : UInt64)
    (count : UInt64) : KernelQueuedEvent :=
  let timeBits : UInt64 := tickCount &&& 0xFFF
  let hintBits : UInt64 := eventHint &&& 0xFFFFFFFFFFFF0000
  { ident, filter, flags := 0x20, fflags := 0,
    data := timeBits ||| (count <<< 12) ||| hintBits, userData }

def triggerDisplayEvent (deque : KernelEventDeque) (ident : UInt64) (filter : Int16)
    (eventHint userData tickCount : UInt64) : Option KernelEventDeque :=
  match deque.findIndex ident filter with
  | none => deque.addLast (displayEvent ident filter eventHint userData tickCount 1)
  | some pendingIndex =>
      let count := min ((((deque.get pendingIndex).data >>> 12) &&& 0xF) + 1) 0xF
      some (deque.set pendingIndex (displayEvent ident filter eventHint userData tickCount count))

def removeFirsts (deque : KernelEventDeque) : ℕ → List KernelQueuedEvent × KernelEventDeque
  | 0 => ([], deque)
  | count + 1 =>
      let (events, rest) := removeFirsts deque.removeFirst count
      (deque.get 0 :: events, rest)

end KernelEventDeque

/-! ## Waiting for events -/

/-- The queues that exist, what is pending in them, and the guest's memory. -/
structure EventQueues where
  eventQueues : UInt64 → Bool
  pendingEvents : UInt64 → Option KernelEventDeque
  memory : GuardedMemory

def KernelQueuedEvent.bytes (queuedEvent : KernelQueuedEvent) : List UInt8 :=
  bytesOf 8 queuedEvent.ident.toNat ++ bytesOf 2 queuedEvent.filter.toUInt16.toNat ++
    bytesOf 2 queuedEvent.flags.toNat ++ bytesOf 4 queuedEvent.fflags.toNat ++
    bytesOf 8 queuedEvent.data.toNat ++ bytesOf 8 queuedEvent.userData.toNat

def kernelEventSize : ℕ := 0x20

@[irreducible]
def writeKernelEvent (memory : GuardedMemory) (address : UInt64)
    (queuedEvent : KernelQueuedEvent) : Option GuardedMemory :=
  memory.tryWrite address queuedEvent.bytes

def writeKernelEvents (eventsAddress : UInt64) :
    List KernelQueuedEvent → ℕ → GuardedMemory → ℕ × GuardedMemory
  | [], written, memory => (written, memory)
  | queuedEvent :: rest, written, memory =>
      match writeKernelEvent memory (eventsAddress + .ofNat (written * kernelEventSize))
          queuedEvent with
      | none => (written, memory)
      | some memory => writeKernelEvents eventsAddress rest (written + 1) memory

inductive Result
  | ok
  | notFound
  | invalidArgument
  | memoryFault
  | timedOut
deriving DecidableEq, Repr

structure Wait where
  handle : UInt64
  eventsAddress : UInt64
  capacity : UInt64
  outCountAddress : UInt64
  timeoutAddress : UInt64

def Wait.eventCapacity (wait : Wait) : ℕ := min wait.capacity.toNat (2 ^ 31 - 1)

namespace EventQueues

def dequeueEvents (queues : EventQueues) (handle eventsAddress : UInt64)
    (eventCapacity : ℕ) : ℕ × EventQueues :=
  if eventsAddress = 0 ∨ eventCapacity = 0 then (0, queues)
  else
    match queues.pendingEvents handle with
    | none => (0, queues)
    | some queue =>
        if queue.count = 0 then (0, queues)
        else
          let (events, rest) := queue.removeFirsts (min eventCapacity queue.count)
          let (count, memory) := writeKernelEvents eventsAddress events 0 queues.memory
          (count,
            { queues with
              pendingEvents := Function.update queues.pendingEvents handle (some rest)
              memory })

/-- Take events and report their number; `none` if that cannot be written. -/
def deliver (queues : EventQueues) (wait : Wait) : Option ℕ × EventQueues :=
  let (deliveredCount, queues) :=
    queues.dequeueEvents wait.handle wait.eventsAddress wait.eventCapacity
  if wait.outCountAddress = 0 then (some deliveredCount, queues)
  else
    match queues.memory.tryWriteUInt32 wait.outCountAddress (.ofNat deliveredCount) with
    | none => (none, queues)
    | some memory => (some deliveredCount, { queues with memory })

def resumeWaitEqueue (queues : EventQueues) (wait : Wait) : Result × EventQueues :=
  match queues.deliver wait with
  | (none, queues) => (.memoryFault, queues)
  | (some deliveredCount, queues) => (if 0 < deliveredCount then .ok else .timedOut, queues)

/-- What a wait found when it looked at the queues, and what it left. -/
structure Look where
  found : EventQueues
  left : EventQueues

/-- A whole wait, with its looks at the queues.  A thread that gets no event may be
blocked, if `canBlock`, or wait for some time; `later` is what it finds when it looks
again, after whatever other threads did. -/
def kernelWaitEqueue (queues : EventQueues) (wait : Wait) (canBlock : Bool)
    (later : EventQueues) : Result × List Look :=
  if ¬ queues.eventQueues wait.handle then (.notFound, [])
  else if wait.eventsAddress = 0 ∨ wait.eventCapacity < 1 then (.invalidArgument, [])
  else if wait.timeoutAddress ≠ 0 ∧ readBytes queues.memory.bytes wait.timeoutAddress 4 = none then
    (.memoryFault, [])
  else
    match queues.deliver wait with
    | (none, left) => (.memoryFault, [⟨queues, left⟩])
    | (some deliveredCount, left) =>
        if 0 < deliveredCount then (.ok, [⟨queues, left⟩])
        else if (wait.timeoutAddress = 0 ∧ canBlock) ∨ (wait.timeoutAddress ≠ 0 ∧
              (left.memory.tryReadUInt64 wait.timeoutAddress).isSome) then
          let (result, resumed) := later.resumeWaitEqueue wait
          (result, [⟨queues, left⟩, ⟨later, resumed⟩])
        else (.ok, [⟨queues, left⟩])

end EventQueues

end SharpEmu.KernelEventQueues
