import Mathlib.Data.List.AList
import SharpEmu.BackwardSweeps

/-!
# Suspended command buffers

The registry keeps, for each label address, the command buffers that wait on
it, in the order in which they were registered.  Each collecting call goes over
every list from its end and removes the waiters it selects.  Object references
are numbers; only their identity is compared.
-/

namespace SharpEmu

namespace GpuWaitRegistry

abbrev ObjectRef := Nat

/-- A suspended command buffer.  The ticket is not a field of the source: it
counts the registrations before this one, and no operation reads it. -/
structure WaitingDcb where
  waitAddress : UInt64
  referenceValue : UInt64
  mask : UInt64
  compareFunction : UInt32
  is64Bit : Bool
  memory : ObjectRef
  registeredTicks : Int64
  staleReported : Bool
  latched : Bool
  retryDeadlineTicks : Int64
  ticket : Nat
deriving DecidableEq

def compare (waiter : WaitingDcb) (value : UInt64) : Bool :=
  let masked := value &&& waiter.mask
  let reference := waiter.referenceValue &&& waiter.mask
  match waiter.compareFunction.toNat with
  | 0 => true
  | 1 => masked < reference
  | 2 => masked ≤ reference
  | 3 => masked = reference
  | 4 => masked ≠ reference
  | 5 => masked ≥ reference
  | 6 => masked > reference
  | _ => true

structure LabelWaiters where
  address : UInt64
  list : List WaitingDcb

/-- The registry, its labels in the order in which the dictionary enumerates
them, and the values that the label producers wrote last. -/
structure Registry where
  waiters : List LabelWaiters
  lastProduced : AList fun _ : ObjectRef × UInt64 => UInt64

namespace Registry

def empty : Registry := ⟨[], ∅⟩

variable (registry : Registry)

/-- Add a waiter behind those of its label.  A label without waiters is added
to the dictionary, which may enumerate it at any slot. -/
def register (slot : Nat) (address : UInt64) (waiter : WaitingDcb) :
    Registry :=
  let waiter := { waiter with waitAddress := address }
  if registry.waiters.any fun entry => entry.address == address then
    { registry with
      waiters := registry.waiters.map fun entry =>
        if entry.address = address then
          { entry with list := entry.list ++ [waiter] }
        else entry }
  else
    { registry with
      waiters := registry.waiters.insertIdx (min slot registry.waiters.length) ⟨address, [waiter]⟩ }

def collectLabels (selected : UInt64 → WaitingDcb → Bool) :
    List LabelWaiters → List WaitingDcb → List LabelWaiters × List WaitingDcb
  | [], collected => ([], collected)
  | entry :: rest, collected =>
      let (list, collected) := BackwardSweep.sweep (selected entry.address)
        entry.list.length entry.list collected
      let (rest, collected) := collectLabels selected rest collected
      ({ entry with list } :: rest, collected)

/-- Remove the selected waiters, and then the labels left without waiters. -/
def collect (selected : UInt64 → WaitingDcb → Bool) : Registry × List WaitingDcb :=
  let (waiters, collected) := collectLabels selected registry.waiters []
  ({ registry with
      waiters := waiters.filter fun entry => !entry.list.isEmpty },
    collected)

def satisfied (memory : ObjectRef) (readValue : UInt64 → Bool → Option UInt64)
    (address : UInt64) (waiter : WaitingDcb) : Bool :=
  waiter.memory == memory && (waiter.latched ||
      (readValue address waiter.is64Bit).any (compare waiter))

def collectSatisfied (memory : ObjectRef) (readValue : UInt64 → Bool → Option UInt64) :
    Registry × List WaitingDcb :=
  registry.collect (satisfied memory readValue)

def expired (memory : ObjectRef) (nowTicks : Int64) (_ : UInt64) (waiter : WaitingDcb) : Bool :=
  waiter.retryDeadlineTicks ≠ 0 && waiter.memory == memory &&
    !(nowTicks < waiter.retryDeadlineTicks)

def collectExpiredRetries (memory : ObjectRef) (nowTicks : Int64) : Registry × List WaitingDcb :=
  registry.collect (expired memory nowTicks)

/-- A waiter of the memory that is old enough and that the last value produced
for its label satisfies. -/
def deadlocked (memory : ObjectRef) (nowTicks minAgeTicks : Int64)
    (address : UInt64) (waiter : WaitingDcb) : Bool :=
  waiter.memory == memory && !(nowTicks - waiter.registeredTicks < minAgeTicks) &&
    (registry.lastProduced.lookup (memory, address)).any (compare waiter)

def collectDeadlockBroken (memory : ObjectRef)
    (nowTicks minAgeTicks : Int64) : Registry × List WaitingDcb :=
  registry.collect (registry.deadlocked memory nowTicks minAgeTicks)

/-- A change of the waiters that keeps them in place. -/
def update (change : UInt64 → WaitingDcb → WaitingDcb) : Registry :=
  { registry with
    waiters := registry.waiters.map fun entry =>
      { entry with list := entry.list.map (change entry.address) } }

/-- Mark the waiters that are reported as stale; the report has no effect on
the registry. -/
def collectUnreportedStale (memory : ObjectRef) (nowTicks maxAgeTicks : Int64) : Registry :=
  registry.update fun _ waiter =>
    if waiter.memory ≠ memory ∨ waiter.staleReported ∨
        nowTicks - waiter.registeredTicks < maxAgeTicks then waiter
    else { waiter with staleReported := true }

def latchSatisfiedByValue (memory : ObjectRef) (address value : UInt64) :
    Registry :=
  registry.update fun label waiter =>
    if label ≠ address ∨ waiter.latched ∨ waiter.memory ≠ memory ∨ !compare waiter value then waiter
    else { waiter with latched := true }

/-- Remember a produced value, forgetting all others at a limit, and latch the
waiters it satisfies. -/
def recordProduced (memory : ObjectRef) (address value : UInt64) : Registry :=
  let lastProduced :=
    if registry.lastProduced.entries.length ≥ 8192 then ∅
    else registry.lastProduced
  { registry with
    lastProduced := lastProduced.insert (memory, address) value
    }.latchSatisfiedByValue memory address value

def clear : Registry := empty

end Registry

end GpuWaitRegistry

end SharpEmu
