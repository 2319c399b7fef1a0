import SharpEmu.AddressedBytes
import SharpEmu.CooperativeWaits

/-!
# Kernel event flags

An event flag is a word of bits.  A thread waits until all or some of the bits of its
pattern are set, and may clear bits when it gets them.  A guest thread that has to wait
is blocked cooperatively; a host thread looks at the flag again and again.

A call looks the flag up before it locks it, so it may still reach a deleted flag.
-/

namespace SharpEmu.KernelEventFlags

open Addressed (Memory bytesOf readBytes tryWrite tryWriteUInt32)
open Cooperative

inductive EventFlagResult
  | ok
  | invalidArgument
  | memoryFault
  | busy
  | timedOut
  | tryAgain
  | threw
deriving DecidableEq, Repr

structure EventFlagState where
  bits : UInt64
  waitingThreads : ℕ
deriving DecidableEq, Repr

structure EventFlagWait where
  pattern : UInt64
  waitMode : UInt32
  resultAddress : UInt64
  timeoutAddress : UInt64
deriving DecidableEq, Repr

def isValidWaitMode (waitMode : UInt32) : Bool :=
  let condition := waitMode &&& 0x0F
  let clearMode := waitMode &&& 0xF0
  (condition = 0x01 || condition = 0x02) &&
    (clearMode = 0 || clearMode = 0x10 || clearMode = 0x20) &&
    waitMode &&& ~~~0x33 = 0

def isSatisfied (bits : UInt64) (wait : EventFlagWait) : Bool :=
  if wait.waitMode &&& 0x0F = 0x01 then bits &&& wait.pattern = wait.pattern
  else bits &&& wait.pattern ≠ 0

def EventFlagState.applyClearMode (state : EventFlagState) (wait : EventFlagWait) :
    EventFlagState :=
  if wait.waitMode &&& 0xF0 = 0x10 then { state with bits := 0 }
  else if wait.waitMode &&& 0xF0 = 0x20 then
    { state with bits := state.bits &&& ~~~wait.pattern }
  else state

def EventFlagState.dropWaiter (state : EventFlagState) : EventFlagState :=
  { state with waitingThreads := state.waitingThreads - 1 }

def tryWriteResultPattern (memory : Memory) (address bits : UInt64) : Option Memory :=
  if address = 0 then some memory else tryWrite memory address (bytesOf 8 bits.toNat)

/-- A flag, and the guest memory that its calls read and write. -/
structure EventFlag where
  state : EventFlagState
  memory : Memory

namespace EventFlag

/-- Take the bits, if the wait is satisfied; the bits stay if they cannot be reported. -/
def tryCompleteSatisfiedWait (flag : EventFlag) (wait : EventFlagWait) :
    Option (EventFlag × EventFlagResult) :=
  if ¬ isSatisfied flag.state.bits wait then none
  else
    match tryWriteResultPattern flag.memory wait.resultAddress flag.state.bits with
    | none => some (flag, .memoryFault)
    | some memory => some (⟨flag.state.applyClearMode wait, memory⟩, .ok)

def tryPrepareBlockedWait (wait : EventFlagWait) (flag : EventFlag) :
    Option (EventFlag × EventFlagResult) :=
  if ¬ isSatisfied flag.state.bits wait then none
  else
    match tryWriteResultPattern flag.memory wait.resultAddress flag.state.bits with
    | none => some ({ flag with state := flag.state.dropWaiter }, .memoryFault)
    | some memory => some (⟨(flag.state.applyClearMode wait).dropWaiter, memory⟩, .ok)

/-- What a wait reports when its time is up; what cannot be written is left out. -/
def reportTimeout (flag : EventFlag) (wait : EventFlagWait) : EventFlag :=
  let told :=
    if wait.timeoutAddress = 0 then flag.memory
    else (tryWriteUInt32 flag.memory wait.timeoutAddress 0).getD flag.memory
  { flag with
    memory := (tryWriteResultPattern told wait.resultAddress flag.state.bits).getD told }

def kernelSetEventFlag (flag : EventFlag) (pattern : UInt64) : EventFlag :=
  { flag with state := { flag.state with bits := flag.state.bits ||| pattern } }

def kernelClearEventFlag (flag : EventFlag) (pattern : UInt64) : EventFlag :=
  { flag with state := { flag.state with bits := flag.state.bits &&& pattern } }

def kernelPollEventFlag (flag : EventFlag) (wait : EventFlagWait) : EventFlagResult × EventFlag :=
  if wait.pattern = 0 ∨ ¬ isValidWaitMode wait.waitMode then (.invalidArgument, flag)
  else
    match tryWriteResultPattern flag.memory wait.resultAddress flag.state.bits with
    | none => (.memoryFault, flag)
    | some memory =>
        if ¬ isSatisfied flag.state.bits wait then (.busy, { flag with memory })
        else (.ok, ⟨flag.state.applyClearMode wait, memory⟩)

/-- A wait up to where its thread has to wait: a guest thread asks to be blocked, and a
host thread starts to look again and again if there is a scheduler. -/
def kernelWaitEventFlag (flag : EventFlag) (isGuestThread hasScheduler : Bool)
    (wait : EventFlagWait) : EventFlag × Turn EventFlagWait EventFlagResult :=
  if wait.pattern = 0 ∨ ¬ isValidWaitMode wait.waitMode then
    (flag, .returns .invalidArgument)
  else if wait.timeoutAddress ≠ 0 ∧ (readBytes flag.memory wait.timeoutAddress 4).isNone then
    (flag, .returns .memoryFault)
  else
    match flag.tryCompleteSatisfiedWait wait with
    | some (completed, result) => (completed, .returns result)
    | none =>
        let joined :=
          { flag with
            state := { flag.state with waitingThreads := flag.state.waitingThreads + 1 } }
        if isGuestThread then (joined, .blocks wait)
        else if ¬ hasScheduler then (flag, .returns .tryAgain)
        else (joined, .polls wait)

/-- A host thread looks at the flag again, when its time may be up. -/
def pumpWait (flag : EventFlag) (wait : EventFlagWait) (isExpired : Bool) :
    Option (EventFlag × EventFlagResult) :=
  match flag.tryCompleteSatisfiedWait wait with
  | some (completed, result) =>
      some ({ completed with state := completed.state.dropWaiter }, result)
  | none =>
      if wait.timeoutAddress ≠ 0 ∧ isExpired then
        let dropped := { flag with state := flag.state.dropWaiter }
        some (dropped.reportTimeout wait, .timedOut)
      else none

def resumeWait (flag : EventFlag) (wait : EventFlagWait) :
    Option EventFlagResult → EventFlag × EventFlagResult
  | some result => (flag, result)
  | none => (flag.reportTimeout wait, .timedOut)

def tryReportWaiters (flag : EventFlag) (waiterCountAddress : UInt64) : Option Memory :=
  if waiterCountAddress = 0 then some flag.memory
  else tryWriteUInt32 flag.memory waiterCountAddress flag.state.waitingThreads

def kernelCancelEventFlag (flag : EventFlag) (setPattern waiterCountAddress : UInt64) :
    EventFlagResult × EventFlag :=
  match flag.tryReportWaiters waiterCountAddress with
  | none => (.memoryFault, flag)
  | some memory => (.ok, ⟨⟨setPattern, 0⟩, memory⟩)

end EventFlag

/-! ## The calls as actions -/

inductive EventFlagCall
  | set (pattern : UInt64)
  | clear (pattern : UInt64)
  | poll (wait : EventFlagWait)
  | wait (wait : EventFlagWait) (hasScheduler : Bool)
  | pump (isExpired : Bool)
  /-- Pumping the scheduler throws. -/
  | abandon
  | resume
  | cancel (setPattern waiterCountAddress : UInt64)
  | delete
  /-- The guest runs. -/
  | execute (memory : Memory)

def EventFlag.perform (isGuestThread : Bool) :
    EventFlagCall → EventFlag → Phase EventFlagWait EventFlagResult →
      Option (EventFlag × Turn EventFlagWait EventFlagResult)
  | .set pattern, flag, .running => some (flag.kernelSetEventFlag pattern, .wakes .ok)
  | .clear pattern, flag, .running => some (flag.kernelClearEventFlag pattern, .returns .ok)
  | .poll wait, flag, .running =>
      let (result, polled) := flag.kernelPollEventFlag wait
      some (polled, .returns result)
  | .wait wait hasScheduler, flag, .running =>
      some (flag.kernelWaitEventFlag isGuestThread hasScheduler wait)
  | .pump isExpired, flag, .polling wait =>
      (flag.pumpWait wait isExpired).map fun (pumped, result) => (pumped, .returns result)
  | .abandon, flag, .polling _ =>
      some ({ flag with state := flag.state.dropWaiter }, .returns .threw)
  | .resume, flag, .ready wait woken =>
      let (resumed, result) := flag.resumeWait wait woken
      some (resumed, .returns result)
  | .cancel setPattern waiterCountAddress, flag, .running =>
      let (result, cancelled) := flag.kernelCancelEventFlag setPattern waiterCountAddress
      some (cancelled, .returns result)
  | .delete, flag, .running => some (flag, .returns .ok)
  | .execute memory, flag, .running => some ({ flag with memory }, .returns .ok)
  | _, _, _ => none

def eventFlags : Protocol EventFlag EventFlagWait EventFlagResult EventFlagCall where
  perform := EventFlag.perform
  tryWake := EventFlag.tryPrepareBlockedWait
  hasDeadline wait := wait.timeoutAddress ≠ 0

end SharpEmu.KernelEventFlags
