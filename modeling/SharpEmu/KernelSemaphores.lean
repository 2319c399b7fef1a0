import SharpEmu.AddressedBytes
import SharpEmu.CooperativeWaits

/-!
# Kernel semaphores

A semaphore holds tokens, up to a maximum.  A wait takes its tokens at once, or a waker
takes them for it and it learns of that when it resumes, or it gives up when its time is
up.  The counts are 32-bit integers; the checks keep all sums in their range.

The ledger is for specification only: it adds up what the calls have reported and taken.
-/

namespace SharpEmu.KernelSemaphores

open Addressed (Memory readWord tryWriteUInt32)
open Cooperative

inductive SemaphoreResult
  | ok
  | invalidArgument
  | memoryFault
  | busy
  | timedOut
deriving DecidableEq, Repr

structure KernelSemaphoreState where
  initialCount : ℤ
  maxCount : ℤ
  count : ℤ
  waitingThreads : ℕ
deriving DecidableEq, Repr

structure SemaphoreWait where
  needCount : ℤ
  needs : 1 ≤ needCount
  timeoutAddress : UInt64
deriving DecidableEq

/-- The count that the semaphore was created or last cancelled with, and the tokens
signalled and granted since; the tokens granted in all, and those of the waits and polls
that have returned success. -/
structure Ledger where
  start : ℤ
  signalled : ℤ
  granted : ℤ
  grantedInAll : ℤ
  returnedInAll : ℤ
deriving DecidableEq, Repr

structure Semaphore where
  state : KernelSemaphoreState
  memory : Memory
  ledger : Ledger

def acceptsCounts (initialCount maxCount : ℤ) : Bool :=
  ¬ (initialCount < 0 ∨ maxCount ≤ 0 ∨ initialCount > maxCount)

namespace Semaphore

def created (initialCount maxCount : ℤ) (memory : Memory) : Semaphore where
  state := ⟨initialCount, maxCount, initialCount, 0⟩
  memory := memory
  ledger := ⟨initialCount, 0, 0, 0, 0⟩

def take (semaphore : Semaphore) (needCount : ℤ) : Semaphore :=
  { semaphore with
    state := { semaphore.state with count := semaphore.state.count - needCount }
    ledger :=
      { semaphore.ledger with
        granted := semaphore.ledger.granted + needCount
        grantedInAll := semaphore.ledger.grantedInAll + needCount } }

def returnOk (semaphore : Semaphore) (needCount : ℤ) : Semaphore :=
  { semaphore with
    ledger :=
      { semaphore.ledger with
        returnedInAll := semaphore.ledger.returnedInAll + needCount } }

def dropWaiter (semaphore : Semaphore) : Semaphore :=
  { semaphore with
    state :=
      { semaphore.state with waitingThreads := semaphore.state.waitingThreads - 1 } }

def writeTimeout (semaphore : Semaphore) (timeoutAddress : UInt64) (timeoutUsec : ℕ) :
    Semaphore :=
  if timeoutAddress = 0 then semaphore
  else
    { semaphore with
      memory := (tryWriteUInt32 semaphore.memory timeoutAddress timeoutUsec).getD semaphore.memory }

def kernelWaitSema (semaphore : Semaphore) (isGuestThread : Bool) (needCount : ℤ)
    (timeoutAddress : UInt64) : Semaphore × Turn SemaphoreWait SemaphoreResult :=
  if outside : needCount < 1 ∨ needCount > semaphore.state.maxCount then
    (semaphore, .returns .invalidArgument)
  else
    match
      if timeoutAddress = 0 then some 0 else readWord semaphore.memory timeoutAddress 4 with
    | none => (semaphore, .returns .memoryFault)
    | some timeoutUsec =>
        if semaphore.state.count ≥ needCount then
          let taken := (semaphore.take needCount).writeTimeout timeoutAddress timeoutUsec.toNat
          (taken.returnOk needCount, .returns .ok)
        else
          let joined :=
            { semaphore with
              state :=
                { semaphore.state with
                  waitingThreads := semaphore.state.waitingThreads + 1 } }
          let wait : SemaphoreWait :=
            ⟨needCount, Int.not_lt.mp (not_or.mp outside).1, timeoutAddress⟩
          (joined, if isGuestThread then .blocks wait else .polls wait)

def wakePredicate (wait : SemaphoreWait) (semaphore : Semaphore) :
    Option (Semaphore × SemaphoreResult) :=
  if semaphore.state.count ≥ wait.needCount then
    some ((semaphore.take wait.needCount).dropWaiter, .ok)
  else none

def resumeWait (semaphore : Semaphore) (wait : SemaphoreWait) :
    Option SemaphoreResult → Semaphore × SemaphoreResult
  | some result =>
      ((semaphore.writeTimeout wait.timeoutAddress 0).returnOk wait.needCount, result)
  | none => ((semaphore.writeTimeout wait.timeoutAddress 0).dropWaiter, .timedOut)

/-- A host thread looks at the semaphore again, when its time may be up. -/
def waitSemaphoreOnHostThread (semaphore : Semaphore) (wait : SemaphoreWait)
    (isExpired : Bool) : Option (Semaphore × SemaphoreResult) :=
  if semaphore.state.count < wait.needCount then
    if wait.timeoutAddress ≠ 0 ∧ isExpired then
      some (semaphore.dropWaiter.writeTimeout wait.timeoutAddress 0, .timedOut)
    else none
  else
    let taken := (semaphore.take wait.needCount).dropWaiter
    some ((taken.writeTimeout wait.timeoutAddress 0).returnOk wait.needCount, .ok)

def kernelPollSema (semaphore : Semaphore) (needCount : ℤ) : Semaphore × SemaphoreResult :=
  if needCount < 1 ∨ needCount > semaphore.state.maxCount then
    (semaphore, .invalidArgument)
  else if semaphore.state.count < needCount then (semaphore, .busy)
  else ((semaphore.take needCount).returnOk needCount, .ok)

def kernelSignalSema (semaphore : Semaphore) (signalCount : ℤ) :
    Semaphore × Turn SemaphoreWait SemaphoreResult :=
  if signalCount ≤ 0 then (semaphore, .returns .invalidArgument)
  else if semaphore.state.count > semaphore.state.maxCount - signalCount then
    (semaphore, .returns .invalidArgument)
  else
    ({ semaphore with
        state := { semaphore.state with count := semaphore.state.count + signalCount }
        ledger :=
          { semaphore.ledger with signalled := semaphore.ledger.signalled + signalCount } },
      .wakes .ok)

def kernelCancelSema (semaphore : Semaphore) (setCount : ℤ)
    (waitingThreadsAddress : UInt64) : Semaphore × Turn SemaphoreWait SemaphoreResult :=
  if setCount > semaphore.state.maxCount then (semaphore, .returns .invalidArgument)
  else
    match
      if waitingThreadsAddress = 0 then some semaphore.memory
      else tryWriteUInt32 semaphore.memory waitingThreadsAddress semaphore.state.waitingThreads with
    | none => (semaphore, .returns .memoryFault)
    | some memory =>
        let count := if setCount < 0 then semaphore.state.initialCount else setCount
        ({ state := { semaphore.state with count, waitingThreads := 0 }
           memory := memory
           ledger :=
            { semaphore.ledger with start := count, signalled := 0, granted := 0 } },
          .wakes .ok)

end Semaphore

/-! ## The calls as actions -/

inductive SemaphoreCall
  | wait (needCount : ℤ) (timeoutAddress : UInt64)
  | pump (isExpired : Bool)
  | resume
  | poll (needCount : ℤ)
  | signal (signalCount : ℤ)
  | cancel (setCount : ℤ) (waitingThreadsAddress : UInt64)
  | delete
  /-- The guest runs. -/
  | execute (memory : Memory)

def Semaphore.perform (isGuestThread : Bool) :
    SemaphoreCall → Semaphore → Phase SemaphoreWait SemaphoreResult →
      Option (Semaphore × Turn SemaphoreWait SemaphoreResult)
  | .wait needCount timeoutAddress, semaphore, .running =>
      some (semaphore.kernelWaitSema isGuestThread needCount timeoutAddress)
  | .pump isExpired, semaphore, .polling wait =>
      (semaphore.waitSemaphoreOnHostThread wait isExpired).map fun (pumped, result) =>
        (pumped, .returns result)
  | .resume, semaphore, .ready wait woken =>
      let (resumed, result) := semaphore.resumeWait wait woken
      some (resumed, .returns result)
  | .poll needCount, semaphore, .running =>
      let (polled, result) := semaphore.kernelPollSema needCount
      some (polled, .returns result)
  | .signal signalCount, semaphore, .running => some (semaphore.kernelSignalSema signalCount)
  | .cancel setCount waitingThreadsAddress, semaphore, .running =>
      some (semaphore.kernelCancelSema setCount waitingThreadsAddress)
  | .delete, semaphore, .running => some (semaphore, .returns .ok)
  | .execute memory, semaphore, .running => some ({ semaphore with memory }, .returns .ok)
  | _, _, _ => none

def semaphores : Protocol Semaphore SemaphoreWait SemaphoreResult SemaphoreCall where
  perform := Semaphore.perform
  tryWake := Semaphore.wakePredicate
  hasDeadline wait := wait.timeoutAddress ≠ 0

end SharpEmu.KernelSemaphores
