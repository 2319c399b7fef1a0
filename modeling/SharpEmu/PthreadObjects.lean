import SharpEmu.AddressedBytes
import SharpEmu.AliasTables
import Mathlib.Data.UInt

/-!
# Pthread mutexes, condition variables and rwlocks

A guest program holds such an object as a word that contains a handle.  The emulator
keeps the state of the object in a dictionary, under the address of that word and
under the handle; using the object through a copy of the handle adds the address of
the copy.

Each call works on the guest's memory and on the dictionary of its kind of object.
What else a call does with a state that it has found is of no concern here, except
that a state may be busy.
-/

namespace SharpEmu.PthreadObjects

open Addressed (GuardedMemory)

inductive Result
  | ok
  | invalidArgument
  | notFound
  | busy
  | memoryFault
deriving DecidableEq, Repr

structure Objects (State : Type) where
  memory : GuardedMemory
  states : AliasTable UInt64 State
  nextSyntheticHandleId : UInt64

/-- What a call is given when it looks up its object. -/
structure Resolution (State : Type) where
  objects : Objects State
  resolvedAddress : UInt64
  object : Option ℕ

/-- What the guest's allocator answers; it never hands out address 0. -/
abbrev Allocation := Option { address : UInt64 // address ≠ 0 }

variable {State : Type}

namespace Objects

def tryAllocateOpaqueObject (objects : Objects State) (allocation : Allocation)
    (size : ℕ) : Option (UInt64 × Objects State) :=
  allocation.bind fun address =>
    (objects.memory.tryWrite address (List.replicate size 0)).map fun memory =>
      (address, { objects with memory })

def writeUInt64 (objects : Objects State) (address value : UInt64) : Objects State :=
  { objects with memory := (objects.memory.tryWriteUInt64 address value).getD objects.memory }

/-- The key under which a call finds the state of what it is given. -/
def resolveHandle (objects : Objects State) (address : UInt64) : UInt64 :=
  if address = 0 then 0
  else if (objects.states.keys address).isSome then address
  else
    match objects.memory.tryReadUInt64 address with
    | none => address
    | some pointedHandle =>
        if pointedHandle ≠ 0 ∧ (objects.states.keys pointedHandle).isSome then pointedHandle
        else address

def destroyCore (isBusy : State → Bool) (objects : Objects State) (address : UInt64) :
    Result × Objects State :=
  if address = 0 then (.invalidArgument, objects)
  else
    let resolvedAddress := objects.resolveHandle address
    match objects.states.keys resolvedAddress with
    | none => (.notFound, objects)
    | some object =>
        if (objects.states.objects[object]?).any isBusy then (.busy, objects)
        else
          let removed := objects.states.erase resolvedAddress
          let states := if resolvedAddress ≠ address then removed.erase address else removed
          (.ok, { objects with states }.writeUInt64 address 0)

/-- Make an object under its address and a handle, and give the handle to the guest.
Where that fails, neither is left in the dictionary. -/
def registerState (objects : Objects State) (address handle : UInt64) (state : State) :
    Bool × Objects State :=
  let states := objects.states.create address handle state
  match objects.memory.tryWriteUInt64 address handle with
  | some memory => (true, { objects with states, memory })
  | none => (false, { objects with states := (states.erase address).erase handle })

/-- The same, for a word that asked for a state. -/
def resolveNew (objects : Objects State) (address handle : UInt64) (state : State) :
    Resolution State :=
  let (registered, created) := objects.registerState address handle state
  if registered then ⟨created, handle, some objects.states.objects.length⟩
  else ⟨created, 0, none⟩

/-- Look up an object, with a new state for a word that asks for one: `staticState`
for the words of static initializers, `implicitState` for 0. -/
def tryResolveState (create : State → Resolution State)
    (staticState : UInt64 → Option State) (implicitState : State) (createIfZero : Bool)
    (objects : Objects State) (address : UInt64) : Resolution State :=
  if address = 0 then ⟨objects, 0, none⟩
  else
    match objects.states.keys address with
    | some object => ⟨objects, address, some object⟩
    | none =>
        match objects.memory.tryReadUInt64 address with
        | none => ⟨objects, 0, none⟩
        | some pointedHandle =>
            match staticState pointedHandle with
            | some state => create state
            | none =>
                if pointedHandle ≠ 0 then
                  match objects.states.keys pointedHandle with
                  | some object =>
                      let states := objects.states.link address pointedHandle
                      ⟨{ objects with states }, pointedHandle, some object⟩
                  | none => ⟨objects, pointedHandle, none⟩
                else if createIfZero then create implicitState
                else ⟨objects, address, none⟩

end Objects

open Objects

/-! ## Mutexes -/

structure PthreadMutexState where
  ownerThreadId : UInt64
  recursionCount : Int32
  type : Int32
  protocol : Int32
  waiters : List UInt64
deriving DecidableEq, Repr

def mutexTypeErrorCheck : Int32 := 1
def mutexTypeAdaptiveNp : Int32 := 4
def staticAdaptiveMutexInitializer : UInt64 := 1
def mutexObjectSize : ℕ := 0x100

def PthreadMutexState.ofType (type protocol : Int32) : PthreadMutexState where
  ownerThreadId := 0
  recursionCount := 0
  type
  protocol
  waiters := []

def PthreadMutexState.isBusy (state : PthreadMutexState) : Bool :=
  state.ownerThreadId ≠ 0 || state.recursionCount ≠ 0 || state.waiters.length ≠ 0

/-- Write the type and the protocol into the guest's object. -/
def initializeMutexObject (objects : Objects PthreadMutexState) (address : UInt64)
    (state : PthreadMutexState) : Bool × Objects PthreadMutexState :=
  match objects.memory.tryWriteUInt32 (address + 0x20) state.type.toUInt32 with
  | none => (false, objects)
  | some typed =>
      match typed.tryWriteUInt32 (address + 0x3C) state.protocol.toUInt32 with
      | none => (false, { objects with memory := typed })
      | some memory => (true, { objects with memory })

def pthreadMutexInitCore (objects : Objects PthreadMutexState) (mutexAddress : UInt64)
    (type protocol : Int32) (allocation : Allocation) :
    Result × Objects PthreadMutexState :=
  if mutexAddress = 0 then (.invalidArgument, objects)
  else
    let state := .ofType type protocol
    match objects.tryAllocateOpaqueObject allocation mutexObjectSize with
    | none => (.memoryFault, objects)
    | some (handle, objects) =>
        match initializeMutexObject objects handle state with
        | (false, objects) => (.memoryFault, objects)
        | (true, objects) =>
            let (registered, objects) := objects.registerState mutexAddress handle state
            (if registered then .ok else .memoryFault, objects)

def createImplicitMutexState (objects : Objects PthreadMutexState) (mutexAddress : UInt64)
    (allocation : Allocation) (state : PthreadMutexState) :
    Resolution PthreadMutexState :=
  match objects.tryAllocateOpaqueObject allocation mutexObjectSize with
  | none => ⟨objects, 0, none⟩
  | some (handle, objects) =>
      match initializeMutexObject objects handle state with
      | (false, objects) => ⟨objects, 0, none⟩
      | (true, objects) =>
          match objects.states.keys mutexAddress, objects.states.keys handle with
          | some object, _ => ⟨objects, mutexAddress, some object⟩
          | none, some object => ⟨objects, handle, some object⟩
          | none, none => objects.resolveNew mutexAddress handle state

def tryResolveMutexState (objects : Objects PthreadMutexState) (mutexAddress : UInt64)
    (createIfZero : Bool) (allocation : Allocation) : Resolution PthreadMutexState :=
  tryResolveState (createImplicitMutexState objects mutexAddress allocation) (fun pointedHandle =>
      if pointedHandle = staticAdaptiveMutexInitializer then
        some (.ofType mutexTypeAdaptiveNp 0)
      else none)
    (.ofType mutexTypeErrorCheck 0) createIfZero objects mutexAddress

def pthreadMutexDestroyCore (objects : Objects PthreadMutexState) (mutexAddress : UInt64) :
    Result × Objects PthreadMutexState :=
  destroyCore PthreadMutexState.isBusy objects mutexAddress

/-! ## Condition variables -/

structure PthreadCondState where
  waiterQueue : List UInt64
  signalEpoch : UInt64
deriving DecidableEq, Repr

def condObjectSize : ℕ := 0x100

def PthreadCondState.new : PthreadCondState := ⟨[], 0⟩

def PthreadCondState.isBusy (state : PthreadCondState) : Bool :=
  state.waiterQueue.length ≠ 0

def pthreadCondInitCore (objects : Objects PthreadCondState) (condAddress : UInt64)
    (allocation : Allocation) : Result × Objects PthreadCondState :=
  if condAddress = 0 then (.invalidArgument, objects)
  else
    match objects.tryAllocateOpaqueObject allocation condObjectSize with
    | none => (.memoryFault, objects)
    | some (handle, objects) =>
        let (registered, objects) := objects.registerState condAddress handle .new
        (if registered then .ok else .memoryFault, objects)

def createImplicitCondState (objects : Objects PthreadCondState) (condAddress : UInt64)
    (allocation : Allocation) (state : PthreadCondState) : Resolution PthreadCondState :=
  match objects.tryAllocateOpaqueObject allocation condObjectSize with
  | none => ⟨objects, 0, none⟩
  | some (handle, objects) => objects.resolveNew condAddress handle state

def tryResolveCondState (objects : Objects PthreadCondState) (condAddress : UInt64)
    (createIfZero : Bool) (allocation : Allocation) : Resolution PthreadCondState :=
  tryResolveState (createImplicitCondState objects condAddress allocation)
    (fun _ => none) .new createIfZero objects condAddress

def pthreadCondDestroyCore (objects : Objects PthreadCondState) (condAddress : UInt64) :
    Result × Objects PthreadCondState :=
  destroyCore PthreadCondState.isBusy objects condAddress

/-! ## Rwlocks -/

structure PthreadRwlockState where
  writerThreadId : UInt64
  readerTotalCount : Int32
  waitingWriters : Int32
  compatWriterTotalCount : Int32
deriving DecidableEq, Repr

def PthreadRwlockState.new : PthreadRwlockState := ⟨0, 0, 0, 0⟩

def PthreadRwlockState.isBusy (state : PthreadRwlockState) : Bool :=
  state.writerThreadId ≠ 0 || state.readerTotalCount ≠ 0 ||
    state.waitingWriters ≠ 0 || state.compatWriterTotalCount ≠ 0

def syntheticRwlockHandleBase : UInt64 := 0x0000600300000000

def allocateSyntheticHandle (baseAddress : UInt64) (objects : Objects State) :
    UInt64 × Objects State :=
  let id := objects.nextSyntheticHandleId + 1
  (baseAddress + (id <<< 4), { objects with nextSyntheticHandleId := id })

/-- The state that the address had before is forgotten, and a word that cannot be
written is left as it is. -/
def pthreadRwlockInit (objects : Objects PthreadRwlockState) (rwlockAddress : UInt64) :
    Result × Objects PthreadRwlockState :=
  if rwlockAddress = 0 then (.invalidArgument, objects)
  else
    let (syntheticHandle, objects) := allocateSyntheticHandle syntheticRwlockHandleBase objects
    let resolvedAddress := objects.resolveHandle rwlockAddress
    let states := (objects.states.erase resolvedAddress).create rwlockAddress syntheticHandle .new
    (.ok, { objects with states }.writeUInt64 rwlockAddress syntheticHandle)

def createImplicitRwlockState (objects : Objects PthreadRwlockState)
    (rwlockAddress : UInt64) (state : PthreadRwlockState) :
    Resolution PthreadRwlockState :=
  let object := objects.states.objects.length
  let (syntheticHandle, objects) := allocateSyntheticHandle syntheticRwlockHandleBase objects
  let states := objects.states.create rwlockAddress syntheticHandle state
  ⟨{ objects with states }.writeUInt64 rwlockAddress syntheticHandle, syntheticHandle, some object⟩

def tryResolveRwlockState (objects : Objects PthreadRwlockState) (rwlockAddress : UInt64)
    (createIfZero : Bool) : Resolution PthreadRwlockState :=
  tryResolveState (createImplicitRwlockState objects rwlockAddress)
    (fun _ => none) .new createIfZero objects rwlockAddress

def pthreadRwlockDestroy (objects : Objects PthreadRwlockState) (rwlockAddress : UInt64) :
    Result × Objects PthreadRwlockState :=
  destroyCore PthreadRwlockState.isBusy objects rwlockAddress

end SharpEmu.PthreadObjects
