import SharpEmu.AddressedBytes
import SharpEmu.MachineWords

/-!
# Pthread attributes

A guest program holds attributes as a word that contains a handle.  The emulator keeps
a record of them under the address of the word, and another one under the handle.
Most calls use the record under the word that they are given, and make a default one
where there is none; only the calls that set the stack follow a handle.
-/

namespace SharpEmu.PthreadAttributes

open Addressed (GuardedMemory bytesOf readBytes wordOf)

inductive Result
  | ok
  | invalidArgument
  | memoryFault
deriving DecidableEq, Repr

structure PthreadAttrState where
  affinityMask : UInt64
  detachState : Int32
  stackAddress : UInt64
  stackSize : UInt64
  guardSize : UInt64
  inheritSched : Int32
  schedPolicy : Int32
  schedPriority : Int32
deriving DecidableEq, Repr

def PthreadAttrState.default : PthreadAttrState where
  affinityMask := 0x7F
  detachState := 0
  stackAddress := 0
  stackSize := 0x100000
  guardSize := 0x1000
  inheritSched := 4
  schedPolicy := 1
  schedPriority := 700

/-- What the calls work on. -/
structure Attributes where
  memory : GuardedMemory
  attrStates : UInt64 → Option PthreadAttrState
  nextSyntheticPthreadAttrHandleId : UInt64

namespace Attributes

def assign (attributes : Attributes) (key : UInt64) (state : PthreadAttrState) : Attributes :=
  { attributes with attrStates := Function.update attributes.attrStates key (some state) }

def getOrCreateAttrStateLocked (attributes : Attributes) (attrAddress : UInt64) :
    PthreadAttrState × Attributes :=
  match attributes.attrStates attrAddress with
  | some state => (state, attributes)
  | none => (.default, attributes.assign attrAddress .default)

def resolvePthreadAttrHandle (attributes : Attributes) (attrAddress : UInt64) : UInt64 :=
  if attrAddress = 0 then 0
  else if (attributes.attrStates attrAddress).isSome then attrAddress
  else
    match attributes.memory.tryReadUInt64 attrAddress with
    | none => attrAddress
    | some pointedHandle =>
        if pointedHandle ≠ 0 ∧ (attributes.attrStates pointedHandle).isSome then pointedHandle
        else attrAddress

def syntheticPthreadAttrHandleBase : UInt64 := 0x0000600400000000

def allocateSyntheticHandle (attributes : Attributes) : UInt64 × Attributes :=
  let id := attributes.nextSyntheticPthreadAttrHandleId + 1
  (syntheticPthreadAttrHandleBase + (id <<< 4),
    { attributes with nextSyntheticPthreadAttrHandleId := id })

def pthreadAttrInit (attributes : Attributes) (attrAddress : UInt64) : Result × Attributes :=
  if attrAddress = 0 then (.invalidArgument, attributes)
  else
    let (syntheticHandle, attributes) := attributes.allocateSyntheticHandle
    match attributes.memory.tryWriteUInt64 attrAddress syntheticHandle with
    | none => (.memoryFault, attributes)
    | some memory =>
        let attributes := { attributes with memory }
        (.ok, (attributes.assign attrAddress .default).assign syntheticHandle .default)

/-! ## Setters -/

/-- Change the record under the word itself. -/
def setAttr (attributes : Attributes) (attrAddress : UInt64)
    (change : PthreadAttrState → PthreadAttrState) : Result × Attributes :=
  if attrAddress = 0 then (.invalidArgument, attributes)
  else
    let (state, attributes) := attributes.getOrCreateAttrStateLocked attrAddress
    (.ok, attributes.assign attrAddress (change state))

/-- Change the record that the word leads to, and keep it under the word too. -/
def setResolvedAttr (attributes : Attributes) (attrAddress : UInt64)
    (change : PthreadAttrState → PthreadAttrState) : Result × Attributes :=
  if attrAddress = 0 then (.invalidArgument, attributes)
  else
    let resolvedAddress := attributes.resolvePthreadAttrHandle attrAddress
    let (state, attributes) := attributes.getOrCreateAttrStateLocked resolvedAddress
    let updated := attributes.assign resolvedAddress (change state)
    (.ok,
      if resolvedAddress ≠ attrAddress then updated.assign attrAddress (change state)
      else updated)

def pthreadAttrSetaffinity (attributes : Attributes) (attrAddress mask : UInt64) :
    Result × Attributes :=
  attributes.setAttr attrAddress fun state => { state with affinityMask := mask }

def pthreadAttrSetdetachstate (attributes : Attributes) (attrAddress : UInt64)
    (detachState : Int32) : Result × Attributes :=
  attributes.setAttr attrAddress fun state => { state with detachState }

def pthreadAttrSetguardsize (attributes : Attributes) (attrAddress guardSize : UInt64) :
    Result × Attributes :=
  attributes.setAttr attrAddress fun state => { state with guardSize }

def pthreadAttrSetinheritsched (attributes : Attributes) (attrAddress : UInt64)
    (inheritSched : Int32) : Result × Attributes :=
  attributes.setAttr attrAddress fun state => { state with inheritSched }

def tryReadInt32 (memory : GuardedMemory) (address : UInt64) : Option Int32 :=
  (readBytes memory.bytes address 4).map (UInt32.toInt32 <| .ofNat <| wordOf ·)

def pthreadAttrSetschedparam (attributes : Attributes)
    (attrAddress schedParamAddress : UInt64) : Result × Attributes :=
  if attrAddress = 0 ∨ schedParamAddress = 0 then (.invalidArgument, attributes)
  else
    match tryReadInt32 attributes.memory schedParamAddress with
    | none => (.memoryFault, attributes)
    | some schedPriority =>
        attributes.setAttr attrAddress fun state => { state with schedPriority }

def pthreadAttrSetschedpolicy (attributes : Attributes) (attrAddress : UInt64)
    (policy : Int32) : Result × Attributes :=
  attributes.setAttr attrAddress fun state => { state with schedPolicy := policy }

def pthreadAttrSetstacksize (attributes : Attributes) (attrAddress stackSize : UInt64) :
    Result × Attributes :=
  attributes.setResolvedAttr attrAddress fun state => { state with stackSize }

def pthreadAttrSetstack (attributes : Attributes)
    (attrAddress stackAddress stackSize : UInt64) : Result × Attributes :=
  if attrAddress = 0 ∨ stackAddress = 0 ∨ stackSize = 0 then (.invalidArgument, attributes)
  else
    attributes.setResolvedAttr attrAddress fun state => { state with stackAddress, stackSize }

/-! ## Getters -/

/-- A value that is written to guest memory. -/
inductive Output
  | uint64 (value : UInt64)
  | int32 (value : Int32)
deriving DecidableEq, Repr

def Output.bytes : Output → List UInt8
  | .uint64 value => bytesOf 8 value.toNat
  | .int32 value => bytesOf 4 value.toUInt32.toNat

/-- Write one value after the other, up to the first that cannot be written. -/
def writeOutputs (memory : GuardedMemory) : List (UInt64 × Output) → Bool × GuardedMemory
  | [] => (true, memory)
  | (address, output) :: rest =>
      match memory.tryWrite address output.bytes with
      | none => (false, memory)
      | some memory => writeOutputs memory rest

/-- The result of a getter, and the values that it reads. -/
structure Reply where
  result : Result
  values : List Output
  attributes : Attributes

/-- Write values from the record under the word itself to the given addresses. -/
def getAttr (attributes : Attributes) (attrAddress : UInt64) (outAddresses : List UInt64)
    (read : PthreadAttrState → List Output) : Reply :=
  if attrAddress = 0 ∨ 0 ∈ outAddresses then ⟨.invalidArgument, [], attributes⟩
  else
    let (state, attributes) := attributes.getOrCreateAttrStateLocked attrAddress
    let (written, memory) :=
      writeOutputs attributes.memory (outAddresses.zip (read state))
    ⟨if written then .ok else .memoryFault, read state, { attributes with memory }⟩

def pthreadAttrGetaffinity (attributes : Attributes) (attrAddress outMaskAddress : UInt64) :
    Reply :=
  attributes.getAttr attrAddress [outMaskAddress] fun state => [.uint64 state.affinityMask]

def pthreadAttrGetdetachstate (attributes : Attributes)
    (attrAddress outStateAddress : UInt64) : Reply :=
  attributes.getAttr attrAddress [outStateAddress] fun state => [.int32 state.detachState]

def pthreadAttrGetguardsize (attributes : Attributes)
    (attrAddress outGuardSizeAddress : UInt64) : Reply :=
  attributes.getAttr attrAddress [outGuardSizeAddress] fun state => [.uint64 state.guardSize]

def pthreadAttrGetstackaddr (attributes : Attributes)
    (attrAddress outStackAddressPointer : UInt64) : Reply :=
  attributes.getAttr attrAddress [outStackAddressPointer] fun state =>
    [.uint64 state.stackAddress]

def pthreadAttrGetstack (attributes : Attributes)
    (attrAddress outStackAddressPointer outStackSizeAddress : UInt64) : Reply :=
  attributes.getAttr attrAddress [outStackAddressPointer, outStackSizeAddress] fun state =>
    [.uint64 state.stackAddress, .uint64 state.stackSize]

def pthreadAttrGetstacksize (attributes : Attributes)
    (attrAddress outStackSizeAddress : UInt64) : Reply :=
  attributes.getAttr attrAddress [outStackSizeAddress] fun state => [.uint64 state.stackSize]

def pthreadAttrGetschedparam (attributes : Attributes)
    (attrAddress schedParamAddress : UInt64) : Reply :=
  attributes.getAttr attrAddress [schedParamAddress] fun state =>
    [.int32 state.schedPriority]

end Attributes

end SharpEmu.PthreadAttributes
