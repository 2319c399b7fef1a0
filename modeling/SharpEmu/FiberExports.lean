import SharpEmu.CharacterEncodings
import SharpEmu.FaultingPrograms
import SharpEmu.StoredRanges

/-!
# Fibers

A fiber is an object in guest memory.  Running or switching to a fiber saves the
caller's continuation and asks for a transfer to the fiber's own: the one that
was saved when it was left, or a new one at its entry point.  Saved
continuations and stack ranges are tables under the object's address; a thread
that runs fibers has the continuation to return to.

An export ends with an error code or normally; what it has written until then
stays written.
-/

namespace SharpEmu

namespace Fiber

open Addressed

/-! ## Constants -/

def maxNameLength : ℕ := 31
def fiberContextMinimumSize : UInt64 := 512
def fiberSignature0 : UInt32 := 0xDEF1649C
def fiberSignature1 : UInt32 := 0xB37592A0
def fiberOptSignature : UInt32 := 0xBB40E64D
def fiberStackSignature : UInt64 := 0x7149F2CA7149F2CA
def fiberStackSizeCheck : UInt64 := 0xDEADBEEFDEADBEEF
def fiberStateRun : UInt32 := 1
def fiberStateIdle : UInt32 := 2
def fiberStateTerminated : UInt32 := 3
def fiberFlagContextSizeCheck : UInt32 := 0x10
def fiberFlagSetFpuRegs : UInt32 := 0x100
def firmware350BuildVersion : UInt32 := 0x03500000
def initialFpuControlWord : UInt16 := 0x037F
def initialMxcsr : UInt32 := 0x9FC0

def fiberErrorNull : UInt32 := 0x80590001
def fiberErrorAlignment : UInt32 := 0x80590002
def fiberErrorRange : UInt32 := 0x80590003
def fiberErrorInvalid : UInt32 := 0x80590004
def fiberErrorPermission : UInt32 := 0x80590005
def fiberErrorState : UInt32 := 0x80590006

def fiberMagicStartOffset : UInt64 := 0
def fiberStateOffset : UInt64 := 4
def fiberEntryOffset : UInt64 := 8
def fiberArgOnInitializeOffset : UInt64 := 16
def fiberContextAddressOffset : UInt64 := 24
def fiberContextSizeOffset : UInt64 := 32
def fiberNameOffset : UInt64 := 40
def fiberContextPointerOffset : UInt64 := 72
def fiberFlagsOffset : UInt64 := 80
def fiberContextStartOffset : UInt64 := 88
def fiberContextEndOffset : UInt64 := 96
def fiberMagicEndOffset : UInt64 := 104

/-! ## Callers -/

/-- The registers of the calling guest code. -/
structure CpuContext where
  rcx : UInt64
  rdx : UInt64
  rbx : UInt64
  rbp : UInt64
  rsp : UInt64
  rsi : UInt64
  rdi : UInt64
  r8 : UInt64
  r9 : UInt64
  r10 : UInt64
  r11 : UInt64
  r12 : UInt64
  r13 : UInt64
  r14 : UInt64
  r15 : UInt64
  rflags : UInt64
  fsBase : UInt64
  gsBase : UInt64
  fpuControlWord : UInt16
  mxcsr : UInt32

structure GuestImportCallFrame where
  returnRip : UInt64
  resumeRsp : UInt64
  returnSlotAddress : UInt64

/-- The thread that calls an export. -/
structure Caller where
  ctx : CpuContext
  hostThread : ℕ
  guestThreadHandle : UInt64
  supportsGuestContextTransfer : Bool
  importCallFrame : Option GuestImportCallFrame
  /-- The order in which the table of stack ranges is gone through. -/
  stackOrder : List UInt64

def Caller.threadKey (caller : Caller) : UInt64 :=
  if caller.guestThreadHandle ≠ 0 then caller.guestThreadHandle
  else if caller.ctx.fsBase ≠ 0 then caller.ctx.fsBase
  else 1

/-! ## State -/

structure GuestCpuContinuation where
  rip : UInt64
  rsp : UInt64
  returnSlotAddress : UInt64
  rflags : UInt64
  fsBase : UInt64
  gsBase : UInt64
  rax : UInt64
  rcx : UInt64
  rdx : UInt64
  rbx : UInt64
  rbp : UInt64
  rsi : UInt64
  rdi : UInt64
  r8 : UInt64
  r9 : UInt64
  r10 : UInt64
  r11 : UInt64
  r12 : UInt64
  r13 : UInt64
  r14 : UInt64
  r15 : UInt64
  fpuControlWord : UInt16
  mxcsr : UInt32
  restoreFullFpuState : Bool

structure FiberContinuation where
  context : GuestCpuContinuation
  argOnRunAddress : UInt64

structure FiberThreadState where
  rootContinuation : FiberContinuation
  currentFiber : UInt64
  previousFiber : UInt64

structure FiberStackRange where
  start : UInt64
  size : UInt64

def FiberStackRange.contains (range : FiberStackRange) (address : UInt64) :
    Bool :=
  range.size ≠ 0 && range.start ≤ address && address < range.start + range.size

structure FiberState where
  memory : GuardedMemory
  continuations : UInt64 → Option FiberContinuation
  stackRanges : UInt64 → Option FiberStackRange
  threadStates : UInt64 → Option FiberThreadState
  contextSizeCheck : Bool
  /-- The fiber that each host thread is in, or 0. -/
  currentFibers : ℕ → UInt64

namespace FiberState

def withContinuation (state : FiberState) (fiber : UInt64)
    (continuation : Option FiberContinuation) : FiberState :=
  { state with
    continuations := Function.update state.continuations fiber continuation }

def withThreadState (state : FiberState) (threadKey : UInt64)
    (threadState : Option FiberThreadState) : FiberState :=
  { state with
    threadStates := Function.update state.threadStates threadKey threadState }

def withStackRange (state : FiberState) (fiber : UInt64)
    (range : Option FiberStackRange) : FiberState :=
  { state with
    stackRanges := Function.update state.stackRanges fiber range }

def withCurrentFiber (state : FiberState) (hostThread : ℕ) (fiber : UInt64) :
    FiberState :=
  { state with
    currentFibers := Function.update state.currentFibers hostThread fiber }

end FiberState

/-- An export, which may end with an error code. -/
abbrev Program (Value : Type) := Faulting UInt32 FiberState Value

def refuse (condition : Prop) [Decidable condition] (error : UInt32) :
    Program Unit :=
  if condition then throw error else pure ()

def orRefuse {Value : Type} (answer : Option Value) (error : UInt32) :
    Program Value :=
  match answer with
  | some value => pure value
  | none => throw error

/-! ## Guest memory -/

def tryReadUInt32 (memory : GuardedMemory) (address : UInt64) :
    Option UInt32 :=
  (readWord memory.bytes address 4).map UInt64.toUInt32

def write (address : UInt64) (data : List UInt8) (error : UInt32) :
    Program Unit := do
  let memory ← orRefuse ((← get).memory.tryWrite address data) error
  modify fun state => { state with memory }

def writeUInt32 (address : UInt64) (value error : UInt32) : Program Unit :=
  write address (bytesOf 4 value.toNat) error

def writeUInt64 (address value : UInt64) (error : UInt32) : Program Unit :=
  write address (bytesOf 8 value.toNat) error

/-- Writes in turn, up to the first that fails. -/
def writeAll (error : UInt32) : Ranges → Program Unit
  | [] => pure ()
  | (address, data) :: rest => do
      write address data error
      writeAll error rest

def word32 (address : UInt64) (value : UInt32) : UInt64 × List UInt8 :=
  (address, bytesOf 4 value.toNat)

def word64 (address value : UInt64) : UInt64 × List UInt8 :=
  (address, bytesOf 8 value.toNat)

def tryWriteOrKeep (memory : GuardedMemory) (address : UInt64)
    (data : List UInt8) : GuardedMemory :=
  (memory.tryWrite address data).getD memory

def nameBuffer (name : List Char) : List UInt8 :=
  let bytes := (Unicode.toUtf8 name).take maxNameLength
  bytes ++ List.replicate (maxNameLength + 1 - bytes.length) 0

def tryReadInlineName (memory : GuardedMemory) (address : UInt64) : Option (List Char) :=
  (readBytes memory.bytes address (maxNameLength + 1)).map fun buffer =>
    Unicode.fromUtf8 (buffer.takeWhile (· ≠ 0))

def readUpToNull (memory : GuardedMemory) (address : UInt64) : ℕ → Option (List UInt8)
  | 0 => some []
  | capacity + 1 =>
      match memory.bytes address with
      | none => none
      | some byte =>
          if byte = 0 then some []
          else (readUpToNull memory (address + 1) capacity).map (byte :: ·)

def tryReadNullTerminatedUtf8 (memory : GuardedMemory) (address : UInt64)
    (capacity : ℕ) : Option (List Char) :=
  (readUpToNull memory address capacity).map Unicode.fromUtf8

def readStackArg64 (memory : GuardedMemory) (ctx : CpuContext) (index : UInt64) : UInt64 :=
  (memory.tryReadUInt64 (ctx.rsp + 8 + index * 8)).getD 0

/-! ## Fiber objects -/

structure FiberFields where
  state : UInt32
  entry : UInt64
  argOnInitialize : UInt64
  contextAddress : UInt64
  contextSize : UInt64
  flags : UInt32
  name : List Char

def tryReadFiberFields (memory : GuardedMemory) (fiber : UInt64) :
    Option FiberFields := do
  let state ← tryReadUInt32 memory (fiber + fiberStateOffset)
  let entry ← memory.tryReadUInt64 (fiber + fiberEntryOffset)
  let argOnInitialize ←
    memory.tryReadUInt64 (fiber + fiberArgOnInitializeOffset)
  let contextAddress ←
    memory.tryReadUInt64 (fiber + fiberContextAddressOffset)
  let contextSize ← memory.tryReadUInt64 (fiber + fiberContextSizeOffset)
  let flags ← tryReadUInt32 memory (fiber + fiberFlagsOffset)
  let name ← tryReadInlineName memory (fiber + fiberNameOffset)
  return ⟨state, entry, argOnInitialize, contextAddress, contextSize, flags, name⟩

def HasSignatures (memory : GuardedMemory) (fiber : UInt64) : Prop :=
  tryReadUInt32 memory (fiber + fiberMagicStartOffset) = some fiberSignature0 ∧
    tryReadUInt32 memory (fiber + fiberMagicEndOffset) = some fiberSignature1

instance (memory : GuardedMemory) (fiber : UInt64) : Decidable (HasSignatures memory fiber) :=
  inferInstanceAs (Decidable (_ ∧ _))

def validateFiber (fiber : UInt64) : Program Unit := do
  refuse (fiber = 0) fiberErrorNull
  refuse (fiber &&& 7 ≠ 0) fiberErrorAlignment
  refuse (¬HasSignatures (← get).memory fiber) fiberErrorInvalid

/-! ## The fiber of a thread -/

def tryFindFiberByStackAddress (caller : Caller) (state : FiberState)
    (address : UInt64) : Option UInt64 :=
  if address = 0 then none
  else caller.stackOrder.find? fun candidate =>
    match state.stackRanges candidate with
    | some range => range.contains address
    | none => false

def tryFindFiberByStack (caller : Caller) (state : FiberState) :
    Option UInt64 :=
  (tryFindFiberByStackAddress caller state caller.ctx.rsp).orElse fun _ =>
    tryFindFiberByStackAddress caller state caller.ctx.rbp

def resolveCurrentFiberAddress (caller : Caller) (state : FiberState) :
    UInt64 :=
  if state.currentFibers caller.hostThread ≠ 0 then
    state.currentFibers caller.hostThread
  else
    match state.threadStates caller.threadKey with
    | some threadState =>
        if threadState.currentFiber ≠ 0 then threadState.currentFiber
        else (tryFindFiberByStack caller state).getD 0
    | none => (tryFindFiberByStack caller state).getD 0

/-! ## Initialisation and finalisation -/

def applyInitializationFlags (flags buildVersion : UInt32) (contextSizeCheck : Bool) : UInt32 :=
  let flags := if firmware350BuildVersion ≤ buildVersion then
    flags ||| fiberFlagSetFpuRegs else flags
  if contextSizeCheck then flags ||| fiberFlagContextSizeCheck else flags

def fillWords (stop : UInt64) : ℕ → UInt64 → GuardedMemory → GuardedMemory
  | 0, _, memory => memory
  | count + 1, current, memory =>
      if current + 8 ≤ stop then
        fillWords stop count (current + 8) (tryWriteOrKeep memory current
            (bytesOf 8 fiberStackSizeCheck.toNat))
      else memory

def fillContextSizeCheck (address size : UInt64) (memory : GuardedMemory) :
    GuardedMemory :=
  fillWords (address + size) (size.toNat / 8) address memory

structure Initialization where
  fiber : UInt64
  nameAddress : UInt64
  entry : UInt64
  argOnInitialize : UInt64
  contextAddress : UInt64
  contextSize : UInt64
  optParam : UInt64
  flags : UInt32
  buildVersion : UInt32
deriving DecidableEq

/-- The checks of an initialisation, with the name and the flags of the
fiber. -/
def checkInitialization (initialization : Initialization) : Program (List Char × UInt32) := do
  let ⟨fiber, nameAddress, entry, _, contextAddress, contextSize, optParam,
    flags, buildVersion⟩ := initialization
  refuse (fiber = 0 ∨ nameAddress = 0 ∨ entry = 0) fiberErrorNull
  refuse (fiber &&& 7 ≠ 0 ∨ contextAddress &&& 15 ≠ 0 ∨ optParam &&& 7 ≠ 0) fiberErrorAlignment
  refuse (contextSize ≠ 0 ∧ contextSize < fiberContextMinimumSize) fiberErrorRange
  refuse (contextSize &&& 15 ≠ 0 ∨ (contextAddress = 0 ∧ contextSize ≠ 0) ∨
    (contextAddress ≠ 0 ∧ contextSize = 0)) fiberErrorInvalid
  let state ← get
  refuse (optParam ≠ 0 ∧ tryReadUInt32 state.memory optParam ≠ some fiberOptSignature)
    fiberErrorInvalid
  let name ← orRefuse (tryReadNullTerminatedUtf8 state.memory nameAddress (maxNameLength + 1))
    fiberErrorInvalid
  return (name, applyInitializationFlags flags buildVersion state.contextSizeCheck)

def fiberObject (initialization : Initialization) (name : List Char) (flags : UInt32) : Ranges :=
  let ⟨fiber, _, entry, argOnInitialize, contextAddress, contextSize, _, _, _⟩ :=
    initialization
  [word32 (fiber + fiberMagicStartOffset) fiberSignature0,
    word32 (fiber + fiberStateOffset) fiberStateIdle,
    word64 (fiber + fiberEntryOffset) entry,
    word64 (fiber + fiberArgOnInitializeOffset) argOnInitialize,
    word64 (fiber + fiberContextAddressOffset) contextAddress,
    word64 (fiber + fiberContextSizeOffset) contextSize,
    (fiber + fiberNameOffset, nameBuffer name),
    word64 (fiber + fiberContextPointerOffset) 0,
    word32 (fiber + fiberFlagsOffset) flags,
    word64 (fiber + fiberContextStartOffset) contextAddress,
    word64 (fiber + fiberContextEndOffset)
      (if contextAddress = 0 then 0 else contextAddress + contextSize),
    word32 (fiber + fiberMagicEndOffset) fiberSignature1]

/-- The signature at the start of a stack, and the filling behind it. -/
def prepareStack (contextAddress contextSize : UInt64) (flags : UInt32) :
    Program Unit :=
  if contextAddress ≠ 0 then do
    writeUInt64 contextAddress fiberStackSignature fiberErrorInvalid
    if flags &&& fiberFlagContextSizeCheck ≠ 0 then
      modify fun state => { state with
        memory := fillContextSizeCheck (contextAddress + 8) (contextSize - 8) state.memory }
  else pure ()

def fiberInitializeCore (initialization : Initialization) : Program Unit := do
  let (name, flags) ← checkInitialization initialization
  writeAll fiberErrorInvalid (fiberObject initialization name flags)
  prepareStack initialization.contextAddress initialization.contextSize flags
  if initialization.contextAddress ≠ 0 ∧ initialization.contextSize ≠ 0 then
    modify (·.withStackRange initialization.fiber
      (some ⟨initialization.contextAddress, initialization.contextSize⟩))

def fiberFinalize (fiber : UInt64) : Program Unit := do
  validateFiber fiber
  let word ← orRefuse (tryReadUInt32 (← get).memory (fiber + fiberStateOffset)) fiberErrorInvalid
  refuse (word ≠ fiberStateIdle) fiberErrorState
  modify fun state =>
    { (state.withContinuation fiber none).withStackRange fiber none with
      memory := tryWriteOrKeep state.memory (fiber + fiberStateOffset)
        (bytesOf 4 fiberStateTerminated.toNat) }

end Fiber

end SharpEmu
