import SharpEmu.FiberExports
import SharpEmu.MachineWords

/-!
# Running, switching and returning

The exports that transfer control between fibers.  Each one makes its checks and
its writes in turn, so that an error in the middle leaves what was written
before, apart from what the error path takes back.
-/

namespace SharpEmu

namespace Fiber

open Addressed

/-! ## Continuations -/

def savedRflags (ctx : CpuContext) : UInt64 :=
  if ctx.rflags = 0 then 0x202 else ctx.rflags

def captureContinuation (ctx : CpuContext) (frame : GuestImportCallFrame) :
    GuestCpuContinuation where
  rip := frame.returnRip
  rsp := frame.resumeRsp
  returnSlotAddress := frame.returnSlotAddress
  rflags := savedRflags ctx
  fsBase := ctx.fsBase
  gsBase := ctx.gsBase
  rax := 0
  rcx := ctx.rcx
  rdx := ctx.rdx
  rbx := ctx.rbx
  rbp := ctx.rbp
  rsi := ctx.rsi
  rdi := ctx.rdi
  r8 := ctx.r8
  r9 := ctx.r9
  r10 := ctx.r10
  r11 := ctx.r11
  r12 := ctx.r12
  r13 := ctx.r13
  r14 := ctx.r14
  r15 := ctx.r15
  fpuControlWord := ctx.fpuControlWord
  mxcsr := ctx.mxcsr
  restoreFullFpuState := false

structure InitialStackLayout where
  entryRsp : UInt64
  transferSlot : UInt64

def tryCalculateInitialStackLayout (stackEnd : UInt64) :
    Option InitialStackLayout :=
  let alignedEnd := stackEnd &&& ~~~(15 : UInt64)
  if alignedEnd < 16 then none
  else some ⟨alignedEnd - 8, alignedEnd - 8 - 8⟩

def initialStackEnd (fields : FiberFields) (rootStackTop : UInt64) :
    Option UInt64 :=
  if fields.contextAddress = 0 then
    if rootStackTop < 32 then none
    else some (rootStackTop &&& ~~~(15 : UInt64))
  else if fields.contextSize < fiberContextMinimumSize then none
  else some (fields.contextAddress + fields.contextSize)

def initialContinuation (ctx : CpuContext) (fields : FiberFields)
    (argOnRun entryRsp : UInt64) : FiberContinuation :=
  let setFpuRegisters := fields.flags &&& fiberFlagSetFpuRegs ≠ 0
  { context :=
      { rip := fields.entry
        rsp := entryRsp
        returnSlotAddress := entryRsp
        rflags := savedRflags ctx
        fsBase := ctx.fsBase
        gsBase := ctx.gsBase
        rax := 0
        rcx := 0
        rdx := 0
        rbx := 0
        rbp := 0
        rsi := argOnRun
        rdi := fields.argOnInitialize
        r8 := 0
        r9 := 0
        r10 := 0
        r11 := 0
        r12 := 0
        r13 := 0
        r14 := 0
        r15 := 0
        fpuControlWord :=
          if setFpuRegisters then initialFpuControlWord else ctx.fpuControlWord
        mxcsr := if setFpuRegisters then initialMxcsr else ctx.mxcsr
        restoreFullFpuState := setFpuRegisters }
    argOnRunAddress := 0 }

def createInitialContinuation (ctx : CpuContext) (fields : FiberFields)
    (argOnRun rootStackTop : UInt64) : Program FiberContinuation := do
  let stackEnd ← orRefuse (initialStackEnd fields rootStackTop) fiberErrorInvalid
  let layout ← orRefuse (tryCalculateInitialStackLayout stackEnd) fiberErrorInvalid
  writeAll fiberErrorInvalid [word64 layout.transferSlot fields.entry, word64 layout.entryRsp 0]
  return initialContinuation ctx fields argOnRun layout.entryRsp

def writeResumeArgument (continuation : FiberContinuation) (argument : UInt64)
    (error : UInt32) : Program Unit :=
  if continuation.argOnRunAddress = 0 then pure ()
  else writeUInt64 continuation.argOnRunAddress argument error

/-! ## Attaching a context -/

def checkAttached (contextAddress contextSize : UInt64) (fields : FiberFields) :
    Program Unit := do
  refuse (contextAddress &&& 15 ≠ 0) fiberErrorAlignment
  refuse (contextSize ≠ 0 ∧ contextSize < fiberContextMinimumSize) fiberErrorRange
  refuse (contextSize &&& 15 ≠ 0 ∨ contextAddress = 0 ∨ contextSize = 0 ∨
    fields.contextAddress ≠ 0) fiberErrorInvalid

def attachedContext (fiber contextAddress contextSize : UInt64) : Ranges :=
  [word64 (fiber + fiberContextAddressOffset) contextAddress,
    word64 (fiber + fiberContextSizeOffset) contextSize,
    word64 (fiber + fiberContextStartOffset) contextAddress,
    word64 (fiber + fiberContextEndOffset) (contextAddress + contextSize),
    word64 contextAddress fiberStackSignature]

def attachContext (fiber contextAddress contextSize : UInt64)
    (fields : FiberFields) : Program Unit := do
  checkAttached contextAddress contextSize fields
  writeAll fiberErrorInvalid (attachedContext fiber contextAddress contextSize)
  modify (·.withStackRange fiber (some ⟨contextAddress, contextSize⟩))

/-! ## Running -/

def Caller.transferFrame (caller : Caller) : Option GuestImportCallFrame :=
  if caller.supportsGuestContextTransfer then caller.importCallFrame else none

structure Run where
  fiber : UInt64
  argOnRun : UInt64
  outArgumentAddress : UInt64
  attachContextAddress : UInt64
  attachContextSize : UInt64
  isSwitch : Bool

def rootStackTop (caller : Caller) (frame : GuestImportCallFrame) (state : FiberState) : UInt64 :=
  match state.threadStates caller.threadKey with
  | some threadState => threadState.rootContinuation.context.rsp
  | none => (captureContinuation caller.ctx frame).rsp

def prepareTarget (caller : Caller) (frame : GuestImportCallFrame)
    (fields : FiberFields) (fiber argOnRun : UInt64) :
    Program (FiberContinuation × Bool) := do
  let state ← get
  match state.continuations fiber with
  | some savedContinuation =>
      writeResumeArgument savedContinuation argOnRun fiberErrorInvalid
      return (savedContinuation, true)
  | none =>
      let target ← createInitialContinuation caller.ctx fields argOnRun
        (rootStackTop caller frame state)
      return (target, false)

def leavePrevious (caller : Caller) (fiber previousFiber : UInt64)
    (callerContinuation : FiberContinuation) : Program Unit := do
  let state ← get
  if previousFiber ≠ 0 then
    refuse (tryReadUInt32 state.memory (previousFiber + fiberStateOffset) ≠
      some fiberStateRun) fiberErrorState
    writeUInt32 (previousFiber + fiberStateOffset) fiberStateIdle fiberErrorState
    modify (·.withContinuation previousFiber (some callerContinuation))
  else
    refuse (state.threadStates caller.threadKey).isSome fiberErrorPermission
    modify (·.withThreadState caller.threadKey (some ⟨callerContinuation, fiber, previousFiber⟩))

/-- What is taken back when the fiber cannot be marked as running. -/
def undoLeave (caller : Caller) (previousFiber : UInt64) (state : FiberState) : FiberState :=
  if previousFiber ≠ 0 then
    { state.withContinuation previousFiber none with
      memory := tryWriteOrKeep state.memory (previousFiber + fiberStateOffset)
        (bytesOf 4 fiberStateRun.toNat) }
  else state.withThreadState caller.threadKey none

def markRunning (caller : Caller) (fiber previousFiber : UInt64) :
    Program Unit :=
  tryCatch (writeUInt32 (fiber + fiberStateOffset) fiberStateRun fiberErrorInvalid)
    fun error => do
      modify (undoLeave caller previousFiber)
      throw error

def enterTables (caller : Caller) (fiber previousFiber : UInt64)
    (resumed : Bool) (state : FiberState) : FiberState :=
  let state := if resumed then state.withContinuation fiber none else state
  match state.threadStates caller.threadKey with
  | some activeState => state.withThreadState caller.threadKey
      (some { activeState with
        currentFiber := fiber
        previousFiber := previousFiber })
  | none => state

def transfer (caller : Caller) (frame : GuestImportCallFrame) (run : Run)
    (previousFiber : UInt64) : Program GuestCpuContinuation := do
  let fields ← orRefuse (tryReadFiberFields (← get).memory run.fiber) fiberErrorInvalid
  refuse (fields.state ≠ fiberStateIdle) fiberErrorState
  let (target, resumed) ← prepareTarget caller frame fields run.fiber run.argOnRun
  leavePrevious caller run.fiber previousFiber
    ⟨captureContinuation caller.ctx frame, run.outArgumentAddress⟩
  markRunning caller run.fiber previousFiber
  modify (enterTables caller run.fiber previousFiber resumed)
  return { target.context with rax := 0 }

def Run.Attaches (run : Run) : Prop :=
  run.attachContextAddress ≠ 0 ∨ run.attachContextSize ≠ 0

instance (run : Run) : Decidable run.Attaches :=
  inferInstanceAs (Decidable (_ ∨ _))

def attachWhenGiven (run : Run) (fields : FiberFields) : Program Unit :=
  if run.Attaches then
    attachContext run.fiber run.attachContextAddress run.attachContextSize fields
  else pure ()

def fiberRunCore (caller : Caller) (run : Run) :
    Program GuestCpuContinuation := do
  validateFiber run.fiber
  let fields ← orRefuse (tryReadFiberFields (← get).memory run.fiber) fiberErrorInvalid
  attachWhenGiven run fields
  let previousFiber := resolveCurrentFiberAddress caller (← get)
  refuse ((run.isSwitch ∧ previousFiber = 0) ∨
    (¬run.isSwitch ∧ previousFiber ≠ 0)) fiberErrorPermission
  refuse (previousFiber = run.fiber) fiberErrorState
  let frame ← orRefuse caller.transferFrame fiberErrorPermission
  let target ← transfer caller frame run previousFiber
  modify (·.withCurrentFiber caller.hostThread run.fiber)
  return target

/-! ## Returning -/

/-- The thread's state, once the argument of the return is written; the saved
continuation is removed when there is none or it cannot be written. -/
def prepareReturn (caller : Caller) (fiber : UInt64) :
    Program FiberThreadState :=
  tryCatch (do
      let threadState ← orRefuse ((← get).threadStates caller.threadKey) fiberErrorPermission
      writeResumeArgument threadState.rootContinuation caller.ctx.rdi fiberErrorPermission
      return threadState)
    fun error => do
      modify (·.withContinuation fiber none)
      throw error

def fiberReturnToThread (caller : Caller) : Program GuestCpuContinuation := do
  let fiber := resolveCurrentFiberAddress caller (← get)
  refuse (fiber = 0) fiberErrorPermission
  let frame ← orRefuse caller.transferFrame fiberErrorPermission
  modify (·.withContinuation fiber (some ⟨captureContinuation caller.ctx frame, caller.ctx.rsi⟩))
  let threadState ← prepareReturn caller fiber
  writeUInt32 (fiber + fiberStateOffset) fiberStateIdle fiberErrorInvalid
  modify fun state => (state.withThreadState caller.threadKey none)
    |>.withCurrentFiber caller.hostThread 0
  return { threadState.rootContinuation.context with rax := 0 }

/-! ## Exports -/

inductive Export where
  | fiberInitialize
  | fiberInitializeWithInternalOption
  | fiberFinalize
  | fiberRun
  | fiberAttachContextAndRun
  | fiberSwitch
  | fiberAttachContextAndSwitch
  | fiberReturnToThread
  | fiberStartContextSizeCheck
  | fiberStopContextSizeCheck
deriving DecidableEq

def initializationOf (memory : GuardedMemory) (ctx : CpuContext)
    (internalOption : Bool) : Initialization where
  fiber := ctx.rdi
  nameAddress := ctx.rsi
  entry := ctx.rdx
  argOnInitialize := ctx.rcx
  contextAddress := ctx.r8
  contextSize := ctx.r9
  optParam := readStackArg64 memory ctx 0
  flags := if internalOption then (readStackArg64 memory ctx 1).toUInt32 else 0
  buildVersion :=
    (readStackArg64 memory ctx (if internalOption then 2 else 1)).toUInt32

def plainRun (ctx : CpuContext) (isSwitch : Bool) : Run where
  fiber := ctx.rdi
  argOnRun := ctx.rsi
  outArgumentAddress := ctx.rdx
  attachContextAddress := 0
  attachContextSize := 0
  isSwitch := isSwitch

def attachRun (ctx : CpuContext) (isSwitch : Bool) : Run where
  fiber := ctx.rdi
  argOnRun := ctx.rcx
  outArgumentAddress := ctx.r8
  attachContextAddress := ctx.rsi
  attachContextSize := ctx.rdx
  isSwitch := isSwitch

/-- What an export is asked to do. -/
inductive Request where
  | initialization (initialization : Initialization)
  | finalize (fiber : UInt64)
  | run (run : Run)
  | returnToThread
  | startContextSizeCheck (argument : UInt64)
  | stopContextSizeCheck

def requestOf (memory : GuardedMemory) (ctx : CpuContext) : Export → Request
  | .fiberInitialize => .initialization (initializationOf memory ctx false)
  | .fiberInitializeWithInternalOption =>
      .initialization (initializationOf memory ctx true)
  | .fiberFinalize => .finalize ctx.rdi
  | .fiberRun => .run (plainRun ctx false)
  | .fiberAttachContextAndRun => .run (attachRun ctx false)
  | .fiberSwitch => .run (plainRun ctx true)
  | .fiberAttachContextAndSwitch => .run (attachRun ctx true)
  | .fiberReturnToThread => .returnToThread
  | .fiberStartContextSizeCheck => .startContextSizeCheck ctx.rdi
  | .fiberStopContextSizeCheck => .stopContextSizeCheck

def fiberStartContextSizeCheck (argument : UInt64) : Program Unit := do
  refuse (argument ≠ 0) fiberErrorInvalid
  let state ← get
  modify fun state => { state with contextSizeCheck := true }
  refuse (state.contextSizeCheck = true) fiberErrorState

def fiberStopContextSizeCheck : Program Unit := do
  let state ← get
  modify fun state => { state with contextSizeCheck := false }
  refuse (state.contextSizeCheck = false) fiberErrorState

def answer (caller : Caller) : Request → Program (Option GuestCpuContinuation)
  | .initialization initialization => do
      fiberInitializeCore initialization
      return none
  | .finalize fiber => do
      fiberFinalize fiber
      return none
  | .run run => do
      let target ← fiberRunCore caller run
      return some target
  | .returnToThread => do
      let target ← fiberReturnToThread caller
      return some target
  | .startContextSizeCheck argument => do
      fiberStartContextSizeCheck argument
      return none
  | .stopContextSizeCheck => do
      fiberStopContextSizeCheck
      return none

end Fiber

end SharpEmu
