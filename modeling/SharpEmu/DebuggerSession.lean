import SharpEmu.AddressedBytes
import Mathlib.Data.UInt

/-!
# The debugger session

The session is a hook of the emulation thread.  When a frame boundary or a stall
warrants a stop, the hook call publishes it and waits on the resume gate; clients
inspect the frame meanwhile and set the gate to resume.  Each block that the session's
lock protects is one function here.
-/

namespace SharpEmu.Debugger

open Addressed (Memory)

/-! ## Frames and registers -/

inductive CpuDebugFrameKind
  | processEntry
  | moduleInitializer
deriving DecidableEq, Repr

structure Frame where
  identity : ℕ
  kind : CpuDebugFrameKind
  entryPoint : UInt64
  label : String
deriving DecidableEq, Repr

inductive DebugRegisterId
  | rax | rcx | rdx | rbx | rsp | rbp | rsi | rdi
  | r8 | r9 | r10 | r11 | r12 | r13 | r14 | r15
  | rip | rflags | fsBase | gsBase
deriving DecidableEq, Repr

def DebugRegisterId.isGeneralPurpose (id : DebugRegisterId) : Bool :=
  id.ctorIdx ≤ 15

structure DebugRegisterFile where
  generalPurpose : List UInt64
  rip : UInt64
  rflags : UInt64
  fsBase : UInt64
  gsBase : UInt64
deriving DecidableEq, Repr

/-- The registers and the memory that the frames show. -/
structure GuestContext where
  generalPurpose : ℕ → UInt64
  rip : UInt64
  rflags : UInt64
  fsBase : UInt64
  gsBase : UInt64
  xmm : ℕ → UInt64 × UInt64
  memory : Memory

def DebugRegisterFile.capture (context : GuestContext) : DebugRegisterFile where
  generalPurpose := (List.range 16).map context.generalPurpose
  rip := context.rip
  rflags := context.rflags
  fsBase := context.fsBase
  gsBase := context.gsBase

/-! ## Breakpoints and stops -/

inductive BreakpointKind
  | execute
  | readWatch
  | writeWatch
  | accessWatch
deriving DecidableEq, Repr

structure Breakpoint where
  id : ℤ
  kind : BreakpointKind
  address : UInt64
  length : UInt64
  enabled : Bool
deriving DecidableEq, Repr

def Breakpoint.covers (breakpoint : Breakpoint) (address : UInt64) : Bool :=
  breakpoint.address ≤ address && address < breakpoint.address + breakpoint.length

def findExecuteHit (breakpoints : List Breakpoint) (address : UInt64) :
    Option Breakpoint :=
  breakpoints.find? fun breakpoint =>
    breakpoint.enabled && breakpoint.kind = .execute && breakpoint.covers address

inductive DebugStopReason
  | entryPoint
  | breakpoint
  | step
  | pause
  | fault
  | stall
deriving DecidableEq, Repr

inductive DebuggerRunState
  | detached
  | running
  | paused
  | terminated
deriving DecidableEq, Repr

structure CpuStallInfo where
  instructionPointer : UInt64
  detail : String
deriving DecidableEq, Repr

structure DebugStopEvent where
  reason : DebugStopReason
  registers : DebugRegisterFile
  frame : Frame
  breakpoint : Option Breakpoint
  result : Option ℤ
  opcodeBytes : Option (List UInt8)
  stallInfo : Option CpuStallInfo
deriving DecidableEq, Repr

def readableBytes (memory : Memory) (address : UInt64) : ℕ → List UInt8
  | 0 => []
  | count + 1 =>
      match memory address with
      | none => []
      | some byte => byte :: readableBytes memory (address + 1) count

def readOpcodePreview (memory : Memory) (address : UInt64) (maxBytes : ℕ) : Option (List UInt8) :=
  match readableBytes memory address maxBytes with
  | [] => none
  | bytes => some bytes

structure DebuggerSessionOptions where
  stopAtEntry : Bool
  breakOnFault : Bool
  breakOnStall : Bool
deriving DecidableEq, Repr

/-! ## The session -/

structure DebuggerSession where
  currentFrame : Option Frame
  state : DebuggerRunState
  lastStop : Option DebugStopEvent
  seenFirstFrame : Bool
  pausePending : Bool
  stepPending : Bool
  /-- Whether the resume gate is set. -/
  resumeGate : Bool
  breakpoints : List Breakpoint
deriving DecidableEq, Repr

def DebuggerSession.new (breakpoints : List Breakpoint) : DebuggerSession :=
  ⟨none, .detached, none, false, false, false, false, breakpoints⟩

namespace DebuggerSession

def resolveStopReason (session : DebuggerSession) (options : DebuggerSessionOptions)
    (frame : Frame) (firstFrame : Bool) :
    Option (DebugStopReason × Option Breakpoint) × DebuggerSession :=
  if session.pausePending then
    (some (.pause, none), { session with pausePending := false })
  else if session.stepPending then
    (some (.step, none), { session with stepPending := false })
  else
    match findExecuteHit session.breakpoints frame.entryPoint with
    | some hit => (some (.breakpoint, some hit), session)
    | none =>
        if options.stopAtEntry && firstFrame then (some (.entryPoint, none), session)
        else (none, session)

def publish (session : DebuggerSession) (stop : DebugStopEvent) : DebuggerSession :=
  { session with
    currentFrame := some stop.frame
    state := .paused
    lastStop := some stop
    resumeGate := false }

/-- `OnFrameEnter` up to its wait: whether it stops. -/
def onFrameEnter (session : DebuggerSession) (options : DebuggerSessionOptions)
    (context : GuestContext) (frame : Frame) : Bool × DebuggerSession :=
  let entered :=
    { session with currentFrame := some frame, seenFirstFrame := true }
  match entered.resolveStopReason options frame (!session.seenFirstFrame) with
  | (none, resolved) => (false, { resolved with state := .running })
  | (some (reason, breakpoint), resolved) =>
      (true, resolved.publish ⟨reason, .capture context, frame, breakpoint, none, none, none⟩)

/-- The end of a hook call does not bring a terminated session back. -/
def run (session : DebuggerSession) : DebuggerSession :=
  if session.state ≠ .terminated then { session with state := .running } else session

def buildFaultStop (context : GuestContext) (frame : Frame) (result : ℤ) :
    DebugStopEvent :=
  ⟨.fault, .capture context, frame, none, some result,
    readOpcodePreview context.memory context.rip 16, none⟩

/-- `OnFrameExit` up to its wait; the result 0 is OK. -/
def onFrameExit (session : DebuggerSession) (options : DebuggerSessionOptions)
    (context : GuestContext) (frame : Frame) (result : ℤ) : Bool × DebuggerSession :=
  if options.breakOnFault ∧ result ≠ 0 ∧ session.state ≠ .terminated then
    (true, session.publish (buildFaultStop context frame result))
  else (false, session)

/-- `OnStall` up to its wait. -/
def onStall (session : DebuggerSession) (options : DebuggerSessionOptions)
    (context : GuestContext) (frame : Frame) (info : CpuStallInfo) :
    Bool × DebuggerSession :=
  if ¬ options.breakOnStall then (false, session)
  else if session.state = .terminated then (false, session)
  else
    (true, session.publish ⟨.stall, .capture context, frame, none, none,
        readOpcodePreview context.memory info.instructionPointer 16, some info⟩)

/-- The end of `OnFrameExit` and `OnStall`: the frame is not shown any more. -/
def dropFrame (session : DebuggerSession) (frame : Frame) : DebuggerSession :=
  run (if session.currentFrame = some frame then { session with currentFrame := none }
    else session)

/-- What `NotifyTerminated` does under the lock; it sets the gate behind it. -/
def terminate (session : DebuggerSession) : DebuggerSession :=
  { session with state := .terminated, currentFrame := none }

def «continue» (session : DebuggerSession) : Bool × DebuggerSession :=
  if session.state ≠ .paused then (false, session)
  else (true, { session with resumeGate := true })

def stepFrame (session : DebuggerSession) : Bool × DebuggerSession :=
  if session.state ≠ .paused then (false, session)
  else (true, { session with stepPending := true, resumeGate := true })

def requestPause (session : DebuggerSession) : DebuggerSession :=
  if session.state = .running then { session with pausePending := true } else session

def isPausedWithFrame (session : DebuggerSession) : Bool :=
  session.state = .paused && session.currentFrame.isSome

/-! ## The accessors -/

def tryGetRegisters (session : DebuggerSession) (context : GuestContext) :
    Option DebugRegisterFile :=
  if session.isPausedWithFrame then some (.capture context) else none

def trySetRegister (session : DebuggerSession) (context : GuestContext)
    (id : DebugRegisterId) (value : UInt64) : Option GuestContext :=
  if ¬ session.isPausedWithFrame then none
  else if id.isGeneralPurpose then
    some { context with
      generalPurpose := Function.update context.generalPurpose id.ctorIdx value }
  else
    match id with
    | .rip => some { context with rip := value }
    | .rflags => some { context with rflags := value }
    -- The segment bases are read-only here.
    | _ => none

def tryReadMemory (session : DebuggerSession) (context : GuestContext)
    (address : UInt64) (count : ℕ) : Option (List UInt8) :=
  if session.isPausedWithFrame then Addressed.readBytes context.memory address count
  else none

def tryWriteMemory (session : DebuggerSession) (context : GuestContext)
    (address : UInt64) (source : List UInt8) : Option GuestContext :=
  if session.isPausedWithFrame then
    (Addressed.tryWrite context.memory address source).map fun memory =>
      { context with memory }
  else none

def tryReadXmm (session : DebuggerSession) (context : GuestContext)
    (registerIndex : Int32) : Option (UInt64 × UInt64) :=
  if ¬ session.isPausedWithFrame ∨ registerIndex.toUInt32 ≥ 16 then none
  else some (context.xmm registerIndex.toUInt32.toNat)

end DebuggerSession

inductive Access
  | getRegisters
  | setRegister (id : DebugRegisterId) (value : UInt64)
  | readMemory (address : UInt64) (count : ℕ)
  | writeMemory (address : UInt64) (source : List UInt8)
  | readXmm (registerIndex : Int32)

def DebuggerSession.access (session : DebuggerSession) (context : GuestContext) :
    Access → Bool × GuestContext
  | .getRegisters => ((session.tryGetRegisters context).isSome, context)
  | .setRegister id value =>
      ((session.trySetRegister context id value).isSome,
        (session.trySetRegister context id value).getD context)
  | .readMemory address count =>
      ((session.tryReadMemory context address count).isSome, context)
  | .writeMemory address source =>
      ((session.tryWriteMemory context address source).isSome,
        (session.tryWriteMemory context address source).getD context)
  | .readXmm registerIndex =>
      ((session.tryReadXmm context registerIndex).isSome, context)

/-! ## The threads -/

inductive HookCall
  | enter
  | exit
  | stall
deriving DecidableEq, Repr

/-- Where the emulation thread is.  In a hook call it waits at a stop that it has
published, or it is on its way out, having stopped or not. -/
inductive Place
  | between
  | running (frame : Frame)
  | parked (hook : HookCall) (frame : Frame)
  | leaving (hook : HookCall) (frame : Frame) (stopped : Bool)
deriving DecidableEq, Repr

/-- The session, what its frames show, the emulation thread, and how many calls of
`NotifyTerminated` have not set the gate yet. -/
structure System where
  session : DebuggerSession
  context : GuestContext
  place : Place
  releasing : ℕ

inductive Action
  /-- The dispatcher starts a frame, or a running frame stalls, ends or is given up. -/
  | frameEnter (frame : Frame)
  | stall (info : CpuStallInfo)
  | frameExit (result : ℤ)
  | abandon
  /-- Guest or host code runs outside of the hook calls. -/
  | execute (context : GuestContext)
  /-- The emulation thread finds the gate set, and leaves its hook call. -/
  | wake
  | leave
  | «continue»
  | stepFrame
  | requestPause
  | editBreakpoints (breakpoints : List Breakpoint)
  | access (request : Access)
  | terminate
  | release

def Place.behind : HookCall → Frame → Place
  | .exit, _ => .between
  | _, frame => .running frame

def DebuggerSession.leave (session : DebuggerSession) (hook : HookCall)
    (frame : Frame) : DebuggerSession :=
  match hook with
  | .enter => session.run
  | _ => session.dropFrame frame

/-- One step, with what it answers: whether a hook call stops, whether a resume is
accepted, whether an access succeeds. -/
def System.perform (options : DebuggerSessionOptions) (system : System) :
    Action → Option (Bool × System)
  | .frameEnter frame =>
      if system.place = .between then
        let entered := system.session.onFrameEnter options system.context frame
        some (entered.1,
          { system with
            session := entered.2
            place := if entered.1 then .parked .enter frame else .running frame })
      else none
  | .stall info =>
      match system.place with
      | .running frame =>
          let stalled := system.session.onStall options system.context frame info
          some (stalled.1,
            { system with
              session := stalled.2
              place := if stalled.1 then .parked .stall frame else .running frame })
      | _ => none
  | .frameExit result =>
      match system.place with
      | .running frame =>
          let exited := system.session.onFrameExit options system.context frame result
          some (exited.1,
            { system with
              session := exited.2
              place :=
                if exited.1 then .parked .exit frame else .leaving .exit frame false })
      | _ => none
  | .abandon =>
      match system.place with
      | .running _ => some (false, { system with place := .between })
      | _ => none
  | .execute context =>
      match system.place with
      | .between | .running _ => some (false, { system with context })
      | _ => none
  | .wake =>
      match system.place with
      | .parked hook frame =>
          if system.session.resumeGate then
            some (true, { system with place := .leaving hook frame true })
          else none
      | _ => none
  | .leave =>
      match system.place with
      | .leaving hook frame _ =>
          some (true,
            { system with
              session := system.session.leave hook frame
              place := .behind hook frame })
      | _ => none
  | .continue =>
      let resumed := system.session.continue
      some (resumed.1, { system with session := resumed.2 })
  | .stepFrame =>
      let resumed := system.session.stepFrame
      some (resumed.1, { system with session := resumed.2 })
  | .requestPause =>
      some (false, { system with session := system.session.requestPause })
  | .editBreakpoints breakpoints =>
      some (false, { system with session := { system.session with breakpoints } })
  | .access request =>
      let accessed := system.session.access system.context request
      some (accessed.1, { system with context := accessed.2 })
  | .terminate =>
      some (false,
        { system with
          session := system.session.terminate
          releasing := system.releasing + 1 })
  | .release =>
      if system.releasing = 0 then none
      else
        some (false,
          { system with
            session := { system.session with resumeGate := true }
            releasing := system.releasing - 1 })

end SharpEmu.Debugger
