import SharpEmu.MachineWords
import Mathlib.Data.List.Basic
import Mathlib.Logic.Function.Basic

/-!
# Submissions to the GPU queues

A submission is a command buffer for the graphics queue or for a compute queue.
The parser walks its packets one after the other; a wait on a label that is not
satisfied registers the rest of the submission as a waiter and suspends the
queue.  Draining wakes the waiters whose labels are satisfied, and the ones a
producer has satisfied once but that have waited too long.

What the packets do besides waiting, guest memory, the clock and the other
threads are the environment's.
-/

namespace SharpEmu.Agc

inductive Queue
  | graphics
  | compute (owner : UInt32)
  deriving DecidableEq

structure PendingSubmission where
  commandAddress : UInt64
  dwordCount : UInt32
  submissionId : UInt64
  deriving DecidableEq

structure SubmittedDcbState where
  activeSubmissionId : UInt64
  pendingSubmissions : List PendingSubmission
  hasActiveSubmission : Bool
  isSuspended : Bool
  completionEventNotifiedSubmissionId : UInt64
  deriving DecidableEq

def SubmittedDcbState.new : SubmittedDcbState := ⟨0, [], false, false, 0⟩

structure WaitingDcb where
  resumeAddress : UInt64
  totalDwords : UInt32
  resumeOffset : UInt32
  waitAddress : UInt64
  referenceValue : UInt64
  mask : UInt64
  compareFunction : UInt32
  is64Bit : Bool
  submissionId : UInt64
  registeredTicks : ℤ
  state : Queue
  latched : Bool
  deriving DecidableEq

def WaitingDcb.compare (waiter : WaitingDcb) (value : UInt64) : Bool :=
  let masked := value &&& waiter.mask
  let reference := waiter.referenceValue &&& waiter.mask
  if waiter.compareFunction = 0 then true
  else if waiter.compareFunction = 1 then masked < reference
  else if waiter.compareFunction = 2 then masked ≤ reference
  else if waiter.compareFunction = 3 then masked = reference
  else if waiter.compareFunction = 4 then masked ≠ reference
  else if waiter.compareFunction = 5 then masked ≥ reference
  else if waiter.compareFunction = 6 then masked > reference
  else true

/-- Why the rest of a submission is not processed. -/
inductive DropReason
  | badSubmission | unreadableHeader | unknownPacketType | badLength | stoppedByPacket
  deriving DecidableEq

/-- What happened on a queue, for specification only: a packet was passed, the
rest of a submission was dropped at an address, a completion was notified. -/
inductive Event
  | packet (submissionId address : UInt64) (dwords : UInt32)
  | dropped (submissionId address : UInt64) (reason : DropReason)
  | notified (submissionId : UInt64)
  deriving DecidableEq

/-- Guest memory and everything around the queues.  `apply` gives the effects of
a packet that is not a wait, the labels it produced, and whether parsing goes on;
`meanwhile` gives what other threads did; `arrange` is the order in which the
registry happens to list its waiters. -/
structure Environment (World : Type) where
  readUInt32 : World → UInt64 → Option UInt32
  readUInt64 : World → UInt64 → Option UInt64
  writeUInt32 : World → UInt64 → UInt32 → World
  writeUInt64 : World → UInt64 → UInt64 → World
  now : World → ℤ
  apply : World → Queue → UInt64 → UInt32 →
    World × List (UInt64 × UInt64) × Bool
  meanwhile : World → World × List (UInt64 × UInt64)
  arrange : World → List WaitingDcb → List WaitingDcb
  arrange_perm : ∀ world waiters, (arrange world waiters).Perm waiters
  gpuWaitSuspendEnabled : Bool
  gpuDeadlockBreakTicks : ℤ

/-- The GPU state with the wait registry.  The last two fields are history: what
was submitted to each queue, and what happened on it. -/
structure SubmittedGpuState (World : Type) where
  world : World
  queues : Queue → SubmittedDcbState
  submissionSequence : UInt64
  waiters : List WaitingDcb
  lastProduced : List (UInt64 × UInt64)
  submitted : Queue → List PendingSubmission
  history : Queue → List Event

variable {World : Type}

namespace SubmittedGpuState

def new (world : World) : SubmittedGpuState World where
  world := world
  queues := fun _ => .new
  submissionSequence := 0
  waiters := []
  lastProduced := []
  submitted := fun _ => []
  history := fun _ => []

def setQueue (gpuState : SubmittedGpuState World) (queue : Queue)
    (state : SubmittedDcbState) : SubmittedGpuState World :=
  { gpuState with queues := Function.update gpuState.queues queue state }

def log (gpuState : SubmittedGpuState World) (queue : Queue) (event : Event) :
    SubmittedGpuState World :=
  { gpuState with
    history := Function.update gpuState.history queue (gpuState.history queue ++ [event]) }

/-- Note a packet that was passed. -/
def consume (gpuState : SubmittedGpuState World) (queue : Queue)
    (address : UInt64) (dwords : UInt32) : SubmittedGpuState World :=
  gpuState.log queue (.packet (gpuState.queues queue).activeSubmissionId address dwords)

/-- Note that the rest of a submission is dropped. -/
def drop (gpuState : SubmittedGpuState World) (queue : Queue)
    (address : UInt64) (reason : DropReason) : SubmittedGpuState World :=
  gpuState.log queue (.dropped (gpuState.queues queue).activeSubmissionId address reason)

def recordProduced (gpuState : SubmittedGpuState World)
    (produced : UInt64 × UInt64) : SubmittedGpuState World :=
  let kept :=
    if 8192 ≤ gpuState.lastProduced.length then [] else gpuState.lastProduced
  { gpuState with
    lastProduced := produced :: kept.filter fun entry => entry.1 ≠ produced.1
    waiters := gpuState.waiters.map fun waiter =>
      if waiter.waitAddress = produced.1 ∧ waiter.latched = false ∧ waiter.compare produced.2 then
        { waiter with latched := true }
      else waiter }

def affect (gpuState : SubmittedGpuState World) (world : World)
    (produced : List (UInt64 × UInt64)) : SubmittedGpuState World :=
  produced.foldl recordProduced { gpuState with world := world }

/-- Let the other threads act. -/
def interleave (environment : Environment World)
    (gpuState : SubmittedGpuState World) : SubmittedGpuState World :=
  gpuState.affect (environment.meanwhile gpuState.world).1 (environment.meanwhile gpuState.world).2

def register (gpuState : SubmittedGpuState World) (waiter : WaitingDcb) :
    SubmittedGpuState World :=
  { gpuState with waiters := gpuState.waiters ++ [waiter] }

end SubmittedGpuState

def itNop : UInt32 := 0x10
def itWaitRegMem : UInt32 := 0x3c
def rWaitMem32 : UInt32 := 0x0a
def rWaitMem64 : UInt32 := 0x16

def pm4Length (header : UInt32) : UInt32 := (header >>> 16 &&& 0x3fff) + 2

section Waits

variable (environment : Environment World)

def tryParseSubmittedWait (world : World) (packetAddress : UInt64) (is64Bit isStandard : Bool) :
    Option (UInt64 × UInt64 × UInt64 × UInt32) := do
  let readUInt32 (offset : UInt64) :=
    environment.readUInt32 world (packetAddress + offset)
  let readUInt64 (offset : UInt64) :=
    environment.readUInt64 world (packetAddress + offset)
  if isStandard then
    let control ← readUInt32 4
    let waitAddress ← readUInt64 8
    let reference ← readUInt32 16
    let mask ← readUInt32 20
    return (waitAddress, reference.toUInt64, mask.toUInt64, control &&& 7)
  else
    let waitAddress ← readUInt64 4
    let control ← readUInt32 (if is64Bit then 28 else 16)
    if is64Bit then
      let mask ← readUInt64 12
      let reference ← readUInt64 20
      return (waitAddress, reference, mask, control &&& 7)
    else
      let mask ← readUInt32 12
      let reference ← readUInt32 20
      return (waitAddress, reference.toUInt64, mask.toUInt64, control &&& 7)

def readLabel (world : World) (waitAddress : UInt64) (is64Bit : Bool) :
    Option UInt64 :=
  if is64Bit then environment.readUInt64 world waitAddress
  else (environment.readUInt32 world waitAddress).map UInt32.toUInt64

def satisfyingValue (waiter : WaitingDcb) : Option UInt64 :=
  let maskedRef := waiter.referenceValue &&& waiter.mask
  if waiter.compareFunction = 1 then
    if maskedRef = 0 then none else some ((maskedRef - 1) &&& waiter.mask)
  else if waiter.compareFunction = 2 ∨ waiter.compareFunction = 3 ∨
      waiter.compareFunction = 5 then some maskedRef
  else if waiter.compareFunction = 4 then some (~~~maskedRef &&& waiter.mask)
  else if waiter.compareFunction = 6 then
    if maskedRef = waiter.mask then none
    else some ((maskedRef + 1) &&& waiter.mask)
  else none

def forceSatisfyGpuWait (world : World) (waiter : WaitingDcb) (value : UInt64) : World :=
  if waiter.waitAddress = 0 ∨ waiter.mask = 0 then world
  else
    match satisfyingValue waiter with
    | none => world
    | some satisfy =>
        let newValue := (value &&& ~~~waiter.mask) ||| (satisfy &&& waiter.mask)
        if waiter.is64Bit then
          environment.writeUInt64 world waiter.waitAddress newValue
        else
          environment.writeUInt32 world waiter.waitAddress newValue.toUInt32

/-- Decide whether a wait suspends its submission, and register the waiter if it
does. -/
def handleSubmittedWaitRegMem (gpuState : SubmittedGpuState World)
    (queue : Queue) (packetAddress : UInt64)
    (offset length dwordCount : UInt32) (is64Bit isStandard : Bool) :
    Bool × SubmittedGpuState World :=
  match tryParseSubmittedWait environment gpuState.world packetAddress is64Bit
      isStandard with
  | none => (false, gpuState)
  | some (waitAddress, reference, mask, compareFunction) =>
      if compareFunction = 0 ∨ compareFunction = 7 then (false, gpuState)
      else if waitAddress = 0 ∨ mask = 0 ∨ waitAddress % (if is64Bit then 8 else 4) ≠ 0 then
        (false, gpuState)
      else
        let waiter : WaitingDcb :=
          { resumeAddress := packetAddress + length.toUInt64 * 4
            totalDwords := dwordCount
            resumeOffset := offset + length
            waitAddress := waitAddress
            referenceValue := reference
            mask := mask
            compareFunction := compareFunction
            is64Bit := is64Bit
            submissionId := (gpuState.queues queue).activeSubmissionId
            registeredTicks := environment.now gpuState.world
            state := queue
            latched := false }
        match readLabel environment gpuState.world waitAddress is64Bit with
        | none => (false, gpuState)
        | some value =>
            if waiter.compare value then (false, gpuState)
            else if environment.gpuWaitSuspendEnabled = false then
              (false, { gpuState with
                world := forceSatisfyGpuWait environment gpuState.world waiter value })
            else (true, gpuState.register waiter)

def waitKind (op register length : UInt32) : Option (Bool × Bool) :=
  if op = itNop ∧ register = rWaitMem32 ∧ 6 ≤ length then some (false, false)
  else if op = itNop ∧ register = rWaitMem64 ∧ 9 ≤ length then
    some (true, false)
  else if op = itWaitRegMem ∧ 7 ≤ length then some (false, true)
  else none

/-- Walk the packets of a command buffer from an offset on.  Each packet takes at
least one dword, so the dwords are fuel enough. -/
def parseSubmittedDcbCore (queue : Queue) (commandAddress : UInt64) (dwordCount : UInt32) :
    ℕ → SubmittedGpuState World → UInt32 → Bool × SubmittedGpuState World
  | 0, gpuState, _ => (false, gpuState)
  | fuel + 1, gpuState, offset =>
      let gpuState := gpuState.interleave environment
      if offset < dwordCount then
        let currentAddress := commandAddress + offset.toUInt64 * 4
        match environment.readUInt32 gpuState.world currentAddress with
        | none => (false, gpuState.drop queue currentAddress .unreadableHeader)
        | some header =>
            let packetType := header >>> 30
            if packetType = 2 then
              parseSubmittedDcbCore queue commandAddress dwordCount fuel
                (gpuState.consume queue currentAddress 1) (offset + 1)
            else if packetType ≠ 3 then
              (false, gpuState.drop queue currentAddress .unknownPacketType)
            else
              let length := pm4Length header
              if length = 0 ∨ offset + length > dwordCount then
                (false, gpuState.drop queue currentAddress .badLength)
              else
                match waitKind (header >>> 8 &&& 0xff) (header >>> 2 &&& 0x3f)
                    length with
                | some (is64Bit, isStandard) =>
                    let (suspended, waited) :=
                      handleSubmittedWaitRegMem environment gpuState queue
                        currentAddress offset length dwordCount is64Bit
                        isStandard
                    let passed := waited.consume queue currentAddress length
                    if suspended then (true, passed)
                    else
                      parseSubmittedDcbCore queue commandAddress dwordCount
                        fuel passed (offset + length)
                | none =>
                    let (world, produced, goesOn) :=
                      environment.apply gpuState.world queue currentAddress length
                    let affected := gpuState.affect world produced
                    if goesOn then
                      parseSubmittedDcbCore queue commandAddress dwordCount
                        fuel (affected.consume queue currentAddress length)
                        (offset + length)
                    else (false, affected.drop queue currentAddress .stoppedByPacket)
      else (false, gpuState)

/-- True only when parsing stopped on an unsatisfied wait. -/
def parseSubmittedDcb (gpuState : SubmittedGpuState World) (queue : Queue)
    (commandAddress : UInt64) (dwordCount : UInt32) :
    Bool × SubmittedGpuState World :=
  if commandAddress = 0 ∨ dwordCount = 0 ∨ dwordCount > 1000000 then
    (false, gpuState.drop queue commandAddress .badSubmission)
  else
    parseSubmittedDcbCore environment queue commandAddress dwordCount dwordCount.toNat gpuState 0

end Waits

section Queues

variable (environment : Environment World)

def notifySubmittedDcbCompleted (gpuState : SubmittedGpuState World)
    (queue : Queue) (submissionId : UInt64) : SubmittedGpuState World :=
  let state := gpuState.queues queue
  if queue ≠ .graphics ∨ state.completionEventNotifiedSubmissionId = submissionId then
    gpuState
  else
    (gpuState.setQueue queue { state with completionEventNotifiedSubmissionId := submissionId }).log
        queue (.notified submissionId)

/-- Parse pending submissions until one suspends; there are at most as many as
the fuel. -/
def pumpPending (queue : Queue) : ℕ → SubmittedGpuState World → SubmittedGpuState World
  | 0, gpuState => gpuState
  | fuel + 1, gpuState =>
      let state := gpuState.queues queue
      if state.hasActiveSubmission then gpuState
      else
        match state.pendingSubmissions with
        | [] => gpuState
        | submission :: rest =>
            let started := gpuState.setQueue queue
              { state with
                pendingSubmissions := rest
                hasActiveSubmission := true
                activeSubmissionId := submission.submissionId }
            let (suspended, parsed) :=
              parseSubmittedDcb environment started queue
                submission.commandAddress submission.dwordCount
            let marked := parsed.setQueue queue
              { parsed.queues queue with isSuspended := suspended }
            if suspended then marked
            else
              let finished := marked.setQueue queue
                { marked.queues queue with hasActiveSubmission := false }
              pumpPending queue fuel (notifySubmittedDcbCompleted finished queue
                  submission.submissionId)

def pumpSubmittedQueue (gpuState : SubmittedGpuState World) (queue : Queue) :
    SubmittedGpuState World :=
  if (gpuState.queues queue).isSuspended then gpuState
  else
    pumpPending environment queue (gpuState.queues queue).pendingSubmissions.length gpuState

def enqueueSubmittedDcb (gpuState : SubmittedGpuState World) (queue : Queue)
    (commandAddress : UInt64) (dwordCount : UInt32) (submissionId : UInt64) :
    SubmittedGpuState World :=
  let submission : PendingSubmission :=
    ⟨commandAddress, dwordCount, submissionId⟩
  let state := gpuState.queues queue
  let enqueued := gpuState.setQueue queue
    { state with pendingSubmissions := state.pendingSubmissions ++ [submission] }
  pumpSubmittedQueue environment
    { enqueued with
      submitted := Function.update enqueued.submitted queue
        (enqueued.submitted queue ++ [submission]) } queue

def resumeSuspendedDcb (gpuState : SubmittedGpuState World)
    (waiter : WaitingDcb) : SubmittedGpuState World :=
  let queue := waiter.state
  let state := gpuState.queues queue
  let remainingDwords := waiter.totalDwords - waiter.resumeOffset
  if remainingDwords = 0 then
    let finished := gpuState.setQueue queue
      { state with isSuspended := false, hasActiveSubmission := false }
    pumpSubmittedQueue environment
      (notifySubmittedDcbCompleted finished queue waiter.submissionId) queue
  else
    let resumed := gpuState.setQueue queue
      { state with
        activeSubmissionId := waiter.submissionId
        isSuspended := false }
    let (suspended, parsed) :=
      parseSubmittedDcb environment resumed queue waiter.resumeAddress remainingDwords
    if suspended then
      parsed.setQueue queue { parsed.queues queue with isSuspended := true }
    else
      let finished := parsed.setQueue queue
        { parsed.queues queue with hasActiveSubmission := false }
      pumpSubmittedQueue environment
        (notifySubmittedDcbCompleted finished queue waiter.submissionId) queue

def isSatisfied (gpuState : SubmittedGpuState World) (waiter : WaitingDcb) :
    Bool :=
  waiter.latched ||
    match readLabel environment gpuState.world waiter.waitAddress
        waiter.is64Bit with
    | none => false
    | some value => waiter.compare value

/-- A waiter has waited too long, and the last produced value satisfies it. -/
def isDeadlockBroken (gpuState : SubmittedGpuState World) (waiter : WaitingDcb) : Bool :=
  environment.gpuDeadlockBreakTicks ≤ environment.now gpuState.world - waiter.registeredTicks &&
    match gpuState.lastProduced.lookup waiter.waitAddress with
    | none => false
    | some produced => waiter.compare produced

/-- Take the waiters with a property out of the registry. -/
def collect (gpuState : SubmittedGpuState World) (property : WaitingDcb → Bool) :
    List WaitingDcb × SubmittedGpuState World :=
  (environment.arrange gpuState.world (gpuState.waiters.filter property),
    { gpuState with
      waiters := gpuState.waiters.filter fun waiter => !property waiter })

/-- One pass of draining; true when it resumed something.  No waiter with a retry
deadline is ever registered, so there are no expired retries to collect. -/
def drainPass (gpuState : SubmittedGpuState World) : Bool × SubmittedGpuState World :=
  let gpuState := gpuState.interleave environment
  let (woken, gpuState) :=
    collect environment gpuState (isSatisfied environment gpuState)
  let gpuState := gpuState.interleave environment
  let (deadlockBroken, gpuState) :=
    collect environment gpuState (isDeadlockBroken environment gpuState)
  let gpuState := deadlockBroken.foldl (resumeSuspendedDcb environment) gpuState
  if woken = [] ∧ deadlockBroken = [] then (false, gpuState)
  else (true, woken.foldl (resumeSuspendedDcb environment) gpuState)

def drainPasses : ℕ → SubmittedGpuState World → SubmittedGpuState World
  | 0, gpuState => gpuState
  | passes + 1, gpuState =>
      let (resumed, drained) := drainPass environment gpuState
      if resumed then drainPasses passes drained else drained

def drainResumableDcbs (gpuState : SubmittedGpuState World) :
    SubmittedGpuState World :=
  if environment.gpuWaitSuspendEnabled then drainPasses environment 256 gpuState
  else gpuState

/-- The shared body of the two entry points for one submission. -/
def driverSubmit (gpuState : SubmittedGpuState World) (queue : Queue)
    (commandAddress : UInt64) (dwordCount : UInt32) : SubmittedGpuState World :=
  let submissionId := gpuState.submissionSequence + 1
  drainResumableDcbs environment (enqueueSubmittedDcb environment
      { gpuState with submissionSequence := submissionId } queue commandAddress
      dwordCount submissionId)

def driverSubmitDcb (gpuState : SubmittedGpuState World)
    (commandAddress : UInt64) (dwordCount : UInt32) : SubmittedGpuState World :=
  driverSubmit environment gpuState .graphics commandAddress dwordCount

def driverSubmitAcb (gpuState : SubmittedGpuState World) (ownerHandle : UInt32)
    (commandAddress : UInt64) (dwordCount : UInt32) : SubmittedGpuState World :=
  driverSubmit environment gpuState (.compute ownerHandle) commandAddress dwordCount

/-- The third entry point parses its buffers on the graphics queue at once. -/
def driverSubmitMultiDcbs (gpuState : SubmittedGpuState World)
    (buffers : List (UInt64 × UInt32)) : SubmittedGpuState World :=
  drainResumableDcbs environment <| buffers.foldl (fun gpuState buffer =>
      if buffer.1 = 0 ∨ buffer.2 = 0 then gpuState
      else
        (parseSubmittedDcb environment gpuState .graphics buffer.1 buffer.2).2)
      gpuState

end Queues

end SharpEmu.Agc
