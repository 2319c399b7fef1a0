import SharpEmu.FiberErrors

/-!
# Errors along runs

A run of the exports and of guest code whose failing runs, switches and returns
change nothing: the conditions under which each of these calls either goes
through or fails before anything that is not taken back.
-/

namespace SharpEmu

namespace Fiber

open Addressed Faulting

/-! ## What is wanted -/

def Request.Transfers : Request → Prop
  | .run _ => True
  | .returnToThread => True
  | _ => False

/-- A run, switch or return that answers an error leaves the fiber objects and
the tables as they were. -/
def ErrorsLeaveAlone (recorded : Recorded) : Action → Prop
  | .call caller name =>
      (request recorded.state caller name).Transfers →
        ∀ error, (outcomeOf recorded.state caller name).1 = .error error →
          Unchanged recorded.state (outcomeOf recorded.state caller name).2
  | _ => True

/-! ## Conditions on a run -/

def Attachable (contextAddress contextSize : UInt64) (fields : FiberFields) :
    Prop :=
  contextAddress &&& 15 = 0 ∧ ¬(contextSize ≠ 0 ∧ contextSize < fiberContextMinimumSize) ∧
    ¬(contextSize &&& 15 ≠ 0 ∨ contextAddress = 0 ∨ contextSize = 0 ∨ fields.contextAddress ≠ 0)

/-- The first word of a context is written. -/
def AttachBegins (run : Run) (state : FiberState) : Prop :=
  run.Attaches ∧ IsFiber state.memory run.fiber ∧
    ∃ fields, tryReadFiberFields state.memory run.fiber = some fields ∧
      Attachable run.attachContextAddress run.attachContextSize fields ∧
      state.memory.CanWrite (run.fiber + fiberContextAddressOffset) 8

def attachWrites (run : Run) : Ranges :=
  if run.Attaches then
    attachedContext run.fiber run.attachContextAddress run.attachContextSize
  else []

structure Reaches (caller : Caller) (run : Run) (state : FiberState)
    (frame : GuestImportCallFrame) (fields : FiberFields) : Prop where
  permitted : ¬((run.isSwitch ∧ resolveCurrentFiberAddress caller state = 0) ∨
    (¬run.isSwitch ∧ resolveCurrentFiberAddress caller state ≠ 0))
  otherFiber : resolveCurrentFiberAddress caller state ≠ run.fiber
  isFrame : caller.transferFrame = some frame
  isFields : tryReadFiberFields state.memory run.fiber = some fields
  isIdle : fields.state = fiberStateIdle

def CanLeave (caller : Caller) (previousFiber : UInt64) (state : FiberState) :
    Prop :=
  (previousFiber ≠ 0 → tryReadUInt32 state.memory (previousFiber + fiberStateOffset) =
      some fiberStateRun ∧
      state.memory.CanWrite (previousFiber + fiberStateOffset) 4) ∧
    (previousFiber = 0 → state.threadStates caller.threadKey = none)

def TransferGoesThrough (caller : Caller) (run : Run) (state : FiberState) :
    Prop :=
  ∃ frame fields ranges memory, Reaches caller run state frame fields ∧
    targetWrites caller frame fields run.fiber run.argOnRun state = some ranges ∧
    state.memory.tryWriteAll ranges = some memory ∧
    CanLeave caller (resolveCurrentFiberAddress caller state) { state with memory } ∧
    state.memory.CanWrite (run.fiber + fiberStateOffset) 4

def RunGoesThrough (caller : Caller) (run : Run) (state : FiberState) : Prop :=
  ∃ fields memory, IsFiber state.memory run.fiber ∧
    tryReadFiberFields state.memory run.fiber = some fields ∧
    (run.Attaches → Attachable run.attachContextAddress run.attachContextSize fields) ∧
    state.memory.tryWriteAll (attachWrites run) = some memory ∧
    TransferGoesThrough caller run { attachedState run state with memory }

/-- The words on stacks that the run writes lie outside of the fiber objects,
and no continuation is saved for the fiber that is left, unless the one that is
run can be marked. -/
def TransferSafe (caller : Caller) (run : Run) (state : FiberState) : Prop :=
  ∀ frame fields ranges, Reaches caller run state frame fields →
    targetWrites caller frame fields run.fiber run.argOnRun state = some ranges →
    (∀ range ∈ ranges, range.2.length ≤ 2 ^ 64 ∧
      ApartFromObjects state.memory range.1 range.2.length) ∧
    ((resolveCurrentFiberAddress caller state ≠ 0 →
        NoneSaved (resolveCurrentFiberAddress caller state) state) ∨
      state.memory.CanWrite (run.fiber + fiberStateOffset) 4)

/-- A run goes through, or it fails before it has attached a context, and what
it writes can be taken back. -/
def RunSafe (caller : Caller) (run : Run) (state : FiberState) : Prop :=
  RunGoesThrough caller run state ∨ ¬AttachBegins run state ∧
      (¬run.Attaches → TransferSafe caller run state)

/-- A return goes through, fails at once, or fails where it removes what it has
saved and there was nothing before. -/
def ReturnSafe (caller : Caller) (state : FiberState) : Prop :=
  let current := resolveCurrentFiberAddress caller state
  current = 0 ∨ caller.transferFrame = none ∨ (ReturnSaves state caller ∧
      state.memory.CanWrite (current + fiberStateOffset) 4) ∨
    (¬ReturnSaves state caller ∧ NoneSaved current state)

def ErrorSafe (recorded : Recorded) : Action → Prop
  | .call caller name =>
      match request recorded.state caller name with
      | .run run => RunSafe caller run recorded.state
      | .returnToThread => ReturnSafe caller recorded.state
      | _ => True
  | _ => True

/-! ## The first part of a run -/

section Runs

variable {caller : Caller} {run : Run} {start : FiberState}
  {onFault : FiberState → Prop}

variable {fiber : UInt64}

theorem ensures_validateFiber (fails : ¬IsFiber start.memory fiber → onFault start) :
    Ensures (fun state => state = start) (validateFiber fiber)
      (fun _ state => state = start ∧ IsFiber start.memory fiber) onFault := by
  apply ensures_refuse_bind
  · rintro _ rfl isNull
    exact fails fun isFiber => isFiber.1 isNull
  intro notNull
  apply ensures_refuse_bind
  · rintro _ rfl misaligned
    exact fails fun isFiber => misaligned isFiber.2.1
  intro aligned
  apply ensures_get_bind
  rintro start rfl
  apply ensures_refuse
  · rintro _ rfl noSignatures
    exact fails fun isFiber => noSignatures isFiber.2.2
  · rintro _ rfl signatures
    exact ⟨rfl, notNull, not_not.mp aligned, not_not.mp signatures⟩

variable {fields : FiberFields}

theorem ensures_checkAttached {address size : UInt64}
    (fails : ¬Attachable address size fields → onFault start) :
    Ensures (fun state => state = start) (checkAttached address size fields)
      (fun _ state => state = start ∧ Attachable address size fields)
      onFault := by
  apply ensures_refuse_bind
  · rintro _ rfl misaligned
    exact fails fun attachable => misaligned attachable.1
  intro aligned
  apply ensures_refuse_bind
  · rintro _ rfl isSmall
    exact fails fun attachable => attachable.2.1 isSmall
  intro notSmall
  apply ensures_refuse
  · rintro _ rfl invalid
    exact fails fun attachable => attachable.2.2 invalid
  · rintro _ rfl valid
    exact ⟨rfl, not_not.mp aligned, notSmall, valid⟩

variable {memory : GuardedMemory}

theorem ensures_attachWhenGiven_of_writes
    (attachable : run.Attaches → Attachable run.attachContextAddress run.attachContextSize fields)
    (written : start.memory.tryWriteAll (attachWrites run) = some memory) :
    Ensures (fun state => state = start) (attachWhenGiven run fields)
      (fun _ state => state = { attachedState run start with memory })
      onFault := by
  unfold attachWrites at written
  unfold attachWhenGiven attachedState
  by_cases attaches : run.Attaches
  · rw [if_pos attaches] at written ⊢
    rw [if_pos attaches]
    apply (ensures_checkAttached fun refused =>
      absurd (attachable attaches) refused).bind
    intro _
    have writes : Ensures (fun state => state = start)
        (writeAll fiberErrorInvalid (attachedContext run.fiber
          run.attachContextAddress run.attachContextSize))
        (fun _ state => state = { start with memory }) onFault :=
      ensures_writeAll_of_tryWriteAll written
    apply (writes.ofPre fun _ both => both.1).bind
    intro _
    apply ensures_modify
    rintro _ rfl
    rfl
  · rw [if_neg attaches] at written ⊢
    rw [if_neg attaches]
    cases written
    exact ensures_pure fun _ isStart => isStart

theorem ensures_attachWhenGiven_of_not_begins (isFiber : IsFiber start.memory run.fiber)
    (isFields : tryReadFiberFields start.memory run.fiber = some fields)
    (notBegins : ¬AttachBegins run start) :
    Ensures (fun state => state = start) (attachWhenGiven run fields)
      (fun _ state => state = start ∧ ¬run.Attaches)
      (fun state => state = start) := by
  unfold attachWhenGiven
  apply Ensures.ite
  · intro attaches
    have checks : Ensures (fun state => state = start)
        (checkAttached run.attachContextAddress run.attachContextSize fields)
        (fun _ state => state = start ∧ Attachable run.attachContextAddress
          run.attachContextSize fields)
        (fun state => state = start) := ensures_checkAttached fun _ => rfl
    apply checks.bind
    intro _
    apply Ensures.assuming (fun _ both => both.2)
    intro attachable
    have notWritable : ¬start.memory.CanWrite (run.fiber + fiberContextAddressOffset) 8 :=
      fun canWrite => notBegins ⟨attaches, isFiber, fields, isFields, attachable, canWrite⟩
    have refused : start.memory.tryWrite (run.fiber + fiberContextAddressOffset)
        (bytesOf 8 run.attachContextAddress.toNat) = none := by
      rw [← Option.not_isSome_iff_eq_none, GuardedMemory.isSome_tryWrite, length_bytesOf]
      exact notWritable
    have fails : Ensures (fun state => state = start)
        (writeAll fiberErrorInvalid (attachedContext run.fiber
          run.attachContextAddress run.attachContextSize))
        (fun _ _ => False) (fun state => state = start) := by
      apply ensures_write_bind
      · intro _
        rfl
      intro memory written
      cases refused.symm.trans written
    apply (fails.ofPre fun _ both => both.1).bind
    intro _
    exact ensures_modify fun _ impossible => impossible.elim
  · intro notAttached
    exact ensures_pure fun _ isStart => ⟨isStart, notAttached⟩

/-! ## The transfer of a run -/

variable {previousFiber : UInt64}

theorem ensures_leavePrevious_of_canLeave {callerContinuation : FiberContinuation}
    (canLeave : CanLeave caller previousFiber start) :
    Ensures (fun state => state = start)
      (leavePrevious caller fiber previousFiber callerContinuation)
      (fun _ state => start.memory.SameAccess state.memory) onFault := by
  apply ensures_get_bind
  rintro start rfl
  apply Ensures.ite
  · intro notNull
    obtain ⟨isRun, canWrite⟩ := canLeave.1 notNull
    apply ensures_refuse_bind fun _ _ notRun => absurd isRun notRun
    intro _
    apply ensures_write_bind
    · intro fails
      have succeeds := GuardedMemory.isSome_tryWrite.mpr
        (show start.memory.CanWrite (previousFiber + fiberStateOffset)
          (bytesOf 4 fiberStateIdle.toNat).length from canWrite)
      rw [fails] at succeeds
      cases succeeds
    intro memory written
    apply ensures_modify
    rintro _ rfl
    exact GuardedMemory.sameAccess_of_tryWrite written
  · intro isNull
    have noThreadState := canLeave.2 (not_not.mp isNull)
    apply ensures_refuse_bind fun _ _ hasThreadState =>
      absurd noThreadState (Option.ne_none_iff_isSome.mpr hasThreadState)
    intro _
    apply ensures_modify
    rintro _ rfl
    exact .refl _

theorem ensures_markRunning_of_canWrite (canWrite : memory.CanWrite (fiber + fiberStateOffset) 4) :
    Ensures (fun state => memory.SameAccess state.memory)
      (markRunning caller fiber previousFiber) (fun _ _ => True) onFault := by
  refine Ensures.tryCatch (?_ : Ensures _ _ _ fun _ => False) ?_
  · apply ensures_write
    · intro state sameAccess fails
      rw [← sameAccess.canWrite_iff] at canWrite
      have succeeds := GuardedMemory.isSome_tryWrite.mpr
        (show state.memory.CanWrite (fiber + fiberStateOffset)
          (bytesOf 4 fiberStateRun.toNat).length from canWrite)
      rw [fails] at succeeds
      cases succeeds
    · exact fun _ _ _ _ => trivial
  · intro _ _ impossible
    exact impossible.elim

variable {frame : GuestImportCallFrame}

theorem ensures_transfer_of_goesThrough {ranges : Ranges}
    (isFields : tryReadFiberFields start.memory run.fiber = some fields)
    (isIdle : fields.state = fiberStateIdle)
    (isTarget : targetWrites caller frame fields run.fiber run.argOnRun start = some ranges)
    (written : start.memory.tryWriteAll ranges = some memory)
    (canLeave : CanLeave caller previousFiber { start with memory })
    (canWrite : start.memory.CanWrite (run.fiber + fiberStateOffset) 4) :
    Ensures (fun state => state = start)
      (transfer caller frame run previousFiber) (fun _ _ => True) onFault := by
  apply ensures_get_bind
  rintro start rfl
  apply ensures_orRefuse_bind
  · intro _ _ isNone
    cases isNone.symm.trans isFields
  intro other isOther
  cases isFields.symm.trans isOther
  apply ensures_refuse_bind fun _ _ notIdle => absurd isIdle notIdle
  intro _
  have prepares : Ensures (fun state => state = start)
      (prepareTarget caller frame fields run.fiber run.argOnRun)
      (fun _ state => state = { start with memory }) onFault := by
    apply ensures_prepareTarget_of_writes
    · intro noStack
      cases noStack.symm.trans isTarget
    · intro others isOthers
      cases isTarget.symm.trans isOthers
      exact ensures_writeAll_of_tryWriteAll written
  apply prepares.bind
  intro _
  apply (ensures_leavePrevious_of_canLeave canLeave).bind
  intro _
  rw [← (GuardedMemory.sameAccess_of_tryWriteAll written).canWrite_iff] at canWrite
  have marks : Ensures (fun state => memory.SameAccess state.memory)
      (markRunning caller run.fiber previousFiber) (fun _ _ => True) onFault :=
    ensures_markRunning_of_canWrite canWrite
  apply marks.bind
  intro _
  exact Ensures.answering (ensures_modify fun _ _ => trivial)

theorem ensures_transfer_of_safe
    (safe : ∀ fields ranges, tryReadFiberFields start.memory run.fiber = some fields →
      fields.state = fiberStateIdle →
      targetWrites caller frame fields run.fiber run.argOnRun start = some ranges →
      (∀ range ∈ ranges, range.2.length ≤ 2 ^ 64 ∧
        ApartFromObjects start.memory range.1 range.2.length) ∧
      ((previousFiber ≠ 0 → NoneSaved previousFiber start) ∨
        start.memory.CanWrite (run.fiber + fiberStateOffset) 4)) :
    Ensures (fun state => state = start) (transfer caller frame run previousFiber) (fun _ _ => True)
      (Unchanged start) := by
  have isUnchanged : ∀ state, state = start → Unchanged start state := by
    rintro _ rfl
    exact .refl _
  apply ensures_get_bind
  rintro start rfl
  apply ensures_orRefuse_bind fun state isStart _ => isUnchanged state isStart
  intro fields isFields
  apply ensures_refuse_bind fun state isStart _ => isUnchanged state isStart
  intro isIdle
  have safe := safe fields
  have isIdle := not_not.mp isIdle
  have prepares : Ensures (fun state => state = start)
      (prepareTarget caller frame fields run.fiber run.argOnRun)
      (fun _ state => Kept start state ∧
        ∃ ranges, targetWrites caller frame fields run.fiber run.argOnRun start = some ranges)
      (Unchanged start) := by
    apply ensures_prepareTarget_of_writes fun _ => .refl start
    intro ranges isTarget
    have apart := (safe ranges isFields isIdle isTarget).1
    apply (keeps_writeAll_objects apart).imp
    · rintro _ rfl
      exact .refl _
    · exact fun _ _ kept => ⟨kept, ranges, isTarget⟩
    · exact fun _ kept => kept.unchanged
  apply prepares.bind
  intro target
  apply Ensures.assuming (fun _ both => both.2)
  rintro ⟨ranges, isTarget⟩
  have undone := (safe ranges isFields isIdle isTarget).2
  apply (ensures_leavePrevious.ofPre fun _ both => both.1).bind
  intro _
  apply (ensures_markRunning undone).bind
  intro _
  exact Ensures.answering (ensures_modify fun _ _ => trivial)

/-! ## Runs and returns -/

theorem ensures_fiberRunCore_of_goesThrough (goesThrough : RunGoesThrough caller run start) :
    Ensures (fun state => state = start) (fiberRunCore caller run) (fun _ _ => True) onFault := by
  obtain ⟨fields, memory, isFiber, isFields, attachable, written, goesThrough⟩ := goesThrough
  obtain ⟨frame, fieldsThen, ranges, memoryThen, reaches, isTarget,
    isWritten, canLeave, canWrite⟩ := goesThrough
  apply (ensures_validateFiber fun notFiber => absurd isFiber notFiber).bind
  intro _
  apply ensures_get_bind
  rintro start ⟨rfl, -⟩
  apply ensures_orRefuse_bind
  · intro _ _ isNone
    cases isNone.symm.trans isFields
  intro other isOther
  cases isFields.symm.trans isOther
  apply (ensures_attachWhenGiven_of_writes attachable written).bind
  intro _
  apply ensures_get_bind
  rintro state isState
  rw [← isState] at reaches isTarget isWritten canLeave canWrite
  apply ensures_refuse_bind fun _ _ refused =>
    absurd refused reaches.permitted
  intro _
  apply ensures_refuse_bind fun _ _ refused =>
    absurd refused reaches.otherFiber
  intro _
  apply ensures_orRefuse_bind
  · intro _ _ isNone
    cases isNone.symm.trans reaches.isFrame
  intro otherFrame isFrame
  cases reaches.isFrame.symm.trans isFrame
  apply (ensures_transfer_of_goesThrough reaches.isFields reaches.isIdle
    isTarget isWritten canLeave canWrite).bind
  intro _
  exact Ensures.answering (ensures_modify fun _ _ => trivial)

theorem ensures_fiberRunCore_of_safe (safe : RunSafe caller run start) :
    Ensures (fun state => state = start) (fiberRunCore caller run)
      (fun _ _ => True) (Unchanged start) := by
  rcases safe with goesThrough | ⟨notBegins, safe⟩
  · exact ensures_fiberRunCore_of_goesThrough goesThrough
  have isUnchanged : ∀ state, state = start → Unchanged start state := by
    rintro _ rfl
    exact .refl _
  apply (ensures_validateFiber fun _ => .refl start).bind
  intro _
  apply ensures_get_bind
  rintro start ⟨rfl, isFiber⟩
  apply ensures_orRefuse_bind fun state isStart _ => isUnchanged state isStart
  intro fields isFields
  have attaches := ensures_attachWhenGiven_of_not_begins isFiber isFields notBegins
  apply (attaches.imp (fun _ isStart => isStart) (fun _ _ both => both) isUnchanged).bind
  intro _
  apply ensures_get_bind
  rintro start ⟨rfl, notAttached⟩
  apply ensures_refuse_bind fun state isStart _ => isUnchanged state isStart
  intro permitted
  apply ensures_refuse_bind fun state isStart _ => isUnchanged state isStart
  intro otherFiber
  apply ensures_orRefuse_bind fun state isStart _ => isUnchanged state isStart
  intro frame isFrame
  have transfers : Ensures (fun state => state = start)
      (transfer caller frame run (resolveCurrentFiberAddress caller start))
      (fun _ _ => True) (Unchanged start) :=
    ensures_transfer_of_safe fun fields ranges isFields isIdle isTarget =>
      safe notAttached frame fields ranges
        ⟨permitted, otherFiber, isFrame, isFields, isIdle⟩ isTarget
  apply transfers.bind
  intro _
  exact Ensures.answering (ensures_modify fun _ _ => trivial)

theorem ensures_prepareReturn_of_saves {current : UInt64} {continuation : Option FiberContinuation}
    (saves : ReturnSaves start caller) :
    Ensures (fun state => state = start.withContinuation current continuation)
      (prepareReturn caller current)
      (fun _ state => start.memory.SameAccess state.memory) onFault := by
  obtain ⟨threadState, isThreadState, argument⟩ := saves
  refine Ensures.tryCatch (?_ : Ensures _ _ _ fun _ => False) ?_
  · apply ensures_get_bind
    rintro state rfl
    apply ensures_orRefuse_bind
    · intro _ _ isNone
      cases isNone.symm.trans isThreadState
    intro other isOther
    cases isThreadState.symm.trans isOther
    apply Ensures.answering
    unfold writeResumeArgument
    apply Ensures.ite
    · intro _
      apply ensures_pure
      rintro _ rfl
      exact .refl _
    · intro notNull
      have canWrite := argument.resolve_left notNull
      apply ensures_write
      · rintro _ rfl fails
        have succeeds := GuardedMemory.isSome_tryWrite.mpr (show start.memory.CanWrite
              threadState.rootContinuation.argOnRunAddress
            (bytesOf 8 caller.ctx.rdi.toNat).length from canWrite)
        rw [FiberState.withContinuation] at fails
        rw [fails] at succeeds
        cases succeeds
      · rintro _ memory rfl written
        exact GuardedMemory.sameAccess_of_tryWrite written
  · intro _ _ impossible
    exact impossible.elim

theorem ensures_fiberReturnToThread_of_safe (safe : ReturnSafe caller start) :
    Ensures (fun state => state = start) (fiberReturnToThread caller)
      (fun _ _ => True) (Unchanged start) := by
  have isUnchanged : ∀ state, state = start → Unchanged start state := by
    rintro _ rfl
    exact .refl _
  apply ensures_get_bind
  rintro start rfl
  apply ensures_refuse_bind fun state isStart _ => isUnchanged state isStart
  intro notNull
  apply ensures_orRefuse_bind fun state isStart _ => isUnchanged state isStart
  intro frame isFrame
  apply ensures_modify_bind
  rcases safe with isNull | noFrame | ⟨saves, canWrite⟩ | ⟨notSaves, unsaved⟩
  · exact absurd isNull notNull
  · cases noFrame.symm.trans isFrame
  · apply (ensures_prepareReturn_of_saves saves).bind
    intro _
    have marks (error : UInt32) : Ensures (fun state => start.memory.SameAccess state.memory)
        (writeUInt32 (resolveCurrentFiberAddress caller start + fiberStateOffset)
          fiberStateIdle error) (fun _ _ => True) (Unchanged start) := by
      apply ensures_write
      · intro state sameAccess fails
        have succeeds := GuardedMemory.isSome_tryWrite.mpr (show state.memory.CanWrite
              (resolveCurrentFiberAddress caller start + fiberStateOffset)
            (bytesOf 4 fiberStateIdle.toNat).length from
              sameAccess.canWrite_iff.mpr canWrite)
        rw [fails] at succeeds
        cases succeeds
      · exact fun _ _ _ _ => trivial
    apply (marks _).bind
    intro _
    exact Ensures.answering (ensures_modify fun _ _ => trivial)
  · have isRemoved : Unchanged start
        (start.withContinuation (resolveCurrentFiberAddress caller start) none) := by
      have isSame : start.withContinuation
          (resolveCurrentFiberAddress caller start) none = start := by
        unfold FiberState.withContinuation
        rw [← (unsaved : start.continuations _ = none), Function.update_eq_self]
      rw [isSame]
      exact .refl _
    apply Ensures.bind ((ensures_prepareReturn_of_not_saves notSaves).imp
      (fun _ isSaved => isSaved) (fun _ _ impossible => impossible) ?_)
    · intro _
      apply Ensures.assuming (fun _ impossible => impossible)
      exact False.elim
    · rintro _ rfl
      exact isRemoved

end Runs

/-! ## Steps -/

variable {error : UInt32}

theorem unchanged_of_ensures {caller : Caller} {start : FiberState} {request : Request}
    (ensures : Ensures (fun state => state = start) (answer caller request)
      (fun _ _ => True) (Unchanged start))
    (failed : ((answer caller request).outcome start).1 = .error error) :
    Unchanged start ((answer caller request).outcome start).2 := by
  rcases ended : (answer caller request).outcome start with
    ⟨error | value, after⟩
  · exact (ensures start rfl).2 _ _ ended
  · rw [ended] at failed
    cases failed

theorem errorsLeaveAlone_of_safe {recorded : Recorded} {action : Action}
    (safe : ErrorSafe recorded action) : ErrorsLeaveAlone recorded action := by
  cases action with
  | guest memory => trivial
  | host hostThread fiber => trivial
  | call caller name =>
    intro transfers error failed
    unfold ErrorSafe at safe
    unfold outcomeOf at failed ⊢
    dsimp only at safe
    cases isRequest : request recorded.state caller name with
    | run run =>
      rw [isRequest] at safe failed
      exact unchanged_of_ensures (Ensures.bind (ensures_fiberRunCore_of_safe safe) fun _ =>
          ensures_pure fun _ _ => trivial) failed
    | returnToThread =>
      rw [isRequest] at safe failed
      exact unchanged_of_ensures (Ensures.bind (ensures_fiberReturnToThread_of_safe safe) fun _ =>
          ensures_pure fun _ _ => trivial) failed
    | initialization initialization =>
      rw [isRequest] at transfers
      exact transfers.elim
    | finalize fiber =>
      rw [isRequest] at transfers
      exact transfers.elim
    | startContextSizeCheck argument =>
      rw [isRequest] at transfers
      exact transfers.elim
    | stopContextSizeCheck =>
      rw [isRequest] at transfers
      exact transfers.elim

/-- In every run whose steps are all safe, every run, switch or return that
answers an error leaves the fiber objects and the tables as they were. -/
theorem errors_leave_fibers_alone {recorded : Recorded} {actions : List Action}
    (safe : StepsMeet step ErrorSafe recorded actions) :
    StepsMeet step ErrorsLeaveAlone recorded actions :=
  safe.imp_of_invariant (fun _ _ (_ : True) _ => trivial)
    (fun _ _ _ isSafe => errorsLeaveAlone_of_safe isSafe) trivial

/-! ## A context that stays attached -/

def initializeWithoutContext : Action :=
  .call (callerAt 0x5000 0x1000 0x3000 0x4000 7 0 0) .fiberInitialize

def switchFromThread : Action :=
  .call (callerAt 0x5000 0x1000 0x2000 0x200 0 0 0) .fiberAttachContextAndSwitch

def switchWithoutContext : Action :=
  .call (callerAt 0x5000 0x1000 0 0 0 0 0) .fiberSwitch

def errorCode {Value : Type} : Except UInt32 Value → Option UInt32
  | .ok _ => none
  | .error error => some error

theorem eq_error_of_errorCode {Value : Type} {answered : Except UInt32 Value}
    (isError : errorCode answered = some error) :
    answered = .error error := by
  cases answered with
  | ok value => cases isError
  | error other =>
    cases isError
    rfl

theorem errorSafe_switchWithoutContext : ErrorSafe (step emptyStart initializeWithoutContext)
      switchWithoutContext := by
  refine .inr ⟨fun begins => absurd begins.1 (by decide), fun _ => ?_⟩
  intro frame fields ranges reaches
  exact absurd (.inl ⟨rfl, by decide +kernel⟩) reaches.permitted

/-- The refused switch leaves everything alone. -/
theorem refused_switch_leaves_alone : StepsMeet step ErrorsLeaveAlone emptyStart
      [initializeWithoutContext, switchWithoutContext] :=
  errors_leave_fibers_alone ⟨trivial, errorSafe_switchWithoutContext, trivial⟩

/-- The switch with a context is refused as well, and the object of the fiber
has the context. -/
theorem refused_switch_attaches : ¬ StepsMeet step ErrorsLeaveAlone emptyStart
      [initializeWithoutContext, switchFromThread] := by
  rintro ⟨-, leavesAlone, -⟩
  have unchanged := leavesAlone trivial fiberErrorPermission
    (eq_error_of_errorCode (by decide +kernel))
  have inObject : InObject (step emptyStart initializeWithoutContext).state.memory 0x1019 := by
    refine ⟨0x1000, ⟨by decide, by decide, ?_⟩, by decide⟩
    decide +kernel
  have same := unchanged.objects 0x1019 inObject
  revert same
  decide +kernel

end Fiber

end SharpEmu
