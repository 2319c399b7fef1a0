import SharpEmu.FiberRuns

/-!
# Calls that answer an error

A run, switch or return that fails is to leave the fiber objects, the threads'
fibers and the saved continuations as they were.  What the error paths take back
suffices for that unless a context had been attached before, a continuation had
been saved under the fiber of the thread, or the words that are written on
stacks lie in an object.
-/

namespace SharpEmu

namespace Fiber

open Addressed Faulting

/-! ## What is left alone -/

def IsFiber (memory : GuardedMemory) (fiber : UInt64) : Prop :=
  fiber ≠ 0 ∧ fiber &&& 7 = 0 ∧ HasSignatures memory fiber

def InObject (memory : GuardedMemory) (address : UInt64) : Prop :=
  ∃ fiber, IsFiber memory fiber ∧ inRange fiber fiberObjectSize address

structure Unchanged (before after : FiberState) : Prop where
  objects : ∀ address, InObject before.memory address →
    after.memory.bytes address = before.memory.bytes address
  tables : SameTables before after

theorem Unchanged.refl (state : FiberState) : Unchanged state state :=
  ⟨fun _ _ => rfl, .refl state⟩

def ApartFromObjects (memory : GuardedMemory) (address : UInt64) (count : ℕ) :
    Prop :=
  ∀ place, InObject memory place → inRange address count place = false

/-! ## Writes outside of the objects -/

/-- Nothing has changed, and the same addresses can be written. -/
structure Kept (start state : FiberState) : Prop where
  unchanged : Unchanged start state
  access : start.memory.SameAccess state.memory

theorem Kept.refl (state : FiberState) : Kept state state :=
  ⟨.refl state, .refl state.memory⟩

section Writes

variable {start : FiberState} {error : UInt32}

theorem Kept.write {state : FiberState} {memory : GuardedMemory}
    {address : UInt64} {data : List UInt8} (kept : Kept start state)
    (written : state.memory.tryWrite address data = some memory)
    (fits : data.length ≤ 2 ^ 64)
    (apart : ApartFromObjects start.memory address data.length) :
    Kept start { state with memory } where
  unchanged :=
    { objects := fun place inObject =>
        (GuardedMemory.tryWrite_outside written fits
          (apart place inObject)).trans (kept.unchanged.objects place inObject)
      tables := kept.unchanged.tables.withMemory memory }
  access := kept.access.trans (GuardedMemory.sameAccess_of_tryWrite written)

theorem keeps_writeAll_objects {ranges : Ranges}
    (apart : ∀ range ∈ ranges, range.2.length ≤ 2 ^ 64 ∧
      ApartFromObjects start.memory range.1 range.2.length) :
    Keeps (Kept start) (writeAll error ranges) := by
  induction ranges with
  | nil => exact keeps_pure ()
  | cons range rest ih =>
    obtain ⟨fits, isApart⟩ := apart range List.mem_cons_self
    have first : Keeps (Kept start) (write range.1 range.2 error) :=
      ensures_write (fun _ kept _ => kept) fun _ _ kept written =>
        kept.write written fits isApart
    exact first.bind fun _ =>
      ih (List.forall_mem_cons.mp apart).2

end Writes

variable {onFault : FiberState → Prop}

/-- Writes of which none fails. -/
theorem ensures_writeAll_of_tryWriteAll {error : UInt32} {ranges : Ranges} {start : FiberState}
    {memory : GuardedMemory}
    (written : start.memory.tryWriteAll ranges = some memory) :
    Ensures (fun state => state = start) (writeAll error ranges)
      (fun _ state => state = { start with memory }) onFault := by
  induction ranges generalizing start with
  | nil =>
    cases written
    exact ensures_pure fun _ isStart => isStart
  | cons range rest ih =>
    obtain ⟨between, first, isRest⟩ := Option.bind_eq_some_iff.mp written
    apply ensures_write_bind fun fails => by
      rw [fails] at first
      cases first
    intro memory isFirst
    cases first.symm.trans isFirst
    exact ih isRest

/-! ## The words that a run writes on stacks -/

def resumeWrites (continuation : FiberContinuation) (argument : UInt64) :
    Ranges :=
  if continuation.argOnRunAddress = 0 then []
  else [word64 continuation.argOnRunAddress argument]

theorem writeResumeArgument_eq (continuation : FiberContinuation)
    (argument : UInt64) (error : UInt32) :
    writeResumeArgument continuation argument error =
      writeAll error (resumeWrites continuation argument) := by
  unfold writeResumeArgument resumeWrites
  split
  · rfl
  · exact (bind_pure_unit (x := writeUInt64 _ _ _)).symm

def targetWrites (caller : Caller) (frame : GuestImportCallFrame)
    (fields : FiberFields) (fiber argOnRun : UInt64) (state : FiberState) :
    Option Ranges :=
  match state.continuations fiber with
  | some saved => some (resumeWrites saved argOnRun)
  | none =>
      ((initialStackEnd fields (rootStackTop caller frame state)).bind
        tryCalculateInitialStackLayout).map fun layout =>
          [word64 layout.transferSlot fields.entry, word64 layout.entryRsp 0]

theorem ensures_prepareTarget_of_writes
    {post : FiberState → Prop} {caller : Caller} {frame : GuestImportCallFrame}
    {fields : FiberFields} {fiber argOnRun : UInt64} {start : FiberState}
    (noStack : targetWrites caller frame fields fiber argOnRun start = none → onFault start)
    (writes : ∀ ranges, targetWrites caller frame fields fiber argOnRun start = some ranges →
        Ensures (fun state => state = start)
          (writeAll fiberErrorInvalid ranges) (fun _ => post) onFault) :
    Ensures (fun state => state = start) (prepareTarget caller frame fields fiber argOnRun)
      (fun _ => post) onFault := by
  apply ensures_get_bind
  rintro start rfl
  unfold targetWrites at noStack writes
  cases isSaved : start.continuations fiber with
  | some saved =>
    rw [isSaved] at writes
    dsimp only
    rw [writeResumeArgument_eq]
    exact (writes _ rfl).answering
  | none =>
    rw [isSaved] at noStack writes
    dsimp only at noStack writes ⊢
    refine Ensures.bind (?_ : Ensures _ _ (fun _ => post) _) fun _ =>
      ensures_pure fun _ isPost => isPost
    apply ensures_orRefuse_bind
    · rintro _ rfl isNone
      exact noStack (by rw [isNone]; rfl)
    intro stackEnd isEnd
    rw [isEnd, Option.bind_some] at noStack writes
    apply ensures_orRefuse_bind
    · rintro _ rfl isNone
      exact noStack (by rw [isNone]; rfl)
    intro layout isLayout
    rw [isLayout] at writes
    exact (writes _ rfl).answering

/-! ## Taking back -/

section TakingBack

variable {caller : Caller} {start : FiberState}
  {fiber previousFiber : UInt64} {callerContinuation : FiberContinuation}

inductive Left (caller : Caller) (start : FiberState)
    (fiber previousFiber : UInt64) (callerContinuation : FiberContinuation) :
    FiberState → Prop
  | fiber {state : FiberState} {memory : GuardedMemory} :
      previousFiber ≠ 0 → Kept start state →
      tryReadUInt32 state.memory (previousFiber + fiberStateOffset) =
        some fiberStateRun →
      state.memory.tryWrite (previousFiber + fiberStateOffset)
        (bytesOf 4 fiberStateIdle.toNat) = some memory →
      Left caller start fiber previousFiber callerContinuation
        (FiberState.withContinuation { state with memory } previousFiber
          (some callerContinuation))
  | thread {state : FiberState} :
      previousFiber = 0 → Kept start state →
      state.threadStates caller.threadKey = none →
      Left caller start fiber previousFiber callerContinuation
        (state.withThreadState caller.threadKey
          (some ⟨callerContinuation, fiber, previousFiber⟩))

theorem ensures_leavePrevious : Ensures (Kept start)
      (leavePrevious caller fiber previousFiber callerContinuation)
      (fun _ => Left caller start fiber previousFiber callerContinuation)
      (Unchanged start) := by
  apply ensures_get_bind
  intro state kept
  have isUnchanged : ∀ other, other = state → Unchanged start other := by
    rintro _ rfl
    exact kept.unchanged
  apply Ensures.ite
  · intro notNull
    apply ensures_refuse_bind fun other isOther _ => isUnchanged other isOther
    intro isRun
    apply ensures_write_bind fun _ => kept.unchanged
    intro memory written
    apply ensures_modify
    rintro _ rfl
    exact .fiber notNull kept (not_not.mp isRun) written
  · intro isNull
    apply ensures_refuse_bind fun other isOther _ => isUnchanged other isOther
    intro noThreadState
    apply ensures_modify
    rintro _ rfl
    exact .thread (not_not.mp isNull) kept (Option.not_isSome_iff_eq_none.mp noThreadState)

variable {address : UInt64}

theorem readBytes_of_tryReadUInt32 {memory : GuardedMemory}
    {value : UInt32} (isRead : tryReadUInt32 memory address = some value) :
    readBytes memory.bytes address 4 = some (bytesOf 4 value.toNat) := by
  unfold tryReadUInt32 readWord at isRead
  rw [Option.map_map] at isRead
  obtain ⟨bytes, isBytes, isValue⟩ := Option.map_eq_some_iff.mp isRead
  have isLength := length_of_readBytes isBytes
  have isWord : value.toNat = wordOf bytes := by
    have below := wordOf_lt bytes
    rw [isLength] at below
    rw [← isValue, Function.comp_apply, UInt64.toNat_toUInt32, UInt64.toNat_ofNat']
    omega
  rw [isBytes, isWord, ← isLength, bytesOf_wordOf]

theorem bytes_of_undone {before between after : GuardedMemory}
    (isRun : tryReadUInt32 before address = some fiberStateRun)
    (written : before.tryWrite address (bytesOf 4 fiberStateIdle.toNat) = some between)
    (back : between.tryWrite address (bytesOf 4 fiberStateRun.toNat) = some after) :
    after.bytes = before.bytes :=
  bytes_of_tryWrite_back (readBytes_of_tryReadUInt32 isRun) written back rfl
    (by rw [length_bytesOf]; decide)

variable {state : FiberState}

/-- What is taken back is all that had changed. -/
theorem unchanged_undoLeave (left : Left caller start fiber previousFiber callerContinuation state)
    (unsaved : previousFiber ≠ 0 → NoneSaved previousFiber start) :
    Unchanged start (undoLeave caller previousFiber state) := by
  unfold undoLeave
  cases left with
  | @fiber state memory notNull kept isRun written =>
    have couldWrite := GuardedMemory.isSome_tryWrite.mp (Option.isSome_of_eq_some written)
    have canWrite : memory.CanWrite (previousFiber + fiberStateOffset)
        (bytesOf 4 fiberStateRun.toNat).length := by
      rw [(GuardedMemory.sameAccess_of_tryWrite written).canWrite_iff]
      exact couldWrite
    obtain ⟨after, back⟩ := Option.isSome_iff_exists.mp (GuardedMemory.isSome_tryWrite.mpr canWrite)
    have sameTables := kept.unchanged.tables
    rw [if_pos notNull]
    refine ⟨?_, ?_, sameTables.stackRanges, sameTables.threadStates, sameTables.currentFibers⟩
    · intro place inObject
      unfold tryWriteOrKeep
      dsimp only [FiberState.withContinuation]
      rw [back, Option.getD_some, bytes_of_undone isRun written back]
      exact kept.unchanged.objects place inObject
    · dsimp only [FiberState.withContinuation]
      rw [Function.update_idem, sameTables.continuations,
        ← (unsaved notNull : start.continuations _ = none),
        Function.update_eq_self]
  | @thread state isNull kept noThreadState =>
    have sameTables := kept.unchanged.tables
    rw [if_neg (not_not.mpr isNull)]
    refine ⟨kept.unchanged.objects, sameTables.continuations,
      sameTables.stackRanges, ?_, sameTables.currentFibers⟩
    dsimp only [FiberState.withThreadState]
    rw [Function.update_idem, ← noThreadState, Function.update_eq_self, sameTables.threadStates]

theorem Left.access (left : Left caller start fiber previousFiber callerContinuation state) :
    start.memory.SameAccess state.memory := by
  cases left with
  | fiber _ kept _ written =>
    exact kept.access.trans (GuardedMemory.sameAccess_of_tryWrite written)
  | thread _ kept _ => exact kept.access

theorem ensures_markRunning (safe : (previousFiber ≠ 0 → NoneSaved previousFiber start) ∨
      start.memory.CanWrite (fiber + fiberStateOffset) 4) :
    Ensures (Left caller start fiber previousFiber callerContinuation)
      (markRunning caller fiber previousFiber) (fun _ _ => True)
      (Unchanged start) := by
  refine Ensures.tryCatch (?_ : Ensures _ _ _ fun state =>
    Left caller start fiber previousFiber callerContinuation state ∧
      ¬start.memory.CanWrite (fiber + fiberStateOffset) 4) ?_
  · apply ensures_write
    · intro state left fails
      refine ⟨left, fun canWrite => ?_⟩
      rw [← left.access.canWrite_iff] at canWrite
      have succeeds : (state.memory.tryWrite (fiber + fiberStateOffset)
          (bytesOf 4 fiberStateRun.toNat)).isSome :=
        GuardedMemory.isSome_tryWrite.mpr canWrite
      rw [fails] at succeeds
      cases succeeds
    · exact fun _ _ _ _ => trivial
  · intro error
    apply ensures_modify_throw
    rintro state ⟨left, notWritable⟩
    exact unchanged_undoLeave left (safe.resolve_right notWritable)

end TakingBack

end Fiber

end SharpEmu
