import SharpEmu.FiberStarts
import SharpEmu.TransitionRuns

/-!
# Fibers that are initialised again

In a run of the exports and of guest code, the fiber at an address is the one of
the last initialisation there.  Its next run starts it from what the
initialisation was given, as long as each initialisation finds no continuation
under its address.  An initialisation removes none, so after one that was not
preceded by a finalisation the next run goes on with the earlier fiber.
-/

namespace SharpEmu

namespace Fiber

open Addressed Faulting

/-! ## Runs -/

/-- A state with the initialisations that no run has followed. -/
structure Recorded where
  state : FiberState
  initialized : UInt64 → Option Initialization

inductive Action where
  | call (caller : Caller) (name : Export)
  /-- Guest code and other exports change memory. -/
  | guest (memory : GuardedMemory)
  /-- The host goes on with a fiber on one of its threads. -/
  | host (hostThread : ℕ) (fiber : UInt64)

def request (state : FiberState) (caller : Caller) (name : Export) : Request :=
  requestOf state.memory caller.ctx name

def outcomeOf (state : FiberState) (caller : Caller) (name : Export) :
    Except UInt32 (Option GuestCpuContinuation) × FiberState :=
  (answer caller (request state caller name)).outcome state

def recordAnswer (initialized : UInt64 → Option Initialization) (request : Request)
    (answered : Except UInt32 (Option GuestCpuContinuation)) :
    UInt64 → Option Initialization :=
  match request, answered with
  | .initialization initialization, .ok _ =>
      Function.update initialized initialization.fiber (some initialization)
  | .run run, .ok _ => Function.update initialized run.fiber none
  | _, _ => initialized

def step (recorded : Recorded) : Action → Recorded
  | .call caller name =>
      let answered := outcomeOf recorded.state caller name
      ⟨answered.2, recordAnswer recorded.initialized
        (request recorded.state caller name) answered.1⟩
  | .guest memory => { recorded with state := { recorded.state with memory } }
  | .host hostThread fiber =>
      { recorded with
        state := recorded.state.withCurrentFiber hostThread fiber }

def Recorded.Initial (recorded : Recorded) : Prop :=
  (∀ fiber, NoneSaved fiber recorded.state) ∧ ∀ fiber, recorded.initialized fiber = none

/-! ## What is wanted of a run -/

structure Initialization.Gives (initialization : Initialization)
    (words : StartWords) : Prop where
  entry : words.entry = initialization.entry
  argOnInitialize : words.argOnInitialize = initialization.argOnInitialize
  contextAddress : initialization.contextAddress ≠ 0 →
    words.contextAddress = initialization.contextAddress
  contextSize : initialization.contextAddress ≠ 0 →
    words.contextSize = initialization.contextSize

structure StartsAs (state : FiberState) (caller : Caller) (run : Run)
    (initialization : Initialization) (target : GuestCpuContinuation) :
    Prop where
  rip : target.rip = initialization.entry
  rdi : target.rdi = initialization.argOnInitialize
  rsi : target.rsi = run.argOnRun
  ownStack : initialization.contextAddress ≠ 0 →
    OnStack initialization.contextAddress initialization.contextSize target.rsp
  otherStack : initialization.contextAddress = 0 →
    ∃ words frame, StartWords.Held words run.fiber state ∧
      caller.transferFrame = some frame ∧
      (words.attached run).OnStackOf (rootStackTop caller frame state)
        target.rsp

def StartsFresh (recorded : Recorded) : Action → Prop
  | .call caller name =>
      ∀ run initialization target, request recorded.state caller name = .run run →
        recorded.initialized run.fiber = some initialization →
        (outcomeOf recorded.state caller name).1 = .ok (some target) →
          StartsAs recorded.state caller run initialization target
  | _ => True

/-! ## Conditions -/

def attachedState (run : Run) (state : FiberState) : FiberState :=
  if run.Attaches then
    state.withStackRange run.fiber (some ⟨run.attachContextAddress, run.attachContextSize⟩)
  else state

def previousFiberOf (caller : Caller) (run : Run) (state : FiberState) :
    UInt64 :=
  resolveCurrentFiberAddress caller (attachedState run state)

/-- The object of an initialised fiber still holds what it was given, and a
context that is attached lies apart from it. -/
def Untouched (state : FiberState) (run : Run) (initialization : Initialization) : Prop :=
  (∀ words, StartWords.Held words run.fiber state → initialization.Gives words) ∧ (run.Attaches →
      Apart run.attachContextAddress 8 run.fiber fiberObjectSize)

def ReturnSaves (state : FiberState) (caller : Caller) : Prop :=
  ∃ threadState, state.threadStates caller.threadKey = some threadState ∧
    (threadState.rootContinuation.argOnRunAddress = 0 ∨
      state.memory.CanWrite threadState.rootContinuation.argOnRunAddress 8)

/-- A successful initialisation finds no continuation under its address, a
thread does not leave a fiber that was initialised and not run since, and the
object of such a fiber is untouched when it is run. -/
def Permitted (recorded : Recorded) : Action → Prop
  | .call caller name =>
      match request recorded.state caller name with
      | .initialization initialization =>
          (∃ value, (outcomeOf recorded.state caller name).1 = .ok value) →
            NoneSaved initialization.fiber recorded.state
      | .run run =>
          recorded.initialized (previousFiberOf caller run recorded.state) = none ∧
            ∀ initialization, recorded.initialized run.fiber = some initialization →
                Untouched recorded.state run initialization
      | .returnToThread =>
          ReturnSaves recorded.state caller → recorded.initialized
              (resolveCurrentFiberAddress caller recorded.state) = none
      | _ => True
  | _ => True

/-- No continuation is saved for a fiber that was initialised and not run
since. -/
def Recorded.Fresh (recorded : Recorded) : Prop :=
  ∀ fiber, recorded.initialized fiber ≠ none → NoneSaved fiber recorded.state

/-! ## Saved continuations of the calls -/

section Calls

variable {fiber : UInt64} {caller : Caller} {start : FiberState}

variable {run : Run}

theorem ensures_attachWhenGiven_tables {fields : FiberFields} :
    Ensures (fun state => state = start) (attachWhenGiven run fields)
      (fun _ state => SameTables (attachedState run start) state)
      (SameTables start) := by
  have ofTables : OfTables (SameTables start) :=
    fun _ memory same => same.withMemory memory
  unfold attachWhenGiven attachedState
  by_cases attaches : run.Attaches
  · rw [if_pos attaches, if_pos attaches]
    have checks : Keeps (SameTables start)
        (checkAttached run.attachContextAddress run.attachContextSize fields) :=
      keeps_refuse.bind fun _ => keeps_refuse.bind fun _ => keeps_refuse
    have attaches : Ensures (SameTables start)
        (attachContext run.fiber run.attachContextAddress run.attachContextSize fields)
        (fun _ state => SameTables (start.withStackRange run.fiber
          (some ⟨run.attachContextAddress, run.attachContextSize⟩)) state)
        (SameTables start) :=
      Ensures.bind checks fun _ =>
        Ensures.bind (keeps_writeAll ofTables) fun _ =>
          ensures_modify fun _ same => same.withStackRange _ _
    apply attaches.ofPre
    rintro _ rfl
    exact .refl _
  · rw [if_neg attaches, if_neg attaches]
    apply ensures_pure
    rintro _ rfl
    exact .refl _

theorem noneSaved_of_sameTables {first second : FiberState}
    (same : SameTables first second) (unsaved : NoneSaved fiber first) :
    NoneSaved fiber second := by
  unfold NoneSaved
  rw [same.continuations]
  exact unsaved

theorem NoneSaved.attachedState (unsaved : NoneSaved fiber start) (run : Run) :
    NoneSaved fiber (attachedState run start) := by
  unfold Fiber.attachedState
  split
  · exact unsaved
  · exact unsaved

theorem ensures_fiberRunCore_noneSaved (unsaved : NoneSaved fiber start)
    (different : fiber ≠ previousFiberOf caller run start) :
    Ensures (fun state => state = start) (fiberRunCore caller run)
      (fun _ => NoneSaved fiber) (NoneSaved fiber) := by
  have isUnsaved : ∀ state, state = start → NoneSaved fiber state := by
    rintro _ rfl
    exact unsaved
  apply Ensures.bind (keeps_validateFiber.imp (fun _ isStart => isStart)
    (fun _ _ isStart => isStart) isUnsaved)
  intro _
  apply ensures_get_bind
  rintro start rfl
  apply ensures_orRefuse_bind fun state isStart _ => isUnsaved state isStart
  intro fields _
  apply Ensures.bind (ensures_attachWhenGiven_tables.imp
    (fun _ isStart => isStart) (fun _ _ same => same)
    fun _ same => noneSaved_of_sameTables same unsaved)
  intro _
  apply ensures_get_bind
  intro state same
  have isPrevious : resolveCurrentFiberAddress caller state =
      previousFiberOf caller run start := resolve_of_sameTables caller same
  have stillUnsaved : NoneSaved fiber state :=
    noneSaved_of_sameTables same (unsaved.attachedState run)
  refine Ensures.ofPre (?_ : Keeps (NoneSaved fiber) _) ?_
  · exact keeps_refuse.bind fun _ => keeps_refuse.bind fun _ =>
      keeps_orRefuse.bind fun frame =>
        (keeps_transfer caller frame run (by rw [isPrevious]; exact different)).bind
          fun _ => (keeps_modify fun _ unsaved =>
            unsaved.withCurrentFiber _ _).bind fun _ => keeps_pure _
  · rintro _ rfl
    exact stillUnsaved

theorem ensures_prepareReturn_of_not_saves {current : UInt64}
    {continuation : Option FiberContinuation}
    (notSaves : ¬ReturnSaves start caller) :
    Ensures (fun state => state = start.withContinuation current continuation)
      (prepareReturn caller current) (fun _ _ => False)
      (fun state => state = start.withContinuation current none) := by
  have removed : (start.withContinuation current continuation).withContinuation current
        none = start.withContinuation current none := by
    unfold FiberState.withContinuation
    rw [Function.update_idem]
  refine Ensures.tryCatch (?_ : Ensures _ _ _ fun state =>
    state = start.withContinuation current continuation) ?_
  · apply ensures_get_bind
    rintro state rfl
    apply ensures_orRefuse_bind fun state isState _ => isState
    intro threadState isThreadState
    refine Ensures.bind (?_ : Ensures _ _ (fun _ _ => False) _) ?_
    · unfold writeResumeArgument
      split
      · next isNull =>
        exact absurd ⟨threadState, isThreadState, .inl isNull⟩ notSaves
      · apply ensures_write fun _ isState _ => isState
        rintro _ memory rfl written
        apply notSaves
        refine ⟨threadState, isThreadState, .inr ?_⟩
        have canWrite := GuardedMemory.isSome_tryWrite.mp (Option.isSome_of_eq_some written)
        rw [length_bytesOf] at canWrite
        exact canWrite
    · intro _
      exact ensures_pure fun _ impossible => impossible
  · intro error
    apply ensures_modify_throw
    rintro _ rfl
    exact removed

theorem ensures_fiberReturnToThread_noneSaved (unsaved : NoneSaved fiber start)
    (different : ReturnSaves start caller → fiber ≠ resolveCurrentFiberAddress caller start) :
    Ensures (fun state => state = start) (fiberReturnToThread caller)
      (fun _ => NoneSaved fiber) (NoneSaved fiber) := by
  have ofTables : OfTables (NoneSaved fiber) := noneSaved_ofTables
  have isUnsaved : ∀ state, state = start → NoneSaved fiber state := by
    rintro _ rfl
    exact unsaved
  apply ensures_get_bind
  rintro start rfl
  apply ensures_refuse_bind fun state isStart _ => isUnsaved state isStart
  intro _
  apply ensures_orRefuse_bind fun state isStart _ => isUnsaved state isStart
  intro frame _
  by_cases saves : ReturnSaves start caller
  · refine Ensures.ofPre (?_ : Keeps (NoneSaved fiber) _) isUnsaved
    have prepares : Keeps (NoneSaved fiber) (prepareReturn caller
        (resolveCurrentFiberAddress caller start)) :=
      Keeps.tryCatch (keeps_get.bind fun _ => keeps_orRefuse.bind fun _ =>
          (keeps_writeResumeArgument ofTables).bind fun _ => keeps_pure _)
        fun error =>
          (keeps_modify fun _ unsaved => unsaved.withContinuation_none _).bind
            fun _ => keeps_throw error
    exact (keeps_modify fun _ unsaved =>
        unsaved.withContinuation_of_ne (different saves) _).bind fun _ =>
      prepares.bind fun _ => (keeps_write ofTables).bind fun _ =>
        (keeps_modify fun _ unsaved => (unsaved.withThreadState _ _)
          |>.withCurrentFiber _ _).bind fun _ => keeps_pure _
  · apply ensures_modify_bind
    apply Ensures.bind ((ensures_prepareReturn_of_not_saves saves).imp
      (fun _ isSaved => isSaved) (fun _ _ impossible => impossible) ?_)
    · intro _
      apply Ensures.assuming (fun _ impossible => impossible)
      exact False.elim
    · rintro _ rfl
      exact unsaved.withContinuation_none _

theorem noneSaved_of_answer (caller : Caller) (request : Request) (unsaved : NoneSaved fiber start)
    (ofRun : ∀ run, request = .run run → fiber ≠ previousFiberOf caller run start)
    (ofReturn : request = .returnToThread → ReturnSaves start caller →
      fiber ≠ resolveCurrentFiberAddress caller start) :
    NoneSaved fiber ((answer caller request).outcome start).2 := by
  cases request with
  | initialization initialization =>
    exact (Keeps.bind (keeps_fiberInitializeCore initialization) fun _ =>
      keeps_pure _).after unsaved
  | finalize other =>
    exact (Keeps.bind (keeps_fiberFinalize other) fun _ =>
      keeps_pure _).after unsaved
  | run run =>
    exact ((ensures_fiberRunCore_noneSaved unsaved (ofRun run rfl)).bind
      fun _ => keeps_pure _).after rfl
  | returnToThread =>
    exact ((ensures_fiberReturnToThread_noneSaved unsaved
      (ofReturn rfl)).bind fun _ => keeps_pure _).after rfl
  | startContextSizeCheck argument =>
    have starts : Keeps (NoneSaved fiber) (fiberStartContextSizeCheck argument) :=
      keeps_refuse.bind fun _ => keeps_get.bind fun _ =>
        (keeps_modify fun _ unsaved =>
          unsaved.withContextSizeCheck _).bind fun _ => keeps_refuse
    exact (Keeps.bind starts fun _ => keeps_pure _).after unsaved
  | stopContextSizeCheck =>
    have stops : Keeps (NoneSaved fiber) fiberStopContextSizeCheck :=
      keeps_get.bind fun _ =>
        (keeps_modify fun _ unsaved =>
          unsaved.withContextSizeCheck _).bind fun _ => keeps_refuse
    exact (Keeps.bind stops fun _ => keeps_pure _).after unsaved

end Calls

/-! ## Steps -/

theorem recordAnswer_of_error (initialized : UInt64 → Option Initialization)
    (request : Request) (error : UInt32) :
    recordAnswer initialized request (.error error) = initialized := by
  cases request <;> rfl

variable {recorded : Recorded} {action : Action}

theorem fresh_step (fresh : recorded.Fresh) (permitted : Permitted recorded action) :
    (step recorded action).Fresh := by
  cases action with
  | guest memory => exact fresh
  | host hostThread other => exact fresh
  | call caller name =>
    intro fiber isInitialized
    unfold Permitted at permitted
    unfold step at isInitialized ⊢
    unfold outcomeOf at isInitialized permitted ⊢
    dsimp only at isInitialized permitted ⊢
    generalize request recorded.state caller name = request at *
    have unsaved : recorded.initialized fiber ≠ none → NoneSaved fiber
          ((answer caller request).outcome recorded.state).2 := by
      intro wasInitialized
      apply noneSaved_of_answer caller request (fresh fiber wasInitialized)
      · rintro run rfl isPrevious
        rw [isPrevious] at wasInitialized
        exact wasInitialized permitted.1
      · rintro rfl saves isCurrent
        rw [isCurrent] at wasInitialized
        exact wasInitialized (permitted saves)
    rcases ended : (answer caller request).outcome recorded.state with
      ⟨error | value, after⟩
    · rw [ended, recordAnswer_of_error] at isInitialized
      rw [ended] at unsaved
      exact unsaved isInitialized
    · rw [ended] at isInitialized unsaved permitted
      cases request with
      | initialization initialization =>
        by_cases isFiber : fiber = initialization.fiber
        · have unsavedBefore := permitted ⟨value, rfl⟩
          rw [← isFiber] at unsavedBefore
          have unsavedAfter := noneSaved_of_answer
            caller (.initialization initialization) unsavedBefore
            (fun _ impossible => by cases impossible)
            (fun impossible => by cases impossible)
          rw [ended] at unsavedAfter
          exact unsavedAfter
        · apply unsaved
          rw [recordAnswer, Function.update_of_ne isFiber] at isInitialized
          exact isInitialized
      | run run =>
        by_cases isFiber : fiber = run.fiber
        · rw [recordAnswer, isFiber, Function.update_self] at isInitialized
          exact absurd rfl isInitialized
        · apply unsaved
          rw [recordAnswer, Function.update_of_ne isFiber] at isInitialized
          exact isInitialized
      | finalize other => exact unsaved isInitialized
      | returnToThread => exact unsaved isInitialized
      | startContextSizeCheck argument => exact unsaved isInitialized
      | stopContextSizeCheck => exact unsaved isInitialized

theorem outcome_fiberRunCore_of_answer {caller : Caller} {run : Run}
    {start : FiberState} {target : GuestCpuContinuation}
    (isTarget : ((answer caller (.run run)).outcome start).1 = .ok (some target)) :
    ∃ after, (fiberRunCore caller run).outcome start = (.ok target, after) := by
  unfold answer at isTarget
  rw [outcome_bind] at isTarget
  rcases ended : (fiberRunCore caller run).outcome start with
    ⟨error | value, after⟩
  · rw [ended] at isTarget
    cases isTarget
  · rw [ended] at isTarget
    cases isTarget
    exact ⟨after, rfl⟩

theorem startsFresh_of_permitted (fresh : recorded.Fresh) (permitted : Permitted recorded action) :
    StartsFresh recorded action := by
  cases action with
  | guest memory => trivial
  | host hostThread other => trivial
  | call caller name =>
    intro run initialization target isRun isInitialized isTarget
    unfold Permitted at permitted
    dsimp only at permitted
    unfold outcomeOf at isTarget
    rw [isRun] at permitted isTarget
    dsimp only at permitted
    obtain ⟨gives, apart⟩ := permitted.2 initialization isInitialized
    have unsaved : NoneSaved run.fiber recorded.state :=
      fresh run.fiber (by rw [isInitialized]; exact Option.some_ne_none _)
    obtain ⟨after, ended⟩ := outcome_fiberRunCore_of_answer isTarget
    obtain ⟨words, held⟩ :=
      (ensures_fiberRunCore_reads recorded.state rfl).1 target after ended
    obtain ⟨noContext, frame, isFrame, starts⟩ :=
      (ensures_fiberRunCore_starts unsaved held apart recorded.state rfl).1 target after ended
    have isGiven := gives words held
    constructor
    · rw [starts.rip, words.attached_entry, isGiven.entry]
    · rw [starts.rdi, words.attached_argOnInitialize, isGiven.argOnInitialize]
    · exact starts.rsi
    · intro hasContext
      have sameAddress := isGiven.contextAddress hasContext
      have notAttached : ¬run.Attaches := by
        intro attaches
        rw [noContext attaches] at sameAddress
        exact hasContext sameAddress.symm
      have onStack := starts.onStack.1
      rw [StartWords.attached, if_neg notAttached, sameAddress,
        isGiven.contextSize hasContext] at onStack
      exact onStack hasContext
    · exact fun _ => ⟨words, frame, held, isFrame, starts.onStack⟩

/-- In every run whose steps are all permitted, every run of a fiber that was
initialised and not run since starts it as it was initialised. -/
theorem initialized_fibers_start_fresh {recorded : Recorded}
    {actions : List Action} (initial : recorded.Initial)
    (permitted : StepsMeet step Permitted recorded actions) :
    StepsMeet step StartsFresh recorded actions := by
  have fresh : recorded.Fresh := fun fiber _ => initial.1 fiber
  exact permitted.imp_of_invariant (fun _ _ fresh isPermitted => fresh_step fresh isPermitted)
    (fun _ _ fresh isPermitted => startsFresh_of_permitted fresh isPermitted)
    fresh

/-! ## A fiber that is initialised twice -/

/-- Open memory of zeros, and no fibers. -/
def emptyStart : Recorded where
  state :=
    { memory := ⟨fun _ => some 0, fun _ => true⟩
      continuations := fun _ => none
      stackRanges := fun _ => none
      threadStates := fun _ => none
      contextSizeCheck := false
      currentFibers := fun _ => 0 }
  initialized := fun _ => none

theorem emptyStart_initial : emptyStart.Initial :=
  ⟨fun _ => rfl, fun _ => rfl⟩

def callerAt (returnRip rdi rsi rdx rcx r8 r9 : UInt64) : Caller where
  ctx := ⟨rcx, rdx, 0, 0, 0x8000, rsi, rdi, r8, r9, 0, 0, 0, 0, 0, 0, 0, 0, 0, 0, 0⟩
  hostThread := 0
  guestThreadHandle := 1
  supportsGuestContextTransfer := true
  importCallFrame := some ⟨returnRip, 0x9000, 0x8FF8⟩
  stackOrder := []

/-- The fiber at 0x1000 with an entry point, its name at 0x3000 and its stack of
512 bytes at 0x2000. -/
def initializeAt (entry : UInt64) : Action :=
  .call (callerAt 0x5000 0x1000 0x3000 entry 7 0x2000 0x200) .fiberInitialize

def runFiber : Action := .call (callerAt 0x5000 0x1000 0 0 0 0 0) .fiberRun

def returnFiber : Action :=
  .call (callerAt 0x4444 0 0 0 0 0 0) .fiberReturnToThread

def transferRip (recorded : Recorded) : Action → Option UInt64
  | .call caller name =>
      match (outcomeOf recorded.state caller name).1 with
      | .ok (some target) => some target.rip
      | _ => none
  | _ => none

def initializationAt (entry : UInt64) : Initialization :=
  ⟨0x1000, 0x3000, entry, 7, 0x2000, 0x200, 0, 0, 0⟩

theorem exists_target_of_transferRip {caller : Caller} {name : Export} {rip : UInt64}
    (isRip : transferRip recorded (.call caller name) = some rip) :
    ∃ target, (outcomeOf recorded.state caller name).1 = .ok (some target) ∧ target.rip = rip := by
  unfold transferRip at isRip
  dsimp only at isRip
  split at isRip
  · next target isTarget =>
    cases isRip
    exact ⟨target, isTarget, rfl⟩
  · cases isRip

theorem held_after_initializeAt : StartWords.Held ⟨0x4000, 7, 0x2000, 0x200⟩ 0x1000
      (step emptyStart (initializeAt 0x4000)).state := by
  unfold StartWords.Held HasWord
  decide +kernel

theorem permitted_runFiber : Permitted (step emptyStart (initializeAt 0x4000)) runFiber := by
  have isInitialized : (step emptyStart (initializeAt 0x4000)).initialized 0x1000 =
        some (initializationAt 0x4000) := by
    decide +kernel
  have noPrevious : (step emptyStart (initializeAt 0x4000)).initialized
      (previousFiberOf (callerAt 0x5000 0x1000 0 0 0 0 0)
        (plainRun (callerAt 0x5000 0x1000 0 0 0 0 0).ctx false)
        (step emptyStart (initializeAt 0x4000)).state) = none := by
    decide +kernel
  refine ⟨noPrevious, ?_⟩
  intro initialization isOther
  cases isInitialized.symm.trans isOther
  refine ⟨?_, fun attaches => absurd attaches (by decide)⟩
  rintro words ⟨entry, argument, address, size⟩
  obtain ⟨heldEntry, heldArgument, heldAddress, heldSize⟩ :=
    held_after_initializeAt
  exact
    { entry := Option.some.inj (entry.symm.trans heldEntry)
      argOnInitialize := Option.some.inj (argument.symm.trans heldArgument)
      contextAddress := fun _ =>
        Option.some.inj (address.symm.trans heldAddress)
      contextSize := fun _ => Option.some.inj (size.symm.trans heldSize) }

/-- The first run of a fiber starts it as it was initialised. -/
theorem initialized_fiber_starts_fresh_once :
    StepsMeet step StartsFresh emptyStart [initializeAt 0x4000, runFiber] :=
  initialized_fibers_start_fresh emptyStart_initial ⟨fun _ => rfl, permitted_runFiber, trivial⟩

/-- A fiber that has returned to its thread and is initialised again goes on
where it had returned from. -/
theorem reinitialized_fiber_resumes_earlier : emptyStart.Initial ∧
      ¬ StepsMeet step StartsFresh emptyStart
        [initializeAt 0x4000, runFiber, returnFiber, initializeAt 0x6000, runFiber] := by
  refine ⟨emptyStart_initial, ?_⟩
  rintro ⟨-, -, -, -, startsFresh, -⟩
  obtain ⟨target, isTarget, isRip⟩ := exists_target_of_transferRip (show transferRip
      (step (step (step (step emptyStart (initializeAt 0x4000)) runFiber)
        returnFiber) (initializeAt 0x6000)) runFiber = some 0x4444 by
      decide +kernel)
  have starts := startsFresh _ (initializationAt 0x6000) target rfl (by decide +kernel) isTarget
  rw [starts.rip] at isRip
  revert isRip
  decide

end Fiber

end SharpEmu
