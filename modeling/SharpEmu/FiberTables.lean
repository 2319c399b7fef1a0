import SharpEmu.FiberTransfers

/-!
# What the fiber exports do to the tables

The writes of an export change memory only, and only where they say.  The tables
change at few places: a continuation is saved for the fiber that a thread is in,
and removed for the one it goes on with.
-/

namespace SharpEmu

namespace Fiber

open Addressed Faulting

/-! ## Rules for the parts of the exports -/

section Rules

variable {pre onFault : FiberState → Prop} {Value : Type}

variable {error : UInt32}

theorem ensures_refuse {condition : Prop} [Decidable condition] {post : Unit → FiberState → Prop}
    (fails : ∀ state, pre state → condition → onFault state)
    (passes : ∀ state, pre state → ¬condition → post () state) :
    Ensures pre (refuse condition error) post onFault := by
  unfold refuse
  split
  · next holds => exact ensures_throw fun state isPre => fails state isPre holds
  · next fails => exact ensures_pure fun state isPre => passes state isPre fails

variable {result : Option Value} {post : Value → FiberState → Prop}

theorem ensures_orRefuse (fails : ∀ state, pre state → result = none → onFault state)
    (passes : ∀ state value, pre state → result = some value → post value state) :
    Ensures pre (orRefuse result error) post onFault := by
  cases result with
  | none => exact ensures_throw fun state isPre => fails state isPre rfl
  | some value =>
    exact ensures_pure fun state isPre => passes state value isPre rfl

variable {next : Unit → Program Value}

theorem ensures_refuse_bind {condition : Prop} [Decidable condition]
    (fails : ∀ state, pre state → condition → onFault state)
    (rest : ¬condition → Ensures pre (next ()) post onFault) :
    Ensures pre (refuse condition error >>= next) post onFault := by
  unfold refuse
  split
  · next holds =>
    intro state isPre
    constructor
    · rintro _ _ ⟨⟩
    · rintro _ _ ⟨⟩
      exact fails state isPre holds
  · next not => exact rest not

theorem ensures_orRefuse_bind {Result : Type} {next : Value → Program Result}
    {post : Result → FiberState → Prop}
    (fails : ∀ state, pre state → result = none → onFault state)
    (rest : ∀ value, result = some value → Ensures pre (next value) post onFault) :
    Ensures pre (orRefuse result error >>= next) post onFault := by
  cases result with
  | none =>
    intro state isPre
    constructor
    · rintro _ _ ⟨⟩
    · rintro _ _ ⟨⟩
      exact fails state isPre rfl
  | some value => exact rest value rfl

theorem outcome_write (address : UInt64) (data : List UInt8) (error : UInt32) (state : FiberState) :
    outcome (write address data error) state =
      match state.memory.tryWrite address data with
      | some memory => (.ok (), { state with memory })
      | none => (.error error, state) := by
  unfold write
  rw [outcome_bind, outcome_get]
  dsimp only
  rw [outcome_bind]
  cases state.memory.tryWrite address data with
  | none => rfl
  | some memory => rfl

variable {address : UInt64} {data : List UInt8}

theorem ensures_write {post : Unit → FiberState → Prop}
    (fails : ∀ state, pre state → state.memory.tryWrite address data = none → onFault state)
    (writes : ∀ state memory, pre state → state.memory.tryWrite address data = some memory →
        post () { state with memory }) :
    Ensures pre (write address data error) post onFault := by
  intro state isPre
  rw [outcome_write]
  cases written : state.memory.tryWrite address data with
  | none =>
    constructor
    · rintro _ _ ⟨⟩
    · rintro _ _ ⟨⟩
      exact fails state isPre written
  | some memory =>
    constructor
    · rintro _ _ ⟨⟩
      exact writes state memory isPre written
    · rintro _ _ ⟨⟩

theorem ensures_write_bind {start : FiberState}
    (fails : start.memory.tryWrite address data = none → onFault start)
    (rest : ∀ memory, start.memory.tryWrite address data = some memory →
      Ensures (fun state => state = { start with memory }) (next ()) post onFault) :
    Ensures (fun state => state = start) (write address data error >>= next)
      post onFault := by
  rintro start rfl
  rw [outcome_bind, outcome_write]
  cases written : start.memory.tryWrite address data with
  | none =>
    constructor
    · rintro _ _ ⟨⟩
    · rintro _ _ ⟨⟩
      exact fails written
  | some memory => exact rest memory written _ rfl

end Rules

/-! ## Tables -/

structure SameTables (before after : FiberState) : Prop where
  continuations : after.continuations = before.continuations
  stackRanges : after.stackRanges = before.stackRanges
  threadStates : after.threadStates = before.threadStates
  currentFibers : after.currentFibers = before.currentFibers

theorem SameTables.refl (state : FiberState) : SameTables state state :=
  ⟨rfl, rfl, rfl, rfl⟩

variable {before after : FiberState}

theorem SameTables.withMemory (same : SameTables before after) (memory : GuardedMemory) :
    SameTables before { after with memory } :=
  ⟨same.continuations, same.stackRanges, same.threadStates, same.currentFibers⟩

theorem SameTables.withStackRange (same : SameTables before after) (fiber : UInt64)
    (range : Option FiberStackRange) :
    SameTables (before.withStackRange fiber range) (after.withStackRange fiber range) := by
  refine ⟨same.continuations, ?_, same.threadStates, same.currentFibers⟩
  unfold FiberState.withStackRange
  rw [same.stackRanges]

theorem resolve_of_sameTables (caller : Caller) (same : SameTables before after) :
    resolveCurrentFiberAddress caller after =
      resolveCurrentFiberAddress caller before := by
  unfold resolveCurrentFiberAddress tryFindFiberByStack tryFindFiberByStackAddress
  rw [same.stackRanges, same.threadStates, same.currentFibers]

/-! ## What holds of the tables alone -/

/-- The property says nothing about memory. -/
def OfTables (property : FiberState → Prop) : Prop :=
  ∀ state memory, property state → property { state with memory }

section Keeps

variable {property : FiberState → Prop} {Value : Type}

variable {error : UInt32}

theorem keeps_refuse {condition : Prop} [Decidable condition]
    : Keeps property (refuse condition error) :=
  ensures_refuse (fun _ holds _ => holds) fun _ holds _ => holds

theorem keeps_orRefuse {result : Option Value} : Keeps property (orRefuse result error) :=
  ensures_orRefuse (fun _ holds _ => holds) fun _ _ holds _ => holds

theorem keeps_get : Keeps property (get : Program FiberState) :=
  ensures_get fun _ holds => holds

theorem keeps_validateFiber {fiber : UInt64} : Keeps property (validateFiber fiber) :=
  keeps_refuse.bind fun _ => keeps_refuse.bind fun _ =>
    keeps_get.bind fun _ => keeps_refuse

variable (ofTables : OfTables property)

include ofTables

variable {address : UInt64}

theorem keeps_write {data : List UInt8} : Keeps property (write address data error) :=
  ensures_write (fun _ holds _ => holds) fun state memory holds _ =>
    ofTables state memory holds

theorem keeps_writeAll {ranges : Ranges} : Keeps property (writeAll error ranges) := by
  induction ranges with
  | nil => exact keeps_pure ()
  | cons range rest ih => exact (keeps_write ofTables).bind fun _ => ih

theorem keeps_writeResumeArgument {continuation : FiberContinuation} {argument : UInt64} :
    Keeps property (writeResumeArgument continuation argument error) :=
  Keeps.ite (fun _ => keeps_pure ()) fun _ => keeps_write ofTables

variable {fields : FiberFields} {argOnRun : UInt64}

theorem keeps_createInitialContinuation {ctx : CpuContext} {rootStackTop : UInt64} :
    Keeps property (createInitialContinuation ctx fields argOnRun rootStackTop) :=
  keeps_orRefuse.bind fun _ => keeps_orRefuse.bind fun _ =>
    (keeps_writeAll ofTables).bind fun _ => keeps_pure _

theorem keeps_prepareTarget {caller : Caller} {frame : GuestImportCallFrame} {fiber : UInt64} :
    Keeps property (prepareTarget caller frame fields fiber argOnRun) := by
  unfold prepareTarget
  apply keeps_get.bind
  intro state
  cases state.continuations fiber with
  | some saved =>
    exact (keeps_writeResumeArgument ofTables).bind fun _ => keeps_pure _
  | none =>
    exact (keeps_createInitialContinuation ofTables).bind fun _ =>
      keeps_pure _

theorem keeps_attachContext {fiber size : UInt64}
    (ofRanges : ∀ state range, property state → property (state.withStackRange fiber range)) :
    Keeps property (attachContext fiber address size fields) :=
  Keeps.bind (keeps_refuse.bind fun _ => keeps_refuse.bind fun _ => keeps_refuse)
    fun _ => (keeps_writeAll ofTables).bind fun _ =>
      keeps_modify fun state holds => ofRanges state _ holds

end Keeps

/-! ## Removed and saved continuations -/

def NoneSaved (fiber : UInt64) (state : FiberState) : Prop :=
  state.continuations fiber = none

section NoneSaved

variable {fiber : UInt64} {state : FiberState}

theorem noneSaved_ofTables : OfTables (NoneSaved fiber) :=
  fun _ _ unsaved => unsaved

theorem NoneSaved.withContinuation_none (unsaved : NoneSaved fiber state) (other : UInt64) :
    NoneSaved fiber (state.withContinuation other none) := by
  unfold NoneSaved FiberState.withContinuation
  dsimp only
  rw [Function.update_apply]
  split
  · rfl
  · exact unsaved

theorem NoneSaved.withContinuation_of_ne (unsaved : NoneSaved fiber state)
    {other : UInt64} (different : fiber ≠ other)
    (continuation : Option FiberContinuation) :
    NoneSaved fiber (state.withContinuation other continuation) := by
  unfold NoneSaved FiberState.withContinuation
  dsimp only
  rw [Function.update_of_ne different]
  exact unsaved

theorem NoneSaved.withCurrentFiber (unsaved : NoneSaved fiber state)
    (hostThread : ℕ) (other : UInt64) :
    NoneSaved fiber (state.withCurrentFiber hostThread other) :=
  unsaved

theorem NoneSaved.withThreadState (unsaved : NoneSaved fiber state)
    (threadKey : UInt64) (threadState : Option FiberThreadState) :
    NoneSaved fiber (state.withThreadState threadKey threadState) :=
  unsaved

theorem NoneSaved.withContextSizeCheck (unsaved : NoneSaved fiber state) (contextSizeCheck : Bool) :
    NoneSaved fiber { state with contextSizeCheck } :=
  unsaved

theorem keeps_fiberInitializeCore (initialization : Initialization) :
    Keeps (NoneSaved fiber) (fiberInitializeCore initialization) := by
  have ofTables : OfTables (NoneSaved fiber) := noneSaved_ofTables
  have checks : Keeps (NoneSaved fiber) (checkInitialization initialization) :=
    keeps_refuse.bind fun _ => keeps_refuse.bind fun _ =>
      keeps_refuse.bind fun _ => keeps_refuse.bind fun _ =>
        keeps_get.bind fun _ => keeps_refuse.bind fun _ =>
          keeps_orRefuse.bind fun _ => keeps_pure _
  have stack (flags : UInt32) : Keeps (NoneSaved fiber)
      (prepareStack initialization.contextAddress initialization.contextSize flags) :=
    Keeps.ite (fun _ => (keeps_write ofTables).bind fun _ =>
        Keeps.ite (fun _ => keeps_modify fun _ unsaved => unsaved)
          fun _ => keeps_pure _)
      fun _ => keeps_pure _
  exact checks.bind fun _ => (keeps_writeAll ofTables).bind fun _ =>
    (stack _).bind fun _ =>
      Keeps.ite (fun _ => keeps_modify fun _ unsaved => unsaved)
        fun _ => keeps_pure _

theorem keeps_fiberFinalize (other : UInt64) : Keeps (NoneSaved fiber) (fiberFinalize other) :=
  keeps_validateFiber.bind fun _ => keeps_get.bind fun _ =>
    keeps_orRefuse.bind fun _ => keeps_refuse.bind fun _ =>
      keeps_modify fun _ unsaved => unsaved.withContinuation_none other

theorem NoneSaved.undoLeave (unsaved : NoneSaved fiber state) (caller : Caller)
    (previousFiber : UInt64) :
    NoneSaved fiber (undoLeave caller previousFiber state) := by
  unfold Fiber.undoLeave
  split
  · exact unsaved.withContinuation_none previousFiber
  · exact unsaved

theorem NoneSaved.enterTables (unsaved : NoneSaved fiber state) (caller : Caller)
    (other previousFiber : UInt64) (resumed : Bool) :
    NoneSaved fiber (enterTables caller other previousFiber resumed state) := by
  have removed : NoneSaved fiber
      (if resumed then state.withContinuation other none else state) := by
    split
    · exact unsaved.withContinuation_none other
    · exact unsaved
  unfold Fiber.enterTables
  dsimp only
  split
  · exact removed
  · exact removed

theorem keeps_transfer (caller : Caller) (frame : GuestImportCallFrame)
    (run : Run) {previousFiber : UInt64} (different : fiber ≠ previousFiber) :
    Keeps (NoneSaved fiber) (transfer caller frame run previousFiber) := by
  have ofTables : OfTables (NoneSaved fiber) := noneSaved_ofTables
  have leaves (continuation : FiberContinuation) : Keeps (NoneSaved fiber)
      (leavePrevious caller run.fiber previousFiber continuation) := by
    unfold leavePrevious
    apply keeps_get.bind
    intro state
    apply Keeps.ite
    · intro _
      exact keeps_refuse.bind fun _ => (keeps_write ofTables).bind fun _ =>
        keeps_modify fun _ unsaved => unsaved.withContinuation_of_ne different _
    · intro _
      exact keeps_refuse.bind fun _ => keeps_modify fun _ unsaved => unsaved
  have marks : Keeps (NoneSaved fiber) (markRunning caller run.fiber previousFiber) :=
    (keeps_write ofTables).tryCatch fun error =>
      (keeps_modify fun _ unsaved => unsaved.undoLeave caller previousFiber).bind
        fun _ => keeps_throw error
  exact keeps_get.bind fun _ => keeps_orRefuse.bind fun _ =>
    keeps_refuse.bind fun _ => (keeps_prepareTarget ofTables).bind fun _ =>
      (leaves _).bind fun _ => marks.bind fun _ =>
        (keeps_modify fun _ unsaved => unsaved.enterTables caller _ _ _).bind
          fun _ => keeps_pure _

end NoneSaved

end Fiber

end SharpEmu
