import SharpEmu.PthreadObjects

/-!
# Destroyed pthread objects

A call that destroys an object removes the key under which it finds the state of the
object.  The handle and the address of an object are both keys, and so is the
address of each copy of the handle that was used; what remains of them still leads to
the destroyed state.
-/

namespace SharpEmu.PthreadObjects

open Addressed (GuardedMemory)
open AliasTable Objects

inductive Kind
  | mutex
  | cond
  | rwlock
deriving DecidableEq, Repr

abbrev Kind.State : Kind → Type
  | .mutex => PthreadMutexState
  | .cond => PthreadCondState
  | .rwlock => PthreadRwlockState

def init : (kind : Kind) → Objects kind.State → UInt64 → Int32 → Int32 → Allocation →
    Result × Objects kind.State
  | .mutex => pthreadMutexInitCore
  | .cond => fun objects address _ _ => pthreadCondInitCore objects address
  | .rwlock => fun objects address _ _ _ => pthreadRwlockInit objects address

def tryResolve : (kind : Kind) → Objects kind.State → UInt64 → Bool → Allocation →
    Resolution kind.State
  | .mutex => tryResolveMutexState
  | .cond => tryResolveCondState
  | .rwlock => fun objects address createIfZero _ =>
      tryResolveRwlockState objects address createIfZero

def destroy : (kind : Kind) → Objects kind.State → UInt64 → Result × Objects kind.State
  | .mutex => pthreadMutexDestroyCore
  | .cond => pthreadCondDestroyCore
  | .rwlock => pthreadRwlockDestroy

/-- What happens to the objects of one kind.  A use of an object may do anything to
its state, and so may a thread that found the state earlier; between the calls the
guest, or another kind's call, may do anything to memory. -/
inductive Operation (State : Type)
  | init (address : UInt64) (type protocol : Int32) (allocation : Allocation)
  | use (address : UInt64) (createIfZero : Bool) (allocation : Allocation)
      (change : State → State)
  | destroy (address : UInt64)
  | proceed (object : ℕ) (change : State → State)
  | guest (memory : GuardedMemory)

def perform (kind : Kind) (objects : Objects kind.State) : Operation kind.State → Objects kind.State
  | .init address type protocol allocation =>
      (init kind objects address type protocol allocation).2
  | .use address createIfZero allocation change =>
      let resolution := tryResolve kind objects address createIfZero allocation
      match resolution.object with
      | none => resolution.objects
      | some object =>
          { resolution.objects with states := resolution.objects.states.modify object change }
  | .destroy address => (destroy kind objects address).2
  | .proceed object change =>
      { objects with states := objects.states.modify object change }
  | .guest memory => { objects with memory }

def run (kind : Kind) (objects : Objects kind.State)
    (operations : List (Operation kind.State)) : Objects kind.State :=
  operations.foldl (perform kind) objects

def Objects.initial {State : Type} (memory : GuardedMemory) : Objects State :=
  ⟨memory, .empty, 1⟩

def ResolvesTo (kind : Kind) (objects : Objects kind.State) (word : UInt64) (object : ℕ) : Prop :=
  ∃ createIfZero allocation,
    (tryResolve kind objects word createIfZero allocation).object = some object

def keysOf {State : Type} (objects : Objects State) (object : ℕ) : Set UInt64 :=
  { key | key ≠ 0 ∧ objects.states.keys key = some object }

/-! ## What the calls do to the dictionary -/

section Calls

variable {State : Type} {objects : Objects State}

variable {after : Objects State}

theorem states_tryAllocateOpaqueObject {allocation : Allocation} {size : ℕ} {handle : UInt64}
    (allocated : objects.tryAllocateOpaqueObject allocation size = some (handle, after)) :
    after.states = objects.states ∧ handle ≠ 0 := by
  obtain ⟨address, -, written⟩ := Option.bind_eq_some_iff.mp allocated
  obtain ⟨memory, -, isPair⟩ := Option.map_eq_some_iff.mp written
  cases isPair
  exact ⟨rfl, address.2⟩

/-- Nothing that was retired comes back. -/
abbrev Keeps (before after : Objects State) : Prop :=
  KeepsRetired (· ≠ 0) before.states after.states

theorem keeps_registerState (objects : Objects State) (address handle : UInt64)
    (state : State) : Keeps objects (objects.registerState address handle state).2 := by
  have created : KeepsRetired (· ≠ 0) objects.states _ :=
    keepsRetired_create objects.states address handle state
  unfold Objects.registerState
  split
  · exact created
  · exact created.trans <| (keepsRetired_erase _ _).trans (keepsRetired_erase _ _)

theorem keeps_destroyCore (isBusy : State → Bool) (objects : Objects State)
    (address : UInt64) : Keeps objects (objects.destroyCore isBusy address).2 := by
  unfold Objects.destroyCore
  split
  · exact .refl _
  · dsimp only
    split
    · exact .refl _
    · split
      · exact .refl _
      · change KeepsRetired _ objects.states (ite _ _ _)
        split
        · exact (keepsRetired_erase _ _).trans (keepsRetired_erase _ _)
        · exact keepsRetired_erase _ _

/-- A retired object is not found, and stays retired. -/
structure Avoids (objects : Objects State) (resolution : Resolution State) : Prop where
  keeps : Keeps objects resolution.objects
  avoids : ∀ object, objects.states.Retired (· ≠ 0) object →
    resolution.object ≠ some object

theorem avoids_nothing (resolvedAddress : UInt64) :
    Avoids objects ⟨objects, resolvedAddress, none⟩ :=
  ⟨.refl _, fun _ _ => nofun⟩

theorem avoids_tryResolveState {create : State → Resolution State}
    (staticState : UInt64 → Option State) (implicitState : State) (createIfZero : Bool)
    {address : UInt64} (creates : address ≠ 0 → ∀ state, Avoids objects (create state)) :
    Avoids objects
      (tryResolveState create staticState implicitState createIfZero objects address) := by
  unfold tryResolveState
  split
  · exact avoids_nothing _
  · next nonzero =>
    have avoidsKey {key : UInt64} {object : ℕ} (keyNonzero : key ≠ 0)
        (refers : objects.states.keys key = some object) (other : ℕ)
        (retired : objects.states.Retired (· ≠ 0) other) :
        some object ≠ some other := fun same =>
      retired.2 key keyNonzero (refers.trans same)
    split
    · next object refers => exact ⟨.refl _, avoidsKey nonzero refers⟩
    · split
      · exact avoids_nothing _
      · split
        · exact creates nonzero _
        · split
          · next pointedNonzero =>
            split
            · next object refers =>
              exact ⟨keepsRetired_link _ _ pointedNonzero, avoidsKey pointedNonzero refers⟩
            · exact avoids_nothing _
          · split
            · exact creates nonzero _
            · exact avoids_nothing _

theorem avoids_created {resolvedAddress : UInt64} (keeps : Keeps objects after) :
    Avoids objects ⟨after, resolvedAddress, some objects.states.objects.length⟩ :=
  ⟨keeps, fun _ retired same => retired.1.ne' (Option.some.inj same)⟩

theorem avoids_resolveNew {before : Objects State} (sameStates : before.states = objects.states)
    (address handle : UInt64) (state : State) :
    Avoids objects (before.resolveNew address handle state) := by
  have keeps := keeps_registerState before address handle state
  unfold Keeps at keeps
  rw [sameStates] at keeps
  unfold resolveNew
  dsimp only
  split
  · rw [sameStates]
    exact avoids_created keeps
  · exact ⟨keeps, fun _ _ => nofun⟩

end Calls

theorem states_initializeMutexObject (objects : Objects PthreadMutexState)
    (address : UInt64) (state : PthreadMutexState) :
    (initializeMutexObject objects address state).2.states = objects.states := by
  unfold initializeMutexObject
  split
  · rfl
  · split
    · rfl
    · rfl

theorem keeps_pthreadMutexInitCore (objects : Objects PthreadMutexState)
    (mutexAddress : UInt64) (type protocol : Int32) (allocation : Allocation) :
    Keeps objects (pthreadMutexInitCore objects mutexAddress type protocol allocation).2 := by
  unfold pthreadMutexInitCore
  split
  · exact .refl _
  · dsimp only
    split
    · exact .refl _
    · next handle allocated isAllocated =>
      obtain ⟨sameStates, -⟩ := states_tryAllocateOpaqueObject isAllocated
      have initialized := states_initializeMutexObject allocated handle (.ofType type protocol)
      split
      · next failed isFailed =>
        rw [isFailed, sameStates] at initialized
        unfold Keeps
        rw [initialized]
        exact .refl _
      · next written isWritten =>
        rw [isWritten, sameStates] at initialized
        have keeps := keeps_registerState written mutexAddress handle (.ofType type protocol)
        unfold Keeps at keeps ⊢
        dsimp only at initialized
        rw [initialized] at keeps
        exact keeps

theorem keeps_pthreadCondInitCore (objects : Objects PthreadCondState)
    (condAddress : UInt64) (allocation : Allocation) :
    Keeps objects (pthreadCondInitCore objects condAddress allocation).2 := by
  unfold pthreadCondInitCore
  split
  · exact .refl _
  · split
    · exact .refl _
    · next handle allocated isAllocated =>
      obtain ⟨sameStates, -⟩ := states_tryAllocateOpaqueObject isAllocated
      have keeps := keeps_registerState allocated condAddress handle .new
      unfold Keeps at keeps ⊢
      rw [sameStates] at keeps
      exact keeps

theorem keeps_pthreadRwlockInit (objects : Objects PthreadRwlockState)
    (rwlockAddress : UInt64) : Keeps objects (pthreadRwlockInit objects rwlockAddress).2 := by
  unfold pthreadRwlockInit
  split
  · exact .refl _
  · exact (keepsRetired_erase _ _).trans (keepsRetired_create _ _ _ _)

theorem avoids_createImplicitMutexState (objects : Objects PthreadMutexState)
    {mutexAddress : UInt64} (nonzero : mutexAddress ≠ 0) (allocation : Allocation)
    (state : PthreadMutexState) :
    Avoids objects (createImplicitMutexState objects mutexAddress allocation state) := by
  unfold createImplicitMutexState
  split
  · exact avoids_nothing _
  · next handle allocated isAllocated =>
    obtain ⟨sameStates, handleNonzero⟩ := states_tryAllocateOpaqueObject isAllocated
    have initialized := states_initializeMutexObject allocated handle state
    split
    · next failed isFailed =>
      rw [isFailed, sameStates] at initialized
      dsimp only at initialized
      constructor
      · unfold Keeps
        rw [initialized]
        exact .refl _
      · exact fun _ _ => nofun
    · next written isWritten =>
      rw [isWritten, sameStates] at initialized
      dsimp only at initialized
      have keeps : Keeps objects written := by
        unfold Keeps
        rw [initialized]
        exact .refl _
      split
      · next object refers =>
        refine ⟨keeps, fun other retired same => ?_⟩
        exact retired.2 _ nonzero (initialized ▸ refers.trans same)
      · next object _ refers =>
        refine ⟨keeps, fun other retired same => ?_⟩
        exact retired.2 _ handleNonzero (initialized ▸ refers.trans same)
      · exact avoids_resolveNew initialized mutexAddress handle state

theorem avoids_createImplicitCondState (objects : Objects PthreadCondState)
    (condAddress : UInt64) (allocation : Allocation) (state : PthreadCondState) :
    Avoids objects (createImplicitCondState objects condAddress allocation state) := by
  unfold createImplicitCondState
  split
  · exact avoids_nothing _
  · next handle allocated isAllocated =>
    exact avoids_resolveNew (states_tryAllocateOpaqueObject isAllocated).1 condAddress handle state

theorem avoids_createImplicitRwlockState (objects : Objects PthreadRwlockState)
    (rwlockAddress : UInt64) (state : PthreadRwlockState) :
    Avoids objects (createImplicitRwlockState objects rwlockAddress state) :=
  avoids_created (keepsRetired_create _ _ _ _)

/-! ## Every operation -/

variable {kind : Kind}

theorem avoids_tryResolve (objects : Objects kind.State) (word : UInt64)
    (createIfZero : Bool) (allocation : Allocation) :
    Avoids objects (tryResolve kind objects word createIfZero allocation) := by
  cases kind with
  | mutex =>
    unfold tryResolve tryResolveMutexState
    exact avoids_tryResolveState _ _ _ fun nonzero state =>
      avoids_createImplicitMutexState objects nonzero allocation state
  | cond =>
    unfold tryResolve tryResolveCondState
    exact avoids_tryResolveState _ _ _ fun _ state =>
      avoids_createImplicitCondState objects word allocation state
  | rwlock =>
    unfold tryResolve tryResolveRwlockState
    exact avoids_tryResolveState _ _ _ fun _ state =>
      avoids_createImplicitRwlockState objects word state

theorem keeps_init (objects : Objects kind.State) (address : UInt64)
    (type protocol : Int32) (allocation : Allocation) :
    Keeps objects (init kind objects address type protocol allocation).2 := by
  cases kind with
  | mutex => exact keeps_pthreadMutexInitCore objects address type protocol allocation
  | cond => exact keeps_pthreadCondInitCore objects address allocation
  | rwlock => exact keeps_pthreadRwlockInit objects address

theorem keeps_destroy (objects : Objects kind.State) (address : UInt64) :
    Keeps objects (destroy kind objects address).2 := by
  cases kind with
  | mutex => exact keeps_destroyCore _ objects address
  | cond => exact keeps_destroyCore _ objects address
  | rwlock => exact keeps_destroyCore _ objects address

theorem keeps_perform (objects : Objects kind.State) (operation : Operation kind.State) :
    Keeps objects (perform kind objects operation) := by
  cases operation with
  | init address type protocol allocation =>
    exact keeps_init objects address type protocol allocation
  | use address createIfZero allocation change =>
    have avoids := avoids_tryResolve objects address createIfZero allocation
    unfold perform
    dsimp only
    split
    · exact avoids.keeps
    · exact avoids.keeps.trans (keepsRetired_modify _ _ _)
  | destroy address => exact keeps_destroy objects address
  | proceed object change => exact keepsRetired_modify _ _ _
  | guest memory => exact .refl _

theorem keeps_run (objects : Objects kind.State) (operations : List (Operation kind.State)) :
    Keeps objects (run kind objects operations) := by
  induction operations generalizing objects with
  | nil => exact .refl _
  | cons operation rest ih => exact (keeps_perform objects operation).trans (ih _)

/-! ## Destroyed objects -/

variable {address : UInt64}

theorem resolveHandle_cases {State : Type} (objects : Objects State) (nonzero : address ≠ 0) :
    objects.resolveHandle address ≠ 0 ∧
      (objects.resolveHandle address ≠ address → objects.states.keys address = none) := by
  unfold resolveHandle
  rw [if_neg nonzero]
  split
  · exact ⟨nonzero, fun different => absurd rfl different⟩
  · next absent =>
    have isAbsent : objects.states.keys address = none := by simpa using absent
    refine ⟨?_, fun _ => isAbsent⟩
    split
    · exact nonzero
    · split
      · next isKey => exact isKey.1
      · exact nonzero

theorem destroyCore_ok {State : Type} {isBusy : State → Bool} {objects after : Objects State}
    (isDestroyed : objects.destroyCore isBusy address = (.ok, after)) :
    address ≠ 0 ∧ after.states = objects.states.erase (objects.resolveHandle address) := by
  unfold destroyCore at isDestroyed
  split at isDestroyed
  · cases isDestroyed
  · next nonzero =>
    refine ⟨nonzero, ?_⟩
    dsimp only at isDestroyed
    split at isDestroyed
    · cases isDestroyed
    · split at isDestroyed
      · cases isDestroyed
      · cases isDestroyed
        change ite _ _ _ = _
        split
        · next different =>
          apply erase_of_absent
          rw [keys_erase, (resolveHandle_cases objects nonzero).2 different, ite_self]
        · rfl

variable {after : Objects kind.State}

theorem destroy_ok {objects : Objects kind.State}
    (isDestroyed : destroy kind objects address = (.ok, after)) :
    address ≠ 0 ∧ after.states = objects.states.erase (objects.resolveHandle address) := by
  cases kind with
  | mutex => exact destroyCore_ok isDestroyed
  | cond => exact destroyCore_ok isDestroyed
  | rwlock => exact destroyCore_ok isDestroyed

variable {key : UInt64} {object : ℕ}

theorem tryResolveState_of_key {State : Type} (create : State → Resolution State)
    (staticState : UInt64 → Option State) (implicitState : State) (createIfZero : Bool)
    {objects : Objects State}
    (isKey : key ∈ keysOf objects object) :
    (tryResolveState create staticState implicitState createIfZero objects key).object =
      some object := by
  obtain ⟨nonzero, refers⟩ := isKey
  unfold tryResolveState
  rw [if_neg nonzero, refers]

theorem resolvesTo_of_key {objects : Objects kind.State}
    (isKey : key ∈ keysOf objects object) : ResolvesTo kind objects key object := by
  refine ⟨false, none, ?_⟩
  cases kind with
  | mutex => exact tryResolveState_of_key _ _ _ _ isKey
  | cond => exact tryResolveState_of_key _ _ _ _ isKey
  | rwlock => exact tryResolveState_of_key _ _ _ _ isKey

theorem other_key_survives {objects : Objects kind.State} {other : UInt64}
    (isDestroyed : destroy kind objects address = (.ok, after))
    (isKey : other ∈ keysOf objects object)
    (different : other ≠ objects.resolveHandle address) : other ∈ keysOf after object := by
  refine ⟨isKey.1, ?_⟩
  rw [(destroy_ok isDestroyed).2, keys_erase, if_neg different]
  exact isKey.2

theorem not_resolvesTo_of_retired {objects : Objects kind.State}
    (retired : objects.states.Retired (· ≠ 0) object) (word : UInt64) :
    ¬ ResolvesTo kind objects word object := by
  rintro ⟨createIfZero, allocation, found⟩
  exact (avoids_tryResolve objects word createIfZero allocation).avoids object retired found

/-- After any history, what led to a destroyed object never leads to it again exactly
when the object had a single key. -/
theorem destroyed_state_unreachable_iff (kind : Kind) (memory : GuardedMemory)
    (history : List (Operation kind.State)) {address : UInt64} {object : ℕ}
    {destroyed : Objects kind.State}
    (isDestroyed : destroy kind (run kind (.initial memory) history) address = (.ok, destroyed))
    (isObject : (run kind (.initial memory) history).states.keys
      ((run kind (.initial memory) history).resolveHandle address) = some object) :
    (∀ word, ResolvesTo kind (run kind (.initial memory) history) word object →
        ∀ later, ¬ ResolvesTo kind (run kind destroyed later) word object) ↔
      (keysOf (run kind (.initial memory) history) object).Subsingleton := by
  generalize run kind (.initial memory) history = before at *
  obtain ⟨nonzero, isErased⟩ := destroy_ok isDestroyed
  have found : before.resolveHandle address ∈ keysOf before object :=
    ⟨(resolveHandle_cases before nonzero).1, isObject⟩
  constructor
  · intro unreachable
    have onlyKey : ∀ other ∈ keysOf before object, other = before.resolveHandle address := by
      intro other isKey
      by_contra different
      exact unreachable other (resolvesTo_of_key isKey) []
        (resolvesTo_of_key (other_key_survives isDestroyed isKey different))
    intro first firstKey second secondKey
    exact (onlyKey first firstKey).trans (onlyKey second secondKey).symm
  · intro single word _ later
    have retired : destroyed.states.Retired (· ≠ 0) object := by
      rw [isErased, retired_erase_iff isObject]
      exact fun other isUsable refers => single ⟨isUsable, refers⟩ found
    exact not_resolvesTo_of_retired (keeps_run destroyed later object retired) word

/-- The memory of a program is all zeros; it initializes a mutex at 0x1000, for which
the emulator allocates 0x2000. -/
def mutexHistory : List (Operation Kind.mutex.State) :=
  [.init 0x1000 mutexTypeErrorCheck 0 (some ⟨0x2000, by decide⟩)]

def zeroMemory : GuardedMemory := ⟨fun _ => some 0, fun _ => true⟩

theorem destroy_eq_ok {objects : Objects kind.State}
    (isOk : (destroy kind objects address).1 = .ok) :
    destroy kind objects address = (.ok, (destroy kind objects address).2) := by
  rw [← isOk]

/-- It then destroys the mutex. -/
theorem destroyed_state_unreachable_iff_oneMutex :
    (∀ word, ResolvesTo .mutex (run .mutex (.initial zeroMemory) mutexHistory) word 0 →
        ∀ later, ¬ ResolvesTo .mutex
          (run .mutex (destroy .mutex (run .mutex (.initial zeroMemory) mutexHistory) 0x1000).2
            later) word 0) ↔
      (keysOf (run .mutex (.initial zeroMemory) mutexHistory) 0).Subsingleton :=
  destroyed_state_unreachable_iff .mutex zeroMemory mutexHistory
    (destroy_eq_ok (by decide +kernel)) (by decide +kernel)

/-- The handle of a destroyed mutex still leads to its state. -/
theorem destroyed_mutex_found_by_handle :
    ¬ ∀ (kind : Kind) (memory : GuardedMemory) (history : List (Operation kind.State))
        (address : UInt64) (object : ℕ) (destroyed : Objects kind.State),
      destroy kind (run kind (.initial memory) history) address = (.ok, destroyed) →
      (run kind (.initial memory) history).states.keys
        ((run kind (.initial memory) history).resolveHandle address) = some object →
      ∀ word, ResolvesTo kind (run kind (.initial memory) history) word object →
        ∀ later, ¬ ResolvesTo kind (run kind destroyed later) word object := by
  intro claim
  apply claim .mutex zeroMemory mutexHistory 0x1000 0 _ (destroy_eq_ok (by decide +kernel))
    (by decide +kernel) 0x2000 _ []
  · exact resolvesTo_of_key ⟨by decide, by decide +kernel⟩
  · exact resolvesTo_of_key ⟨by decide, by decide +kernel⟩

end SharpEmu.PthreadObjects
