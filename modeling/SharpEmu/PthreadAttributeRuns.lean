import SharpEmu.PthreadAttributes
import SharpEmu.TransitionRuns

/-!
# Attributes under several words

An attribute is known by its handle.  The aliases of an attribute are the handle and
the words that contain it: the one that was initialized, and copies.  Beside the
records of the emulator stands what was last set for each attribute, through any
alias.
-/

namespace SharpEmu.PthreadAttributes

open Addressed (GuardedMemory)
open Attributes

/-! ## Calls -/

inductive Setter
  | affinity (mask : UInt64)
  | detachstate (detachState : Int32)
  | guardsize (guardSize : UInt64)
  | inheritsched (inheritSched : Int32)
  | schedparam (schedParamAddress : UInt64)
  | schedpolicy (policy : Int32)
  | stacksize (stackSize : UInt64)
  | stack (stackAddress stackSize : UInt64)

inductive Getter
  | affinity
  | detachstate
  | guardsize
  | stackaddr
  | stack
  | stacksize
  | schedparam

def set (attributes : Attributes) (word : UInt64) : Setter → Result × Attributes
  | .affinity mask => attributes.pthreadAttrSetaffinity word mask
  | .detachstate detachState => attributes.pthreadAttrSetdetachstate word detachState
  | .guardsize guardSize => attributes.pthreadAttrSetguardsize word guardSize
  | .inheritsched inheritSched => attributes.pthreadAttrSetinheritsched word inheritSched
  | .schedparam schedParamAddress =>
      attributes.pthreadAttrSetschedparam word schedParamAddress
  | .schedpolicy policy => attributes.pthreadAttrSetschedpolicy word policy
  | .stacksize stackSize => attributes.pthreadAttrSetstacksize word stackSize
  | .stack stackAddress stackSize => attributes.pthreadAttrSetstack word stackAddress stackSize

/-- A getter's call; only the getter of the stack has a second address to write to. -/
def get (attributes : Attributes) (word outAddress outSizeAddress : UInt64) : Getter → Reply
  | .affinity => attributes.pthreadAttrGetaffinity word outAddress
  | .detachstate => attributes.pthreadAttrGetdetachstate word outAddress
  | .guardsize => attributes.pthreadAttrGetguardsize word outAddress
  | .stackaddr => attributes.pthreadAttrGetstackaddr word outAddress
  | .stack => attributes.pthreadAttrGetstack word outAddress outSizeAddress
  | .stacksize => attributes.pthreadAttrGetstacksize word outAddress
  | .schedparam => attributes.pthreadAttrGetschedparam word outAddress

/-! ## What the calls are for -/

def Setter.change (memory : GuardedMemory) : Setter → Option (PthreadAttrState → PthreadAttrState)
  | .affinity mask => some fun state => { state with affinityMask := mask }
  | .detachstate detachState => some fun state => { state with detachState }
  | .guardsize guardSize => some fun state => { state with guardSize }
  | .inheritsched inheritSched => some fun state => { state with inheritSched }
  | .schedparam schedParamAddress =>
      if schedParamAddress = 0 then none
      else
        (tryReadInt32 memory schedParamAddress).map fun schedPriority state =>
          { state with schedPriority }
  | .schedpolicy policy => some fun state => { state with schedPolicy := policy }
  | .stacksize stackSize => some fun state => { state with stackSize }
  | .stack stackAddress stackSize =>
      if stackAddress = 0 ∨ stackSize = 0 then none
      else some fun state => { state with stackAddress, stackSize }

def Getter.read (state : PthreadAttrState) : Getter → List Output
  | .affinity => [.uint64 state.affinityMask]
  | .detachstate => [.int32 state.detachState]
  | .guardsize => [.uint64 state.guardSize]
  | .stackaddr => [.uint64 state.stackAddress]
  | .stack => [.uint64 state.stackAddress, .uint64 state.stackSize]
  | .stacksize => [.uint64 state.stackSize]
  | .schedparam => [.int32 state.schedPriority]

/-- The emulator's records, and for each handle what was last set. -/
structure System where
  attributes : Attributes
  values : UInt64 → Option PthreadAttrState

def attributeOf (memory : GuardedMemory) (values : UInt64 → Option PthreadAttrState)
    (word : UInt64) : Option UInt64 :=
  if word = 0 then none
  else if (values word).isSome then some word
  else (memory.tryReadUInt64 word).filter fun handle => (values handle).isSome

namespace System

def attributeOf (system : System) (word : UInt64) : Option UInt64 :=
  PthreadAttributes.attributeOf system.attributes.memory system.values word

inductive Operation
  | init (attrAddress : UInt64)
  | set (setter : Setter) (word : UInt64)
  | get (getter : Getter) (word outAddress outSizeAddress : UInt64)
  | guest (memory : GuardedMemory)

def valuesAfterSet (system : System) (setter : Setter) (word : UInt64) :
    UInt64 → Option PthreadAttrState :=
  match system.attributeOf word, setter.change system.attributes.memory with
  | some handle, some change =>
      Function.update system.values handle ((system.values handle).map change)
  | _, _ => system.values

/-- What was last set, after an attribute has been initialized. -/
def valuesAfterInit (system : System) : UInt64 → Option PthreadAttrState :=
  Function.update system.values system.attributes.allocateSyntheticHandle.1 (some .default)

def step (system : System) : Operation → System
  | .init attrAddress =>
      match system.attributes.pthreadAttrInit attrAddress with
      | (.ok, attributes) => ⟨attributes, system.valuesAfterInit⟩
      | (_, attributes) => { system with attributes }
  | .set setter word =>
      ⟨(PthreadAttributes.set system.attributes word setter).2, system.valuesAfterSet setter word⟩
  | .get getter word outAddress outSizeAddress =>
      { system with
        attributes :=
          (PthreadAttributes.get system.attributes word outAddress outSizeAddress
            getter).attributes }
  | .guest memory => { system with attributes := { system.attributes with memory } }

def initial (memory : GuardedMemory) : System := ⟨⟨memory, fun _ => none, 1⟩, fun _ => none⟩

/-- The attribute's setters and getters are called with one of its aliases. -/
def ThroughAlias (system : System) : Operation → Prop
  | .set _ word | .get _ word _ _ => (system.attributeOf word).isSome
  | .init _ | .guest _ => True

instance (system : System) : DecidablePred system.ThroughAlias
  | .set _ word => inferInstanceAs (Decidable (system.attributeOf word).isSome)
  | .get _ word _ _ => inferInstanceAs (Decidable (system.attributeOf word).isSome)
  | .init _ => .isTrue trivial
  | .guest _ => .isTrue trivial

/-- Through every alias of an attribute, every getter reads what was last set. -/
def Faithful (system : System) : Prop :=
  ∀ word handle value, system.attributeOf word = some handle → system.values handle = some value →
      ∀ getter outAddress outSizeAddress, outAddress ≠ 0 → outSizeAddress ≠ 0 →
        (PthreadAttributes.get system.attributes word outAddress outSizeAddress getter).values =
          getter.read value

end System

/-! ## The records after a call -/

def Attributes.record (attributes : Attributes) (word : UInt64) : PthreadAttrState :=
  (attributes.attrStates word).getD .default

/-- No getter tells the records apart. -/
def Alike (first second : PthreadAttrState) : Prop :=
  ∀ getter : Getter, getter.read first = getter.read second

variable {first second : PthreadAttrState}

theorem alike_iff : Alike first second ↔
      first.affinityMask = second.affinityMask ∧ first.detachState = second.detachState ∧
        first.stackAddress = second.stackAddress ∧ first.stackSize = second.stackSize ∧
          first.guardSize = second.guardSize ∧
            first.schedPriority = second.schedPriority := by
  constructor
  · intro alike
    have affinity := alike .affinity
    have detachstate := alike .detachstate
    have stackaddr := alike .stackaddr
    have stacksize := alike .stacksize
    have guardsize := alike .guardsize
    have schedparam := alike .schedparam
    simp only [Getter.read, List.cons.injEq, Output.uint64.injEq, Output.int32.injEq,
      and_true] at affinity detachstate stackaddr stacksize guardsize schedparam
    exact ⟨affinity, detachstate, stackaddr, stacksize, guardsize, schedparam⟩
  · rintro ⟨affinity, detachstate, stackaddr, stacksize, guardsize, schedparam⟩ getter
    cases getter <;> simp [Getter.read, *]

theorem Alike.refl (state : PthreadAttrState) : Alike state state := fun _ => rfl

theorem Alike.symm (alike : Alike first second) :
    Alike second first :=
  fun getter => (alike getter).symm

theorem Alike.trans {third : PthreadAttrState} (alike : Alike first second)
    (next : Alike second third) : Alike first third :=
  fun getter => (alike getter).trans (next getter)

theorem Alike.change {setter : Setter} {memory : GuardedMemory}
    {change : PthreadAttrState → PthreadAttrState} (isChange : setter.change memory = some change)
    (alike : Alike first second) :
    Alike (change first) (change second) := by
  rw [alike_iff] at alike ⊢
  obtain ⟨affinity, detachstate, stackaddr, stacksize, guardsize, schedparam⟩ := alike
  cases setter with
  | schedparam address =>
    simp only [Setter.change] at isChange
    split at isChange
    · cases isChange
    · obtain ⟨priority, -, rfl⟩ := Option.map_eq_some_iff.mp isChange
      exact ⟨affinity, detachstate, stackaddr, stacksize, guardsize, rfl⟩
  | stack address size =>
    simp only [Setter.change] at isChange
    split at isChange
    · cases isChange
    · cases isChange
      exact ⟨affinity, detachstate, rfl, rfl, guardsize, schedparam⟩
  | _ =>
    cases isChange
    simp [*]

section Records

variable (attributes : Attributes)

theorem record_getOrCreate (attrAddress : UInt64) :
    (attributes.getOrCreateAttrStateLocked attrAddress).1 = attributes.record attrAddress := by
  unfold getOrCreateAttrStateLocked Attributes.record
  cases attributes.attrStates attrAddress <;> rfl

@[simp]
theorem record_assign (key other : UInt64) (state : PthreadAttrState) :
    (attributes.assign key state).record other =
      if other = key then state else attributes.record other := by
  unfold Attributes.record assign
  dsimp only
  rw [Function.update_apply]
  split <;> rfl

@[simp]
theorem record_getOrCreate_snd (attrAddress other : UInt64) :
    (attributes.getOrCreateAttrStateLocked attrAddress).2.record other =
      attributes.record other := by
  unfold getOrCreateAttrStateLocked
  split
  · rfl
  · next absent =>
    rw [record_assign]
    split
    · next same =>
      unfold Attributes.record
      rw [same, absent]
      rfl
    · rfl

theorem memory_getOrCreate_snd (attrAddress : UInt64) :
    (attributes.getOrCreateAttrStateLocked attrAddress).2.memory = attributes.memory := by
  unfold getOrCreateAttrStateLocked
  split <;> rfl

theorem resolve_cases {word : UInt64} (nonzero : word ≠ 0) :
    attributes.resolvePthreadAttrHandle word = word ∨
      (attributes.attrStates word = none ∧ attributes.resolvePthreadAttrHandle word ≠ 0 ∧
        attributes.memory.tryReadUInt64 word =
          some (attributes.resolvePthreadAttrHandle word)) := by
  unfold resolvePthreadAttrHandle
  rw [if_neg nonzero]
  split
  · exact .inl rfl
  · next absent =>
    split
    · exact .inl rfl
    · next pointedHandle isRead =>
      split
      · next isKey => exact .inr ⟨by simpa using absent, isKey.1, isRead⟩
      · exact .inl rfl

end Records

def Setter.target (attributes : Attributes) (word : UInt64) : Setter → UInt64
  | .stacksize _ | .stack _ _ => attributes.resolvePthreadAttrHandle word
  | _ => word

/-- The records after a setter's call: it writes the one that it starts from and the one
under the word. -/
structure Sets (attributes : Attributes) (word target : UInt64)
    (change : PthreadAttrState → PthreadAttrState) (after : Attributes) : Prop where
  memory : after.memory = attributes.memory
  record : ∀ other, after.record other =
    if other = word ∨ other = target then change (attributes.record target)
    else attributes.record other

theorem sets_setAttr (attributes : Attributes) {word : UInt64} (nonzero : word ≠ 0)
    (change : PthreadAttrState → PthreadAttrState) :
    Sets attributes word word change (attributes.setAttr word change).2 := by
  unfold setAttr
  rw [if_neg nonzero]
  refine ⟨memory_getOrCreate_snd attributes word, fun other => ?_⟩
  simp [record_getOrCreate]

theorem sets_setResolvedAttr (attributes : Attributes) {word : UInt64} (nonzero : word ≠ 0)
    (change : PthreadAttrState → PthreadAttrState) :
    Sets attributes word (attributes.resolvePthreadAttrHandle word) change
      (attributes.setResolvedAttr word change).2 := by
  unfold setResolvedAttr
  rw [if_neg nonzero]
  dsimp only
  split
  · refine ⟨memory_getOrCreate_snd attributes _, fun other => ?_⟩
    simp only [record_assign, record_getOrCreate, record_getOrCreate_snd]
    grind
  · next same =>
    rw [not_not] at same
    refine ⟨memory_getOrCreate_snd attributes _, fun other => ?_⟩
    simp only [record_assign, record_getOrCreate, record_getOrCreate_snd]
    grind

theorem set_cases (attributes : Attributes) {word : UInt64} (nonzero : word ≠ 0) (setter : Setter) :
    (setter.change attributes.memory = none ∧ (set attributes word setter).2 = attributes) ∨
      ∃ change, setter.change attributes.memory = some change ∧
        Sets attributes word (setter.target attributes word) change
          (set attributes word setter).2 := by
  cases setter with
  | schedparam address =>
    simp only [Setter.change, set, pthreadAttrSetschedparam, nonzero, false_or]
    split
    · exact .inl ⟨rfl, rfl⟩
    · cases tryReadInt32 attributes.memory address with
      | none => exact .inl ⟨rfl, rfl⟩
      | some priority => exact .inr ⟨_, rfl, sets_setAttr attributes nonzero _⟩
  | stack address size =>
    simp only [Setter.change, set, pthreadAttrSetstack, nonzero, false_or]
    split
    · exact .inl ⟨rfl, rfl⟩
    · exact .inr ⟨_, rfl, sets_setResolvedAttr attributes nonzero _⟩
  | stacksize size => exact .inr ⟨_, rfl, sets_setResolvedAttr attributes nonzero _⟩
  | _ => exact .inr ⟨_, rfl, sets_setAttr attributes nonzero _⟩

theorem values_getAttr (attributes : Attributes) {word : UInt64} {outAddresses : List UInt64}
    (valid : ¬ (word = 0 ∨ 0 ∈ outAddresses)) (read : PthreadAttrState → List Output) :
    (attributes.getAttr word outAddresses read).values = read (attributes.record word) := by
  unfold getAttr
  rw [if_neg valid]
  exact congrArg read (record_getOrCreate attributes word)

theorem values_get (attributes : Attributes) {word outAddress outSizeAddress : UInt64}
    (nonzero : word ≠ 0) (hasOut : outAddress ≠ 0) (hasOutSize : outSizeAddress ≠ 0)
    (getter : Getter) :
    (get attributes word outAddress outSizeAddress getter).values =
      getter.read (attributes.record word) := by
  cases getter with
  | stack => exact values_getAttr attributes (by simp [nonzero, hasOut.symm, hasOutSize.symm]) _
  | _ => exact values_getAttr attributes (by simp [nonzero, hasOut.symm]) _

theorem record_getAttr (attributes : Attributes) (word : UInt64) (outAddresses : List UInt64)
    (read : PthreadAttrState → List Output) (other : UInt64) :
    (attributes.getAttr word outAddresses read).attributes.record other =
      attributes.record other := by
  unfold getAttr
  split
  · rfl
  · exact record_getOrCreate_snd attributes word other

theorem record_get (attributes : Attributes) (word outAddress outSizeAddress : UInt64)
    (getter : Getter) (other : UInt64) :
    (get attributes word outAddress outSizeAddress getter).attributes.record other =
      attributes.record other := by
  cases getter <;> exact record_getAttr attributes word _ _ other

/-! ## Aliases -/

section Aliases

variable {memory : GuardedMemory} {values : UInt64 → Option PthreadAttrState}
variable {word handle : UInt64}

theorem word_ne_zero (isAlias : attributeOf memory values word = some handle) : word ≠ 0 := by
  rintro rfl
  simp [attributeOf] at isAlias

theorem isSome_values (isAlias : attributeOf memory values word = some handle) :
    (values handle).isSome := by
  unfold attributeOf at isAlias
  split_ifs at isAlias with isZero isHandle
  · rwa [← Option.some.inj isAlias]
  · exact (Option.filter_eq_some_iff.mp isAlias).2

theorem attributeOf_handle (nonzero : handle ≠ 0) (issued : (values handle).isSome) :
    attributeOf memory values handle = some handle := by
  unfold attributeOf
  rw [if_neg nonzero, if_pos issued]

theorem attributeOf_congr {other : UInt64 → Option PthreadAttrState}
    (sameIssued : ∀ handle, (other handle).isSome = (values handle).isSome) :
    attributeOf memory other = attributeOf memory values := by
  funext word
  unfold attributeOf
  simp only [sameIssued]

end Aliases

namespace System

/-- Every handle that was given out has a record. -/
def Registered (system : System) : Prop :=
  ∀ handle, (system.values handle).isSome → (system.attributes.attrStates handle).isSome

variable {system : System}

theorem faithful_iff :
    system.Faithful ↔ ∀ word handle value, system.attributeOf word = some handle →
      system.values handle = some value → Alike (system.attributes.record word) value := by
  constructor
  · intro faithful word handle value isAlias isValue getter
    have someAddress : (1 : UInt64) ≠ 0 := by decide
    rw [← values_get system.attributes (word_ne_zero isAlias) someAddress someAddress]
    exact faithful word handle value isAlias isValue getter 1 1 someAddress someAddress
  · intro alike word handle value isAlias isValue getter outAddress outSizeAddress hasOut hasSize
    rw [values_get system.attributes (word_ne_zero isAlias) hasOut hasSize]
    exact alike word handle value isAlias isValue getter

theorem attributeOf_target (registered : system.Registered)
    {word handle : UInt64} (isAlias : system.attributeOf word = some handle) (setter : Setter) :
    system.attributeOf (setter.target system.attributes word) = some handle := by
  have resolved : system.attributeOf (system.attributes.resolvePthreadAttrHandle word) =
      some handle := by
    have issued := isSome_values isAlias
    rcases resolve_cases system.attributes (word_ne_zero isAlias) with
      same | ⟨absent, nonzero, isRead⟩
    · rw [same]
      exact isAlias
    · have notHandle : ¬ (system.values word).isSome := fun isHandle => by
        have present := registered word isHandle
        rw [absent] at present
        cases present
      unfold System.attributeOf PthreadAttributes.attributeOf at isAlias
      rw [if_neg (word_ne_zero isAlias), if_neg notHandle, isRead,
        Option.filter_eq_some_iff] at isAlias
      obtain ⟨isPointed, -⟩ := isAlias
      rw [Option.some.inj isPointed] at nonzero ⊢
      exact attributeOf_handle nonzero issued
  cases setter with
  | stacksize size => exact resolved
  | stack address size => exact resolved
  | _ => exact isAlias

/-! ## Steps that keep the aliases faithful -/

/-- Words that come to stand for an attribute, apart from those with a new record, have
a record like what was last set. -/
def CopiesFit (system : System) (memory : GuardedMemory)
    (values : UInt64 → Option PthreadAttrState) (isNew : UInt64 → Prop) : Prop :=
  ∀ word handle value, PthreadAttributes.attributeOf memory values word = some handle →
    values handle = some value → ¬ isNew word →
      (system.attributeOf word ≠ some handle ∨ system.values handle ≠ some value) →
        Alike (system.attributes.record word) value

/-- The condition on a call, or on what the guest does to memory.  An attribute has no
other alias than those whose records the setter writes, unless the setter changes
nothing; and handles are only copied to where the records agree. -/
def Meets (system : System) : Operation → Prop
  | .init attrAddress =>
      match system.attributes.pthreadAttrInit attrAddress with
      | (.ok, after) =>
          let handle := system.attributes.allocateSyntheticHandle.1
          (∀ value, attrAddress ≠ handle → system.values attrAddress = some value →
            Alike .default value) ∧
          system.CopiesFit after.memory system.valuesAfterInit
            fun word => word = attrAddress ∨ word = handle
      | _ => True
  | .set setter word =>
      ∀ handle value change, system.attributeOf word = some handle →
        system.values handle = some value → setter.change system.attributes.memory = some change →
            ∀ other, system.attributeOf other = some handle → other ≠ word →
              other ≠ setter.target system.attributes word → Alike (change value) value
  | .get getter word outAddress outSizeAddress =>
      system.CopiesFit (PthreadAttributes.get system.attributes word outAddress outSizeAddress
        getter).attributes.memory system.values fun _ => False
  | .guest memory => system.CopiesFit memory system.values fun _ => False

variable {after : Attributes}

theorem faithful_of_copies (faithful : system.Faithful)
    (sameRecord : ∀ word, after.record word = system.attributes.record word) :
    Faithful ⟨after, system.values⟩ ↔
      system.CopiesFit after.memory system.values fun _ => False := by
  rw [faithful_iff] at faithful ⊢
  constructor
  · intro alike word handle value isAlias isValue _ _
    rw [← sameRecord]
    exact alike word handle value isAlias isValue
  · intro fits word handle value isAlias isValue
    rw [sameRecord]
    by_cases already : system.attributeOf word = some handle
    · exact faithful word handle value already isValue
    · exact fits word handle value isAlias isValue not_false (.inl already)

theorem isSome_valuesAfterSet (setter : Setter) (word other : UInt64) :
    (system.valuesAfterSet setter word other).isSome = (system.values other).isSome := by
  unfold valuesAfterSet
  rcases system.attributeOf word with _ | handle
  · rfl
  · rcases setter.change system.attributes.memory with _ | change
    · rfl
    · change (Function.update system.values handle _ other).isSome = _
      rw [Function.update_apply]
      split
      · next same => rw [same, Option.isSome_map]
      · rfl

theorem faithful_set_iff (registered : system.Registered)
    (faithful : system.Faithful) {setter : Setter} {word : UInt64}
    (isAlias : (system.attributeOf word).isSome) :
    (system.step (.set setter word)).Faithful ↔ system.Meets (.set setter word) := by
  obtain ⟨handle, isHandle⟩ := Option.isSome_iff_exists.mp isAlias
  obtain ⟨value, isValue⟩ := Option.isSome_iff_exists.mp (isSome_values isHandle)
  rcases set_cases system.attributes (word_ne_zero isHandle) setter with
    ⟨refused, unchanged⟩ | ⟨change, isChange, sets⟩
  · have sameStep : system.step (.set setter word) = system := by
      unfold step valuesAfterSet
      dsimp only
      rw [unchanged, isHandle, refused]
    rw [sameStep]
    refine ⟨fun _ _ _ _ _ _ isChange => ?_, fun _ => faithful⟩
    rw [refused] at isChange
    cases isChange
  · have isAfter : system.valuesAfterSet setter word =
        Function.update system.values handle (some (change value)) := by
      unfold valuesAfterSet
      rw [isHandle, isChange]
      change Function.update system.values handle ((system.values handle).map change) = _
      rw [isValue]
      rfl
    have sameAliases (other : UInt64) :
        (system.step (.set setter word)).attributeOf other = system.attributeOf other := by
      unfold System.attributeOf
      change PthreadAttributes.attributeOf (PthreadAttributes.set _ _ _).2.memory
        (system.valuesAfterSet setter word) other = _
      rw [sets.memory, attributeOf_congr (isSome_valuesAfterSet setter word)]
    rw [faithful_iff] at faithful ⊢
    have targetAlias := attributeOf_target registered isHandle setter
    constructor
    · intro alike itsHandle itsValue itsChange isItsHandle isItsValue isItsChange other
        otherAlias notWord notTarget
      obtain rfl := Option.some.inj (isHandle.symm.trans isItsHandle)
      obtain rfl := Option.some.inj (isValue.symm.trans isItsValue)
      obtain rfl := Option.some.inj (isChange.symm.trans isItsChange)
      have now := alike other handle (change value) ((sameAliases other).trans otherAlias) (by
          change system.valuesAfterSet setter word handle = _
          rw [isAfter, Function.update_self])
      change Alike ((PthreadAttributes.set _ _ _).2.record other) _ at now
      rw [sets.record, if_neg (by simp [notWord, notTarget])] at now
      exact now.symm.trans (faithful other handle value otherAlias isValue)
    · intro meets other itsHandle itsValue otherAlias isItsValue
      rw [sameAliases] at otherAlias
      change system.valuesAfterSet setter word itsHandle = _ at isItsValue
      change Alike ((PthreadAttributes.set _ _ _).2.record other) _
      rw [isAfter, Function.update_apply] at isItsValue
      rw [sets.record]
      split at isItsValue
      · next same =>
        subst same
        cases isItsValue
        split
        · exact (faithful _ _ _ targetAlias isValue).change isChange
        · next untouched =>
          rw [not_or] at untouched
          exact (faithful other _ _ otherAlias isValue).trans
            (meets _ _ _ isHandle isValue isChange other otherAlias untouched.1 untouched.2).symm
      · next different =>
        have untouched : ¬ (other = word ∨ other = setter.target system.attributes word) := by
          rintro (rfl | rfl)
          · exact different (Option.some.inj (otherAlias.symm.trans isHandle))
          · exact different (Option.some.inj (otherAlias.symm.trans targetAlias))
        rw [if_neg untouched]
        exact faithful other itsHandle itsValue otherAlias isItsValue

variable {attrAddress : UInt64}

theorem pthreadAttrInit_ok {attributes : Attributes}
    (initialized : attributes.pthreadAttrInit attrAddress = (.ok, after)) :
    attrAddress ≠ 0 ∧
      after.memory.tryReadUInt64 attrAddress = some attributes.allocateSyntheticHandle.1 ∧
      after.attrStates = Function.update
        (Function.update attributes.attrStates attrAddress (some .default))
        attributes.allocateSyntheticHandle.1 (some .default) := by
  unfold pthreadAttrInit at initialized
  split at initialized
  · cases initialized
  · next nonzero =>
    dsimp only at initialized
    split at initialized
    · cases initialized
    · next memory written =>
      cases initialized
      exact ⟨nonzero, Addressed.tryReadUInt64_of_tryWriteUInt64 written, rfl⟩

theorem pthreadAttrInit_failed {attributes : Attributes}
    {result : Result} (failed : attributes.pthreadAttrInit attrAddress = (result, after))
    (notOk : result ≠ .ok) :
    after.memory = attributes.memory ∧ after.attrStates = attributes.attrStates := by
  unfold pthreadAttrInit at failed
  split at failed
  · cases failed
    exact ⟨rfl, rfl⟩
  · dsimp only at failed
    split at failed
    · cases failed
      exact ⟨rfl, rfl⟩
    · cases failed
      exact absurd rfl notOk

theorem faithful_init_iff (faithful : system.Faithful)
    (initialized : system.attributes.pthreadAttrInit attrAddress = (.ok, after)) :
    Faithful ⟨after, system.valuesAfterInit⟩ ↔ system.Meets (.init attrAddress) := by
  obtain ⟨nonzero, isRead, isAfter⟩ := pthreadAttrInit_ok initialized
  simp only [Meets, initialized]
  generalize isHandle : system.attributes.allocateSyntheticHandle.1 = handle at *
  have isValues : system.valuesAfterInit = Function.update system.values handle (some .default) := by
    unfold valuesAfterInit
    rw [isHandle]
  have isRecord (word : UInt64) : after.record word =
      if word = attrAddress ∨ word = handle then .default else system.attributes.record word := by
    unfold Attributes.record
    rw [isAfter, Function.update_apply, Function.update_apply]
    grind
  rw [faithful_iff] at faithful ⊢
  constructor
  · intro alike
    constructor
    · intro value different isValue
      have itsValue : system.valuesAfterInit attrAddress = some value := by
        rw [isValues, Function.update_of_ne different]
        exact isValue
      have now := alike attrAddress attrAddress value
        (attributeOf_handle nonzero (Option.isSome_of_eq_some itsValue)) itsValue
      change Alike (after.record attrAddress) value at now
      rwa [isRecord, if_pos (.inl rfl)] at now
    · intro word itsHandle value isAlias isValue notNew _
      have now := alike word itsHandle value isAlias isValue
      change Alike (after.record word) value at now
      rwa [isRecord, if_neg notNew] at now
  · rintro ⟨overwritten, fits⟩ word itsHandle value isAlias isValue
    change Alike (after.record word) value
    change PthreadAttributes.attributeOf after.memory system.valuesAfterInit word = _ at isAlias
    change system.valuesAfterInit itsHandle = some value at isValue
    rw [isRecord]
    split
    · next isNew =>
      by_cases isItsHandle : itsHandle = handle
      · rw [isItsHandle, isValues, Function.update_self] at isValue
        rw [← Option.some.inj isValue]
        exact .refl _
      · -- the word itself is a handle that was given out before
        unfold PthreadAttributes.attributeOf at isAlias
        have issued : (system.valuesAfterInit handle).isSome := by
          rw [isValues, Function.update_self]
          rfl
        have isWord : word = attrAddress := by
          rcases isNew with isWord | rfl
          · exact isWord
          · rw [if_neg (word_ne_zero isAlias), if_pos issued] at isAlias
            exact absurd (Option.some.inj isAlias).symm isItsHandle
        subst isWord
        rw [if_neg nonzero] at isAlias
        split at isAlias
        · obtain rfl := Option.some.inj isAlias
          rw [isValues, Function.update_of_ne isItsHandle] at isValue
          exact overwritten value isItsHandle isValue
        · rw [isRead, Option.filter_eq_some_iff] at isAlias
          exact absurd (Option.some.inj isAlias.1).symm isItsHandle
    · next notNew =>
      by_cases already : system.attributeOf word = some itsHandle ∧
          system.values itsHandle = some value
      · exact faithful word itsHandle value already.1 already.2
      · exact fits word itsHandle value isAlias isValue notNew (not_and_or.mp already)

theorem faithful_step_iff (registered : system.Registered)
    (faithful : system.Faithful) {operation : Operation}
    (throughAlias : system.ThroughAlias operation) :
    (system.step operation).Faithful ↔ system.Meets operation := by
  cases operation with
  | init attrAddress =>
    rcases initialized : system.attributes.pthreadAttrInit attrAddress with ⟨result, after⟩
    by_cases isOk : result = .ok
    · subst isOk
      have isStep : system.step (.init attrAddress) = ⟨after, system.valuesAfterInit⟩ := by
        simp only [step, initialized]
      rw [isStep]
      exact faithful_init_iff faithful initialized
    · have isStep : system.step (.init attrAddress) = { system with attributes := after } := by
        simp only [step, initialized]
      have meets : system.Meets (.init attrAddress) := by
        simp only [Meets, initialized]
        split
        · next sameResult => exact absurd (congrArg Prod.fst sameResult) isOk
        · trivial
      obtain ⟨sameMemory, sameStates⟩ := pthreadAttrInit_failed initialized isOk
      refine iff_of_true ?_ meets
      rw [faithful_iff] at faithful ⊢
      intro word handle value isAlias isValue
      rw [isStep] at isAlias isValue ⊢
      unfold System.attributeOf Attributes.record at *
      dsimp only at isAlias isValue ⊢
      rw [sameMemory] at isAlias
      rw [sameStates]
      exact faithful word handle value isAlias isValue
  | set setter word => exact faithful_set_iff registered faithful throughAlias
  | get getter word outAddress outSizeAddress =>
    exact faithful_of_copies faithful
      (record_get system.attributes word outAddress outSizeAddress getter)
  | guest memory => exact faithful_of_copies faithful fun _ => rfl

end System

/-! ## Handles keep their records -/

def KeepsRecords (before after : Attributes) : Prop :=
  ∀ key, (before.attrStates key).isSome → (after.attrStates key).isSome

theorem KeepsRecords.refl (attributes : Attributes) : KeepsRecords attributes attributes :=
  fun _ present => present

theorem KeepsRecords.trans {before between after : Attributes}
    (first : KeepsRecords before between) (second : KeepsRecords between after) :
    KeepsRecords before after :=
  fun key present => second key (first key present)

theorem keepsRecords_assign (attributes : Attributes) (key : UInt64) (state : PthreadAttrState) :
    KeepsRecords attributes (attributes.assign key state) := by
  intro other present
  unfold assign
  dsimp only
  rw [Function.update_apply]
  split
  · rfl
  · exact present

theorem keepsRecords_getOrCreate (attributes : Attributes) (attrAddress : UInt64) :
    KeepsRecords attributes (attributes.getOrCreateAttrStateLocked attrAddress).2 := by
  unfold getOrCreateAttrStateLocked
  split
  · exact .refl _
  · exact keepsRecords_assign attributes attrAddress .default

theorem keepsRecords_setAttr (attributes : Attributes) (word : UInt64)
    (change : PthreadAttrState → PthreadAttrState) :
    KeepsRecords attributes (attributes.setAttr word change).2 := by
  unfold setAttr
  split
  · exact .refl _
  · exact (keepsRecords_getOrCreate attributes word).trans (keepsRecords_assign _ _ _)

theorem keepsRecords_setResolvedAttr (attributes : Attributes) (word : UInt64)
    (change : PthreadAttrState → PthreadAttrState) :
    KeepsRecords attributes (attributes.setResolvedAttr word change).2 := by
  unfold setResolvedAttr
  split
  · exact .refl _
  · generalize attributes.resolvePthreadAttrHandle word = resolvedAddress
    have created := keepsRecords_getOrCreate attributes resolvedAddress
    dsimp only
    split
    · exact (created.trans (keepsRecords_assign _ _ _)).trans (keepsRecords_assign _ _ _)
    · exact created.trans (keepsRecords_assign _ _ _)

theorem keepsRecords_set (attributes : Attributes) (word : UInt64) (setter : Setter) :
    KeepsRecords attributes (set attributes word setter).2 := by
  cases setter with
  | schedparam address =>
    simp only [set, pthreadAttrSetschedparam]
    split
    · exact .refl _
    · cases tryReadInt32 attributes.memory address with
      | none => exact .refl _
      | some priority => exact keepsRecords_setAttr attributes word _
  | stack address size =>
    simp only [set, pthreadAttrSetstack]
    split
    · exact .refl _
    · exact keepsRecords_setResolvedAttr attributes word _
  | stacksize size => exact keepsRecords_setResolvedAttr attributes word _
  | _ => exact keepsRecords_setAttr attributes word _

theorem keepsRecords_getAttr (attributes : Attributes) (word : UInt64)
    (outAddresses : List UInt64) (read : PthreadAttrState → List Output) :
    KeepsRecords attributes (attributes.getAttr word outAddresses read).attributes := by
  unfold getAttr
  split
  · exact .refl _
  · exact keepsRecords_getOrCreate attributes word

theorem keepsRecords_get (attributes : Attributes) (word outAddress outSizeAddress : UInt64)
    (getter : Getter) :
    KeepsRecords attributes (get attributes word outAddress outSizeAddress getter).attributes := by
  cases getter <;> exact keepsRecords_getAttr attributes word _ _

namespace System

theorem registered_step {system : System} (registered : system.Registered)
    (operation : Operation) : (system.step operation).Registered := by
  cases operation with
  | init attrAddress =>
    rcases initialized : system.attributes.pthreadAttrInit attrAddress with ⟨result, after⟩
    intro handle issued
    by_cases isOk : result = .ok
    · subst isOk
      simp only [step, initialized] at issued ⊢
      rw [(pthreadAttrInit_ok initialized).2.2, Function.update_apply]
      split
      · rfl
      · next different =>
        unfold valuesAfterInit at issued
        rw [Function.update_of_ne different] at issued
        rw [Function.update_apply]
        split
        · rfl
        · exact registered handle issued
    · simp only [step, initialized] at issued ⊢
      rw [(pthreadAttrInit_failed initialized isOk).2]
      exact registered handle issued
  | set setter word =>
    intro handle issued
    change (system.valuesAfterSet setter word handle).isSome at issued
    rw [isSome_valuesAfterSet] at issued
    exact keepsRecords_set system.attributes word setter handle (registered handle issued)
  | get getter word outAddress outSizeAddress =>
    exact fun handle issued =>
      keepsRecords_get system.attributes word outAddress outSizeAddress getter handle
        (registered handle issued)
  | guest memory => exact registered

/-- In a run, every getter always reads through every alias what was last set exactly
when every step meets the condition. -/
theorem getters_return_last_set_iff (memory : GuardedMemory) (operations : List Operation)
    (throughAliases : StepsMeet step ThroughAlias (initial memory) operations) :
    HoldsAlong step Faithful (initial memory) operations ↔
      StepsMeet step Meets (initial memory) operations := by
  have registered : (initial memory).Registered := fun _ issued => by cases issued
  have faithful : (initial memory).Faithful := fun _ _ _ _ isValue => by cases isValue
  exact holdsAlong_iff_stepsMeet (fun _ operation holds => registered_step holds operation)
    (fun _ _ holds allowed now => faithful_step_iff holds now allowed)
    registered throughAliases faithful

def zeroMemory : GuardedMemory := ⟨fun _ => some 0, fun _ => true⟩

/-- Attributes at 0x1000 get an affinity mask, which is read back. -/
theorem getters_return_last_set_iff_affinity : HoldsAlong step Faithful (initial zeroMemory)
        [.init 0x1000, .set (.affinity 1) 0x1000, .get .affinity 0x1000 0x2000 0x2008] ↔
      StepsMeet step Meets (initial zeroMemory)
        [.init 0x1000, .set (.affinity 1) 0x1000, .get .affinity 0x1000 0x2000 0x2008] :=
  getters_return_last_set_iff zeroMemory _ ⟨trivial, by decide +kernel, by decide +kernel, trivial⟩

/-- The mask that is set at the address of the attributes is not read through their
handle. -/
theorem handle_keeps_old_affinity : ¬ ∀ (memory : GuardedMemory) (operations : List Operation),
      StepsMeet step ThroughAlias (initial memory) operations →
        HoldsAlong step Faithful (initial memory) operations := by
  intro claim
  obtain ⟨-, -, faithful⟩ := claim zeroMemory [.init 0x1000, .set (.affinity 1) 0x1000]
    ⟨trivial, by decide +kernel, trivial⟩
  have read := faithful 0x600400000020 0x600400000020 { PthreadAttrState.default with affinityMask := 1 }
    (by decide +kernel) (by decide +kernel) .affinity 0x2000 0x2008 (by decide) (by decide)
  revert read
  decide +kernel

end System

end SharpEmu.PthreadAttributes
