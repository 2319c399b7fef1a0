import Mathlib.Data.List.Perm.Basic
import SharpEmu.GpuWaitRegistryRuns

/-!
# What becomes of registered waiters

Over a run of calls no waiter is lost, released twice or made up: those that
were registered are those still held and those released.  A waiter that is
returned as satisfied was shown a value that satisfies it, by its label in
memory or by a producer.
-/

namespace SharpEmu

namespace GpuWaitRegistry

/-- The waiter without the marks that it gets while it is held. -/
def WaitingDcb.asRegistered (waiter : WaitingDcb) : WaitingDcb :=
  { waiter with staleReported := false, latched := false }

namespace Registry

variable {registry : Registry}

def held (registry : Registry) : List WaitingDcb :=
  registry.waiters.flatMap LabelWaiters.list

theorem held_collect (selected : UInt64 → WaitingDcb → Bool) :
    ((registry.collect selected).1.held ++ (registry.collect selected).2).Perm registry.held := by
  have nonempty (entries : List LabelWaiters) :
      (entries.filter fun entry => !entry.list.isEmpty).flatMap
        LabelWaiters.list = entries.flatMap LabelWaiters.list := by
    induction entries with
    | nil => rfl
    | cons entry rest ih => cases isList : entry.list <;> simp [isList, ih]
  rw [collect_collected, held, collect, collectLabels_eq]
  dsimp only
  rw [nonempty, List.flatMap_map]
  apply (List.flatMap_append_perm _ _ _).trans
  apply List.Perm.flatMap_left
  intro entry _
  exact ((List.reverse_perm _).append_left _).trans
    (List.perm_append_comm.trans (List.filter_append_perm _ _))

theorem held_update {change : UInt64 → WaitingDcb → WaitingDcb} (keeps : ∀ address waiter,
      (change address waiter).asRegistered = waiter.asRegistered) :
    (registry.update change).held.map WaitingDcb.asRegistered =
      registry.held.map WaitingDcb.asRegistered := by
  simp [held, update, List.flatMap_map, List.map_flatMap, Function.comp_def, keeps]

theorem appended_perm {address : UInt64} {entries : List LabelWaiters}
    (labels : (entries.map LabelWaiters.address).Nodup)
    (isLabel : address ∈ entries.map LabelWaiters.address)
    (waiter : WaitingDcb) :
    ((entries.map fun entry =>
        if entry.address = address then
          { entry with list := entry.list ++ [waiter] }
        else entry).flatMap LabelWaiters.list).Perm
      (waiter :: entries.flatMap LabelWaiters.list) := by
  induction entries with
  | nil => cases isLabel
  | cons entry rest ih =>
    rw [List.map_cons, List.nodup_cons] at labels
    rw [List.map_cons, List.flatMap_cons, List.flatMap_cons]
    by_cases same : entry.address = address
    · have untouched : (rest.map fun entry =>
          if entry.address = address then
            { entry with list := entry.list ++ [waiter] }
          else entry) = rest := by
        refine (List.map_congr_left fun other isOther => if_neg ?_).trans (List.map_id rest)
        intro isSame
        rw [same, ← isSame] at labels
        exact labels.1 (List.mem_map_of_mem isOther)
      rw [untouched, if_pos same, List.append_assoc]
      exact List.perm_middle
    · have later := (List.mem_cons.mp isLabel).resolve_left (Ne.symm same)
      rw [if_neg same]
      exact ((ih labels.2 later).append_left _).trans List.perm_middle

theorem Ordered.held_register {registrations : Nat}
    (ordered : registry.Ordered registrations) (slot : Nat) (address : UInt64)
    (waiter : WaitingDcb) :
    (registry.register slot address waiter).held.Perm
      ({ waiter with waitAddress := address } :: registry.held) := by
  unfold Registry.register
  dsimp only
  split
  next isLabel =>
    apply appended_perm ordered.labels
    simpa using isLabel
  next =>
    exact (List.perm_insertIdx _ registry.waiters
      (Nat.min_le_right slot registry.waiters.length)).flatMap_right LabelWaiters.list

end Registry

/-! ## Runs -/

/-- The waiters that a call takes over. -/
def registered (state : RunState) : Action → List WaitingDcb
  | .register _ address waiter =>
      [{ waiter with waitAddress := address, ticket := state.registrations }]
  | _ => []

/-- The waiters that a call returns or drops. -/
def released (state : RunState) : Action → List WaitingDcb
  | .collectSatisfied memory readValue =>
      (state.registry.collectSatisfied memory readValue).2
  | .collectDeadlockBroken memory nowTicks minAgeTicks =>
      (state.registry.collectDeadlockBroken memory nowTicks minAgeTicks).2
  | .collectExpiredRetries memory nowTicks =>
      (state.registry.collectExpiredRetries memory nowTicks).2
  | .clear => state.registry.held
  | _ => []

def gathered (output : RunState → Action → List WaitingDcb) :
    RunState → List Action → List WaitingDcb
  | _, [] => []
  | state, action :: rest =>
      output state action ++ gathered output (step state action) rest

variable {state : RunState}

theorem held_step (action : Action) (ordered : state.registry.Ordered state.registrations) :
    (((step state action).registry.held ++ released state action).map WaitingDcb.asRegistered).Perm
      ((state.registry.held ++ registered state action).map WaitingDcb.asRegistered) := by
  unfold released registered
  cases action with
  | register slot address waiter =>
    dsimp only
    rw [List.append_nil]
    exact ((ordered.held_register slot address _).trans (List.perm_append_singleton _ _).symm).map _
  | collectSatisfied | collectDeadlockBroken | collectExpiredRetries =>
    dsimp only
    rw [List.append_nil]
    exact (Registry.held_collect _).map _
  | collectUnreportedStale | latchSatisfiedByValue | recordProduced =>
    dsimp only
    rw [List.append_nil, List.append_nil]
    apply List.Perm.of_eq
    apply Registry.held_update
    intro address waiter
    split
    next => rfl
    next => rfl
  | clear => exact (List.append_nil _).symm ▸ .refl _

theorem held_run (actions : List Action) (ordered : state.registry.Ordered state.registrations) :
    (((actions.foldl step state).registry.held ++
        gathered released state actions).map WaitingDcb.asRegistered).Perm
      ((state.registry.held ++ gathered registered state actions).map WaitingDcb.asRegistered) := by
  induction actions generalizing state with
  | nil => exact .refl _
  | cons action rest ih =>
    have here := held_step action ordered
    have later := ih (ordered_step action ordered)
    rw [List.perm_iff_count] at here later ⊢
    intro waiter
    have here := here waiter
    have later := later waiter
    simp only [gathered, List.foldl_cons, List.map_append, List.count_append] at here later ⊢
    omega

/-- Up to their marks, the registered waiters are those still held and those
released, each as often. -/
theorem waiters_accounted (actions : List Action) : (((actions.foldl step .start).registry.held ++
        gathered released .start actions).map WaitingDcb.asRegistered).Perm
      ((gathered registered .start actions).map WaitingDcb.asRegistered) :=
  held_run actions Registry.ordered_empty

/-! ## Signals -/

/-- A call of a run has written a value that satisfies the waiter to its label. -/
def Signalled (calls : List Action) (waiter : WaitingDcb) : Prop :=
  ∃ value, compare waiter value ∧ (.recordProduced waiter.memory waiter.waitAddress value ∈ calls ∨
      .latchSatisfiedByValue waiter.memory waiter.waitAddress value ∈ calls)

structure Justified (calls : List Action) (registry : Registry) : Prop where
  latched : ∀ waiter ∈ registry.held, waiter.latched → Signalled calls waiter
  produced : ∀ memory address value,
    registry.lastProduced.lookup (memory, address) = some value →
      .recordProduced memory address value ∈ calls

section

variable {calls : List Action} {registry : Registry} {registrations : Nat}

theorem justified_empty : Justified calls .empty := ⟨nofun, nofun⟩

variable {waiter : WaitingDcb}

theorem mem_held : waiter ∈ registry.held ↔ ∃ entry ∈ registry.waiters, waiter ∈ entry.list :=
  List.mem_flatMap

theorem Registry.Ordered.mem_collect (ordered : registry.Ordered registrations)
    {selected : UInt64 → WaitingDcb → Bool}
    (isCollected : waiter ∈ (registry.collect selected).2) :
    waiter ∈ registry.held ∧ selected waiter.waitAddress waiter := by
  rw [collect_collected] at isCollected
  obtain ⟨entry, isEntry, isWaiter⟩ := List.mem_flatMap.mp isCollected
  obtain ⟨inList, isSelected⟩ :=
    List.mem_filter.mp (List.mem_reverse.mp isWaiter)
  rw [ordered.labelled entry isEntry waiter inList]
  exact ⟨mem_held.mpr ⟨entry, isEntry, inList⟩, isSelected⟩

theorem Justified.collect (justified : Justified calls registry)
    (selected : UInt64 → WaitingDcb → Bool) :
    Justified calls (registry.collect selected).1 where
  latched waiter isHeld := justified.latched waiter ((Registry.held_collect selected).mem_iff.mp
      (List.mem_append_left _ isHeld))
  produced := justified.produced

theorem Justified.update (justified : Justified calls registry)
    (ordered : registry.Ordered registrations)
    {change : UInt64 → WaitingDcb → WaitingDcb}
    (signals : ∀ waiter, (waiter.latched → Signalled calls waiter) →
      (change waiter.waitAddress waiter).latched →
        Signalled calls (change waiter.waitAddress waiter)) :
    Justified calls (registry.update change) where
  latched waiter isHeld := by
    obtain ⟨entry, isEntry, inList⟩ := mem_held.mp isHeld
    obtain ⟨before, isBefore, rfl⟩ := List.mem_map.mp isEntry
    obtain ⟨old, isOld, rfl⟩ := List.mem_map.mp inList
    rw [← ordered.labelled before isBefore old isOld]
    exact signals old (justified.latched old (mem_held.mpr ⟨before, isBefore, isOld⟩))
  produced := justified.produced

variable {memory : ObjectRef} {address value : UInt64}

theorem Justified.latch (justified : Justified calls registry)
    (ordered : registry.Ordered registrations)
    (isCall : .recordProduced memory address value ∈ calls ∨
      .latchSatisfiedByValue memory address value ∈ calls) :
    Justified calls (registry.latchSatisfiedByValue memory address value) := by
  apply justified.update ordered
  intro waiter before
  split
  next => exact before
  next changed =>
    simp only [not_or, not_not, Bool.not_eq_true', Bool.not_eq_false] at changed
    obtain ⟨rfl, -, rfl, satisfies⟩ := changed
    exact fun _ => ⟨value, satisfies, isCall⟩

theorem Justified.record (justified : Justified calls registry)
    (ordered : registry.Ordered registrations)
    (isCall : .recordProduced memory address value ∈ calls) :
    Justified calls (registry.recordProduced memory address value) := by
  refine Justified.latch ?_ (?_ : Registry.Ordered _ registrations) (.inl isCall)
  · refine ⟨justified.latched, fun other label last isLast => ?_⟩
    by_cases same : (other, label) = (memory, address)
    · obtain ⟨rfl, rfl⟩ := Prod.mk.inj same
      rw [AList.lookup_insert] at isLast
      cases isLast
      exact isCall
    · rw [AList.lookup_insert_ne same] at isLast
      split at isLast
      next => cases isLast
      next => exact justified.produced other label last isLast
  · exact ⟨ordered.labels, ordered.labelled, ordered.sorted, ordered.numbered⟩

theorem Justified.register (justified : Justified calls registry)
    (ordered : registry.Ordered registrations) (slot : Nat) (address : UInt64)
    (unlatched : waiter.latched = false) :
    Justified calls (registry.register slot address waiter) where
  latched other isHeld isLatched := by
    cases (ordered.held_register slot address waiter).mem_iff.mp isHeld with
    | head => simp [unlatched] at isLatched
    | tail _ isOld => exact justified.latched other isOld isLatched
  produced := by
    unfold Registry.register
    dsimp only
    split
    next => exact justified.produced
    next => exact justified.produced

theorem justified_run {actions : List Action} {state : RunState}
    (justified : Justified calls state.registry)
    (ordered : state.registry.Ordered state.registrations)
    (subset : actions ⊆ calls)
    (unlatched : ∀ slot address waiter,
      .register slot address waiter ∈ calls → waiter.latched = false) :
    Justified calls (actions.foldl step state).registry ∧
      (actions.foldl step state).registry.Ordered (actions.foldl step state).registrations := by
  induction actions generalizing state with
  | nil => exact ⟨justified, ordered⟩
  | cons action rest ih =>
    obtain ⟨isCall, subset⟩ := List.cons_subset.mp subset
    refine ih ?_ (ordered_step action ordered) subset
    cases action with
    | register slot address waiter =>
      exact justified.register ordered slot address (unlatched slot address waiter isCall)
    | collectSatisfied | collectDeadlockBroken | collectExpiredRetries =>
      exact justified.collect _
    | collectUnreportedStale =>
      unfold step Registry.collectUnreportedStale
      dsimp only
      apply justified.update ordered
      intro waiter before
      split
      next => exact before
      next => exact before
    | latchSatisfiedByValue => exact justified.latch ordered (.inr isCall)
    | recordProduced => exact justified.record ordered isCall
    | clear => exact justified_empty

end

/-- A waiter that is returned as satisfied, or to break a deadlock, was signalled,
or its label satisfies it now. -/
theorem released_when_signalled {actions : List Action} (unlatched : ∀ slot address waiter,
      .register slot address waiter ∈ actions → waiter.latched = false)
    (memory : ObjectRef) :
    (∀ readValue, ∀ waiter ∈ ((actions.foldl step
        .start).registry.collectSatisfied memory readValue).2,
      Signalled actions waiter ∨ ∃ value, readValue waiter.waitAddress waiter.is64Bit = some value ∧
          compare waiter value) ∧
      ∀ nowTicks minAgeTicks, ∀ waiter ∈ ((actions.foldl step
          .start).registry.collectDeadlockBroken memory nowTicks minAgeTicks).2,
        Signalled actions waiter := by
  have empty : RunState.start.registry.Ordered RunState.start.registrations :=
    Registry.ordered_empty
  obtain ⟨justified, ordered⟩ :=
    justified_run justified_empty empty (List.Subset.refl actions) unlatched
  generalize actions.foldl step .start = state at justified ordered
  constructor
  · intro readValue waiter isCollected
    obtain ⟨isHeld, isSelected⟩ := ordered.mem_collect isCollected
    simp only [Registry.satisfied, Bool.and_eq_true, Bool.or_eq_true,
      Option.any_eq_true] at isSelected
    exact isSelected.2.imp (justified.latched waiter isHeld) id
  · intro nowTicks minAgeTicks waiter isCollected
    have isSelected := (ordered.mem_collect isCollected).2
    simp only [Registry.deadlocked, Bool.and_eq_true, beq_iff_eq, Option.any_eq_true] at isSelected
    obtain ⟨⟨isMemory, -⟩, value, isLast, satisfies⟩ := isSelected
    rw [← isMemory] at isLast
    exact ⟨value, satisfies, .inl (justified.produced _ _ value isLast)⟩

/-- Two waiters for values, of which the first is signalled. -/
def signallingCalls : List Action :=
  [.register 0 0x1000 { anyValueWaiter with
      waitAddress := 0x1000, referenceValue := 5, mask := 0xFF, compareFunction := 3 },
    .register 0 0x2000 { anyValueWaiter with
      waitAddress := 0x2000, referenceValue := 7, mask := 0xFF, compareFunction := 5 },
    .recordProduced 0 0x2000 6, .recordProduced 0 0x1000 0x105]

theorem released_when_signalled_first : ∃ waiter ∈ ((signallingCalls.foldl step
        .start).registry.collectDeadlockBroken 0 0 0).2,
      Signalled signallingCalls waiter := by
  obtain ⟨waiter, isReleased⟩ := List.exists_mem_of_length_pos
    (show 0 < ((signallingCalls.foldl step
      .start).registry.collectDeadlockBroken 0 0 0).2.length by decide +kernel)
  refine ⟨waiter, isReleased, (released_when_signalled ?_ 0).2 0 0 _ isReleased⟩
  intro slot address waiter isRegistered
  rcases isRegistered with _ | ⟨_, _ | ⟨_, _ | ⟨_, _ | ⟨_, ⟨⟩⟩⟩⟩⟩ <;> rfl

end GpuWaitRegistry

end SharpEmu
