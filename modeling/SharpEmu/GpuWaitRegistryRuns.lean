import SharpEmu.GpuWaitRegistry
import SharpEmu.TransitionRuns

/-!
# The order in which waiters are collected

Registering appends, so the waiters of a label stand in the order of their
tickets in every state of every run.  A collecting call returns those it
removes in the reverse order, so what it returns is in registration order
exactly when no label gives it more than one waiter.
-/

namespace SharpEmu

namespace GpuWaitRegistry

open BackwardSweep

namespace Registry

variable {registry : Registry} {selected : UInt64 → WaitingDcb → Bool}

/-! ## Collecting -/

theorem collectLabels_eq (entries : List LabelWaiters) :
    ∀ collected, collectLabels selected entries collected = (entries.map fun entry =>
          { entry with
            list := entry.list.filter fun waiter =>
              !selected entry.address waiter },
        collected ++ entries.flatMap fun entry =>
          (entry.list.filter (selected entry.address)).reverse) := by
  induction entries with
  | nil => simp [collectLabels]
  | cons entry entries ih =>
    intro collected
    rw [collectLabels, sweep_all]
    simp [ih]

theorem collect_collected : (registry.collect selected).2 = registry.waiters.flatMap fun entry =>
      (entry.list.filter (selected entry.address)).reverse := by
  rw [collect, collectLabels_eq]
  rfl

theorem mem_collect_waiters {entry : LabelWaiters}
    (isEntry : entry ∈ (registry.collect selected).1.waiters) :
    ∃ before ∈ registry.waiters, entry.address = before.address ∧
      entry.list = before.list.filter fun waiter =>
        !selected before.address waiter := by
  rw [collect, collectLabels_eq] at isEntry
  obtain ⟨before, isBefore, rfl⟩ :=
    List.mem_map.mp (List.mem_filter.mp isEntry).1
  exact ⟨before, isBefore, rfl, rfl⟩

/-! ## Registration order -/

/-- Every label occurs once, and its waiters stand in the order of their
tickets, all given before. -/
structure Ordered (registry : Registry) (registrations : Nat) : Prop where
  labels : (registry.waiters.map LabelWaiters.address).Nodup
  labelled : ∀ entry ∈ registry.waiters, ∀ waiter ∈ entry.list,
    waiter.waitAddress = entry.address
  sorted : ∀ entry ∈ registry.waiters,
    entry.list.Pairwise fun earlier later => earlier.ticket < later.ticket
  numbered : ∀ entry ∈ registry.waiters, ∀ waiter ∈ entry.list,
    waiter.ticket < registrations

variable {registrations : Nat}

theorem ordered_empty : empty.Ordered registrations := by
  constructor <;> simp [empty]

theorem Ordered.collect (ordered : registry.Ordered registrations) :
    (registry.collect selected).1.Ordered registrations where
  labels := by
    rw [Registry.collect, collectLabels_eq]
    apply (ordered.labels.sublist _)
    have := (List.filter_sublist
      (l := registry.waiters.map fun entry =>
        { entry with
          list := entry.list.filter fun waiter =>
            !selected entry.address waiter })
      (p := fun entry => !entry.list.isEmpty)).map LabelWaiters.address
    simpa [List.map_map, Function.comp_def] using this
  labelled := by
    intro entry isEntry waiter isWaiter
    obtain ⟨before, isBefore, sameAddress, sameList⟩ :=
      mem_collect_waiters isEntry
    rw [sameList] at isWaiter
    rw [sameAddress]
    exact ordered.labelled before isBefore waiter (List.mem_filter.mp isWaiter).1
  sorted := by
    intro entry isEntry
    obtain ⟨before, isBefore, _, sameList⟩ := mem_collect_waiters isEntry
    rw [sameList]
    exact (ordered.sorted before isBefore).filter _
  numbered := by
    intro entry isEntry waiter isWaiter
    obtain ⟨before, isBefore, _, sameList⟩ := mem_collect_waiters isEntry
    rw [sameList] at isWaiter
    exact ordered.numbered before isBefore waiter (List.mem_filter.mp isWaiter).1

theorem Ordered.update (ordered : registry.Ordered registrations)
    {change : UInt64 → WaitingDcb → WaitingDcb}
    (keepsAddress : ∀ address waiter, (change address waiter).waitAddress = waiter.waitAddress)
    (keepsTicket : ∀ address waiter, (change address waiter).ticket = waiter.ticket) :
    (registry.update change).Ordered registrations where
  labels := by
    have := ordered.labels
    simpa [Registry.update, List.map_map, Function.comp_def] using this
  labelled := by
    intro entry isEntry waiter isWaiter
    obtain ⟨before, isBefore, rfl⟩ := List.mem_map.mp isEntry
    obtain ⟨old, isOld, rfl⟩ := List.mem_map.mp isWaiter
    rw [keepsAddress]
    exact ordered.labelled before isBefore old isOld
  sorted := by
    intro entry isEntry
    obtain ⟨before, isBefore, rfl⟩ := List.mem_map.mp isEntry
    rw [List.pairwise_map]
    simpa only [keepsTicket] using ordered.sorted before isBefore
  numbered := by
    intro entry isEntry waiter isWaiter
    obtain ⟨before, isBefore, rfl⟩ := List.mem_map.mp isEntry
    obtain ⟨old, isOld, rfl⟩ := List.mem_map.mp isWaiter
    rw [keepsTicket]
    exact ordered.numbered before isBefore old isOld

theorem Ordered.collectUnreportedStale
    (ordered : registry.Ordered registrations) (memory : ObjectRef)
    (nowTicks maxAgeTicks : Int64) :
    (registry.collectUnreportedStale memory nowTicks maxAgeTicks).Ordered
      registrations := by
  apply ordered.update <;> intro address waiter <;> split <;> rfl

theorem Ordered.latchSatisfiedByValue
    (ordered : registry.Ordered registrations) (memory : ObjectRef)
    (address value : UInt64) :
    (registry.latchSatisfiedByValue memory address value).Ordered
      registrations := by
  apply ordered.update <;> intro label waiter <;> split <;> rfl

theorem Ordered.recordProduced (ordered : registry.Ordered registrations)
    (memory : ObjectRef) (address value : UInt64) :
    (registry.recordProduced memory address value).Ordered registrations := by
  apply Ordered.latchSatisfiedByValue
  exact ⟨ordered.labels, ordered.labelled, ordered.sorted, ordered.numbered⟩

theorem Ordered.register (ordered : registry.Ordered registrations)
    (slot : Nat) (address : UInt64) (waiter : WaitingDcb)
    (isTicket : waiter.ticket = registrations) :
    (registry.register slot address waiter).Ordered (registrations + 1) := by
  unfold Registry.register
  dsimp only
  split
  · have appended {entry : LabelWaiters} (isEntry : entry ∈ registry.waiters.map fun entry =>
          if entry.address = address then
            { entry with
              list := entry.list ++ [{ waiter with waitAddress := address }] }
          else entry) :
        ∃ before ∈ registry.waiters, entry.address = before.address ∧
          (entry.list = before.list ∨ before.address = address ∧ entry.list =
              before.list ++ [{ waiter with waitAddress := address }]) := by
      obtain ⟨before, isBefore, rfl⟩ := List.mem_map.mp isEntry
      by_cases isLabel : before.address = address
      · exact ⟨before, isBefore, by simp [isLabel], .inr ⟨isLabel, by
          simp [isLabel]⟩⟩
      · exact ⟨before, isBefore, by simp [isLabel], .inl (by simp [isLabel])⟩
    constructor
    · have sameLabels : LabelWaiters.address ∘ (fun entry : LabelWaiters =>
          if entry.address = address then
            { entry with
              list := entry.list ++ [{ waiter with waitAddress := address }] }
          else entry) = LabelWaiters.address := by
        ext1 entry
        dsimp only [Function.comp_apply]
        split <;> rfl
      rw [List.map_map, sameLabels]
      exact ordered.labels
    · intro entry isEntry other isOther
      obtain ⟨before, isBefore, sameAddress, same | ⟨isLabel, same⟩⟩ :=
        appended isEntry
      · rw [same] at isOther
        rw [sameAddress]
        exact ordered.labelled before isBefore other isOther
      · rw [same] at isOther
        rw [sameAddress]
        cases List.mem_append.mp isOther with
        | inl isOld => exact ordered.labelled before isBefore other isOld
        | inr isNew => rw [List.mem_singleton.mp isNew, isLabel]
    · intro entry isEntry
      obtain ⟨before, isBefore, _, same | ⟨_, same⟩⟩ := appended isEntry
      · rw [same]
        exact ordered.sorted before isBefore
      · rw [same, List.pairwise_append]
        refine ⟨ordered.sorted before isBefore, List.pairwise_singleton _ _, ?_⟩
        intro earlier isEarlier later isLater
        rw [List.mem_singleton.mp isLater]
        change earlier.ticket < waiter.ticket
        rw [isTicket]
        exact ordered.numbered before isBefore earlier isEarlier
    · intro entry isEntry other isOther
      obtain ⟨before, isBefore, _, same | ⟨_, same⟩⟩ := appended isEntry
      · rw [same] at isOther
        exact Nat.lt_succ_of_lt (ordered.numbered before isBefore other isOther)
      · rw [same] at isOther
        cases List.mem_append.mp isOther with
        | inl isOld =>
          exact Nat.lt_succ_of_lt (ordered.numbered before isBefore other isOld)
        | inr isNew =>
          rw [List.mem_singleton.mp isNew, ← isTicket]
          exact Nat.lt_succ_self waiter.ticket
  · next isNew =>
    have inserted {entry : LabelWaiters} (isEntry : entry ∈ registry.waiters.insertIdx
          (min slot registry.waiters.length)
          ⟨address, [{ waiter with waitAddress := address }]⟩) :
        entry = ⟨address, [{ waiter with waitAddress := address }]⟩ ∨ entry ∈ registry.waiters :=
      (List.mem_insertIdx (Nat.min_le_right _ _)).mp isEntry
    constructor
    · have isPerm := List.perm_insertIdx
        (⟨address, [{ waiter with waitAddress := address }]⟩ : LabelWaiters)
        registry.waiters (Nat.min_le_right slot registry.waiters.length)
      apply (isPerm.map LabelWaiters.address).nodup_iff.mpr
      rw [List.map_cons, List.nodup_cons]
      refine ⟨?_, ordered.labels⟩
      intro isLabel
      obtain ⟨entry, isEntry, sameAddress⟩ := List.mem_map.mp isLabel
      apply isNew
      rw [List.any_eq_true]
      exact ⟨entry, isEntry, by simpa using sameAddress⟩
    · intro entry isEntry other isOther
      rcases inserted isEntry with rfl | isOld
      · rw [List.mem_singleton.mp isOther]
      · exact ordered.labelled entry isOld other isOther
    · intro entry isEntry
      rcases inserted isEntry with rfl | isOld
      · exact List.pairwise_singleton _ _
      · exact ordered.sorted entry isOld
    · intro entry isEntry other isOther
      rcases inserted isEntry with rfl | isOld
      · rw [List.mem_singleton.mp isOther, ← isTicket]
        exact Nat.lt_succ_self waiter.ticket
      · exact Nat.lt_succ_of_lt (ordered.numbered entry isOld other isOther)

end Registry

def InRegistrationOrder (collected : List WaitingDcb) : Prop :=
  collected.Pairwise fun earlier later =>
    earlier.waitAddress = later.waitAddress → earlier.memory = later.memory →
      earlier.ticket < later.ticket

instance (collected : List WaitingDcb) : Decidable (InRegistrationOrder collected) :=
  inferInstanceAs (Decidable (List.Pairwise _ collected))

/-- No label has two waiters that a call selects. -/
def AtMostOneEach (registry : Registry) (selected : UInt64 → WaitingDcb → Bool) : Prop :=
  ∀ entry ∈ registry.waiters, entry.list.countP (selected entry.address) ≤ 1

theorem Registry.Ordered.inRegistrationOrder_collect_iff {registry : Registry} {registrations : Nat}
    {selected : UInt64 → WaitingDcb → Bool}
    (ordered : registry.Ordered registrations) {memory : ObjectRef}
    (ofMemory : ∀ address waiter, selected address waiter = true → waiter.memory = memory) :
    InRegistrationOrder (registry.collect selected).2 ↔
      AtMostOneEach registry selected := by
  unfold InRegistrationOrder
  rw [Registry.collect_collected, List.pairwise_flatMap]
  have ofLabel {entry : LabelWaiters} (isEntry : entry ∈ registry.waiters)
      {waiter : WaitingDcb} (isWaiter : waiter ∈
        (entry.list.filter (selected entry.address)).reverse) :
      waiter.waitAddress = entry.address ∧ waiter.memory = memory := by
    obtain ⟨inList, isSelected⟩ :=
      List.mem_filter.mp (List.mem_reverse.mp isWaiter)
    exact ⟨ordered.labelled entry isEntry waiter inList, ofMemory _ _ isSelected⟩
  have acrossLabels : registry.waiters.Pairwise fun entry other =>
      ∀ earlier ∈ (entry.list.filter (selected entry.address)).reverse,
        ∀ later ∈ (other.list.filter (selected other.address)).reverse,
          earlier.waitAddress = later.waitAddress → earlier.memory = later.memory →
              earlier.ticket < later.ticket := by
    have apart := List.pairwise_map.mp ordered.labels
    apply apart.imp_of_mem
    intro entry other isEntry isOther different earlier isEarlier later isLater same
    rw [(ofLabel isEntry isEarlier).1, (ofLabel isOther isLater).1] at same
    exact absurd same different
  rw [and_iff_left acrossLabels]
  apply forall₂_congr
  intro entry isEntry
  have sorted := (ordered.sorted entry isEntry).filter (selected entry.address)
  rw [List.countP_eq_length_filter, ← pairwise_reverse_iff
    (fun first second lt => Nat.lt_asymm lt) sorted]
  apply List.Pairwise.iff_of_mem
  intro earlier later isEarlier isLater
  have ofEarlier := ofLabel isEntry isEarlier
  have ofLater := ofLabel isEntry isLater
  simp [ofEarlier, ofLater]

/-! ## Runs -/

/-- The registry, the number of registrations so far, and what the last call of
the two collecting functions returned. -/
structure RunState where
  registry : Registry
  registrations : Nat
  collected : List WaitingDcb

inductive Action where
  | register (slot : Nat) (address : UInt64) (waiter : WaitingDcb)
  | collectSatisfied (memory : ObjectRef)
      (readValue : UInt64 → Bool → Option UInt64)
  | collectDeadlockBroken (memory : ObjectRef) (nowTicks minAgeTicks : Int64)
  | collectExpiredRetries (memory : ObjectRef) (nowTicks : Int64)
  | collectUnreportedStale (memory : ObjectRef) (nowTicks maxAgeTicks : Int64)
  | latchSatisfiedByValue (memory : ObjectRef) (address value : UInt64)
  | recordProduced (memory : ObjectRef) (address value : UInt64)
  | clear

def RunState.start : RunState := ⟨.empty, 0, []⟩

/-- One call. -/
def step (state : RunState) : Action → RunState
  | .register slot address waiter =>
      ⟨state.registry.register slot address { waiter with ticket := state.registrations },
        state.registrations + 1, []⟩
  | .collectSatisfied memory readValue =>
      let (registry, collected) :=
        state.registry.collectSatisfied memory readValue
      { state with registry, collected }
  | .collectDeadlockBroken memory nowTicks minAgeTicks =>
      let (registry, collected) :=
        state.registry.collectDeadlockBroken memory nowTicks minAgeTicks
      { state with registry, collected }
  | .collectExpiredRetries memory nowTicks =>
      ⟨(state.registry.collectExpiredRetries memory nowTicks).1, state.registrations, []⟩
  | .collectUnreportedStale memory nowTicks maxAgeTicks =>
      ⟨state.registry.collectUnreportedStale memory nowTicks maxAgeTicks, state.registrations, []⟩
  | .latchSatisfiedByValue memory address value =>
      ⟨state.registry.latchSatisfiedByValue memory address value, state.registrations, []⟩
  | .recordProduced memory address value =>
      ⟨state.registry.recordProduced memory address value, state.registrations, []⟩
  | .clear => ⟨Registry.clear, state.registrations, []⟩

/-- The condition under which a call returns its waiters in order. -/
def Meets (state : RunState) : Action → Prop
  | .collectSatisfied memory readValue =>
      AtMostOneEach state.registry (Registry.satisfied memory readValue)
  | .collectDeadlockBroken memory nowTicks minAgeTicks =>
      AtMostOneEach state.registry (state.registry.deadlocked memory nowTicks minAgeTicks)
  | _ => True

variable {state : RunState}

theorem ordered_step (action : Action) (ordered : state.registry.Ordered state.registrations) :
    (step state action).registry.Ordered (step state action).registrations := by
  cases action with
  | register slot address waiter => exact ordered.register slot address _ rfl
  | collectSatisfied memory readValue => exact ordered.collect
  | collectDeadlockBroken memory nowTicks minAgeTicks => exact ordered.collect
  | collectExpiredRetries memory nowTicks => exact ordered.collect
  | collectUnreportedStale memory nowTicks maxAgeTicks =>
    exact ordered.collectUnreportedStale memory nowTicks maxAgeTicks
  | latchSatisfiedByValue memory address value =>
    exact ordered.latchSatisfiedByValue memory address value
  | recordProduced memory address value =>
    exact ordered.recordProduced memory address value
  | clear => exact Registry.ordered_empty

theorem inRegistrationOrder_step_iff (action : Action)
    (ordered : state.registry.Ordered state.registrations) :
    InRegistrationOrder (step state action).collected ↔ Meets state action := by
  have nothing : InRegistrationOrder [] := List.Pairwise.nil
  cases action with
  | collectSatisfied memory readValue =>
    apply ordered.inRegistrationOrder_collect_iff
    intro address waiter isSelected
    rw [Registry.satisfied, Bool.and_eq_true, beq_iff_eq] at isSelected
    exact isSelected.1
  | collectDeadlockBroken memory nowTicks minAgeTicks =>
    apply ordered.inRegistrationOrder_collect_iff
    intro address waiter isSelected
    rw [Registry.deadlocked, Bool.and_eq_true, Bool.and_eq_true, beq_iff_eq] at isSelected
    exact isSelected.1.1
  | _ => exact ⟨fun _ => trivial, fun _ => nothing⟩

/-- In a run of calls, every collecting call returns its waiters in the order
of their registration exactly when none of them finds two waiters of one label
to return. -/
theorem collected_in_registration_order_iff (actions : List Action) :
    HoldsAlong step (fun state => InRegistrationOrder state.collected) .start actions ↔
      StepsMeet step Meets .start actions := by
  have always : ∀ (actions : List Action) (state : RunState),
      StepsMeet step (fun _ _ => True) state actions := by
    intro actions
    induction actions with
    | nil => exact fun _ => trivial
    | cons action rest ih => exact fun state => ⟨trivial, ih _⟩
  have exact : ∀ (state : RunState) (action : Action),
      state.registry.Ordered state.registrations → True → InRegistrationOrder state.collected →
        (InRegistrationOrder (step state action).collected ↔ Meets state action) :=
    fun state action ordered _ _ => inRegistrationOrder_step_iff action ordered
  apply holdsAlong_iff_stepsMeet (fun state action => ordered_step action) exact
  · exact Registry.ordered_empty
  · exact always actions RunState.start
  · exact List.Pairwise.nil

/-- Two command buffers that wait for nothing on one label. -/
def anyValueWaiter : WaitingDcb :=
  ⟨0, 0, 0, 0, false, 0, 0, false, false, 0, 0⟩

/-- They are returned in the reverse order of their registration. -/
theorem waiters_returned_in_reverse : ¬ ∀ actions, HoldsAlong step
      (fun state => InRegistrationOrder state.collected) .start actions := by
  intro holds
  have along := holds [.register 0 0x1000 anyValueWaiter, .register 0 0x1000 anyValueWaiter,
      .collectSatisfied 0 fun _ _ => some 0]
  have reversed := along.2.2.2
  revert reversed
  change ¬ InRegistrationOrder _
  decide +kernel

end GpuWaitRegistry

end SharpEmu
