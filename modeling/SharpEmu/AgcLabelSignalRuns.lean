import SharpEmu.AgcLabelSignals

/-!
# When no label signal is lost

A release records the value it has written and latches the waiters that are registered
for its label; from then on the label may be overwritten.  Every other packet only writes
the label, and so does a release that lands between the comparison and the registration
of a wait; such a value is seen as long as nobody takes it back.
-/

namespace SharpEmu.Agc.LabelSignals

open Addressed

/-- The next part of a release is to record, or to latch with, a value that satisfies the
waiter. -/
def isAboutToLatch (remaining : List Act) (waiter : WaitingDcb) : Bool :=
  match remaining with
  | .record address value :: _ =>
      address = waiter.waitAddress && waiter.compare value
  | .latch address value :: _ =>
      address = waiter.waitAddress && waiter.compare value
  | _ => false

/-- A write touches the label of a waiter and leaves it satisfied. -/
def satisfies (address : UInt64) (count : ℕ) (memory : Memory) (waiter : WaitingDcb) :
    Bool :=
  rangesMeet address count waiter.waitAddress (labelBytes waiter) && isLabelSatisfied memory waiter

namespace LabelState

variable (state : LabelState)

/-! ## Conditions -/

/-- A registered waiter is latched, or a release is about to record or latch a value that
satisfies it. -/
def IsCaught (waiter : WaitingDcb) : Prop :=
  waiter.latched = true ∨ ∃ slot, isAboutToLatch (state.effects slot).remaining waiter = true

/-- A write does not satisfy the label of the wait that is compared and not registered. -/
def SparesComparing (address : UInt64) (data : List UInt8) : Prop :=
  ∀ memory, tryWrite state.memory address data = some memory →
    ∀ waiting, state.comparing = some waiting →
      satisfies address data.length memory waiting.waiter = false

/-- Whatever satisfies the label of a registered waiter of another queue is the write of a
release, whose value for that label satisfies the waiter too. -/
def IsRecorded : Action → Prop
  | .advance slot =>
      match (state.effects slot).remaining with
      | .write address data :: rest =>
          state.SparesComparing address data ∧
            ∀ memory, tryWrite state.memory address data = some memory → ∀ waiting ∈ state.waiters,
                (state.effects slot).queue ≠ waiting.waiter.state →
                satisfies address data.length memory waiting.waiter = true →
                  waiting.waiter.latched = true ∨ isAboutToLatch rest waiting.waiter = true
      | _ => True
  | .cpuStore address data => state.SparesComparing address data
  | _ => True

/-- A write takes back no satisfying value from the label of a wait, unless the waiter is
registered and caught. -/
def WriteKeeps (address : UInt64) (data : List UInt8) : Prop :=
  ∀ memory, tryWrite state.memory address data = some memory →
    (∀ waiting, state.comparing = some waiting →
      isLabelSatisfied state.memory waiting.waiter = true →
        isLabelSatisfied memory waiting.waiter = true) ∧
    ∀ waiting ∈ state.waiters, isLabelSatisfied state.memory waiting.waiter = true →
      isLabelSatisfied memory waiting.waiter = true ∨ state.IsCaught waiting.waiter

def KeepsLabels : Action → Prop
  | .advance slot =>
      match (state.effects slot).remaining with
      | .write address data :: _ => state.WriteKeeps address data
      | _ => True
  | .cpuStore address data => state.WriteKeeps address data
  | _ => True

/-! ## Signals that are kept -/

/-- A release latches right after it records. -/
def IsPaired : List Act → Prop
  | .record address value :: rest => (∃ others, rest = .latch address value :: others) ∧
      IsPaired rest
  | _ :: rest => IsPaired rest
  | [] => True

/-- Each signalled queue will be resumed: it is caught, or its label is still satisfied
where that counts. -/
structure KeepsSignals (byLabel : Prop) : Prop where
  paired : ∀ slot, IsPaired (state.effects slot).remaining
  comparing : ∀ waiting, state.comparing = some waiting → waiting.signalled = true →
    byLabel ∧ isLabelSatisfied state.memory waiting.waiter = true
  waiters : ∀ waiting ∈ state.waiters, waiting.signalled = true →
    state.IsCaught waiting.waiter ∨
      (byLabel ∧ isLabelSatisfied state.memory waiting.waiter = true)

variable {state} {byLabel : Prop}

/-! ## Parts of packets -/

variable {rest : List Act}

theorem isPaired_append {front : List Act}
    (noRecord : ∀ act ∈ front, ∀ address value, act ≠ .record address value)
    (paired : IsPaired rest) : IsPaired (front ++ rest) := by
  induction front with
  | nil => exact paired
  | cons act front ih =>
    have others := ih (List.forall_mem_cons.mp noRecord).2
    cases act with
    | record address value =>
      exact absurd rfl (noRecord _ List.mem_cons_self address value)
    | write | copy | fill | latch => exact others

theorem isPaired_of_writes {acts : List Act}
    (noRecord : ∀ act ∈ acts, ∀ address value, act ≠ .record address value) :
    IsPaired acts :=
  List.append_nil acts ▸ isPaired_append noRecord trivial

theorem isPaired_tail {act : Act} (paired : IsPaired (act :: rest)) :
    IsPaired rest := by
  cases act with
  | record => exact paired.2
  | write | copy | fill | latch => exact paired

theorem tryFillGuestMemory_writes (value : UInt32) (destination : UInt64) (count : ℕ) :
    ∀ act ∈ tryFillGuestMemory value destination count, ∀ address recorded,
      act ≠ .record address recorded := by
  intro act member address recorded
  obtain ⟨part, -, rfl⟩ := List.mem_map.mp member
  exact Act.noConfusion

theorem tryCopyGuestMemory_copies (source destination : UInt64) (count : ℕ) :
    ∀ act ∈ tryCopyGuestMemory source destination count, ∀ address recorded,
      act ≠ .record address recorded := by
  intro act member address recorded
  unfold tryCopyGuestMemory at member
  split at member
  · cases member
  · obtain ⟨part, -, rfl⟩ := List.mem_map.mp member
    exact Act.noConfusion

theorem isPaired_produce (selection : UInt32) (address data timestamp : UInt64) :
    IsPaired (produce selection address data timestamp) := by
  unfold produce
  split
  · exact ⟨⟨[], rfl⟩, trivial⟩
  · split
    · exact ⟨⟨[], rfl⟩, trivial⟩
    · trivial

theorem isPaired_acts (packet : ProducerPacket) : IsPaired packet.acts := by
  cases packet with
  | releaseMemStandard control address data timestamp =>
    simp only [ProducerPacket.acts]
    split
    · exact isPaired_produce _ _ _ _
    · trivial
  | releaseMem control address data timestamp =>
    simp only [ProducerPacket.acts]
    split
    · exact isPaired_produce _ _ _ _
    · trivial
  | writeData standard control address values =>
    simp only [ProducerPacket.acts]
    split <;> split
    all_goals first
      | trivial
      | apply isPaired_of_writes
        intro act member address recorded
        obtain ⟨part, -, rfl⟩ := List.mem_map.mp member
        exact Act.noConfusion
  | dmaData compact count destination source =>
    simp only [ProducerPacket.acts]
    split
    · trivial
    · split
      · exact isPaired_of_writes (tryFillGuestMemory_writes _ _ _)
      · split
        · trivial
        · exact isPaired_of_writes (tryCopyGuestMemory_copies _ _ _)
  | standardDmaData control sourceLow sourceHigh low high command =>
    simp only [ProducerPacket.acts, applySubmittedStandardDmaDataSnapshot]
    split
    · trivial
    · split
      · split
        · trivial
        · exact isPaired_of_writes (tryCopyGuestMemory_copies _ _ _)
      · split
        · exact isPaired_of_writes (tryFillGuestMemory_writes _ _ _)
        · trivial

/-! ## Steps -/

variable {slot : ℕ} {effect : Effect} {waiter : WaitingDcb}

theorem isCaught_of_other {other : ℕ} (apart : other ≠ slot)
    (isAbout : isAboutToLatch (state.effects other).remaining waiter = true) :
    (state.setEffect slot effect).IsCaught waiter := by
  refine .inr ⟨other, ?_⟩
  rw [setEffect_effects, Function.update_of_ne apart]
  exact isAbout

/-- Another part of an effect comes next, which is about to latch what the one before
was. -/
theorem IsCaught.setEffect (caught : state.IsCaught waiter)
    (goesOn : isAboutToLatch (state.effects slot).remaining waiter = true →
      isAboutToLatch effect.remaining waiter = true) :
    (state.setEffect slot effect).IsCaught waiter := by
  rcases caught with isLatched | ⟨other, isAbout⟩
  · exact .inl isLatched
  · by_cases same : other = slot
    · subst same
      refine .inr ⟨other, ?_⟩
      rw [setEffect_effects, Function.update_self]
      exact goesOn isAbout
    · exact isCaught_of_other same isAbout

theorem paired_setEffect {slot : ℕ} {effect : Effect}
    (paired : ∀ slot, IsPaired (state.effects slot).remaining)
    (isPaired : IsPaired effect.remaining) (other : ℕ) :
    IsPaired ((state.setEffect slot effect).effects other).remaining := by
  rw [setEffect_effects]
  by_cases same : other = slot
  · subst same
    rw [Function.update_self]
    exact isPaired
  · rw [Function.update_of_ne same]
    exact paired other

theorem KeepsSignals.setEffect
    (keeps : state.KeepsSignals byLabel) (isPaired : IsPaired effect.remaining)
    (goesOn : ∀ waiter, isAboutToLatch (state.effects slot).remaining waiter = true →
      isAboutToLatch effect.remaining waiter = true) :
    (state.setEffect slot effect).KeepsSignals byLabel where
  paired := paired_setEffect keeps.paired isPaired
  comparing := keeps.comparing
  waiters waiting member signalled :=
    (keeps.waiters waiting member signalled).imp_left
      fun caught => caught.setEffect (goesOn waiting.waiter)

variable {queue : Option Queue} {address : UInt64} {count : ℕ} {memory : Memory} {waiting : Waiting}

theorem mem_waiters_notice (member : waiting ∈ (state.notice queue address count memory).waiters)
    (signalled : waiting.signalled = true) :
    ∃ earlier ∈ state.waiters, earlier.waiter = waiting.waiter ∧
      (earlier.signalled = true ∨ (∃ other, queue = some other ∧ other ≠ waiting.waiter.state) ∧
          satisfies address count memory waiting.waiter = true) := by
  obtain ⟨earlier, isEarlier, rfl⟩ := List.mem_map.mp member
  refine ⟨earlier, isEarlier, rfl, ?_⟩
  rcases Bool.or_eq_true_iff.mp signalled with before | isNew
  · exact .inl before
  · obtain ⟨isOther, isSatisfied⟩ := Bool.and_eq_true_iff.mp isNew
    cases queue with
    | none => cases isOther
    | some other => exact .inr ⟨⟨other, rfl, by simpa using isOther⟩, isSatisfied⟩

theorem comparing_notice
    (compared : (state.notice queue address count memory).comparing = some waiting)
    (signalled : waiting.signalled = true) :
    ∃ earlier, state.comparing = some earlier ∧ earlier.waiter = waiting.waiter ∧
      (earlier.signalled = true ∨ satisfies address count memory waiting.waiter = true) := by
  obtain ⟨earlier, isEarlier, rfl⟩ := Option.map_eq_some_iff.mp compared
  refine ⟨earlier, isEarlier, rfl, ?_⟩
  exact Bool.or_eq_true_iff.mp signalled

variable {value : UInt64}

theorem isProducedSatisfied_recorded {lastProduced : List (UInt64 × UInt64)}
    (satisfies : waiter.compare value = true) :
    isProducedSatisfied (recorded lastProduced waiter.waitAddress value) waiter = true := by
  rw [isProducedSatisfied, recorded, List.lookup_cons_self]
  exact satisfies

theorem mem_waiters_latch (member : waiting ∈ (state.latchSatisfiedByValue address value).waiters) :
    ∃ earlier ∈ state.waiters, earlier.signalled = waiting.signalled ∧
      (waiting.waiter.latched = true ∨ waiting = earlier ∧ ¬(waiting.waiter.waitAddress = address ∧
          waiting.waiter.compare value = true)) := by
  obtain ⟨earlier, isEarlier, rfl⟩ := List.mem_map.mp member
  refine ⟨earlier, isEarlier, ?_⟩
  split
  · exact ⟨rfl, .inl rfl⟩
  · rename_i notLatching
    refine ⟨rfl, ?_⟩
    cases isLatched : earlier.waiter.latched with
    | true => exact .inl rfl
    | false =>
      refine .inr ⟨rfl, ?_⟩
      rintro ⟨same, satisfies⟩
      exact notLatching ⟨same, isLatched, satisfies⟩

/-- What a release does once it has recorded, and once it has latched. -/
theorem KeepsSignals.record (keeps : state.KeepsSignals byLabel)
    (isNext : (state.effects slot).remaining = .record address value :: rest) :
    (({ state with
        lastProduced := recorded state.lastProduced address value } :
        LabelState).setEffect slot ⟨(state.effects slot).queue, rest⟩).KeepsSignals byLabel := by
  have paired := keeps.paired slot
  rw [isNext] at paired
  obtain ⟨⟨others, isRest⟩, restPaired⟩ := paired
  have recordedKeeps : ({ state with
      lastProduced := recorded state.lastProduced address value } :
        LabelState).KeepsSignals byLabel :=
    ⟨keeps.paired, keeps.comparing, keeps.waiters⟩
  apply recordedKeeps.setEffect restPaired
  intro waiter isAbout
  change isAboutToLatch (state.effects slot).remaining waiter = true at isAbout
  rw [isNext] at isAbout
  change isAboutToLatch rest waiter = true
  rw [isRest]
  exact isAbout

theorem KeepsSignals.latch (keeps : state.KeepsSignals byLabel)
    (isNext : (state.effects slot).remaining = .latch address value :: rest) :
    ((state.latchSatisfiedByValue address value).setEffect slot
      ⟨(state.effects slot).queue, rest⟩).KeepsSignals byLabel := by
  have paired := keeps.paired slot
  rw [isNext] at paired
  refine ⟨paired_setEffect keeps.paired (isPaired_tail paired), keeps.comparing, ?_⟩
  intro waiting member signalled
  obtain ⟨earlier, isEarlier, sameSignal, isLatched | ⟨rfl, notLatching⟩⟩ :=
    mem_waiters_latch member
  · exact .inl (.inl isLatched)
  · rcases keeps.waiters waiting isEarlier signalled with
      (isLatched | ⟨other, isAbout⟩) | byLabel
    · exact .inl (.inl isLatched)
    · by_cases same : other = slot
      · subst same
        rw [isNext] at isAbout
        obtain ⟨sameAddress, compares⟩ := Bool.and_eq_true_iff.mp isAbout
        exact absurd ⟨(of_decide_eq_true sameAddress).symm, compares⟩ notLatching
      · exact .inl (isCaught_of_other same isAbout)
    · exact .inr byLabel

/-- The parts of an effect that write nothing and the failing ones. -/
theorem KeepsSignals.advance (keeps : state.KeepsSignals byLabel)
    (writes : ∀ address data rest memory,
      (state.effects slot).remaining = .write address data :: rest →
      tryWrite state.memory address data = some memory →
        ((state.notice (some (state.effects slot).queue) address data.length
          memory).setEffect slot ⟨(state.effects slot).queue, rest⟩).KeepsSignals byLabel) :
    (state.advance slot).KeepsSignals byLabel := by
  have paired := keeps.paired slot
  rw [LabelState.advance]
  split
  · exact keeps
  · rename_i address data rest isNext
    rw [isNext] at paired
    split
    · refine keeps.setEffect trivial ?_
      intro waiter isAbout
      rw [isNext] at isAbout
      cases isAbout
    · rename_i memory written
      exact writes address data rest memory isNext written
  · rename_i source destination count rest isNext
    rw [isNext] at paired
    split
    · refine keeps.setEffect trivial ?_
      intro waiter isAbout
      rw [isNext] at isAbout
      cases isAbout
    · refine keeps.setEffect paired ?_
      intro waiter isAbout
      rw [isNext] at isAbout
      cases isAbout
  · rename_i source destination count rest isNext
    rw [isNext] at paired
    split
    · refine keeps.setEffect trivial ?_
      intro waiter isAbout
      rw [isNext] at isAbout
      cases isAbout
    · refine keeps.setEffect
        (isPaired_append (tryFillGuestMemory_writes _ _ _) (isPaired_tail paired)) ?_
      intro waiter isAbout
      rw [isNext] at isAbout
      cases isAbout
  · rename_i address value rest isNext
    exact keeps.record isNext
  · rename_i address value rest isNext
    exact keeps.latch isNext

variable {data : List UInt8}

/-- A write that only releases signal with. -/
theorem KeepsSignals.writeRecorded (keeps : state.KeepsSignals False)
    (isNext : (state.effects slot).remaining = .write address data :: rest)
    (written : tryWrite state.memory address data = some memory)
    (recorded : state.IsRecorded (.advance slot)) :
    ((state.notice (some (state.effects slot).queue) address data.length
      memory).setEffect slot ⟨(state.effects slot).queue, rest⟩).KeepsSignals False := by
  rw [IsRecorded, isNext] at recorded
  obtain ⟨spares, released⟩ := recorded
  have paired := keeps.paired slot
  rw [isNext] at paired
  refine ⟨@paired_setEffect (state.notice _ _ _ _) _ _ keeps.paired (isPaired_tail paired), ?_, ?_⟩
  · intro waiting compared signalled
    change (state.notice (some (state.effects slot).queue) address data.length
      memory).comparing = some waiting at compared
    obtain ⟨earlier, isEarlier, same, before | isNew⟩ := comparing_notice compared signalled
    · exact keeps.comparing earlier isEarlier before |>.1.elim
    · rw [← same, spares memory written earlier isEarlier] at isNew
      cases isNew
  · intro waiting member signalled
    change waiting ∈ (state.notice (some (state.effects slot).queue) address data.length
      memory).waiters at member
    left
    obtain ⟨earlier, isEarlier, same, before | ⟨⟨other, isQueue, apart⟩, isNew⟩⟩ :=
      mem_waiters_notice member signalled
    · rcases keeps.waiters earlier isEarlier before with caught | ⟨isFalse, -⟩
      · rw [← same]
        have noticed : (state.notice (some (state.effects slot).queue) address data.length
            memory).IsCaught earlier.waiter := caught
        apply noticed.setEffect
        intro isAbout
        change isAboutToLatch (state.effects slot).remaining earlier.waiter = true at isAbout
        rw [isNext] at isAbout
        cases isAbout
      · exact isFalse.elim
    · obtain rfl := Option.some.inj isQueue
      rw [← same] at apart isNew ⊢
      rcases released memory written earlier isEarlier apart isNew with isLatched | isAbout
      · exact .inl isLatched
      · refine .inr ⟨slot, ?_⟩
        rw [setEffect_effects, Function.update_self]
        exact isAbout

/-- A write that takes back no satisfying value. -/
theorem KeepsSignals.notice (keeps : state.KeepsSignals True)
    (written : tryWrite state.memory address data = some memory)
    (writeKeeps : state.WriteKeeps address data) :
    (state.notice queue address data.length memory).KeepsSignals True := by
  obtain ⟨keepsComparing, keepsWaiters⟩ := writeKeeps memory written
  refine ⟨keeps.paired, ?_, ?_⟩
  · intro waiting compared signalled
    refine ⟨trivial, ?_⟩
    obtain ⟨earlier, isEarlier, same, before | isNew⟩ := comparing_notice compared signalled
    · rw [← same]
      exact keepsComparing earlier isEarlier (keeps.comparing earlier isEarlier before).2
    · exact (Bool.and_eq_true_iff.mp isNew).2
  · intro waiting member signalled
    obtain ⟨earlier, isEarlier, same, before | ⟨-, isNew⟩⟩ :=
      mem_waiters_notice member signalled
    · rw [← same]
      rcases keeps.waiters earlier isEarlier before with caught | ⟨-, isSatisfied⟩
      · exact .inl caught
      · rcases keepsWaiters earlier isEarlier isSatisfied with stays | caught
        · exact .inr ⟨trivial, stays⟩
        · exact .inl caught
    · exact .inr ⟨trivial, (Bool.and_eq_true_iff.mp isNew).2⟩

theorem KeepsSignals.cpuStoreRecorded
    (keeps : state.KeepsSignals False) (spares : state.SparesComparing address data) :
    (state.cpuStore address data).KeepsSignals False := by
  rw [LabelState.cpuStore]
  split
  · exact keeps
  · rename_i memory written
    refine ⟨keeps.paired, ?_, ?_⟩
    · intro waiting compared signalled
      obtain ⟨earlier, isEarlier, same, before | isNew⟩ :=
        comparing_notice compared signalled
      · exact keeps.comparing earlier isEarlier before |>.1.elim
      · rw [← same, spares memory written earlier isEarlier] at isNew
        cases isNew
    · intro waiting member signalled
      obtain ⟨earlier, isEarlier, same, before | ⟨⟨other, isQueue, -⟩, -⟩⟩ :=
        mem_waiters_notice member signalled
      · rw [← same]
        exact (keeps.waiters earlier isEarlier before).imp_right fun label => label.1.elim
      · cases isQueue

variable {ticks : ℤ} {action : Action} {after : LabelState}

/-- The steps that write no memory. -/
theorem KeepsSignals.step
    (keeps : state.KeepsSignals byLabel) (taken : Step ticks state action after)
    (advances : ∀ slot, action = .advance slot → (state.advance slot).KeepsSignals byLabel)
    (stores : ∀ address data, action = .cpuStore address data →
      (state.cpuStore address data).KeepsSignals byLabel) :
    after.KeepsSignals byLabel := by
  cases taken with
  | issue free =>
    apply keeps.setEffect (isPaired_acts _)
    intro waiter isAbout
    rw [free] at isAbout
    cases isAbout
  | advance => exact advances _ rfl
  | cpuStore => exact stores _ _ rfl
  | compare idle waits =>
    refine ⟨keeps.paired, ?_, keeps.waiters⟩
    intro waiting compared signalled
    rw [← Option.some.inj compared] at signalled
    cases signalled
  | register compared =>
    refine ⟨keeps.paired, ?_, ?_⟩
    · intro waiting isComparing
      cases isComparing
    · intro waiting member signalled
      rcases List.mem_append.mp member with earlier | isNew
      · exact keeps.waiters waiting earlier signalled
      · rw [List.mem_singleton.mp isNew] at signalled ⊢
        exact .inr (keeps.comparing _ compared signalled)
  | collectSatisfied idle =>
    exact ⟨keeps.paired, keeps.comparing, fun waiting member =>
      keeps.waiters waiting (List.mem_of_mem_filter member)⟩
  | collectDeadlockBroken idle =>
    exact ⟨keeps.paired, keeps.comparing, fun waiting member =>
      keeps.waiters waiting (List.mem_of_mem_filter member)⟩

theorem KeepsSignals.stepRecorded
    (keeps : state.KeepsSignals False) (recorded : state.IsRecorded action)
    (taken : Step ticks state action after) : after.KeepsSignals False := by
  apply keeps.step taken
  · rintro slot rfl
    exact keeps.advance fun _ _ _ _ isNext written =>
      keeps.writeRecorded isNext written recorded
  · rintro address data rfl
    exact keeps.cpuStoreRecorded recorded

theorem KeepsSignals.stepLabels
    (keeps : state.KeepsSignals True) (labels : state.KeepsLabels action)
    (taken : Step ticks state action after) : after.KeepsSignals True := by
  apply keeps.step taken
  · rintro slot rfl
    apply keeps.advance
    intro address data rest memory isNext written
    rw [KeepsLabels, isNext] at labels
    have paired := keeps.paired slot
    rw [isNext] at paired
    apply (keeps.notice written labels).setEffect (isPaired_tail paired)
    intro waiter isAbout
    change isAboutToLatch (state.effects slot).remaining waiter = true at isAbout
    rw [isNext] at isAbout
    cases isAbout
  · rintro address data rfl
    rw [LabelState.cpuStore]
    split
    · exact keeps
    · rename_i memory written
      exact keeps.notice written labels

theorem keepsSignals_start (isStart : IsStart state) : state.KeepsSignals byLabel := by
  obtain ⟨noComparing, noWaiters, -, idle⟩ := isStart
  refine ⟨?_, ?_, ?_⟩
  · intro slot
    rw [idle]
    trivial
  · intro waiting compared
    rw [noComparing] at compared
    cases compared
  · intro waiting member
    rw [noWaiters] at member
    cases member

/-! ## Draining -/

/-- Draining late enough takes the waiter out of the registry. -/
def IsEligible (state : LabelState) (ticks : ℤ) (waiting : Waiting) : Prop :=
  ∀ nowTicks, ticks ≤ nowTicks - waiting.waiter.registeredTicks → waiting ∉
      (state.collectSatisfied.collectDeadlockBroken ticks nowTicks).waiters

/-- Draining takes the waiter out, at once or after the next part of a release
that is under way. -/
def IsEventuallyEligible (state : LabelState) (ticks : ℤ) (waiting : Waiting) : Prop :=
  state.IsEligible ticks waiting ∨ ∃ slot, ∀ resumed ∈ (state.advance slot).waiters,
      resumed = waiting ∨ resumed =
            { waiting with waiter := { waiting.waiter with latched := true } } →
        (state.advance slot).IsEligible ticks resumed

theorem isEligible_of_now (backed : waiting.waiter.latched = true ∨
      isLabelSatisfied state.memory waiting.waiter = true ∨
        isProducedSatisfied state.lastProduced waiting.waiter = true) :
    state.IsEligible ticks waiting := by
  intro nowTicks late member
  obtain ⟨member, notBroken⟩ := List.mem_filter.mp member
  obtain ⟨-, notSatisfied⟩ := List.mem_filter.mp member
  rw [Bool.not_eq_true', Bool.or_eq_false_iff] at notSatisfied
  rw [decide_eq_true late, Bool.true_and, Bool.not_eq_true'] at notBroken
  rcases backed with isLatched | isSatisfied | isProduced
  · rw [notSatisfied.1] at isLatched
    cases isLatched
  · rw [notSatisfied.2] at isSatisfied
    cases isSatisfied
  · exact absurd isProduced (Bool.eq_false_iff.mp notBroken)

theorem isEventuallyEligible_of_aboutToLatch
    (isAbout : isAboutToLatch (state.effects slot).remaining waiting.waiter = true) :
    state.IsEventuallyEligible ticks waiting := by
  right
  refine ⟨slot, ?_⟩
  intro resumed member same
  have sameLabel : resumed.waiter.waitAddress = waiting.waiter.waitAddress ∧
      ∀ value, resumed.waiter.compare value = waiting.waiter.compare value := by
    rcases same with rfl | rfl
    · exact ⟨rfl, fun _ => rfl⟩
    · exact ⟨rfl, fun _ => rfl⟩
  apply isEligible_of_now
  unfold isAboutToLatch at isAbout
  rw [LabelState.advance] at member ⊢
  split at isAbout
  · rename_i address value rest isNext
    obtain ⟨isAddress, satisfies⟩ := Bool.and_eq_true_iff.mp isAbout
    rw [isNext]
    rw [← sameLabel.2] at satisfies
    rw [of_decide_eq_true isAddress, ← sameLabel.1]
    exact .inr (.inr (isProducedSatisfied_recorded satisfies))
  · rename_i address value rest isNext
    obtain ⟨isAddress, satisfies⟩ := Bool.and_eq_true_iff.mp isAbout
    rw [isNext] at member
    obtain ⟨earlier, isEarlier, sameSignal, isLatched | ⟨rfl, notLatching⟩⟩ :=
      mem_waiters_latch member
    · exact .inl isLatched
    · refine absurd ⟨?_, ?_⟩ notLatching
      · rw [sameLabel.1, of_decide_eq_true isAddress]
      · rw [sameLabel.2]
        exact satisfies
  · cases isAbout

/-- Along every run in which only releases satisfy the labels of registered waiters, or in
which no satisfying value is taken back, a queue that was signalled while it waited is
resumed by draining; in the first kind the labels may be overwritten at any time. -/
theorem no_signal_lost {ticks : ℤ}
    (reachable : Reachable IsStart (onlyWhen IsRecorded (Step ticks)) state ∨
      Reachable IsStart (onlyWhen KeepsLabels (Step ticks)) state) :
    ∀ waiting ∈ state.waiters, waiting.signalled = true →
      state.IsEventuallyEligible ticks waiting := by
  have keeps : state.KeepsSignals False ∨ state.KeepsSignals True := by
    refine reachable.imp (fun run => ?_) fun run => ?_
    · apply run.invariant
      · exact fun _ isStart => keepsSignals_start isStart
      · exact fun _ _ _ keeps taken => keeps.stepRecorded taken.1 taken.2
    · apply run.invariant
      · exact fun _ isStart => keepsSignals_start isStart
      · exact fun _ _ _ keeps taken => keeps.stepLabels taken.1 taken.2
  intro waiting member signalled
  have caughtOrLabel : state.IsCaught waiting.waiter ∨
      isLabelSatisfied state.memory waiting.waiter = true :=
    keeps.elim (fun kept => (kept.waiters waiting member signalled).imp_right fun label => label.2)
      fun kept => (kept.waiters waiting member signalled).imp_right fun label => label.2
  rcases caughtOrLabel with (isLatched | ⟨slot, isAbout⟩) | isSatisfied
  · exact .inl (isEligible_of_now (.inl isLatched))
  · exact isEventuallyEligible_of_aboutToLatch isAbout
  · exact .inl (isEligible_of_now (.inr (.inl isSatisfied)))

end LabelState

section Sample

open LabelState

/-- A dword at 0x1000. -/
def sampleMemory : Memory := fun address =>
  if inRange 0x1000 4 address then some 0 else none

def sampleStart : LabelState where
  memory := sampleMemory
  comparing := none
  waiters := []
  lastProduced := []
  effects _ := ⟨.graphics, []⟩

/-- The graphics queue waits for the dword to become one. -/
def sampleWaiter : WaitingDcb where
  resumeAddress := 0x2000
  totalDwords := 8
  resumeOffset := 7
  waitAddress := 0x1000
  referenceValue := 1
  mask := 0xffffffff
  compareFunction := 3
  is64Bit := false
  submissionId := 1
  registeredTicks := 0
  state := .graphics
  latched := false

def sampleWaiting : LabelState :=
  { sampleStart with waiters := [⟨sampleWaiter, false⟩] }

theorem sampleStart_isStart : IsStart sampleStart :=
  ⟨rfl, rfl, rfl, fun _ => rfl⟩

theorem sample_compares : Step 500 sampleStart (.compare sampleWaiter)
    { sampleStart with comparing := some ⟨sampleWaiter, false⟩ } :=
  .compare rfl (by decide)

theorem sample_registers : Step 500 { sampleStart with comparing := some ⟨sampleWaiter, false⟩ }
      .register sampleWaiting :=
  .register rfl

/-- The first parts of a compute queue's packet have run. -/
def sampleProduced (packet : ProducerPacket) (parts : ℕ) : LabelState :=
  (LabelState.advance · 0)^[parts] (sampleWaiting.setEffect 0 ⟨.compute 1, packet.acts⟩)

def sampleRelease : ProducerPacket := .releaseMem 0x10000 0x1000 1 0

/-- The guest resets the label right behind the write of a release. -/
def sampleReset : LabelState :=
  (sampleProduced sampleRelease 1).cpuStore 0x1000 [0, 0, 0, 0]

/-- A compute queue's release satisfies the label; the guest resets it before the release
has recorded its value, and before anything is drained. -/
theorem no_signal_lost_sample : ((sampleReset.advance 0).advance 0).IsEventuallyEligible 500
      ⟨{ sampleWaiter with latched := true }, true⟩ := by
  let step := onlyWhen IsRecorded (Step 500)
  have compares : step sampleStart (.compare sampleWaiter)
      { sampleStart with comparing := some ⟨sampleWaiter, false⟩ } :=
    ⟨trivial, sample_compares⟩
  have registers : step { sampleStart with comparing := some ⟨sampleWaiter, false⟩ } .register
      sampleWaiting :=
    ⟨trivial, sample_registers⟩
  have issues : step sampleWaiting (.issue 0 (.compute 1) sampleRelease)
      (sampleProduced sampleRelease 0) :=
    ⟨trivial, .issue rfl⟩
  have writes : step (sampleProduced sampleRelease 0) (.advance 0)
      (sampleProduced sampleRelease 1) := by
    refine ⟨⟨?_, ?_⟩, .advance⟩
    · intro memory _ waiting isComparing
      cases isComparing
    · intro memory _ waiting member _ _
      have isWaiting : (sampleProduced sampleRelease 0).waiters = [⟨sampleWaiter, false⟩] := by
        decide
      rw [isWaiting] at member
      rw [List.mem_singleton.mp member]
      exact .inr (by decide)
  have resets : step (sampleProduced sampleRelease 1) (.cpuStore 0x1000 [0, 0, 0, 0])
      sampleReset := by
    refine ⟨?_, .cpuStore⟩
    intro memory _ waiting isComparing
    cases isComparing
  have records : step sampleReset (.advance 0) (sampleReset.advance 0) :=
    ⟨trivial, .advance⟩
  have latches : step (sampleReset.advance 0) (.advance 0) ((sampleReset.advance 0).advance 0) :=
    ⟨trivial, .advance⟩
  have reachable := ((((((Reachable.start sampleStart_isStart).next
    compares).next registers).next issues).next writes).next resets).next records
  exact no_signal_lost (.inl (reachable.next latches)) _ (by decide) rfl

/-- A write of data satisfies the label as well, but nothing remembers it once the
guest resets the label. -/
theorem data_write_signal_lost : ¬∀ state, Reachable IsStart (Step 500) state →
      ∀ waiting ∈ state.waiters, waiting.signalled = true →
        state.IsEventuallyEligible 500 waiting := by
  let packet : ProducerPacket := .writeData false 1 0x1000 [1]
  let lost := (sampleProduced packet 1).cpuStore 0x1000 [0, 0, 0, 0]
  have issues : Step 500 sampleWaiting (.issue 0 (.compute 1) packet) (sampleProduced packet 0) :=
    .issue rfl
  have writes : Step 500 (sampleProduced packet 0) (.advance 0) (sampleProduced packet 1) :=
    .advance
  have resets : Step 500 (sampleProduced packet 1) (.cpuStore 0x1000 [0, 0, 0, 0]) lost :=
    .cpuStore
  have reachable : Reachable IsStart (Step 500) lost :=
    (((((Reachable.start sampleStart_isStart).next sample_compares).next
      sample_registers).next issues).next writes).next resets
  have notEligible : ¬lost.IsEligible 500 ⟨sampleWaiter, true⟩ := by
    intro eligible
    exact absurd (eligible 500 (by decide)) (by decide)
  intro always
  rcases always lost reachable ⟨sampleWaiter, true⟩ (by decide) rfl with
    eligible | ⟨slot, later⟩
  · exact notEligible eligible
  · have idle : (lost.effects slot).remaining = [] := by
      by_cases same : slot = 0
      · subst same
        decide
      · have isSlot : lost.effects slot = sampleStart.effects slot :=
          (Function.update_of_ne same _ _).trans (Function.update_of_ne same _ _)
        rw [isSlot]
        rfl
    have unchanged : lost.advance slot = lost := by
      rw [LabelState.advance, idle]
    rw [unchanged] at later
    exact notEligible (later ⟨sampleWaiter, true⟩ (by decide) (.inl rfl))

end Sample

end SharpEmu.Agc.LabelSignals
