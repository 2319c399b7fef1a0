import SharpEmu.KernelEventQueues

/-!
# Events that a wait loses

A wait takes events out of its queue before it writes them.  An event that cannot be
written is not put back, nor are the events after it; and when their number cannot be
reported, all of them are gone.
-/

namespace SharpEmu.KernelEventQueues

open Addressed (GuardedMemory)
open Addressed.GuardedMemory

/-! ## Taking events -/

namespace KernelEventDeque

theorem contents_removeFirsts (deque : KernelEventDeque) {count : ℕ}
    (enough : count ≤ deque.count) :
    (removeFirsts deque count).1 = deque.contents.take count ∧
      (removeFirsts deque count).2.contents = deque.contents.drop count := by
  induction count generalizing deque with
  | zero => exact ⟨rfl, rfl⟩
  | succ count ih =>
    obtain ⟨taken, left⟩ := ih deque.removeFirst (by change count ≤ deque.count - 1; omega)
    rw [removeFirsts, RingBuffer.contents_eq_cons (by omega : 0 < deque.count),
      List.take_succ_cons, List.drop_succ_cons, ← taken, ← left]
    exact ⟨rfl, rfl⟩

end KernelEventDeque

theorem length_bytes (queuedEvent : KernelQueuedEvent) :
    queuedEvent.bytes.length = kernelEventSize := by
  unfold KernelQueuedEvent.bytes
  simp only [List.length_append, Addressed.length_bytesOf]
  rfl

variable {memory : GuardedMemory} {address : UInt64} {queuedEvent : KernelQueuedEvent}

theorem isSome_writeKernelEvent : (writeKernelEvent memory address queuedEvent).isSome ↔
      memory.CanWrite address kernelEventSize := by
  unfold writeKernelEvent
  rw [isSome_tryWrite, length_bytes]

theorem sameAccess_of_writeKernelEvent {after : GuardedMemory}
    (written : writeKernelEvent memory address queuedEvent = some after) :
    SameAccess memory after := by
  unfold writeKernelEvent at written
  exact sameAccess_of_tryWrite written

variable {eventsAddress : UInt64}

theorem le_writeKernelEvents (events : List KernelQueuedEvent) (written : ℕ)
    (memory : GuardedMemory) :
    written ≤ (writeKernelEvents eventsAddress events written memory).1 := by
  induction events generalizing memory written with
  | nil => exact le_refl written
  | cons queuedEvent rest ih =>
    rw [writeKernelEvents]
    split
    · exact le_refl written
    · exact (Nat.le_succ written).trans (ih _ _)

theorem sameAccess_writeKernelEvents (events : List KernelQueuedEvent) (written : ℕ)
    (memory : GuardedMemory) :
    SameAccess memory (writeKernelEvents eventsAddress events written memory).2 := by
  induction events generalizing memory written with
  | nil => exact .refl memory
  | cons queuedEvent rest ih =>
    rw [writeKernelEvents]
    split
    · exact .refl memory
    · next isWritten => exact (sameAccess_of_writeKernelEvent isWritten).trans (ih _ _)

theorem writeKernelEvents_pos {events : List KernelQueuedEvent} (nonempty : events ≠ []) :
    0 < (writeKernelEvents eventsAddress events 0 memory).1 ↔
      memory.CanWrite eventsAddress kernelEventSize := by
  obtain ⟨queuedEvent, rest, rfl⟩ := List.exists_cons_of_ne_nil nonempty
  have canWrite : (writeKernelEvent memory eventsAddress queuedEvent).isSome ↔ _ :=
    isSome_writeKernelEvent
  rw [writeKernelEvents, Nat.zero_mul, Addressed.add_ofNat_zero, ← canWrite]
  split
  · next failed => simp [failed]
  · next isWritten =>
    rw [isWritten]
    exact iff_of_true (le_writeKernelEvents _ _ _) rfl

namespace EventQueues

variable {queues : EventQueues} {wait : Wait}

def pendingOf (queues : EventQueues) (handle : UInt64) : List KernelQueuedEvent :=
  (queues.pendingEvents handle).elim [] RingBuffer.contents

def CanReport (queues : EventQueues) (wait : Wait) : Prop :=
  wait.outCountAddress = 0 ∨ queues.memory.CanWrite wait.outCountAddress 4

instance (queues : EventQueues) (wait : Wait) : Decidable (queues.CanReport wait) :=
  inferInstanceAs (Decidable (_ ∨ _))

def CanDeliver (queues : EventQueues) (wait : Wait) : Prop :=
  queues.pendingOf wait.handle ≠ [] ∧
    queues.memory.CanWrite wait.eventsAddress kernelEventSize ∧ queues.CanReport wait

def LooksAgain (queues : EventQueues) (wait : Wait) (canBlock : Bool) : Prop :=
  (wait.timeoutAddress = 0 ∧ canBlock) ∨
    (wait.timeoutAddress ≠ 0 ∧ (queues.memory.tryReadUInt64 wait.timeoutAddress).isSome)

/-- The arguments of a wait that does not even look. -/
def Refuses (queues : EventQueues) (wait : Wait) : Prop :=
  ¬ queues.eventQueues wait.handle ∨ wait.eventsAddress = 0 ∨ wait.eventCapacity < 1 ∨
    (wait.timeoutAddress ≠ 0 ∧ Addressed.readBytes queues.memory.bytes wait.timeoutAddress 4 = none)

def Look.KeepsPending (wait : Wait) (look : Look) : Prop :=
  look.left.pendingOf wait.handle = look.found.pendingOf wait.handle

instance (wait : Wait) (look : Look) : Decidable (look.KeepsPending wait) :=
  inferInstanceAs (Decidable (_ = _))

theorem dequeueEvents_of_nothing (nothing : queues.pendingOf wait.handle = []) :
    queues.dequeueEvents wait.handle wait.eventsAddress wait.eventCapacity = (0, queues) := by
  unfold dequeueEvents pendingOf at *
  split
  · rfl
  · split
    · rfl
    · next queue isQueue =>
      rw [isQueue] at nothing
      have isEmpty : queue.count = 0 := by
        rw [← RingBuffer.length_contents]
        exact List.length_eq_zero_iff.mpr nothing
      rw [if_pos isEmpty]

theorem dequeueEvents_of_pending (hasBuffer : wait.eventsAddress ≠ 0)
    (hasCapacity : 0 < wait.eventCapacity) (pending : queues.pendingOf wait.handle ≠ []) :
    ∃ events, events ≠ [] ∧
      let (count, memory) := writeKernelEvents wait.eventsAddress events 0 queues.memory
      (queues.dequeueEvents wait.handle wait.eventsAddress wait.eventCapacity).1 = count ∧
      (queues.dequeueEvents wait.handle wait.eventsAddress wait.eventCapacity).2.memory = memory ∧
      (queues.dequeueEvents wait.handle wait.eventsAddress
        wait.eventCapacity).2.pendingOf wait.handle ≠ queues.pendingOf wait.handle := by
  unfold pendingOf at pending
  unfold dequeueEvents
  rw [if_neg (not_or.mpr ⟨hasBuffer, hasCapacity.ne'⟩)]
  cases isQueue : queues.pendingEvents wait.handle with
  | none =>
    rw [isQueue] at pending
    exact absurd rfl pending
  | some queue =>
    rw [isQueue] at pending
    have positive : 0 < queue.count := by
      rw [← RingBuffer.length_contents]
      exact List.length_pos_of_ne_nil pending
    have some_taken : 0 < min wait.eventCapacity queue.count := by omega
    obtain ⟨taken, left⟩ := KernelEventDeque.contents_removeFirsts queue
      (min_le_right wait.eventCapacity queue.count)
    refine ⟨(KernelEventDeque.removeFirsts queue (min wait.eventCapacity queue.count)).1, ?_, ?_⟩
    · rw [taken, ne_eq, List.take_eq_nil_iff, not_or]
      exact ⟨some_taken.ne', pending⟩
    · dsimp only
      rw [if_neg positive.ne']
      refine ⟨rfl, rfl, ?_⟩
      unfold pendingOf
      dsimp only
      rw [Function.update_self, isQueue]
      intro same
      have sameLength := congrArg List.length same
      change (RingBuffer.contents _).length = queue.contents.length at sameLength
      rw [left, List.length_drop, RingBuffer.length_contents] at sameLength
      omega

theorem canReport_congr {after : EventQueues} (same : SameAccess queues.memory after.memory) :
    after.CanReport wait ↔ queues.CanReport wait :=
  or_congr Iff.rfl same.canWrite_iff

theorem canWrite_count {memory : GuardedMemory} {address : UInt64} {value : UInt32} :
    (memory.tryWriteUInt32 address value).isSome ↔ memory.CanWrite address 4 := by
  unfold GuardedMemory.tryWriteUInt32
  rw [isSome_tryWrite, Addressed.length_bytesOf]

/-- What happens to the count. -/
theorem deliver_cases (queues : EventQueues) (wait : Wait) :
    let taken := queues.dequeueEvents wait.handle wait.eventsAddress wait.eventCapacity
    (queues.deliver wait).1 = (if taken.2.CanReport wait then some taken.1 else none) ∧
      (queues.deliver wait).2.pendingEvents = taken.2.pendingEvents ∧
      SameAccess taken.2.memory (queues.deliver wait).2.memory := by
  unfold deliver
  generalize queues.dequeueEvents wait.handle wait.eventsAddress wait.eventCapacity = taken
  dsimp only
  split
  · next noCount =>
    rw [if_pos (.inl noCount)]
    exact ⟨rfl, rfl, .refl _⟩
  · next hasCount =>
    split
    · next failed =>
      have cannot : ¬ taken.2.CanReport wait := fun canReport => by
        have isWritten : (taken.2.memory.tryWriteUInt32 _ (.ofNat taken.1)).isSome :=
          canWrite_count.mpr (canReport.resolve_left hasCount)
        rw [failed] at isWritten
        cases isWritten
      rw [if_neg cannot]
      exact ⟨rfl, rfl, .refl _⟩
    · next memory isWritten =>
      rw [if_pos (.inr (canWrite_count.mp (Option.isSome_of_eq_some isWritten)))]
      exact ⟨rfl, rfl, sameAccess_of_tryWrite isWritten⟩

/-- What a look does: it tells whether the count can be reported, and whether an event
was delivered; and it loses what is pending, unless that is nothing. -/
structure Delivers (queues : EventQueues) (wait : Wait) : Prop where
  reported : (queues.deliver wait).1 = none ↔ ¬ queues.CanReport wait
  delivered : ∀ count, (queues.deliver wait).1 = some count →
    (0 < count ↔ queues.pendingOf wait.handle ≠ [] ∧
      queues.memory.CanWrite wait.eventsAddress kernelEventSize)
  keeps : (queues.deliver wait).2.pendingOf wait.handle = queues.pendingOf wait.handle ↔
    queues.pendingOf wait.handle = []
  access : SameAccess queues.memory (queues.deliver wait).2.memory

theorem delivers (queues : EventQueues) {wait : Wait} (hasBuffer : wait.eventsAddress ≠ 0)
    (hasCapacity : 0 < wait.eventCapacity) : queues.Delivers wait := by
  obtain ⟨isReported, samePending, sameAccess⟩ := deliver_cases queues wait
  have leftPending : (queues.deliver wait).2.pendingOf wait.handle =
      (queues.dequeueEvents wait.handle wait.eventsAddress
        wait.eventCapacity).2.pendingOf wait.handle := by
    unfold pendingOf
    rw [samePending]
  by_cases pending : queues.pendingOf wait.handle = []
  · rw [dequeueEvents_of_nothing pending] at isReported sameAccess leftPending
    refine ⟨?_, ?_, iff_of_true leftPending pending, sameAccess⟩
    · rw [isReported]
      simp
    · intro count isCount
      rw [isReported] at isCount
      split at isCount
      · cases isCount
        exact iff_of_false (Nat.lt_irrefl 0) fun both => both.1 pending
      · cases isCount
  · obtain ⟨events, nonempty, isCount, isMemory, different⟩ :=
      dequeueEvents_of_pending hasBuffer hasCapacity pending
    have written : SameAccess _ (writeKernelEvents wait.eventsAddress events 0 _).2 :=
      sameAccess_writeKernelEvents events 0 queues.memory
    rw [← isMemory] at written
    refine ⟨?_, ?_, iff_of_false (leftPending ▸ different) pending, written.trans sameAccess⟩
    · rw [isReported]
      simp [canReport_congr written]
    · intro count itsCount
      rw [isReported] at itsCount
      split at itsCount
      · cases itsCount
        rw [isCount, writeKernelEvents_pos nonempty]
        exact ⟨fun canWrite => ⟨pending, canWrite⟩, And.right⟩
      · cases itsCount

theorem Delivers.canDeliver_iff (delivers : queues.Delivers wait) {count : ℕ}
    (isCount : (queues.deliver wait).1 = some count) : queues.CanDeliver wait ↔ 0 < count := by
  have canReport : queues.CanReport wait := by
    by_contra cannot
    rw [delivers.reported.mpr cannot] at isCount
    cases isCount
  rw [delivers.delivered count isCount]
  exact ⟨fun can => ⟨can.1, can.2.1⟩, fun can => ⟨can.1, can.2, canReport⟩⟩

theorem resumeWaitEqueue_ok_iff (delivers : queues.Delivers wait) :
    (queues.resumeWaitEqueue wait).1 = .ok ↔ queues.CanDeliver wait := by
  unfold resumeWaitEqueue
  rcases isDelivered : queues.deliver wait with ⟨_ | count, left⟩
  · refine iff_of_false (by simp) fun can => ?_
    exact (delivers.reported.mp (by rw [isDelivered])) can.2.2
  · have isCount : (queues.deliver wait).1 = some count := by rw [isDelivered]
    rw [delivers.canDeliver_iff isCount]
    dsimp only
    split
    · next positive => exact iff_of_true rfl positive
    · next zero => exact iff_of_false (by simp) zero

theorem resumeWaitEqueue_snd (queues : EventQueues) (wait : Wait) :
    (queues.resumeWaitEqueue wait).2 = (queues.deliver wait).2 := by
  unfold resumeWaitEqueue
  rcases queues.deliver wait with ⟨_ | count, left⟩ <;> rfl

/-- The condition under which a wait that fails loses nothing: if an event is pending,
then the count can be reported; and if the wait looks twice in vain, then no event was
pending either time. -/
def LosesNothing (queues : EventQueues) (wait : Wait) (canBlock : Bool)
    (later : EventQueues) : Prop :=
  queues.Refuses wait ∨ (queues.pendingOf wait.handle = [] ∨ queues.CanReport wait) ∧
      (queues.CanReport wait → queues.LooksAgain wait canBlock → ¬ queues.CanDeliver wait →
        ¬ later.CanDeliver wait →
          queues.pendingOf wait.handle = [] ∧ later.pendingOf wait.handle = [])

theorem kernelWaitEqueue_of_refuses (refuses : queues.Refuses wait) (canBlock : Bool)
    (later : EventQueues) : (queues.kernelWaitEqueue wait canBlock later).2 = [] := by
  unfold kernelWaitEqueue
  unfold Refuses at refuses
  split
  · rfl
  · next known =>
    split
    · rfl
    · next valid =>
      rw [if_pos]
      rcases refuses with unknown | noBuffer | noCapacity | unreadable
      · exact absurd unknown known
      · exact absurd (.inl noBuffer) valid
      · exact absurd (.inr noCapacity) valid
      · exact unreadable

/-- A wait that fails leaves every event pending each time it looks exactly when the
condition holds. -/
theorem failed_wait_keeps_pending_iff (queues : EventQueues) (wait : Wait) (canBlock : Bool)
    (later : EventQueues) :
    ((queues.kernelWaitEqueue wait canBlock later).1 ≠ .ok →
        ∀ look ∈ (queues.kernelWaitEqueue wait canBlock later).2, look.KeepsPending wait) ↔
      queues.LosesNothing wait canBlock later := by
  by_cases refuses : queues.Refuses wait
  · refine iff_of_true (fun _ look isLook => ?_) (.inl refuses)
    rw [kernelWaitEqueue_of_refuses refuses] at isLook
    cases isLook
  · unfold LosesNothing
    rw [or_iff_right refuses]
    unfold Refuses at refuses
    simp only [not_or] at refuses
    obtain ⟨isQueue, hasBuffer, hasCapacity, readable⟩ := refuses
    have now := delivers queues hasBuffer (by omega)
    have looksLater := delivers later hasBuffer (by omega)
    unfold kernelWaitEqueue
    rw [if_neg isQueue, if_neg (not_or.mpr ⟨hasBuffer, hasCapacity⟩), if_neg readable]
    rcases isDelivered : queues.deliver wait with ⟨_ | count, left⟩
    · have cannot := now.reported.mp (by rw [isDelivered])
      have keeps := now.keeps
      rw [isDelivered] at keeps
      simp [cannot, Look.KeepsPending, keeps]
    · have canReport : queues.CanReport wait := by
        by_contra cannot
        have failed := now.reported.mpr cannot
        rw [isDelivered] at failed
        cases failed
      have canDeliver := now.canDeliver_iff (by rw [isDelivered])
      have again : (left.memory.tryReadUInt64 wait.timeoutAddress).isSome =
          (queues.memory.tryReadUInt64 wait.timeoutAddress).isSome := by
        have access := now.access
        rw [isDelivered] at access
        exact access.isSome_tryReadUInt64 wait.timeoutAddress
      have keeps := now.keeps
      rw [isDelivered] at keeps
      dsimp only at keeps canDeliver ⊢
      rw [again]
      split
      · next positive => simp [canReport, canDeliver.mpr positive]
      · next zero =>
        have cannotDeliver := fun can => zero (canDeliver.mp can)
        split
        · next looksAgain =>
          have ends := resumeWaitEqueue_ok_iff looksLater
          have keepsLater := looksLater.keeps
          rw [← resumeWaitEqueue_snd] at keepsLater
          generalize later.resumeWaitEqueue wait = resumption at ends keepsLater ⊢
          obtain ⟨result, resumed⟩ := resumption
          dsimp only at ends keepsLater ⊢
          by_cases canLater : later.CanDeliver wait
          · exact iff_of_true (fun failed => absurd (ends.mpr canLater) failed)
              ⟨.inr canReport, fun _ _ _ cannot => absurd canLater cannot⟩
          · have failed : result ≠ .ok := fun isOk => canLater (ends.mp isOk)
            constructor
            · intro kept
              refine ⟨.inr canReport, fun _ _ _ _ => ⟨keeps.mp ?_, keepsLater.mp ?_⟩⟩
              · exact kept failed _ (List.mem_cons_self ..)
              · exact kept failed _ (List.mem_cons_of_mem _ (List.mem_cons_self ..))
            · rintro ⟨-, nothing⟩ - look isLook
              obtain ⟨nothingNow, nothingLater⟩ :=
                nothing canReport looksAgain cannotDeliver canLater
              rcases List.mem_cons.mp isLook with rfl | isSecond
              · exact keeps.mpr nothingNow
              · obtain rfl := List.mem_singleton.mp isSecond
                exact keepsLater.mpr nothingLater
        · next once =>
          have notAgain : ¬ queues.LooksAgain wait canBlock := once
          simp [canReport, notAgain]

def oneUserEvent : EventQueues where
  eventQueues handle := handle = 2
  pendingEvents handle :=
    if handle = 2 then
      KernelEventDeque.new.addLast
        { ident := 7, filter := -11, flags := 0x21, fflags := 0, data := 1, userData := 0 }
    else none
  memory := ⟨fun address => if address < 0x8000 then some 0 else none, fun _ => true⟩

/-- A timed wait with a buffer at 0x9000 times out, and the event is gone. -/
theorem unwritten_event_is_lost :
    ¬ ∀ (queues : EventQueues) (wait : Wait) (canBlock : Bool) (later : EventQueues),
      (queues.kernelWaitEqueue wait canBlock later).1 ≠ .ok →
        ∀ look ∈ (queues.kernelWaitEqueue wait canBlock later).2, look.KeepsPending wait := by
  intro claim
  have kept := claim oneUserEvent ⟨2, 0x9000, 1, 0, 0x1000⟩ false
    { oneUserEvent with pendingEvents := fun _ => none } (by decide +kernel)
  revert kept
  decide +kernel

end EventQueues

end SharpEmu.KernelEventQueues
