import SharpEmu.VulkanGuestWork
import Mathlib.Data.List.Basic

/-!
# The schedule of the guest-work queues

The schedule names the queues that have items, and each of them once, so that one
round over it from the cursor finds an item whenever the first item of some queue
is ready.
-/

namespace SharpEmu.VideoOut

open Presenter

variable {Name : Type} [DecidableEq Name]
variable {presenter : Presenter Name} {queue : Name}

section Invariant

structure Scheduled (presenter : Presenter Name) : Prop where
  nodup : presenter.pendingGuestQueueSchedule.Nodup
  scheduled : ∀ queue, queue ∈ presenter.pendingGuestQueueSchedule ↔
    queue ∈ presenter.pendingGuestWorkByQueue
  nonempty : ∀ queue, queue ∈ presenter.pendingGuestWorkByQueue →
    presenter.pendingQueue queue ≠ []
  counted : presenter.pendingGuestWorkCount =
    Int32.ofNat (Buckets.items presenter.pendingGuestWorkByQueue).length
  keyed : Buckets.KeyedBy PendingGuestWork.queue
    presenter.pendingGuestWorkByQueue

end Invariant

section Queues

@[simp]
theorem pendingQueue_setQueue (presenter : Presenter Name) (queue other : Name)
    (items : List (PendingGuestWork Name)) :
    (presenter.setQueue queue items).pendingQueue other =
      if other = queue then items else presenter.pendingQueue other :=
  Buckets.bucket_insert _ _ _ _

@[simp]
theorem pendingQueue_removeFirst (presenter : Presenter Name) (cursor : ℕ)
    (queue other : Name) (rest : List (PendingGuestWork Name)) :
    (presenter.removeFirst cursor queue rest).pendingQueue other =
      if other = queue then rest else presenter.pendingQueue other := by
  rw [removeFirst]
  split
  · rename_i isEmpty
    rw [isEmpty]
    exact Buckets.bucket_erase _ _ _
  · exact Buckets.bucket_insert _ _ _ _

theorem removeFirst_eq (presenter : Presenter Name) (cursor : ℕ)
    (queue : Name) (rest : List (PendingGuestWork Name)) :
    ∃ queues schedule next, presenter.removeFirst cursor queue rest = { presenter with
        pendingGuestWorkCount := presenter.pendingGuestWorkCount - 1
        pendingGuestWorkByQueue := queues
        pendingGuestQueueSchedule := schedule
        pendingGuestQueueCursor := next } := by
  rw [removeFirst]
  split
  · exact ⟨_, _, _, rfl⟩
  · exact ⟨_, _, _, rfl⟩

theorem count_removeFirst (presenter : Presenter Name) (cursor : ℕ)
    (queue : Name) (rest : List (PendingGuestWork Name)) :
    (presenter.removeFirst cursor queue rest).pendingGuestWorkCount =
      presenter.pendingGuestWorkCount - 1 := by
  obtain ⟨_, _, _, isRemoved⟩ := removeFirst_eq presenter cursor queue rest
  rw [isRemoved]

variable {items : List (PendingGuestWork Name)}

theorem items_setQueue {item : PendingGuestWork Name}
    (isAdded : items.Perm (item :: presenter.pendingQueue queue)) :
    (Buckets.items (presenter.setQueue queue items).pendingGuestWorkByQueue).Perm
      (item :: Buckets.items presenter.pendingGuestWorkByQueue) :=
  Buckets.items_insert_cons isAdded

variable {first : PendingGuestWork Name} {rest : List (PendingGuestWork Name)}

theorem items_removeFirst (cursor : ℕ) (isQueue : presenter.pendingQueue queue = first :: rest) :
    (Buckets.items presenter.pendingGuestWorkByQueue).Perm (first :: Buckets.items
        (presenter.removeFirst cursor queue rest).pendingGuestWorkByQueue) := by
  rw [removeFirst]
  split
  · rename_i isEmpty
    rw [isEmpty] at isQueue
    exact Buckets.items_erase isQueue
  · exact Buckets.items_insert_rest isQueue

variable {after : Presenter Name}

theorem Scheduled.same (scheduled : Scheduled presenter)
    (sameSchedule : after.pendingGuestQueueSchedule = presenter.pendingGuestQueueSchedule)
    (sameQueues : after.pendingGuestWorkByQueue = presenter.pendingGuestWorkByQueue)
    (sameCount : after.pendingGuestWorkCount = presenter.pendingGuestWorkCount) :
    Scheduled after where
  nodup := sameSchedule ▸ scheduled.nodup
  scheduled := by
    rw [sameSchedule, sameQueues]
    exact scheduled.scheduled
  nonempty := by
    intro queue member
    rw [pendingQueue, sameQueues]
    rw [sameQueues] at member
    exact scheduled.nonempty queue member
  counted := by
    rw [sameCount, sameQueues]
    exact scheduled.counted
  keyed := sameQueues ▸ scheduled.keyed

theorem Scheduled.moveCursor (scheduled : Scheduled presenter) (cursor : ℕ) :
    Scheduled (presenter.moveCursor cursor) :=
  scheduled.same rfl rfl rfl

theorem Scheduled.setQueue (scheduled : Scheduled presenter) (item : PendingGuestWork Name)
    (isAdded : items.Perm (item :: presenter.pendingQueue item.queue))
    (sameSchedule : after.pendingGuestQueueSchedule =
      (presenter.setQueue item.queue items).pendingGuestQueueSchedule)
    (sameQueues : after.pendingGuestWorkByQueue =
      (presenter.setQueue item.queue items).pendingGuestWorkByQueue)
    (isCount : after.pendingGuestWorkCount = presenter.pendingGuestWorkCount + 1) :
    Scheduled after where
  nodup := by
    rw [sameSchedule, Presenter.setQueue]
    split
    · exact scheduled.nodup
    · rename_i missing
      rw [← scheduled.scheduled] at missing
      exact scheduled.nodup.append (List.nodup_singleton _) (List.disjoint_singleton.mpr missing)
  scheduled := by
    intro queue
    rw [sameSchedule, sameQueues]
    simp only [Presenter.setQueue, AList.mem_insert]
    split
    · rename_i present
      rw [scheduled.scheduled]
      constructor
      · exact .inr
      · rintro (rfl | member)
        · exact present
        · exact member
    · rw [List.mem_append, List.mem_singleton, scheduled.scheduled]
      exact or_comm
  nonempty := by
    intro queue member
    rw [pendingQueue, sameQueues]
    change (presenter.setQueue item.queue items).pendingQueue queue ≠ []
    rw [pendingQueue_setQueue]
    split
    · intro isEmpty
      rw [isEmpty] at isAdded
      exact absurd isAdded.symm (List.not_perm_cons_nil)
    · rename_i different
      rw [sameQueues] at member
      apply scheduled.nonempty
      exact (AList.mem_insert _).mp member |>.resolve_left different
  counted := by
    rw [isCount, sameQueues, (items_setQueue isAdded).length_eq,
      scheduled.counted, List.length_cons, Int32.ofNat_add]
    rfl
  keyed := by
    rw [sameQueues]
    apply scheduled.keyed.insert
    intro other member
    rcases List.mem_cons.mp (isAdded.mem_iff.mp member) with rfl | queued
    · rfl
    · exact scheduled.keyed _ _ queued

theorem Scheduled.removeFirst {cursor : ℕ} (scheduled : Scheduled presenter)
    (isScheduled : presenter.pendingGuestQueueSchedule[cursor]? = some queue)
    (isQueue : presenter.pendingQueue queue = first :: rest) :
    Scheduled (presenter.removeFirst cursor queue rest) := by
  have counted : presenter.pendingGuestWorkCount = Int32.ofNat (Buckets.items
      (presenter.removeFirst cursor queue rest).pendingGuestWorkByQueue).length + 1 := by
    rw [scheduled.counted, (items_removeFirst cursor isQueue).length_eq,
      List.length_cons, Int32.ofNat_add]
    rfl
  have member : queue ∈ presenter.pendingGuestWorkByQueue :=
    (scheduled.scheduled queue).mp (List.mem_of_getElem? isScheduled)
  have restKeyed : ∀ item ∈ rest, item.queue = queue := by
    intro item inRest
    apply scheduled.keyed
    change item ∈ presenter.pendingQueue queue
    rw [isQueue]
    exact List.mem_cons_of_mem _ inRest
  by_cases isEmpty : rest = []
  · have isErased : presenter.pendingGuestQueueSchedule.eraseIdx cursor =
        presenter.pendingGuestQueueSchedule.erase queue := by
      obtain ⟨bound, isIndex⟩ := List.getElem?_eq_some_iff.mp isScheduled
      rw [← isIndex, scheduled.nodup.erase_getElem]
    constructor
    · rw [Presenter.removeFirst, if_pos isEmpty]
      exact scheduled.nodup.sublist (List.eraseIdx_sublist _ _)
    · intro other
      rw [Presenter.removeFirst, if_pos isEmpty]
      simp only [isErased]
      rw [scheduled.nodup.mem_erase_iff, AList.mem_erase, scheduled.scheduled]
    · intro other otherMember
      rw [pendingQueue_removeFirst]
      rw [Presenter.removeFirst, if_pos isEmpty] at otherMember
      obtain ⟨different, present⟩ := AList.mem_erase.mp otherMember
      rw [if_neg different]
      exact scheduled.nonempty other present
    · rw [count_removeFirst, counted, Int32.add_sub_cancel]
    · rw [Presenter.removeFirst, if_pos isEmpty]
      exact scheduled.keyed.erase queue
  · constructor
    · rw [Presenter.removeFirst, if_neg isEmpty]
      exact scheduled.nodup
    · intro other
      rw [Presenter.removeFirst, if_neg isEmpty]
      simp only
      rw [scheduled.scheduled, AList.mem_insert]
      constructor
      · exact .inr
      · rintro (rfl | present)
        · exact member
        · exact present
    · intro other otherMember
      rw [pendingQueue_removeFirst]
      split
      · exact isEmpty
      · rename_i different
        rw [Presenter.removeFirst, if_neg isEmpty] at otherMember
        apply scheduled.nonempty
        exact ((AList.mem_insert _).mp otherMember).resolve_left different
    · rw [count_removeFirst, counted, Int32.add_sub_cancel]
    · rw [Presenter.removeFirst, if_neg isEmpty]
      exact scheduled.keyed.insert restKeyed

end Queues

section Probing

variable {excluded : Name → Bool}

/-- What probing the queues comes to: no item, or the first item of a queue that
is not excluded, whose dependency is complete. -/
inductive Probed (excluded : Name → Bool) (presenter : Presenter Name) :
    Option (PendingGuestWork Name) × Presenter Name → Prop
  | nothing (cursor : ℕ) :
      Probed excluded presenter (none, presenter.moveCursor cursor)
  | found (cursor : ℕ) (queue : Name) (first : PendingGuestWork Name)
      (rest : List (PendingGuestWork Name)) :
      presenter.pendingGuestQueueSchedule[cursor]? = some queue →
      excluded queue = false →
      presenter.pendingQueue queue = first :: rest →
      presenter.isGuestWorkCompletedLocked first.requiredSequence = true →
      Probed excluded presenter
        (some first, presenter.removeFirst cursor queue rest)

variable {cursor : ℕ}

theorem Probed.ofMoveCursor {result : Option (PendingGuestWork Name) × Presenter Name}
    (probed : Probed excluded (presenter.moveCursor cursor) result) :
    Probed excluded presenter result := by
  cases probed with
  | nothing last => exact .nothing last
  | found last queue first rest isScheduled isAllowed isQueue isReady =>
    exact .found last queue first rest isScheduled isAllowed isQueue isReady

/-- A queue that probing passes over. -/
def Blocked (excluded : Name → Bool) (presenter : Presenter Name) (queue : Name) : Prop :=
  excluded queue = true ∨ ∀ first rest, presenter.pendingQueue queue = first :: rest →
      presenter.isGuestWorkCompletedLocked first.requiredSequence = false

omit [DecidableEq Name] in
theorem firstProbe_lt (present : presenter.pendingGuestQueueSchedule ≠ []) :
    presenter.firstProbe < presenter.pendingGuestQueueSchedule.length := by
  rw [firstProbe]
  split
  · exact List.length_pos_iff.mpr present
  · rename_i inside
    exact Nat.lt_of_not_le inside

omit [DecidableEq Name] in
theorem firstProbe_moveCursor (bound : cursor < presenter.pendingGuestQueueSchedule.length) :
    (presenter.moveCursor cursor).firstProbe = cursor :=
  if_neg (Nat.not_le.mpr bound)

theorem probeQueues_turn (excluded : Name → Bool)
    (scheduled : Scheduled presenter) (fuel probes : ℕ) :
    (probes = 0 ∨ presenter.pendingGuestQueueSchedule = []) ∧
        probeQueues excluded (fuel + 1) probes presenter = (none, presenter) ∨
      (∃ queue first rest, presenter.pendingGuestQueueSchedule[presenter.firstProbe]? = some queue ∧
        excluded queue = false ∧
        presenter.pendingQueue queue = first :: rest ∧
        presenter.isGuestWorkCompletedLocked first.requiredSequence = true ∧
        probeQueues excluded (fuel + 1) probes presenter = (some first,
            presenter.removeFirst presenter.firstProbe queue rest)) ∨
      ∃ queue, presenter.pendingGuestQueueSchedule[presenter.firstProbe]? = some queue ∧
        Blocked excluded presenter queue ∧
        probeQueues excluded (fuel + 1) probes presenter = probeQueues excluded fuel (probes - 1)
            (presenter.moveCursor ((presenter.firstProbe + 1) %
              presenter.pendingGuestQueueSchedule.length)) := by
  by_cases isDone : probes = 0 ∨ presenter.pendingGuestQueueSchedule = []
  · left
    refine ⟨isDone, ?_⟩
    rw [probeQueues]
    rcases isDone with rfl | isEmpty
    · simp
    · simp [isEmpty]
  · obtain ⟨more, present⟩ := not_or.mp isDone
    right
    have bound := firstProbe_lt present
    have isScheduled := List.getElem?_eq_getElem bound
    generalize presenter.pendingGuestQueueSchedule[presenter.firstProbe] = queue at isScheduled
    have member := (scheduled.scheduled queue).mp (List.mem_of_getElem? isScheduled)
    obtain ⟨first, rest, isQueue⟩ :=
      List.exists_cons_of_ne_nil (scheduled.nonempty queue member)
    rw [probeQueues]
    simp only [isScheduled, isQueue, if_neg more]
    cases isExcluded : excluded queue with
    | true => exact .inr ⟨queue, rfl, .inl isExcluded, by simp⟩
    | false =>
      cases isReady : presenter.isGuestWorkCompletedLocked
          first.requiredSequence with
      | true =>
        exact .inl ⟨queue, first, rest, rfl, isExcluded, isQueue, isReady,
          by simp⟩
      | false =>
        refine .inr ⟨queue, rfl, .inr ?_, by simp⟩
        intro other others isOther
        rw [isQueue] at isOther
        cases isOther
        exact isReady

theorem probeQueues_spec (presenter : Presenter Name)
    (scheduled : Scheduled presenter) (fuel probes : ℕ) :
    Probed excluded presenter (probeQueues excluded fuel probes presenter) := by
  induction fuel generalizing presenter probes with
  | zero => exact .nothing presenter.pendingGuestQueueCursor
  | succ fuel ih =>
    rcases probeQueues_turn excluded scheduled fuel probes with
      ⟨_, isNone⟩ |
      ⟨queue, first, rest, isScheduled, isAllowed, isQueue, isReady, isSome⟩ |
      ⟨_, _, _, isSkipped⟩
    · rw [isNone]
      exact .nothing presenter.pendingGuestQueueCursor
    · rw [isSome]
      exact .found _ queue first rest isScheduled isAllowed isQueue isReady
    · rw [isSkipped]
      exact (ih _ (scheduled.moveCursor _) _).ofMoveCursor

theorem probeQueues_blocked (presenter : Presenter Name)
    (scheduled : Scheduled presenter) (fuel probes : ℕ) (enough : probes ≤ fuel)
    (isNone : (probeQueues excluded fuel probes presenter).1 = none)
    (turn : ℕ) (probed : turn < probes)
    (isScheduled : presenter.pendingGuestQueueSchedule[ (presenter.firstProbe + turn) %
        presenter.pendingGuestQueueSchedule.length]? = some queue) :
    Blocked excluded presenter queue := by
  induction fuel generalizing presenter probes turn with
  | zero => omega
  | succ fuel ih =>
    have present : presenter.pendingGuestQueueSchedule ≠ [] :=
      List.ne_nil_of_mem (List.mem_of_getElem? isScheduled)
    have bound := firstProbe_lt present
    rcases probeQueues_turn excluded scheduled fuel probes with
      ⟨isDone, _⟩ | ⟨_, _, _, _, _, _, _, isSome⟩ |
      ⟨first, isFirst, blocked, isSkipped⟩
    · rcases isDone with rfl | isEmpty
      · omega
      · exact absurd isEmpty present
    · rw [isSome] at isNone
      cases isNone
    · cases turn with
      | zero =>
        rw [Nat.add_zero, Nat.mod_eq_of_lt bound, isFirst] at isScheduled
        cases isScheduled
        exact blocked
      | succ turn =>
        rw [isSkipped] at isNone
        have next := firstProbe_moveCursor (Nat.mod_lt (presenter.firstProbe + 1)
            (List.length_pos_iff.mpr present))
        apply ih _ (scheduled.moveCursor _) _ (Nat.sub_le_of_le_add enough) isNone turn (by omega)
        rw [next]
        change presenter.pendingGuestQueueSchedule[(_ + turn) %
          presenter.pendingGuestQueueSchedule.length]? = some queue
        rw [Nat.mod_add_mod, Nat.add_right_comm, Nat.add_assoc]
        exact isScheduled

theorem tryTakeGuestWork_blocked (scheduled : Scheduled presenter)
    (isNone : (tryTakeGuestWork presenter excluded).1 = none)
    (isScheduled : queue ∈ presenter.pendingGuestQueueSchedule) :
    Blocked excluded presenter queue := by
  obtain ⟨index, indexBound, isIndex⟩ := List.mem_iff_getElem.mp isScheduled
  have bound := firstProbe_lt (List.ne_nil_of_mem isScheduled)
  have isAt := List.getElem?_eq_some_iff.mpr ⟨indexBound, isIndex⟩
  have spot : ∃ turn < presenter.pendingGuestQueueSchedule.length, (presenter.firstProbe + turn) %
        presenter.pendingGuestQueueSchedule.length = index := by
    rcases Nat.lt_or_ge index presenter.firstProbe with before | behind
    · refine ⟨index + presenter.pendingGuestQueueSchedule.length -
        presenter.firstProbe, by omega, ?_⟩
      rw [Nat.add_sub_of_le (by omega), Nat.add_mod_right, Nat.mod_eq_of_lt indexBound]
    · refine ⟨index - presenter.firstProbe, by omega, ?_⟩
      rw [Nat.add_sub_of_le behind, Nat.mod_eq_of_lt indexBound]
  obtain ⟨turn, probed, isTurn⟩ := spot
  apply probeQueues_blocked presenter scheduled _ _
    (Nat.le_mul_of_pos_left _ Nat.two_pos) isNone turn probed
  rw [isTurn]
  exact isAt

end Probing

end SharpEmu.VideoOut
