import SharpEmu.VulkanGuestWorkRuns

/-!
# Order and progress of the guest-work queues

Among the dispatches and draws that are queued, the one with the least number is
the first of its kind on its queue and waits only for smaller numbers, so it is
never blocked.  What blocks a queue is always a dispatch or draw; when no queue
is excluded, some queue can therefore go on.
-/

namespace SharpEmu.VideoOut

open Presenter

variable {Name : Type} [DecidableEq Name]
variable {presenter after : Presenter Name} {queue : Name}

section Progress

/-- Nothing is excluded, and the first item of every queue is blocked. -/
def Stuck (presenter : Presenter Name) : Prop :=
  ∀ queue first rest, presenter.pendingQueue queue = first :: rest →
    ¬ presenter.completedGuestWork.Holds first.requiredSequence

theorem Sound.noDependent_of_stuck (sound : Sound presenter)
    (isIdle : presenter.executing = none) (stuck : Stuck presenter)
    (sequence : ℕ) (queue : Name) (item : PendingGuestWork Name)
    (queued : item ∈ presenter.pendingQueue queue)
    (isDependent : isDependent item = true) : item.sequence ≠ sequence := by
  induction sequence using Nat.strong_induction_on generalizing queue item with
  | _ sequence ih =>
    rintro rfl
    obtain ⟨first, rest, isQueue⟩ :=
      List.exists_cons_of_ne_nil (List.ne_nil_of_mem queued)
    have blocked := stuck queue first rest isQueue
    have accepted : first ∈ presenter.accepted := by
      apply sound.numbered.queued_mem
      rw [isQueue]
      exact List.mem_cons_self
    rcases sound.numbered.dependencies first accepted with
      isFree | ⟨kind, less, owner, ownerAccepted, isOwner, ownerKind⟩
    · rw [isFree] at blocked
      exact blocked (.inl (Nat.zero_le _))
    -- The first item has the least number of its kind on the queue.
    have least : first.sequence ≤ item.sequence := by
      have rising := sound.inLine.rising queue
      rw [isQueue] at queued rising
      rcases List.mem_cons.mp queued with rfl | later
      · exact Nat.le_refl _
      · rw [List.filter_cons_of_pos kind, List.pairwise_cons] at rising
        exact Nat.le_of_lt (rising.1 item (List.mem_filter.mpr ⟨later, isDependent⟩))
    -- Its owner is not finished, so it is queued as well.
    have unfinished : owner ∈ presenter.finished ++ presenter.unfinished :=
      sound.numbered.partition.mem_iff.mp ownerAccepted
    rcases List.mem_append.mp unfinished with isFinished | isQueued
    · exact blocked ((sound.numbered.completed _).mpr (.inr ⟨owner, isFinished, isOwner⟩))
    · rw [Presenter.unfinished, running_eq_nil isIdle, List.nil_append,
        Buckets.mem_items] at isQueued
      obtain ⟨home, atHome⟩ := isQueued
      exact ih owner.sequence (by omega) home owner atHome ownerKind rfl

theorem Sound.not_stuck (sound : Sound presenter) (isIdle : presenter.executing = none)
    (isQueued : Buckets.items presenter.pendingGuestWorkByQueue ≠ []) :
    ¬ Stuck presenter := by
  intro stuck
  obtain ⟨item, rest, isItems⟩ := List.exists_cons_of_ne_nil isQueued
  have member : item ∈ Buckets.items presenter.pendingGuestWorkByQueue := by
    rw [isItems]
    exact List.mem_cons_self
  obtain ⟨queue, inBucket⟩ := Buckets.mem_items.mp member
  have queued : item ∈ presenter.pendingQueue queue := inBucket
  obtain ⟨first, others, isQueue⟩ :=
    List.exists_cons_of_ne_nil (List.ne_nil_of_mem queued)
  have firstQueued : first ∈ presenter.pendingQueue queue := by
    rw [isQueue]
    exact List.mem_cons_self
  rcases sound.numbered.dependencies first
      (sound.numbered.queued_mem firstQueued) with isFree | ⟨kind, _⟩
  · apply stuck queue first others isQueue
    rw [isFree]
    exact .inl (Nat.zero_le _)
  · exact sound.noDependent_of_stuck isIdle stuck first.sequence queue first firstQueued kind rfl

theorem Sound.progress (sound : Sound presenter) (isIdle : presenter.executing = none)
    (isQueued : Buckets.items presenter.pendingGuestWorkByQueue ≠ []) :
    (tryTakeGuestWork presenter fun _ => false).1 ≠ none := by
  intro isNone
  apply sound.not_stuck isIdle isQueued
  intro queue first rest isQueue
  have scheduled : queue ∈ presenter.pendingGuestQueueSchedule := by
    rw [sound.scheduled.scheduled]
    by_contra missing
    have isEmpty : presenter.pendingQueue queue = [] := by
      rw [pendingQueue, Buckets.bucket, AList.lookup_eq_none.mpr missing]
      rfl
    rw [isQueue] at isEmpty
    cases isEmpty
  rcases tryTakeGuestWork_blocked sound.scheduled isNone scheduled with
    isExcluded | blocked
  · cases isExcluded
  · exact of_decide_eq_false (blocked first rest isQueue)

end Progress

section Results

/-- What holds of the queues between two locked sections. -/
structure GuestWorkInOrder (presenter : Presenter Name) : Prop where
  completed_iff : ∀ sequence,
    presenter.isGuestWorkCompletedLocked sequence = true ↔
      sequence = 0 ∨ ∃ item ∈ presenter.finished, item.sequence = sequence
  accounted : presenter.accepted.Perm
    (presenter.finished ++ presenter.unfinished)
  numbers : presenter.accepted.map PendingGuestWork.sequence =
    List.range' 1 presenter.enqueuedGuestWorkSequence
  count_eq : presenter.pendingGuestWorkCount = Int32.ofNat
    (presenter.pendingGuestWorkByQueue.keys.map fun queue =>
      (presenter.pendingQueue queue).length).sum
  bytes_le : presenter.pendingGuestWorkBytes.toNat ≤ presenter.retainedBytes
  inOrder : ∀ queue, presenter.programOrder queue =
    (onQueue queue presenter.finished ++ presenter.line queue).map
      PendingGuestWork.sequence
  ready : ∀ item ∈ presenter.finished ++ presenter.running,
    presenter.isGuestWorkCompletedLocked item.requiredSequence = true
  taken : ∀ excluded item after,
    tryTakeGuestWork presenter excluded = (some item, after) →
      excluded item.queue = false ∧
      (∃ rest, presenter.pendingQueue item.queue = item :: rest) ∧
      presenter.isGuestWorkCompletedLocked item.requiredSequence = true
  progress : presenter.executing = none →
    Buckets.items presenter.pendingGuestWorkByQueue ≠ [] →
      (tryTakeGuestWork presenter fun _ => false).1 ≠ none

theorem Sound.taken (sound : Sound presenter) {excluded : Name → Bool}
    {item : PendingGuestWork Name}
    (isTaken : tryTakeGuestWork presenter excluded = (some item, after)) :
    excluded item.queue = false ∧ (∃ rest, presenter.pendingQueue item.queue = item :: rest) ∧
      presenter.isGuestWorkCompletedLocked item.requiredSequence = true := by
  have probed : Probed excluded presenter (tryTakeGuestWork presenter excluded) :=
    probeQueues_spec presenter sound.scheduled _ _
  rw [isTaken] at probed
  cases probed with
  | found cursor queue _ rest isScheduled isAllowed isQueue isReady =>
    have member : item ∈ presenter.pendingQueue queue := by
      rw [isQueue]
      exact List.mem_cons_self
    rw [sound.scheduled.keyed queue item member]
    exact ⟨isAllowed, ⟨rest, isQueue⟩, isReady⟩

theorem Sound.inOrder (sound : Sound presenter) : GuestWorkInOrder presenter where
  completed_iff := fun sequence =>
    decide_eq_true_iff.trans (sound.numbered.completed sequence)
  accounted := sound.numbered.partition
  numbers := sound.numbered.numbers
  count_eq := by
    rw [sound.scheduled.counted, Buckets.length_items]
    rfl
  bytes_le := sound.numbered.capped
  inOrder := sound.inLine.inOrder
  ready := fun item member =>
    decide_eq_true (sound.numbered.ready item member)
  taken := fun _ _ _ => sound.taken
  progress := sound.progress

/-- The payload of the unfinished items and of the new one fits the counter. -/
def PayloadFits (presenter : Presenter Name) : Action Name → Prop
  | .submit _ work _ | .followUp work =>
      presenter.retainedBytes + (guestWorkPayloadBytes work).toNat < 2 ^ 64
  | _ => True

/-- The counter of bytes has not been capped. -/
def Exact (presenter : Presenter Name) : Prop :=
  presenter.pendingGuestWorkBytes.toNat = presenter.retainedBytes

omit [DecidableEq Name] in
theorem Exact.accepts {work : GuestWork} (exact : Exact presenter)
    (fits : presenter.retainedBytes + (guestWorkPayloadBytes work).toNat < 2 ^ 64)
    (accepts : Accepts presenter queue work after) : Exact after := by
  rw [Exact] at exact
  rw [Exact, accepts.bytes, accepts.retainedBytes, toNat_saturatingAdd, exact,
    Nat.min_eq_left (by omega), Nat.add_comm]

theorem Exact.step {maxItems : ℕ} {maxBytes : UInt64} {action : Action Name}
    (exact : Exact presenter) (sound : Sound presenter)
    (fits : PayloadFits presenter action)
    (taken : Step maxItems maxBytes presenter action after) : Exact after := by
  cases taken with
  | submit queue work _ _ =>
    exact exact.accepts fits (accepts_submit presenter queue work)
  | followUp execution work isExecuting _ =>
    exact exact.accepts fits (accepts_submitFollowup isExecuting work)
  | take excluded isIdle =>
    have probed : Probed excluded presenter (tryTakeGuestWork presenter excluded) :=
      probeQueues_spec presenter sound.scheduled _ _
    rw [take]
    generalize tryTakeGuestWork presenter excluded = result at probed
    cases probed with
    | nothing cursor => exact exact
    | found cursor queue first rest _ _ isQueue _ =>
      have moved := unfinished_begin cursor isIdle isQueue
      have sameBytes : (presenter.begin cursor queue first
          rest).pendingGuestWorkBytes = presenter.pendingGuestWorkBytes := by
        obtain ⟨_, _, _, isRemoved⟩ :=
          removeFirst_eq presenter cursor queue rest
        rw [Presenter.begin, isRemoved]
      change Exact (presenter.begin cursor queue first rest)
      rw [Exact, sameBytes, retainedBytes_perm moved]
      exact exact
  | requeue execution isExecuting _ _ =>
    rw [Exact, retainedBytes_perm (unfinished_requeue isExecuting)]
    exact exact
  | complete execution isExecuting =>
    rw [Exact, retainedBytes_complete isExecuting, ← (show _ = _ from exact)]
    exact toNat_remaining _ _

/-- In every reachable state the queues are in order, their count is that of a 32-bit
counter, and the bytes that are retained are counted exactly as long as they fit. -/
theorem guest_work_in_order (maxItems : ℕ) (maxBytes : UInt64) : (∀ presenter : Presenter Name,
      Reachable (fun start => start = Presenter.new) (Step maxItems maxBytes)
        presenter → GuestWorkInOrder presenter ∧
          ∀ total, (presenter.pendingGuestWorkByQueue.keys.map fun queue =>
              (presenter.pendingQueue queue).length).sum = total → total < 2 ^ 31 →
            presenter.pendingGuestWorkCount.toInt = total) ∧
    ∀ presenter : Presenter Name, Reachable (fun start => start = Presenter.new)
        (onlyWhen PayloadFits (Step maxItems maxBytes)) presenter →
      presenter.pendingGuestWorkBytes.toNat = presenter.retainedBytes := by
  constructor
  · intro presenter reachable
    have inOrder := (sound_of_reachable reachable).inOrder
    refine ⟨inOrder, ?_⟩
    rintro total isTotal few
    rw [inOrder.count_eq, isTotal]
    exact Int32.toInt_ofNat_of_lt few
  · intro presenter reachable
    have both : Sound presenter ∧ Exact presenter := by
      apply reachable.invariant_onlyWhen
      · rintro _ rfl
        exact ⟨⟨.new, .new, .new⟩, rfl⟩
      · intro before action after ⟨sound, exact⟩ fits taken
        exact ⟨sound.step taken, exact.step sound fits taken⟩
    exact both.2

section Sample

/-- Dispatches that use one storage image on both queues, and an ordered action on the
second, which enqueues an image write while it is executed; the second dispatch waits
for the first, which the render thread has taken and completed. -/
def storageDispatch : GuestWork :=
  .computeDispatch [⟨0x1000, 10, true, 0⟩] [0x100]

def submitted : Presenter Bool :=
  submit (submit (submit new false storageDispatch) true storageDispatch) true .orderedAction

def dispatch (sequence required : ℕ) (queue : Bool) : Execution Bool :=
  ⟨⟨storageDispatch, 0x100, sequence, required, queue⟩, none, sequence⟩

def dispatched : Presenter Bool :=
  completeGuestWork (take (completeGuestWork (take submitted fun _ => false)
    (dispatch 1 0 false).item) fun _ => false) (dispatch 2 1 true).item

def action : Execution Bool :=
  ⟨⟨.orderedAction, 0, 3, 0, true⟩, none, 3⟩

def followedUp : Presenter Bool :=
  submitFollowup (take dispatched fun _ => false) action (.imageWrite 0x2000 (some 64))

theorem followedUp_reachable : Reachable (fun start => start = Presenter.new)
    (onlyWhen PayloadFits (Step 8 0x1000)) followedUp := by
  have accepts (before : Presenter Bool) (queue : Bool) (work : GuestWork)
      (few : before.retainedBytes ≤ 0x1000)
      (small : (guestWorkPayloadBytes work).toNat ≤ 0x1000)
      (room : mustWait 8 0x1000 before work = false) :
      onlyWhen PayloadFits (Step 8 0x1000) before (.submit queue work true)
        (submit before queue work) :=
    ⟨Nat.lt_of_le_of_lt (Nat.add_le_add few small) (by decide),
      .submit before queue work true fun _ => room⟩
  have takes (before : Presenter Bool) (isIdle : before.executing = none) :
      onlyWhen PayloadFits (Step 8 0x1000) before (.take fun _ => false)
        (take before fun _ => false) :=
    ⟨trivial, .take before _ isIdle⟩
  have completes (before : Presenter Bool) (execution : Execution Bool)
      (isExecuting : before.executing = some execution) :
      onlyWhen PayloadFits (Step 8 0x1000) before .complete
        (completeGuestWork before execution.item) :=
    ⟨trivial, .complete before execution isExecuting⟩
  have follows : onlyWhen PayloadFits (Step 8 0x1000) (take dispatched fun _ => false)
      (.followUp (.imageWrite 0x2000 (some 64))) followedUp :=
    ⟨show (take dispatched fun _ => false).retainedBytes + 64 < 2 ^ 64 by decide,
      .followUp _ action _ (by decide) rfl⟩
  have started : Reachable (fun start => start = Presenter.new)
      (onlyWhen PayloadFits (Step 8 0x1000)) (new : Presenter Bool) := .start rfl
  have first := started.next (accepts new false storageDispatch (by decide) (by decide) (by decide))
  have second := first.next (accepts _ true storageDispatch (by decide) (by decide) (by decide))
  have third : Reachable _ _ submitted := second.next (accepts _ true .orderedAction
    (by decide) (by decide) (by decide))
  have taken := (third.next (takes _ (by decide))).next
    (completes _ (dispatch 1 0 false) (by decide))
  have again : Reachable _ _ dispatched := (taken.next (takes _ (by decide))).next
    (completes _ (dispatch 2 1 true) (by decide))
  exact (again.next (takes _ (by decide))).next follows

/-- The follow-up stands behind the ordered action that is being executed. -/
theorem guest_work_in_order_sample :
    GuestWorkInOrder followedUp ∧ followedUp.pendingGuestWorkCount.toInt = 1 ∧
      followedUp.pendingGuestWorkBytes.toNat = followedUp.retainedBytes ∧
      followedUp.programOrder true = [2, 3, 4] := by
  obtain ⟨ordered, exact⟩ := @guest_work_in_order Bool _ 8 0x1000
  obtain ⟨inOrder, counted⟩ := ordered followedUp
    (followedUp_reachable.mono fun _ _ _ taken => taken.2)
  exact ⟨inOrder, counted 1 (by decide) (by decide), exact _ followedUp_reachable,
    by decide⟩

end Sample

section Flood

/-- A dispatch whose textures share the pixels of one array. -/
def sharingDispatch (textures : ℕ) (length : UInt64) : GuestWork :=
  .computeDispatch (List.replicate textures ⟨0x1000, 10, false, length⟩) []

theorem toNat_foldl_saturatingAdd (bytes : UInt64) (lengths : List UInt64) :
    (lengths.foldl saturatingAdd bytes).toNat =
      min (bytes.toNat + (lengths.map UInt64.toNat).sum) (2 ^ 64 - 1) := by
  induction lengths generalizing bytes with
  | nil =>
    have bound := bytes.toNat_lt
    simp only [List.foldl_nil, List.map_nil, List.sum_nil]
    omega
  | cons length lengths ih =>
    rw [List.foldl_cons, ih, toNat_saturatingAdd, List.map_cons, List.sum_cons]
    omega

variable {textures : ℕ} {length : UInt64}

theorem payload_sharingDispatch (fits : textures * length.toNat < 2 ^ 64) :
    (guestWorkPayloadBytes (sharingDispatch textures length)).toNat = textures * length.toNat := by
  have isNone : (0 : UInt64).toNat = 0 := rfl
  rw [sharingDispatch, guestWorkPayloadBytes, toNat_saturatingAdd, texturePayloadBytes,
    sumPayload, toNat_foldl_saturatingAdd, sumPayload, List.foldl_nil,
    List.map_replicate, List.map_replicate, List.sum_replicate_nat, isNone]
  dsimp only
  omega

/-- The dispatch, submitted any number of times before the render thread runs. -/
def flood (textures : ℕ) (length : UInt64) : ℕ → Presenter Unit
  | 0 => new
  | count + 1 => submit (flood textures length count) () (sharingDispatch textures length)

theorem reachable_flood (maxItems : ℕ) (maxBytes : UInt64) (textures : ℕ)
    (length : UInt64) (count : ℕ) :
    Reachable (fun start => start = Presenter.new) (Step maxItems maxBytes)
      (flood textures length count) := by
  induction count with
  | zero => exact .start rfl
  | succ count ih => exact ih.next (.submit _ () _ false nofun)

theorem retainedBytes_flood (fits : textures * length.toNat < 2 ^ 64) (count : ℕ) :
    (flood textures length count).retainedBytes = count * (textures * length.toNat) := by
  induction count with
  | zero => rw [Nat.zero_mul]; rfl
  | succ count ih =>
    rw [flood, (accepts_submit (flood textures length count) () _).retainedBytes,
      ih, payload_sharingDispatch fits, Nat.succ_mul, Nat.add_comm]

/-- The counter of bytes saturates: five dispatches do not fit whose lists of textures
and whose array of pixels are as long as either can be. -/
theorem pending_bytes_saturate :
    ¬ ∀ (maxItems : ℕ) (maxBytes : UInt64) (presenter : Presenter Unit),
      Reachable (fun start => start = Presenter.new) (Step maxItems maxBytes) presenter →
      presenter.pendingGuestWorkBytes.toNat = presenter.retainedBytes := by
  intro exact
  have longest : (0x7FFFFFC7 : UInt64).toNat = 0x7FFFFFC7 := rfl
  have isTotal := exact 0 0 (flood 0x7FFFFFC7 0x7FFFFFC7 5) (reachable_flood 0 0 _ _ _)
  rw [retainedBytes_flood (by rw [longest]; omega), longest] at isTotal
  have bound := (flood 0x7FFFFFC7 0x7FFFFFC7 5).pendingGuestWorkBytes.toNat_lt
  omega

end Flood

end Results

end SharpEmu.VideoOut
