import SharpEmu.TransitionRuns
import SharpEmu.VulkanGuestWorkSchedule
import Mathlib.Algebra.BigOperators.Group.List.Basic

/-!
# Runs of the guest-work queues

Every accepted item is finished, running, or in the queue it was submitted on.
The invariant has two parts besides the schedule: the numbers and dependencies of
the accepted items, and the order in which each queue runs.
-/

namespace SharpEmu.VideoOut

open Presenter

variable {Name : Type}
variable {presenter after : Presenter Name} {queue : Name}

section Steps

variable [DecidableEq Name]

inductive Action (Name : Type)
  | submit (queue : Name) (work : GuestWork) (isRunning : Bool)
  | followUp (work : GuestWork)
  | take (excluded : Name → Bool)
  | requeue
  | complete

/-- The locked sections.  A producer waits for room only while the render thread
runs; the render thread executes one item at a time, its follow-ups are image
writes and ordered actions, and it defers an ordered action only before it has
run. -/
inductive Step (maxItems : ℕ) (maxBytes : UInt64) :
    Presenter Name → Action Name → Presenter Name → Prop
  | submit (presenter : Presenter Name) (queue : Name) (work : GuestWork)
      (isRunning : Bool) :
      (isRunning = true → mustWait maxItems maxBytes presenter work = false) →
      Step maxItems maxBytes presenter (.submit queue work isRunning)
        (submit presenter queue work)
  | followUp (presenter : Presenter Name) (execution : Execution Name)
      (work : GuestWork) :
      presenter.executing = some execution → work.textures = [] →
      Step maxItems maxBytes presenter (.followUp work)
        (submitFollowup presenter execution work)
  | take (presenter : Presenter Name) (excluded : Name → Bool) :
      presenter.executing = none →
      Step maxItems maxBytes presenter (.take excluded)
        (take presenter excluded)
  | requeue (presenter : Presenter Name) (execution : Execution Name) :
      presenter.executing = some execution →
      execution.item.work = .orderedAction → execution.followupTail = none →
      Step maxItems maxBytes presenter .requeue
        (requeueGuestWorkFront presenter execution.item)
  | complete (presenter : Presenter Name) (execution : Execution Name) :
      presenter.executing = some execution →
      Step maxItems maxBytes presenter .complete
        (completeGuestWork presenter execution.item)

end Steps

section Views

def Presenter.running (presenter : Presenter Name) : List (PendingGuestWork Name) :=
  presenter.executing.toList.map Execution.item

theorem running_eq_nil (isIdle : presenter.executing = none) : presenter.running = [] := by
  rw [running, isIdle]
  rfl

theorem running_eq_singleton {execution : Execution Name}
    (isExecuting : presenter.executing = some execution) :
    presenter.running = [execution.item] := by
  rw [running, isExecuting]
  rfl

/-- The accepted items that are not finished. -/
def Presenter.unfinished (presenter : Presenter Name) : List (PendingGuestWork Name) :=
  presenter.running ++ Buckets.items presenter.pendingGuestWorkByQueue

def isDependent (item : PendingGuestWork Name) : Bool :=
  item.work.textures ≠ []

/-- The payload of the unfinished items. -/
def Presenter.retainedBytes (presenter : Presenter Name) : ℕ :=
  (presenter.unfinished.map fun item => item.payloadBytes.toNat).sum

/-- Where the last follow-up stands behind the item that is being executed. -/
def Execution.position (execution : Execution Name) : ℕ :=
  match execution.followupTail with
  | some index => index + 1
  | none => 0

variable [DecidableEq Name]

def onQueue (queue : Name) (items : List (PendingGuestWork Name)) : List (PendingGuestWork Name) :=
  items.filter fun item => item.queue = queue

@[simp]
theorem onQueue_nil (queue : Name) : onQueue queue [] = [] :=
  rfl

theorem onQueue_append (queue : Name) (first second : List (PendingGuestWork Name)) :
    onQueue queue (first ++ second) = onQueue queue first ++ onQueue queue second :=
  List.filter_append _ _

theorem onQueue_singleton (queue : Name) (item : PendingGuestWork Name) :
    onQueue queue [item] = if item.queue = queue then [item] else [] := by
  rw [onQueue]
  split
  · rename_i same
    exact List.filter_cons_of_pos (decide_eq_true same)
  · rename_i different
    exact List.filter_cons_of_neg (by simp [different])

/-- The unfinished items of a queue, the running one in front. -/
def Presenter.line (presenter : Presenter Name) (queue : Name) : List (PendingGuestWork Name) :=
  onQueue queue presenter.running ++ presenter.pendingQueue queue

end Views

section Invariant

variable [DecidableEq Name]

def HasOwner (accepted : List (PendingGuestWork Name)) (sequence : ℕ) : Prop :=
  ∃ owner ∈ accepted, owner.sequence = sequence ∧ isDependent owner = true

structure Numbered (presenter : Presenter Name) : Prop where
  partition : presenter.accepted.Perm
    (presenter.finished ++ presenter.unfinished)
  numbers : presenter.accepted.map PendingGuestWork.sequence =
    List.range' 1 presenter.enqueuedGuestWorkSequence
  completed : ∀ sequence, presenter.completedGuestWork.Holds sequence ↔
    sequence = 0 ∨ ∃ item ∈ presenter.finished, item.sequence = sequence
  owners : ∀ key upload, presenter.pendingGuestImageUploads key = some upload →
    HasOwner presenter.accepted upload.ownerSequence
  dependencies : ∀ item ∈ presenter.accepted, item.requiredSequence = 0 ∨
    (isDependent item = true ∧ item.requiredSequence < item.sequence ∧
      HasOwner presenter.accepted item.requiredSequence)
  ready : ∀ item ∈ presenter.finished ++ presenter.running,
    presenter.completedGuestWork.Holds item.requiredSequence
  capped : presenter.pendingGuestWorkBytes.toNat ≤ presenter.retainedBytes

/-- Each queue runs in program order, and its dispatches and draws are in the
order of their numbers. -/
structure InLine (presenter : Presenter Name) : Prop where
  inOrder : ∀ queue, presenter.programOrder queue =
    (onQueue queue presenter.finished ++ presenter.line queue).map
      PendingGuestWork.sequence
  rising : ∀ queue, ((presenter.pendingQueue queue).filter isDependent).Pairwise
    fun first second => first.sequence < second.sequence
  tail : ∀ execution, presenter.executing = some execution →
    ∃ last, (execution.item :: presenter.pendingQueue execution.item.queue)[
      execution.position]? = some last ∧ last.sequence = execution.lastSequence

end Invariant

section Payload

theorem toNat_saturatingAdd (left right : UInt64) : (saturatingAdd left right).toNat =
      min (left.toNat + right.toNat) (2 ^ 64 - 1) := by
  have leftBound := left.toNat_lt
  have rightBound := right.toNat_lt
  have room : (0xffffffffffffffff - left).toNat = 2 ^ 64 - 1 - left.toNat :=
    UInt64.toNat_sub_of_le _ _ (by rw [UInt64.le_iff_toNat_le]; simp; omega)
  rw [saturatingAdd]
  split
  · rename_i overflows
    rw [UInt64.lt_iff_toNat_lt, room] at overflows
    rw [Nat.min_eq_right (by omega)]
    rfl
  · rename_i fits
    rw [UInt64.lt_iff_toNat_lt, room] at fits
    rw [UInt64.toNat_add, Nat.mod_eq_of_lt (by omega), Nat.min_eq_left (by omega)]

theorem retainedBytes_perm {items : List (PendingGuestWork Name)}
    (perm : presenter.unfinished.Perm items) :
    presenter.retainedBytes = (items.map fun item => item.payloadBytes.toNat).sum :=
  (perm.map _).sum_eq

end Payload

section Dependencies

theorem foldl_max_mem {Item : Type*} (value : Item → ℕ) (items : List Item) (start : ℕ) :
    items.foldl (fun required item => max required (value item)) start = start ∨
      ∃ item ∈ items, value item =
        items.foldl (fun required item => max required (value item)) start := by
  induction items generalizing start with
  | nil => exact .inl rfl
  | cons first rest ih =>
    rw [List.foldl_cons]
    rcases ih (max start (value first)) with
      same | ⟨item, member, isValue⟩
    · rw [same]
      rcases Nat.le_total (value first) start with less | more
      · exact .inl (Nat.max_eq_left less)
      · exact .inr ⟨first, List.mem_cons_self, (Nat.max_eq_right more).symm⟩
    · exact .inr ⟨item, List.mem_cons_of_mem _ member, isValue⟩

theorem getGuestWorkDependencyLocked_owner (presenter : Presenter Name) (work : GuestWork) :
    getGuestWorkDependencyLocked presenter work = 0 ∨ (work.textures ≠ [] ∧ ∃ key upload,
        presenter.pendingGuestImageUploads key = some upload ∧
        upload.ownerSequence = getGuestWorkDependencyLocked presenter work) := by
  rcases foldl_max_mem (uploadOwner presenter) work.textures 0 with
    isZero | ⟨texture, member, isOwner⟩
  · exact .inl isZero
  · rw [getGuestWorkDependencyLocked, ← isOwner, uploadOwner]
    split
    · exact .inl rfl
    · split
      · rename_i upload isUpload
        exact .inr ⟨List.ne_nil_of_mem member, _, upload, isUpload, rfl⟩
      · exact .inl rfl

def OwnersFrom (before after : UInt64 × UInt32 → Option PendingGuestImageUpload)
    (sequence : ℕ) : Prop :=
  ∀ key upload, after key = some upload →
    upload.ownerSequence = sequence ∨ ∃ old, before key = some old ∧
      old.ownerSequence = upload.ownerSequence

theorem OwnersFrom.refl (uploads : UInt64 × UInt32 → Option PendingGuestImageUpload)
    (sequence : ℕ) : OwnersFrom uploads uploads sequence :=
  fun _ upload isUpload => .inr ⟨upload, isUpload, rfl⟩

variable {sequence : ℕ}

theorem OwnersFrom.trans {first second third : UInt64 × UInt32 → Option PendingGuestImageUpload}
    (before : OwnersFrom first second sequence)
    (later : OwnersFrom second third sequence) :
    OwnersFrom first third sequence := by
  intro key upload isUpload
  rcases later key upload isUpload with isNew | ⟨middle, isMiddle, same⟩
  · exact .inl isNew
  · rw [← same]
    exact before key middle isMiddle

theorem ownersFrom_addPendingUpload (sequence : ℕ)
    (uploads : UInt64 × UInt32 → Option PendingGuestImageUpload)
    (key : UInt64 × UInt32) :
    OwnersFrom uploads (addPendingUpload sequence uploads key) sequence := by
  intro other upload isUpload
  by_cases isKey : other = key
  · rw [isKey, addPendingUpload, Function.update_self] at isUpload
    rw [isKey]
    split at isUpload
    · rename_i old isOld
      cases isUpload
      exact .inr ⟨old, isOld, rfl⟩
    · cases isUpload
      exact .inl rfl
  · rw [addPendingUpload, Function.update_of_ne isKey] at isUpload
    exact .inr ⟨upload, isUpload, rfl⟩

theorem ownersFrom_releasePendingUpload (sequence : ℕ)
    (uploads : UInt64 × UInt32 → Option PendingGuestImageUpload)
    (key : UInt64 × UInt32) :
    OwnersFrom uploads (releasePendingUpload uploads key) sequence := by
  intro other upload isUpload
  cases isOld : uploads key with
  | none =>
    rw [releasePendingUpload, isOld] at isUpload
    exact .inr ⟨upload, isUpload, rfl⟩
  | some old =>
    rw [releasePendingUpload, isOld] at isUpload
    by_cases isKey : other = key
    · simp only [isKey, Function.update_self] at isUpload
      rw [isKey]
      split at isUpload <;> cases isUpload
      exact .inr ⟨old, isOld, rfl⟩
    · simp only [Function.update_of_ne isKey] at isUpload
      exact .inr ⟨upload, isUpload, rfl⟩

theorem ownersFrom_foldl {change : (UInt64 × UInt32 → Option PendingGuestImageUpload) →
      UInt64 × UInt32 → UInt64 × UInt32 → Option PendingGuestImageUpload}
    (keeps : ∀ uploads key, OwnersFrom uploads (change uploads key) sequence)
    (keys : List (UInt64 × UInt32))
    (uploads : UInt64 × UInt32 → Option PendingGuestImageUpload) :
    OwnersFrom uploads (keys.foldl change uploads) sequence := by
  induction keys generalizing uploads with
  | nil => exact .refl _ _
  | cons first rest ih =>
    exact (keeps uploads first).trans (ih _)

/-- The entry points change nothing but what is known of the images. -/
theorem noteSubmitted_spec (presenter : Presenter Name) (sequence : ℕ) (work : GuestWork) :
    ∃ uploads sequences, noteSubmitted presenter sequence work = { presenter with
          pendingGuestImageUploads := uploads
          guestImageWorkSequences := sequences } ∧
      (work.textures = [] → uploads = presenter.pendingGuestImageUploads) ∧
      OwnersFrom presenter.pendingGuestImageUploads uploads sequence := by
  cases work with
  | computeDispatch textures buffers =>
    refine ⟨_, _, rfl, ?_, ownersFrom_foldl (ownersFrom_addPendingUpload sequence) _ _⟩
    intro isEmpty
    have noTextures : textures = [] := isEmpty
    rw [noTextures]
    rfl
  | offscreenDraw textures buffers vertexBuffers indexBuffer targets published =>
    cases published with
    | false => exact ⟨_, _, rfl, fun _ => rfl, .refl _ _⟩
    | true => exact ⟨_, _, rfl, fun _ => rfl, .refl _ _⟩
  | imageWrite address length => exact ⟨_, _, rfl, fun _ => rfl, .refl _ _⟩
  | orderedAction => exact ⟨_, _, rfl, fun _ => rfl, .refl _ _⟩
  | orderedFlip address => exact ⟨_, _, rfl, fun _ => rfl, .refl _ _⟩
  | orderedFlipWait => exact ⟨_, _, rfl, fun _ => rfl, .refl _ _⟩

end Dependencies

section Accepting

structure Accepts (presenter : Presenter Name) (queue : Name) (work : GuestWork)
    (after : Presenter Name) : Prop where
  accepted : after.accepted =
    presenter.accepted ++ [presenter.nextItem queue work]
  finished : after.finished = presenter.finished
  running : after.running = presenter.running
  queued : (Buckets.items after.pendingGuestWorkByQueue).Perm
    (presenter.nextItem queue work ::
      Buckets.items presenter.pendingGuestWorkByQueue)
  number : after.enqueuedGuestWorkSequence =
    presenter.enqueuedGuestWorkSequence + 1
  completed : after.completedGuestWork = presenter.completedGuestWork
  independent : work.textures = [] →
    after.pendingGuestImageUploads = presenter.pendingGuestImageUploads
  owners : OwnersFrom presenter.pendingGuestImageUploads
    after.pendingGuestImageUploads (presenter.enqueuedGuestWorkSequence + 1)
  bytes : after.pendingGuestWorkBytes =
    saturatingAdd presenter.pendingGuestWorkBytes (guestWorkPayloadBytes work)

theorem accepts_submit [DecidableEq Name] (presenter : Presenter Name)
    (queue : Name) (work : GuestWork) :
    Accepts presenter queue work (submit presenter queue work) := by
  obtain ⟨uploads, sequences, isNoted, independent, owners⟩ := noteSubmitted_spec
    (enqueueGuestWorkLocked presenter queue work)
    (presenter.enqueuedGuestWorkSequence + 1) work
  rw [submit, isNoted]
  exact ⟨rfl, rfl, rfl, items_setQueue List.perm_append_comm, rfl, rfl, independent, owners, rfl⟩

theorem addAfter_perm {Item : Type} (items : List Item) (index : ℕ)
    (item : Item) : (addAfter items index item).Perm (item :: items) := by
  rw [addAfter]
  refine List.perm_middle.trans (List.Perm.cons _ ?_)
  rw [List.take_append_drop]

theorem followups_perm (items : List (PendingGuestWork Name))
    (execution : Execution Name) (item : PendingGuestWork Name) :
    (match execution.followupTail with
      | some index => addAfter items index item
      | none => item :: items).Perm (item :: items) := by
  split
  · exact addAfter_perm _ _ _
  · exact .refl _

theorem accepts_submitFollowup [DecidableEq Name] {execution : Execution Name}
    (isExecuting : presenter.executing = some execution) (work : GuestWork) :
    Accepts presenter execution.item.queue work (submitFollowup presenter execution work) := by
  obtain ⟨uploads, sequences, isNoted, independent, owners⟩ := noteSubmitted_spec
    (enqueueImmediateFollowup presenter execution work)
    (presenter.enqueuedGuestWorkSequence + 1) work
  rw [submitFollowup, isNoted]
  refine ⟨rfl, rfl, ?_, items_setQueue (followups_perm _ _ _), rfl, rfl, independent, owners, rfl⟩
  rw [running, running, isExecuting]
  rfl

variable {work : GuestWork}

theorem Accepts.unfinished (accepts : Accepts presenter queue work after) :
    after.unfinished.Perm (presenter.nextItem queue work :: presenter.unfinished) := by
  rw [Presenter.unfinished, accepts.running]
  exact (accepts.queued.append_left _).trans List.perm_middle

theorem Accepts.retainedBytes (accepts : Accepts presenter queue work after) :
    after.retainedBytes = (guestWorkPayloadBytes work).toNat + presenter.retainedBytes := by
  rw [retainedBytes_perm accepts.unfinished, List.map_cons, List.sum_cons]
  rfl

variable {sequence : ℕ}

theorem HasOwner.mono {accepted more : List (PendingGuestWork Name)}
    (hasOwner : HasOwner accepted sequence) :
    HasOwner (accepted ++ more) sequence := by
  obtain ⟨owner, member, isOwner⟩ := hasOwner
  exact ⟨owner, List.mem_append_left _ member, isOwner⟩

theorem Numbered.sequence_le (numbered : Numbered presenter)
    {item : PendingGuestWork Name} (member : item ∈ presenter.accepted) :
    item.sequence ≤ presenter.enqueuedGuestWorkSequence := by
  have listed := List.mem_map_of_mem (f := PendingGuestWork.sequence) member
  rw [numbered.numbers, List.mem_range'_1] at listed
  omega

theorem Numbered.owner_le (numbered : Numbered presenter)
    (owned : HasOwner presenter.accepted sequence) :
    sequence ≤ presenter.enqueuedGuestWorkSequence := by
  obtain ⟨owner, member, rfl, _⟩ := owned
  exact numbered.sequence_le member

theorem Numbered.accepts (numbered : Numbered presenter)
    (accepts : Accepts presenter queue work after) : Numbered after where
  partition := by
    rw [accepts.accepted, accepts.finished]
    refine (List.perm_append_singleton _ _).trans ?_
    refine (numbered.partition.cons _).trans ?_
    exact List.perm_middle.symm.trans (accepts.unfinished.symm.append_left _)
  numbers := by
    rw [accepts.accepted, accepts.number, List.map_append, numbered.numbers,
      List.range'_concat, Nat.one_mul, Nat.add_comm]
    rfl
  completed := by
    rw [accepts.completed, accepts.finished]
    exact numbered.completed
  owners := by
    intro key upload isUpload
    rw [accepts.accepted]
    by_cases isFree : work.textures = []
    · rw [accepts.independent isFree] at isUpload
      exact (numbered.owners key upload isUpload).mono
    · rcases accepts.owners key upload isUpload with isNew | ⟨old, isOld, same⟩
      · exact ⟨presenter.nextItem queue work, by simp, isNew.symm, decide_eq_true isFree⟩
      · rw [← same]
        exact (numbered.owners key old isOld).mono
  dependencies := by
    intro item member
    rw [accepts.accepted] at member ⊢
    rcases List.mem_append.mp member with isOld | isNew
    · rcases numbered.dependencies item isOld with isFree | ⟨kind, less, owned⟩
      · exact .inl isFree
      · exact .inr ⟨kind, less, owned.mono⟩
    · rw [List.mem_singleton.mp isNew]
      rcases getGuestWorkDependencyLocked_owner presenter work with
        isFree | ⟨kind, key, upload, isUpload, isOwner⟩
      · exact .inl isFree
      · have owned := numbered.owners key upload isUpload
        rw [isOwner] at owned
        have bound := numbered.owner_le owned
        exact .inr ⟨decide_eq_true kind, Nat.lt_succ_of_le bound, owned.mono⟩
  ready := by
    rw [accepts.finished, accepts.running, accepts.completed]
    exact numbered.ready
  capped := by
    rw [accepts.bytes, accepts.retainedBytes, toNat_saturatingAdd]
    have capped := numbered.capped
    omega

end Accepting

section Placing

variable {Item Image : Type}

theorem addAfter_append (front items : List Item) (index : ℕ) (item : Item) :
    addAfter (front ++ items) (front.length + index) item = front ++ addAfter items index item := by
  simp only [addAfter, Nat.add_assoc, List.take_length_add_append,
    List.drop_length_add_append, List.append_assoc]

theorem map_addAfter (image : Item → Image) (items : List Item) (index : ℕ) (item : Item) :
    (addAfter items index item).map image = addAfter (items.map image) index (image item) := by
  simp [addAfter, List.map_take, List.map_drop]

theorem filter_addAfter {kept : Item → Bool} {item : Item}
    (isDropped : kept item = false) (items : List Item) (index : ℕ) :
    (addAfter items index item).filter kept = items.filter kept := by
  rw [addAfter, List.filter_append, List.filter_cons_of_neg (by simp [isDropped]),
    ← List.filter_append, List.take_append_drop]

variable {index : ℕ}

theorem getElem?_addAfter {items : List Item} (bound : index < items.length) (item : Item) :
    (addAfter items index item)[index + 1]? = some item := by
  have isLength : (items.take (index + 1)).length = index + 1 := by
    rw [List.length_take, Nat.min_eq_left bound]
  rw [addAfter, List.getElem?_append_right (Nat.le_of_eq isLength), isLength, Nat.sub_self]
  rfl

theorem insertBehind_eq {earlier : ℕ} (sequence : ℕ) {sequences : List ℕ} (nodup : sequences.Nodup)
    (isAt : sequences[index]? = some earlier) :
    insertBehind earlier sequence sequences =
      addAfter sequences index sequence := by
  induction sequences generalizing index with
  | nil => cases isAt
  | cons first rest ih =>
    rw [List.nodup_cons] at nodup
    cases index with
    | zero =>
      cases isAt
      rw [insertBehind, if_pos rfl]
      rfl
    | succ index =>
      rw [List.getElem?_cons_succ] at isAt
      have different : first ≠ earlier := by
        rintro rfl
        exact nodup.1 (List.mem_of_getElem? isAt)
      rw [insertBehind, if_neg different, ih nodup.2 isAt]
      rfl

theorem cons_followups (items : List (PendingGuestWork Name))
    (execution : Execution Name) (item : PendingGuestWork Name) :
    (execution.item ::
      match execution.followupTail with
      | some index => addAfter items index item
      | none => item :: items) =
      addAfter (execution.item :: items) execution.position item := by
  rw [Execution.position]
  cases execution.followupTail with
  | none => rfl
  | some index => rfl

end Placing

section Order

variable [DecidableEq Name]

theorem Numbered.queued_mem (numbered : Numbered presenter)
    {item : PendingGuestWork Name} (member : item ∈ presenter.pendingQueue queue) :
    item ∈ presenter.accepted := by
  rw [numbered.partition.mem_iff]
  exact List.mem_append_right _ (List.mem_append_right _ (Buckets.mem_items.mpr ⟨queue, member⟩))

theorem Numbered.nodup (numbered : Numbered presenter) (queue : Name) :
    ((onQueue queue presenter.finished ++ presenter.line queue).map
      PendingGuestWork.sequence).Nodup := by
  have perm : presenter.accepted.Perm (presenter.finished ++
      (presenter.running ++ (presenter.pendingQueue queue ++
        Buckets.items (presenter.pendingGuestWorkByQueue.erase queue)))) :=
    numbered.partition.trans (((Buckets.items_perm _ queue).append_left _).append_left _)
  have whole : (presenter.accepted.map PendingGuestWork.sequence).Nodup := by
    rw [numbered.numbers]
    exact List.nodup_range'
  rw [(perm.map _).nodup_iff] at whole
  refine List.Nodup.sublist (List.Sublist.map _ ?_) whole
  exact List.filter_sublist.append (List.filter_sublist.append (List.sublist_append_left _ _))

theorem InLine.submit (inLine : InLine presenter)
    (numbered : Numbered presenter) (queue : Name) (work : GuestWork) :
    InLine (submit presenter queue work) := by
  obtain ⟨uploads, sequences, isNoted, _, _⟩ := noteSubmitted_spec
    (enqueueGuestWorkLocked presenter queue work)
    (presenter.enqueuedGuestWorkSequence + 1) work
  rw [VideoOut.submit, isNoted]
  have isQueue (other : Name) : ((enqueueGuestWorkLocked presenter queue work).pendingQueue other) =
        if other = queue then
          presenter.pendingQueue queue ++ [presenter.nextItem queue work]
        else presenter.pendingQueue other :=
    pendingQueue_setQueue _ _ _ _
  constructor
  · intro other
    have inOrder := inLine.inOrder other
    change Function.update presenter.programOrder queue _ other =
      List.map _ (onQueue other presenter.finished ++ (onQueue other presenter.running ++
          (enqueueGuestWorkLocked presenter queue work).pendingQueue other))
    rw [isQueue]
    by_cases same : other = queue
    · rw [same] at inOrder ⊢
      rw [Function.update_self, if_pos rfl, ← List.append_assoc,
        ← List.append_assoc, List.map_append]
      change presenter.programOrder queue ++ _ = _
      rw [inOrder, Presenter.line, List.append_assoc]
      rfl
    · rw [Function.update_of_ne same, if_neg same]
      exact inOrder
  · intro other
    change (((enqueueGuestWorkLocked presenter queue work).pendingQueue
      other).filter isDependent).Pairwise _
    rw [isQueue]
    split
    · rw [List.filter_append, List.pairwise_append]
      refine ⟨inLine.rising queue, ?_, ?_⟩
      · exact (List.pairwise_singleton _ _).sublist List.filter_sublist
      · intro earlier isEarlier last isLast
        have queued := numbered.queued_mem (List.mem_of_mem_filter isEarlier)
        rw [List.mem_singleton.mp (List.mem_of_mem_filter isLast)]
        exact Nat.lt_succ_of_le (numbered.sequence_le queued)
    · exact inLine.rising other
  · intro execution isExecuting
    obtain ⟨last, isAt, isLast⟩ := inLine.tail execution isExecuting
    refine ⟨last, ?_, isLast⟩
    change (execution.item :: (enqueueGuestWorkLocked presenter queue work).pendingQueue _)[_]? = _
    rw [isQueue]
    split
    · rename_i same
      rw [same] at isAt
      rw [← List.cons_append, List.getElem?_append_left (List.getElem?_eq_some_iff.mp isAt).1, isAt]
    · exact isAt

variable {execution : Execution Name}

theorem InLine.submitFollowup {work : GuestWork}
    (inLine : InLine presenter) (numbered : Numbered presenter)
    (isExecuting : presenter.executing = some execution)
    (isFree : work.textures = []) :
    InLine (submitFollowup presenter execution work) := by
  obtain ⟨uploads, sequences, isNoted, _, _⟩ := noteSubmitted_spec
    (enqueueImmediateFollowup presenter execution work)
    (presenter.enqueuedGuestWorkSequence + 1) work
  rw [VideoOut.submitFollowup, isNoted]
  generalize isHome : execution.item.queue = home
  generalize isItem : presenter.nextItem home work = item
  obtain ⟨last, isAt, isLast⟩ := inLine.tail execution isExecuting
  rw [isHome] at isAt
  have isQueue (other : Name) :
      ((enqueueImmediateFollowup presenter execution work).pendingQueue other) =
        if other = home then
          match execution.followupTail with
          | some index => addAfter (presenter.pendingQueue home) index item
          | none => item :: presenter.pendingQueue home
        else presenter.pendingQueue other := by
    rw [← isItem, ← isHome]
    exact pendingQueue_setQueue _ _ _ _
  have placed := cons_followups (presenter.pendingQueue home) execution item
  have independent : isDependent item = false := by
    rw [← isItem]
    exact decide_eq_false (fun present => present isFree)
  have alone : onQueue home [execution.item] = [execution.item] := by
    rw [onQueue_singleton, if_pos isHome]
  constructor
  · intro other
    have inOrder := inLine.inOrder other
    have nodup := numbered.nodup other
    rw [Presenter.line, running_eq_singleton isExecuting] at inOrder nodup
    change Function.update presenter.programOrder execution.item.queue
        (insertBehind execution.lastSequence (presenter.nextItem execution.item.queue work).sequence
          (presenter.programOrder execution.item.queue)) other =
      List.map _ (onQueue other presenter.finished ++ (onQueue other [execution.item] ++
          (enqueueImmediateFollowup presenter execution work).pendingQueue other))
    rw [isQueue, isHome, isItem]
    by_cases same : other = home
    · rw [same, alone, List.singleton_append] at inOrder nodup
      rw [same, Function.update_self, if_pos rfl, alone, List.singleton_append,
        placed, ← addAfter_append, map_addAfter, inOrder]
      apply insertBehind_eq _ nodup
      rw [List.getElem?_map, List.getElem?_append_right (Nat.le_add_right _ _),
        Nat.add_sub_cancel_left, isAt, ← isLast]
      rfl
    · rw [Function.update_of_ne same, if_neg same]
      exact inOrder
  · intro other
    have rising := inLine.rising other
    change (((enqueueImmediateFollowup presenter execution work).pendingQueue
      other).filter isDependent).Pairwise _
    rw [isQueue]
    split
    · rename_i same
      rw [same] at rising
      split
      · rw [filter_addAfter independent]
        exact rising
      · rw [List.filter_cons_of_neg (by simp [independent])]
        exact rising
    · exact rising
  · intro next isNext
    cases isNext
    refine ⟨item, ?_, by rw [← isItem]; rfl⟩
    change (execution.item :: (enqueueImmediateFollowup presenter execution work).pendingQueue
        execution.item.queue)[execution.position + 1]? = _
    rw [isQueue, isHome, if_pos rfl, placed]
    exact getElem?_addAfter (List.getElem?_eq_some_iff.mp isAt).1 item

omit [DecidableEq Name] in
/-- Items that only move between the queues and the render thread. -/
theorem Numbered.moved (numbered : Numbered presenter)
    (accepted : after.accepted = presenter.accepted)
    (finished : after.finished = presenter.finished)
    (unfinished : after.unfinished.Perm presenter.unfinished)
    (number : after.enqueuedGuestWorkSequence = presenter.enqueuedGuestWorkSequence)
    (completed : after.completedGuestWork = presenter.completedGuestWork)
    (uploads : after.pendingGuestImageUploads = presenter.pendingGuestImageUploads)
    (bytes : after.pendingGuestWorkBytes = presenter.pendingGuestWorkBytes)
    (ready : ∀ item ∈ after.running, presenter.completedGuestWork.Holds item.requiredSequence) :
    Numbered after where
  partition := by
    rw [accepted, finished]
    exact numbered.partition.trans (unfinished.symm.append_left _)
  numbers := by
    rw [accepted, number]
    exact numbered.numbers
  completed := by
    rw [completed, finished]
    exact numbered.completed
  owners := by
    rw [uploads, accepted]
    exact numbered.owners
  dependencies := by
    rw [accepted]
    exact numbered.dependencies
  ready := by
    rw [finished, completed]
    intro item member
    rcases List.mem_append.mp member with isFinished | isRunning
    · exact numbered.ready item (List.mem_append_left _ isFinished)
    · exact ready item isRunning
  capped := by
    rw [bytes, retainedBytes_perm unfinished]
    exact numbered.capped

def Presenter.begin (presenter : Presenter Name) (cursor : ℕ) (queue : Name)
    (first : PendingGuestWork Name) (rest : List (PendingGuestWork Name)) :
    Presenter Name :=
  { presenter.removeFirst cursor queue rest with
    executing := some ⟨first, none, first.sequence⟩ }

variable {first : PendingGuestWork Name} {rest : List (PendingGuestWork Name)}

theorem unfinished_begin (cursor : ℕ) (isIdle : presenter.executing = none)
    (isQueue : presenter.pendingQueue queue = first :: rest) :
    (presenter.begin cursor queue first rest).unfinished.Perm
      presenter.unfinished := by
  rw [unfinished, unfinished, running_eq_nil isIdle]
  exact (items_removeFirst cursor isQueue).symm

theorem Numbered.begin (cursor : ℕ)
    (numbered : Numbered presenter) (isIdle : presenter.executing = none)
    (isQueue : presenter.pendingQueue queue = first :: rest)
    (isReady : presenter.isGuestWorkCompletedLocked first.requiredSequence = true) :
    Numbered (presenter.begin cursor queue first rest) := by
  have unfinished := unfinished_begin cursor isIdle isQueue
  obtain ⟨_, _, _, isRemoved⟩ := removeFirst_eq presenter cursor queue rest
  rw [Presenter.begin, isRemoved] at unfinished ⊢
  refine numbered.moved rfl rfl unfinished rfl rfl rfl rfl ?_
  intro item member
  rw [List.mem_singleton.mp member]
  exact of_decide_eq_true isReady

theorem InLine.begin (cursor : ℕ) (inLine : InLine presenter) (isIdle : presenter.executing = none)
    (isQueue : presenter.pendingQueue queue = first :: rest)
    (isOwn : first.queue = queue) :
    InLine (presenter.begin cursor queue first rest) := by
  have queues := pendingQueue_removeFirst presenter cursor queue
  obtain ⟨_, _, _, isRemoved⟩ := removeFirst_eq presenter cursor queue rest
  have isQueueAfter (other : Name) : (presenter.begin cursor queue first rest).pendingQueue other =
        if other = queue then rest else presenter.pendingQueue other :=
    queues other rest
  constructor
  · intro other
    have inOrder := inLine.inOrder other
    rw [line, running_eq_nil isIdle] at inOrder
    rw [line, isQueueAfter, Presenter.begin, isRemoved]
    change presenter.programOrder other = List.map _
      (onQueue other presenter.finished ++ (onQueue other [first] ++ _))
    rw [inOrder, onQueue_singleton, isOwn]
    by_cases same : other = queue
    · rw [if_pos same, if_pos same.symm, same, isQueue]
      rfl
    · rw [if_neg same, if_neg (Ne.symm same)]
      rfl
  · intro other
    rw [isQueueAfter]
    split
    · have rising := inLine.rising queue
      rw [isQueue] at rising
      exact rising.sublist ((List.sublist_cons_self _ _).filter _)
    · exact inLine.rising other
  · intro execution isExecuting
    cases isExecuting
    exact ⟨first, rfl, rfl⟩

theorem unfinished_requeue (isExecuting : presenter.executing = some execution) :
    (requeueGuestWorkFront presenter execution.item).unfinished.Perm
      presenter.unfinished := by
  rw [unfinished, unfinished, running_eq_singleton isExecuting]
  exact items_setQueue (List.Perm.refl _)

theorem Numbered.requeue (numbered : Numbered presenter)
    (isExecuting : presenter.executing = some execution) :
    Numbered (requeueGuestWorkFront presenter execution.item) := by
  refine numbered.moved rfl rfl (unfinished_requeue isExecuting) rfl rfl rfl rfl ?_
  intro item member
  cases member

theorem InLine.requeue (inLine : InLine presenter)
    (isExecuting : presenter.executing = some execution)
    (isAction : execution.item.work = .orderedAction) :
    InLine (requeueGuestWorkFront presenter execution.item) := by
  have isQueue (other : Name) :
      (requeueGuestWorkFront presenter execution.item).pendingQueue other =
        if other = execution.item.queue then
          execution.item :: presenter.pendingQueue execution.item.queue
        else presenter.pendingQueue other :=
    pendingQueue_setQueue _ _ _ _
  have independent : isDependent execution.item = false := by
    rw [isDependent, isAction]
    rfl
  constructor
  · intro other
    have inOrder := inLine.inOrder other
    rw [line, running_eq_singleton isExecuting] at inOrder
    rw [line, isQueue]
    change presenter.programOrder other = List.map _
      (onQueue other presenter.finished ++ (onQueue other [] ++ _))
    rw [inOrder, onQueue_singleton]
    by_cases same : other = execution.item.queue
    · rw [if_pos same, if_pos same.symm, same]
      rfl
    · rw [if_neg same, if_neg (Ne.symm same)]
      rfl
  · intro other
    rw [isQueue]
    split
    · rw [List.filter_cons_of_neg (by simp [independent])]
      exact inLine.rising execution.item.queue
    · exact inLine.rising other
  · intro other isNone
    cases isNone

end Order

section Completing

theorem toNat_remaining (retained payload : UInt64) :
    (if retained ≤ payload then 0 else retained - payload).toNat =
      retained.toNat - payload.toNat := by
  split
  · rename_i covered
    rw [UInt64.le_iff_toNat_le] at covered
    rw [Nat.sub_eq_zero_of_le covered]
    rfl
  · rename_i more
    rw [UInt64.le_iff_toNat_le] at more
    exact UInt64.toNat_sub_of_le _ _ (UInt64.le_iff_toNat_le.mpr (Nat.le_of_not_le more))

variable {execution : Execution Name}

theorem unfinished_complete (isExecuting : presenter.executing = some execution) :
    presenter.unfinished = execution.item ::
        (completeGuestWork presenter execution.item).unfinished := by
  rw [unfinished, running_eq_singleton isExecuting]
  rfl

theorem retainedBytes_complete (isExecuting : presenter.executing = some execution) :
    (completeGuestWork presenter execution.item).retainedBytes =
      presenter.retainedBytes - execution.item.payloadBytes.toNat := by
  rw [retainedBytes_perm (.of_eq (unfinished_complete isExecuting)), List.map_cons,
    List.sum_cons, Nat.add_sub_cancel_left]
  rfl

theorem owners_complete {item : PendingGuestWork Name}
    {key : UInt64 × UInt32} {upload : PendingGuestImageUpload}
    (isUpload : (completeGuestWork presenter item).pendingGuestImageUploads key = some upload) :
    ∃ old, presenter.pendingGuestImageUploads key = some old ∧
      old.ownerSequence = upload.ownerSequence := by
  have released : OwnersFrom presenter.pendingGuestImageUploads
      (completeGuestWork presenter item).pendingGuestImageUploads
      (upload.ownerSequence + 1) := by
    rw [completeGuestWork]
    cases item.work with
    | computeDispatch textures buffers =>
      exact ownersFrom_foldl (ownersFrom_releasePendingUpload _) _ _
    | _ => exact .refl _ _
  rcases released key upload isUpload with isNew | isOld
  · omega
  · exact isOld

theorem Numbered.complete (numbered : Numbered presenter)
    (isExecuting : presenter.executing = some execution) :
    Numbered (completeGuestWork presenter execution.item) := by
  have unfinished := unfinished_complete isExecuting
  have holds (sequence : ℕ) : (completeGuestWork presenter
      execution.item).completedGuestWork.Holds sequence ↔
        presenter.completedGuestWork.Holds sequence ∨ sequence = execution.item.sequence :=
    Watermark.holds_complete _ _ _
  constructor
  · have partition := numbered.partition
    rw [unfinished] at partition
    change presenter.accepted.Perm ((presenter.finished ++ [execution.item]) ++ _)
    rw [List.append_assoc]
    exact partition
  · exact numbered.numbers
  · intro sequence
    rw [holds, numbered.completed]
    change _ ↔ _ ∨ ∃ item ∈ presenter.finished ++ [execution.item], _
    constructor
    · rintro ((isZero | ⟨item, member, same⟩) | rfl)
      · exact .inl isZero
      · exact .inr ⟨item, List.mem_append_left _ member, same⟩
      · exact .inr ⟨execution.item, by simp, rfl⟩
    · rintro (isZero | ⟨item, member, same⟩)
      · exact .inl (.inl isZero)
      · rcases List.mem_append.mp member with isOld | isNew
        · exact .inl (.inr ⟨item, isOld, same⟩)
        · rw [← same, List.mem_singleton.mp isNew]
          exact .inr rfl
  · intro key upload isUpload
    obtain ⟨old, isOld, same⟩ := owners_complete isUpload
    rw [← same]
    exact numbered.owners key old isOld
  · exact numbered.dependencies
  · intro item member
    rw [holds]
    left
    apply numbered.ready
    rw [running_eq_singleton isExecuting]
    change item ∈ (presenter.finished ++ [execution.item]) ++ [] at member
    rwa [List.append_nil] at member
  · rw [retainedBytes_complete isExecuting, completeGuestWork]
    exact (toNat_remaining _ _).trans_le (Nat.sub_le_sub_right numbered.capped _)

theorem InLine.complete [DecidableEq Name] (inLine : InLine presenter)
    (isExecuting : presenter.executing = some execution) :
    InLine (completeGuestWork presenter execution.item) := by
  constructor
  · intro other
    have inOrder := inLine.inOrder other
    rw [line, running_eq_singleton isExecuting] at inOrder
    change presenter.programOrder other = List.map _
      (onQueue other (presenter.finished ++ [execution.item]) ++
        (onQueue other [] ++ presenter.pendingQueue other))
    rw [inOrder, onQueue_append, onQueue_nil, List.nil_append, List.append_assoc]
  · exact inLine.rising
  · intro other isNone
    cases isNone

end Completing

section Steps

variable [DecidableEq Name]

structure Sound (presenter : Presenter Name) : Prop where
  scheduled : Scheduled presenter
  numbered : Numbered presenter
  inLine : InLine presenter

theorem Scheduled.new : Scheduled (Presenter.new : Presenter Name) where
  nodup := List.nodup_nil
  scheduled := by simp [Presenter.new]
  nonempty := by simp [Presenter.new]
  counted := rfl
  keyed := by
    intro queue item member
    cases member

omit [DecidableEq Name] in
theorem Numbered.new : Numbered (Presenter.new : Presenter Name) where
  partition := .refl _
  numbers := rfl
  completed := by simp [Presenter.new, Watermark.Holds]
  owners := by simp [Presenter.new]
  dependencies := by simp [Presenter.new]
  ready := by simp [Presenter.new, running]
  capped := Nat.zero_le _

theorem InLine.new : InLine (Presenter.new : Presenter Name) where
  inOrder := fun _ => rfl
  rising := fun _ => .nil
  tail := by simp [Presenter.new]

theorem Sound.submit (sound : Sound presenter) (queue : Name)
    (work : GuestWork) : Sound (submit presenter queue work) := by
  refine ⟨?_, sound.numbered.accepts (accepts_submit presenter queue work),
    sound.inLine.submit sound.numbered queue work⟩
  obtain ⟨uploads, sequences, isNoted, _, _⟩ := noteSubmitted_spec
    (enqueueGuestWorkLocked presenter queue work)
    (presenter.enqueuedGuestWorkSequence + 1) work
  rw [VideoOut.submit, isNoted]
  exact sound.scheduled.setQueue (presenter.nextItem queue work) List.perm_append_comm rfl rfl rfl

variable {execution : Execution Name}

theorem Sound.submitFollowup {work : GuestWork} (sound : Sound presenter)
    (isExecuting : presenter.executing = some execution)
    (isFree : work.textures = []) :
    Sound (submitFollowup presenter execution work) := by
  refine ⟨?_, sound.numbered.accepts (accepts_submitFollowup isExecuting work),
    sound.inLine.submitFollowup sound.numbered isExecuting isFree⟩
  obtain ⟨uploads, sequences, isNoted, _, _⟩ := noteSubmitted_spec
    (enqueueImmediateFollowup presenter execution work)
    (presenter.enqueuedGuestWorkSequence + 1) work
  rw [VideoOut.submitFollowup, isNoted]
  exact sound.scheduled.setQueue (presenter.nextItem execution.item.queue work)
    (followups_perm _ _ _) rfl rfl rfl

theorem Sound.moveCursor (sound : Sound presenter) (cursor : ℕ) :
    Sound (presenter.moveCursor cursor) where
  scheduled := sound.scheduled.moveCursor cursor
  numbered := sound.numbered.moved rfl rfl (.refl _) rfl rfl rfl rfl fun _ member =>
    sound.numbered.ready _ (List.mem_append_right _ member)
  inLine := ⟨sound.inLine.inOrder, sound.inLine.rising, sound.inLine.tail⟩

theorem Sound.begin {first : PendingGuestWork Name}
    {rest : List (PendingGuestWork Name)} {cursor : ℕ} (sound : Sound presenter)
    (isIdle : presenter.executing = none)
    (isScheduled : presenter.pendingGuestQueueSchedule[cursor]? = some queue)
    (isQueue : presenter.pendingQueue queue = first :: rest)
    (isReady : presenter.isGuestWorkCompletedLocked first.requiredSequence = true) :
    Sound (presenter.begin cursor queue first rest) := by
  have member : first ∈ presenter.pendingQueue queue := by
    rw [isQueue]
    exact List.mem_cons_self
  exact ⟨(sound.scheduled.removeFirst isScheduled isQueue).same rfl rfl rfl,
    sound.numbered.begin cursor isIdle isQueue isReady,
    sound.inLine.begin cursor isIdle isQueue (sound.scheduled.keyed queue first member)⟩

theorem Sound.take (sound : Sound presenter) (excluded : Name → Bool)
    (isIdle : presenter.executing = none) :
    Sound (take presenter excluded) := by
  have probed : Probed excluded presenter (tryTakeGuestWork presenter excluded) :=
    probeQueues_spec presenter sound.scheduled _ _
  rw [VideoOut.take]
  generalize tryTakeGuestWork presenter excluded = result at probed
  cases probed with
  | nothing cursor => exact sound.moveCursor cursor
  | found cursor queue first rest isScheduled _ isQueue isReady =>
    exact sound.begin isIdle isScheduled isQueue isReady

theorem Sound.requeue (sound : Sound presenter) (isExecuting : presenter.executing = some execution)
    (isAction : execution.item.work = .orderedAction) :
    Sound (requeueGuestWorkFront presenter execution.item) where
  scheduled := sound.scheduled.setQueue execution.item (.refl _) rfl rfl rfl
  numbered := sound.numbered.requeue isExecuting
  inLine := sound.inLine.requeue isExecuting isAction

theorem Sound.complete (sound : Sound presenter)
    (isExecuting : presenter.executing = some execution) :
    Sound (completeGuestWork presenter execution.item) where
  scheduled := sound.scheduled.same rfl rfl rfl
  numbered := sound.numbered.complete isExecuting
  inLine := sound.inLine.complete isExecuting

variable {maxItems : ℕ} {maxBytes : UInt64}

theorem Sound.step {action : Action Name} (sound : Sound presenter)
    (taken : Step maxItems maxBytes presenter action after) : Sound after := by
  cases taken with
  | submit queue work _ _ => exact sound.submit queue work
  | followUp execution work isExecuting isFree =>
    exact sound.submitFollowup isExecuting isFree
  | take excluded isIdle => exact sound.take excluded isIdle
  | requeue execution isExecuting isAction _ =>
    exact sound.requeue isExecuting isAction
  | complete execution isExecuting => exact sound.complete isExecuting

theorem sound_of_reachable (reachable : Reachable (fun start => start = Presenter.new)
      (Step maxItems maxBytes) presenter) : Sound presenter := by
  apply reachable.invariant
  · rintro _ rfl
    exact ⟨.new, .new, .new⟩
  · intro before action after sound taken
    exact sound.step taken

end Steps

end SharpEmu.VideoOut
