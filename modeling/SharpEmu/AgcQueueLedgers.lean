import SharpEmu.AgcSubmissionRuns
import Mathlib.Data.List.Nodup

/-!
# Draining and submitting keep the queues in order

Parsing, resuming and pumping touch one queue only, so the ledger of a queue is
followed through the calls for all the others without looking at them.  A drain
takes several waiters out of the registry before it resumes them one by one; the
ones it still holds keep standing for their queues.
-/

namespace SharpEmu.Agc

open SubmittedGpuState

variable {World : Type} (environment : Environment World)
variable {gpuState : SubmittedGpuState World} {queue : Queue}
variable {held : List Mark}

section OnlyQueue

theorem onlyQueue_parse (gpuState : SubmittedGpuState World) (queue : Queue)
    (commandAddress : UInt64) (dwordCount : UInt32) :
    OnlyQueue gpuState (parseSubmittedDcb environment gpuState queue commandAddress
        dwordCount).2 queue := by
  obtain ⟨_, _, _, _, spec⟩ := parseSubmittedDcb_spec environment gpuState queue
    commandAddress dwordCount rfl
  exact spec.onlyQueue

theorem onlyQueue_run (gpuState : SubmittedGpuState World) (queue : Queue)
    (started ended : SubmittedDcbState) (commandAddress : UInt64)
    (dwordCount : UInt32) :
    OnlyQueue gpuState ((parseSubmittedDcb environment (gpuState.setQueue queue started) queue
        commandAddress dwordCount).2.setQueue queue ended) queue :=
  ((OnlyQueue.setQueue _ _ _).trans (onlyQueue_parse environment _ _ _ _)).trans (.setQueue _ _ _)

theorem onlyQueue_pumpPending (fuel : ℕ) (gpuState : SubmittedGpuState World) (queue : Queue) :
    OnlyQueue gpuState (pumpPending environment queue fuel gpuState) queue := by
  induction fuel generalizing gpuState with
  | zero => exact .refl _ _
  | succ fuel ih =>
    rw [pumpPending]
    split_ifs
    · exact .refl _ _
    · rcases (gpuState.queues queue).pendingSubmissions with
        _ | ⟨submission, rest⟩
      · exact .refl _ _
      · simp only
        split
        · exact onlyQueue_run environment _ _ _ _ _ _
        · exact (((onlyQueue_run environment _ _ _ _ _ _).trans
            (.setQueue _ _ _)).trans (.notify _ _ _)).trans (ih _)

theorem onlyQueue_pump (gpuState : SubmittedGpuState World) (queue : Queue) :
    OnlyQueue gpuState (pumpSubmittedQueue environment gpuState queue)
      queue := by
  rw [pumpSubmittedQueue]
  split
  · exact .refl _ _
  · exact onlyQueue_pumpPending environment _ _ _

theorem onlyQueue_resume (gpuState : SubmittedGpuState World) (waiter : WaitingDcb) :
    OnlyQueue gpuState (resumeSuspendedDcb environment gpuState waiter)
      waiter.state := by
  rw [resumeSuspendedDcb]
  simp only
  split
  · exact ((OnlyQueue.setQueue _ _ _).trans (.notify _ _ _)).trans (onlyQueue_pump environment _ _)
  · split
    · exact onlyQueue_run environment _ _ _ _ _ _
    · exact ((onlyQueue_run environment _ _ _ _ _ _).trans
        (.notify _ _ _)).trans (onlyQueue_pump environment _ _)

end OnlyQueue

section Drains

/-- The invariant of one queue: it is quiet, with the marks of the waiters that
are being held, and its submissions are numbered by the sequence so far. -/
structure Sound (gpuState : SubmittedGpuState World) (held : List Mark)
    (queue : Queue) : Prop where
  quiet : Quiet gpuState (marks gpuState ++ held) queue
  numbered : ∀ submission ∈ gpuState.submitted queue,
    submission.submissionId ≤ gpuState.submissionSequence

variable {after : SubmittedGpuState World}

theorem Sound.sameQueues (sound : Sound gpuState held queue) (same : SameQueues gpuState after) :
    Sound after held queue := by
  constructor
  · apply sound.quiet.same
    · rw [same.queues]
    · rw [same.submitted]
    · rw [same.history]
    · rw [same.marks]
  · rw [same.submitted, same.sequence]
    exact sound.numbered

theorem Sound.untouched {other : Queue} (sound : Sound gpuState held queue)
    (only : OnlyQueue gpuState after other) (apart : queue ≠ other) :
    Sound after held queue := by
  constructor
  · exact sound.quiet.untouched only apart
  · rw [only.submitted, only.sequence]
    exact sound.numbered

theorem Sound.resume {waiter : WaitingDcb} (sound : Sound gpuState (waiter.mark :: held) queue) :
    Sound (resumeSuspendedDcb environment gpuState waiter) held queue := by
  have only := onlyQueue_resume environment gpuState waiter
  by_cases isQueue : queue = waiter.state
  · constructor
    · rw [isQueue]
      apply resumeSuspendedDcb_spec
      rw [← isQueue]
      exact sound.quiet
    · rw [only.submitted, only.sequence]
      exact sound.numbered
  · have elsewhere : markedFor (waiter.mark :: held) queue =
        markedFor held queue := by
      simp [markedFor, WaitingDcb.mark, Ne.symm isQueue]
    have released : Sound gpuState held queue := by
      constructor
      · apply sound.quiet.same rfl rfl rfl
        rw [markedFor_append, markedFor_append, elsewhere]
      · exact sound.numbered
    exact released.untouched only isQueue

theorem Sound.resumeAll (waiters : List WaitingDcb)
    (sound : Sound gpuState (waiters.map WaitingDcb.mark ++ held) queue) :
    Sound (waiters.foldl (resumeSuspendedDcb environment) gpuState) held
      queue := by
  induction waiters generalizing gpuState with
  | nil => exact sound
  | cons first rest ih =>
    exact ih (sound.resume environment)

theorem Sound.interleave (sound : Sound gpuState held queue) :
    Sound (gpuState.interleave environment) held queue :=
  sound.sameQueues (sameQueues_interleave environment gpuState)

/-- Taking waiters out of the registry keeps their marks in hand. -/
theorem Sound.collect (property : WaitingDcb → Bool) (sound : Sound gpuState held queue) :
    Sound (Agc.collect environment gpuState property).2
      ((Agc.collect environment gpuState property).1.map WaitingDcb.mark ++ held) queue := by
  constructor
  · apply sound.quiet.same (by rfl) (by rfl) (by rfl)
    rw [← List.append_assoc]
    apply List.Perm.filter
    apply List.Perm.append_right
    simp only [marks, Agc.collect, ← List.map_append]
    apply List.Perm.map
    have taken := environment.arrange_perm gpuState.world (gpuState.waiters.filter property)
    exact ((List.Perm.append_left _ taken).trans List.perm_append_comm).trans
      (List.filter_append_perm property gpuState.waiters)
  · exact sound.numbered

theorem Sound.drainPass (sound : Sound gpuState held queue) :
    Sound (Agc.drainPass environment gpuState).2 held queue := by
  rw [Agc.drainPass]
  simp only
  have woken := (sound.interleave environment).collect environment
    (isSatisfied environment (gpuState.interleave environment))
  generalize Agc.collect environment (gpuState.interleave environment)
    (isSatisfied environment (gpuState.interleave environment)) = first
    at woken ⊢
  have broken := (woken.interleave environment).collect environment
    (isDeadlockBroken environment (first.2.interleave environment))
  generalize Agc.collect environment (first.2.interleave environment)
    (isDeadlockBroken environment (first.2.interleave environment)) = second
    at broken ⊢
  have resumed := broken.resumeAll environment
  split
  · rename_i nothing
    rw [nothing.1] at resumed
    exact resumed
  · exact resumed.resumeAll environment

theorem Sound.drainPasses (passes : ℕ) (sound : Sound gpuState held queue) :
    Sound (Agc.drainPasses environment passes gpuState) held queue := by
  induction passes generalizing gpuState with
  | zero => exact sound
  | succ passes ih =>
    rw [Agc.drainPasses]
    have pass := sound.drainPass environment
    simp only
    split
    · exact ih pass
    · exact pass

theorem Sound.drain (sound : Sound gpuState held queue) :
    Sound (drainResumableDcbs environment gpuState) held queue := by
  rw [drainResumableDcbs]
  split
  · exact sound.drainPasses environment _
  · exact sound

end Drains

section Submissions

/-- The submission counter has not run through all its values. -/
def Countable (gpuState : SubmittedGpuState World) : Prop :=
  gpuState.submissionSequence.toNat + 1 < 2 ^ 64

theorem toNat_nextSequence (countable : Countable gpuState) :
    (gpuState.submissionSequence + 1).toNat = gpuState.submissionSequence.toNat + 1 := by
  rw [Countable] at countable
  rw [UInt64.toNat_add]
  exact Nat.mod_eq_of_lt countable

theorem Accounts.enqueue {after : SubmittedGpuState World}
    {done : List (PendingSubmission × List Event)}
    {rest : List PendingSubmission} {submission : PendingSubmission}
    (accounts : Accounts gpuState queue done rest)
    (submitted : after.submitted queue = gpuState.submitted queue ++ [submission])
    (notified : (after.queues queue).completionEventNotifiedSubmissionId =
      (gpuState.queues queue).completionEventNotifiedSubmissionId)
    (fresh : ∀ earlier ∈ gpuState.submitted queue, earlier.submissionId < submission.submissionId)
    (positive : 0 < submission.submissionId) :
    Accounts after queue done (rest ++ [submission]) := by
  constructor
  · rw [submitted, accounts.submitted, List.append_assoc]
  · exact accounts.finished
  · rw [notified]
    exact accounts.notified
  · rw [submitted, List.map_append, List.pairwise_append]
    refine ⟨accounts.increasing, List.pairwise_singleton _ _, ?_⟩
    intro earlierId earlierMember laterId laterMember
    obtain ⟨earlier, member, rfl⟩ := List.mem_map.mp earlierMember
    rw [List.mem_singleton.mp laterMember]
    exact fresh earlier member
  · rw [submitted]
    intro other member
    rcases List.mem_append.mp member with old | new
    · exact accounts.positive other old
    · rw [List.mem_singleton.mp new]
      exact positive

theorem enqueueSubmittedDcb_eq (gpuState : SubmittedGpuState World)
    (queue : Queue) (commandAddress : UInt64) (dwordCount : UInt32)
    (submissionId : UInt64) :
    ∃ enqueued, enqueueSubmittedDcb environment gpuState queue commandAddress
          dwordCount submissionId =
        pumpSubmittedQueue environment enqueued queue ∧
      enqueued.queues = Function.update gpuState.queues queue { gpuState.queues queue with
          pendingSubmissions :=
            (gpuState.queues queue).pendingSubmissions ++
              [⟨commandAddress, dwordCount, submissionId⟩] } ∧
      enqueued.submitted = Function.update gpuState.submitted queue (gpuState.submitted queue ++
          [⟨commandAddress, dwordCount, submissionId⟩]) ∧
      enqueued.submissionSequence = gpuState.submissionSequence ∧
      enqueued.history = gpuState.history ∧
      marks enqueued = marks gpuState :=
  ⟨_, rfl, rfl, rfl, rfl, rfl, rfl⟩

theorem Quiet.enqueue {submissionId : UInt64} (commandAddress : UInt64) (dwordCount : UInt32)
    (quiet : Quiet gpuState (marks gpuState ++ held) queue)
    (fresh : ∀ earlier ∈ gpuState.submitted queue,
      earlier.submissionId < submissionId) (positive : 0 < submissionId) :
    Quiet (enqueueSubmittedDcb environment gpuState queue commandAddress dwordCount submissionId)
      (marks (enqueueSubmittedDcb environment gpuState queue commandAddress
        dwordCount submissionId) ++ held) queue := by
  obtain ⟨enqueued, isPumped, queues, submitted, _, history, sameMarks⟩ :=
    enqueueSubmittedDcb_eq environment gpuState queue commandAddress dwordCount submissionId
  have isQueue := congrFun queues queue
  have isSubmitted := congrFun submitted queue
  rw [Function.update_self] at isQueue isSubmitted
  have accounts {done rest} (before : Accounts gpuState queue done rest) :=
    before.enqueue isSubmitted (by rw [isQueue]) fresh positive
  rw [isPumped]
  obtain ⟨done, ⟨resting, nothingPending⟩ | ⟨submission, packets, address, left, waiting⟩⟩ := quiet
  · apply pumpSubmittedQueue_spec
    constructor
    · rw [isQueue, resting.inactive]
    · rw [isQueue, resting.running]
    · rw [isQueue]
      exact accounts resting.accounts
    · rw [history, resting.history]
    · rw [sameMarks, resting.unmarked]
  · have stillSuspended : (enqueued.queues queue).isSuspended = true := by
      rw [isQueue, waiting.suspended]
    rw [pumpSubmittedQueue, if_pos stillSuspended]
    refine ⟨done, .inr ⟨submission, packets, address, left, ?_⟩⟩
    constructor
    · rw [isQueue, waiting.active]
    · exact stillSuspended
    · rw [isQueue, waiting.activeId]
    · rw [isQueue]
      exact accounts waiting.accounts
    · rw [history, waiting.history]
    · exact waiting.walk
    · rw [sameMarks, waiting.marked]

theorem Sound.driverSubmit (target : Queue) (commandAddress : UInt64)
    (dwordCount : UInt32) (sound : Sound gpuState [] queue)
    (countable : Countable gpuState) :
    Sound (Agc.driverSubmit environment gpuState target commandAddress dwordCount) [] queue := by
  rw [Agc.driverSubmit]
  apply Sound.drain
  have next := toNat_nextSequence countable
  generalize gpuState.submissionSequence + 1 = submissionId at next ⊢
  have fresh : ∀ earlier ∈ gpuState.submitted queue, earlier.submissionId < submissionId := by
    intro earlier member
    have bounded := sound.numbered earlier member
    rw [UInt64.le_iff_toNat_le] at bounded
    rw [UInt64.lt_iff_toNat_lt]
    omega
  have positive : 0 < submissionId := by
    rw [UInt64.lt_iff_toNat_lt, next]
    exact Nat.succ_pos _
  generalize isCounted : { gpuState with
    submissionSequence := submissionId } = counted
  have quiet : Quiet counted (marks counted ++ []) queue := by
    rw [← isCounted]
    exact sound.quiet.same rfl rfl rfl (.refl _)
  have sequence : counted.submissionSequence = submissionId := by
    rw [← isCounted]
  have sameSubmitted : counted.submitted = gpuState.submitted := by
    rw [← isCounted]
  obtain ⟨enqueued, isPumped, queues, submitted, sameSequence, history,
    sameMarks⟩ := enqueueSubmittedDcb_eq environment counted target
      commandAddress dwordCount submissionId
  have only := onlyQueue_pump environment enqueued target
  constructor
  · by_cases isTarget : queue = target
    · rw [← isTarget]
      rw [← sameSubmitted] at fresh
      exact quiet.enqueue environment commandAddress dwordCount fresh positive
    · rw [isPumped]
      refine Quiet.untouched (quiet.same ?_ ?_ ?_ ?_) only isTarget
      · rw [queues, Function.update_of_ne isTarget]
      · rw [submitted, Function.update_of_ne isTarget]
      · rw [history]
      · rw [sameMarks]
  · rw [isPumped, only.submitted, only.sequence, sameSequence, sequence, submitted, sameSubmitted]
    intro submission member
    by_cases isTarget : queue = target
    · rw [isTarget, Function.update_self] at member
      rcases List.mem_append.mp member with old | new
      · rw [← isTarget] at old
        exact UInt64.le_of_lt (fresh submission old)
      · rw [List.mem_singleton.mp new]
    · rw [Function.update_of_ne isTarget] at member
      exact UInt64.le_of_lt (fresh submission member)

/-- The third entry point leaves the compute queues alone. -/
theorem Sound.driverSubmitMultiDcbs (buffers : List (UInt64 × UInt32))
    (sound : Sound gpuState [] queue) (isCompute : queue ≠ .graphics) :
    Sound (Agc.driverSubmitMultiDcbs environment gpuState buffers) []
      queue := by
  rw [Agc.driverSubmitMultiDcbs]
  apply Sound.drain
  induction buffers generalizing gpuState with
  | nil => exact sound
  | cons first rest ih =>
    rw [List.foldl_cons]
    apply ih
    split
    · exact sound
    · exact sound.untouched (onlyQueue_parse environment _ _ _ _) isCompute

end Submissions

section Events

def Event.submissionId : Event → UInt64
  | .packet submissionId _ _ => submissionId
  | .dropped submissionId _ _ => submissionId
  | .notified submissionId => submissionId

variable {submissionId address last : UInt64} {left final : ℕ} {events : List Event}

theorem Walk.packets (walk : Walk submissionId address left events last final) :
    ∀ event ∈ events, ∃ index < left, ∃ dwords, event =
      .packet submissionId (address + UInt64.ofNat (4 * index)) dwords := by
  induction walk with
  | nil => simp
  | @cons address _ dwords left _ _ positive inside _ ih =>
    intro event member
    rcases List.mem_cons.mp member with first | later
    · exact ⟨0, by omega, dwords, by simp [first]⟩
    · obtain ⟨index, below, length, isPacket⟩ :=
        ih event later
      refine ⟨dwords.toNat + index, by omega, length, ?_⟩
      rw [isPacket, Nat.mul_add, UInt64.ofNat_add, UInt64.add_assoc]
      congr 3
      apply UInt64.toNat_inj.mp
      simp
      omega

theorem Walk.nodup (walk : Walk submissionId address left events last final)
    (short : left < 2 ^ 32) : events.Nodup := by
  induction walk with
  | nil => exact List.nodup_nil
  | @cons address _ dwords left _ _ positive inside rest ih =>
    refine List.nodup_cons.mpr ⟨?_, ih (by omega)⟩
    intro member
    obtain ⟨index, below, _, isPacket⟩ := rest.packets _ member
    have sameAddress := congrArg UInt64.toNat (Event.packet.inj isPacket).2.1
    simp only [UInt64.toNat_add, UInt64.toNat_mul, UInt32.toNat_toUInt64,
      UInt64.toNat_ofNat', UInt64.reduceToNat] at sameAddress
    have bounded := address.toNat_lt
    omega

def Owned (entry : PendingSubmission × List Event) : Prop :=
  entry.2.Nodup ∧ ∀ event ∈ entry.2, event.submissionId = entry.1.submissionId

variable {submission : PendingSubmission}

theorem Walk.owned (walk : Walk submission.submissionId submission.commandAddress
      submission.dwordCount.toNat events last final) :
    Owned (submission, events) := by
  constructor
  · exact walk.nodup submission.dwordCount.toNat_lt
  · intro event member
    obtain ⟨_, _, _, isPacket⟩ := walk.packets event member
    rw [isPacket]
    rfl

theorem Finished.owned (finished : Finished queue submission events) :
    Owned (submission, events) := by
  obtain ⟨packets, tail, address, left, walk, ends, rfl⟩ := finished
  have packetsOwned := walk.owned
  have noOther : ∀ event ∈ packets, ∃ address dwords,
      event = .packet submission.submissionId address dwords := by
    intro event member
    obtain ⟨_, _, dwords, isPacket⟩ := walk.packets event member
    exact ⟨_, dwords, isPacket⟩
  have behind : Owned (submission, tail ++
      if queue = .graphics then [.notified submission.submissionId]
      else []) := by
    rcases ends with ⟨rfl, _⟩ | ⟨_, rfl⟩ <;>
      by_cases isGraphics : queue = .graphics <;>
        simp [Owned, isGraphics, Event.submissionId]
  constructor
  · simp only [List.append_assoc]
    refine List.nodup_append.mpr ⟨packetsOwned.1, behind.1, ?_⟩
    intro event isPacket other isBehind same
    obtain ⟨address, dwords, rfl⟩ := noOther event isPacket
    rw [← same] at isBehind
    rcases ends with ⟨rfl, _⟩ | ⟨_, rfl⟩ <;>
      by_cases isGraphics : queue = .graphics <;>
        simp [isGraphics] at isBehind
  · intro event member
    rw [List.append_assoc] at member
    rcases List.mem_append.mp member with isPacket | isBehind
    · exact packetsOwned.2 event isPacket
    · exact behind.2 event isBehind

theorem flatMap_events {entries : List (PendingSubmission × List Event)}
    (owned : ∀ entry ∈ entries, Owned entry)
    (increasing : ((entries.map Prod.fst).map PendingSubmission.submissionId).Pairwise (· < ·)) :
    (entries.flatMap Prod.snd).Nodup ∧ ((entries.flatMap Prod.snd).map Event.submissionId).Pairwise
        (· ≤ ·) := by
  induction entries with
  | nil => exact ⟨List.nodup_nil, .nil⟩
  | cons first rest ih =>
    rw [List.map_cons, List.map_cons, List.pairwise_cons] at increasing
    obtain ⟨behind, restIncreasing⟩ := increasing
    obtain ⟨nodup, sorted⟩ := ih (List.forall_mem_cons.mp owned).2 restIncreasing
    obtain ⟨firstNodup, firstIds⟩ := owned first List.mem_cons_self
    have later : ∀ event ∈ rest.flatMap Prod.snd,
        first.1.submissionId < event.submissionId := by
      intro event member
      obtain ⟨entry, isEntry, isEvent⟩ := List.mem_flatMap.mp member
      rw [(owned entry (List.mem_cons_of_mem _ isEntry)).2 event isEvent]
      exact behind _ (List.mem_map_of_mem (List.mem_map_of_mem isEntry))
    rw [List.flatMap_cons]
    constructor
    · refine List.nodup_append.mpr ⟨firstNodup, nodup, ?_⟩
      intro event isFirst other isLater same
      have increases := later other isLater
      rw [← same, firstIds event isFirst] at increases
      exact UInt64.lt_irrefl _ increases
    · rw [List.map_append, List.pairwise_append]
      refine ⟨?_, sorted, ?_⟩
      · apply List.Pairwise.map
        · exact fun _ _ same => UInt64.le_of_eq same
        · apply List.pairwise_of_forall_mem_list
          intro event isFirst other isOther
          rw [firstIds event isFirst, firstIds other isOther]
      · intro firstId isFirst laterId isLater
        obtain ⟨event, eventFirst, rfl⟩ := List.mem_map.mp isFirst
        obtain ⟨other, otherLater, rfl⟩ := List.mem_map.mp isLater
        rw [firstIds event eventFirst]
        exact UInt64.le_of_lt (later other otherLater)

end Events

section Runs

/-- What may happen next: a submission through one of the entry points, label
writes and their producers elsewhere, or a drain by the monitor. -/
inductive Action (World : Type)
  | submitDcb (commandAddress : UInt64) (dwordCount : UInt32)
  | submitAcb (ownerHandle : UInt32) (commandAddress : UInt64)
      (dwordCount : UInt32)
  | submitMultiDcbs (buffers : List (UInt64 × UInt32))
  | others (world : World) (produced : List (UInt64 × UInt64))
  | drain

def perform (gpuState : SubmittedGpuState World) : Action World → SubmittedGpuState World
  | .submitDcb commandAddress dwordCount =>
      driverSubmitDcb environment gpuState commandAddress dwordCount
  | .submitAcb ownerHandle commandAddress dwordCount =>
      driverSubmitAcb environment gpuState ownerHandle commandAddress dwordCount
  | .submitMultiDcbs buffers => driverSubmitMultiDcbs environment gpuState buffers
  | .others world produced => gpuState.affect world produced
  | .drain => drainResumableDcbs environment gpuState

def performed (before : SubmittedGpuState World) (action : Action World)
    (after : SubmittedGpuState World) : Prop :=
  after = perform environment before action

/-- The steps under which the order of a queue is promised: the submission
counter has not run out, and the third entry point is not used on the queue. -/
def Permitted (queue : Queue) (gpuState : SubmittedGpuState World) : Action World → Prop
  | .submitDcb _ _ => Countable gpuState
  | .submitAcb _ _ _ => Countable gpuState
  | .submitMultiDcbs _ => queue ≠ .graphics
  | .others _ _ => True
  | .drain => True

theorem Sound.new (world : World) (queue : Queue) :
    Sound (SubmittedGpuState.new world) [] queue := by
  constructor
  · refine ⟨[], .inl ⟨?_, rfl⟩⟩
    constructor
    · rfl
    · rfl
    · constructor
      · rfl
      · simp
      · exact .inl rfl
      · exact .nil
      · simp [SubmittedGpuState.new]
    · rfl
    · rfl
  · simp [SubmittedGpuState.new]

theorem Sound.perform {action : Action World} (sound : Sound gpuState [] queue)
    (permitted : Permitted queue gpuState action) :
    Sound (Agc.perform environment gpuState action) [] queue := by
  cases action with
  | submitDcb commandAddress dwordCount =>
    exact sound.driverSubmit environment .graphics commandAddress dwordCount permitted
  | submitAcb ownerHandle commandAddress dwordCount =>
    exact sound.driverSubmit environment (.compute ownerHandle) commandAddress dwordCount permitted
  | submitMultiDcbs buffers =>
    exact sound.driverSubmitMultiDcbs environment buffers permitted
  | others world produced =>
    exact sound.sameQueues (sameQueues_affect gpuState world produced)
  | drain => exact sound.drain environment

def waitersOf (gpuState : SubmittedGpuState World) (queue : Queue) :
    List WaitingDcb :=
  gpuState.waiters.filter fun waiter => waiter.state = queue

theorem markedFor_marks (gpuState : SubmittedGpuState World) (queue : Queue) :
    markedFor (marks gpuState) queue = (waitersOf gpuState queue).map WaitingDcb.mark := by
  rw [markedFor, marks, List.filter_map]
  rfl

/-- What is promised of a queue between two steps. -/
structure InOrder (gpuState : SubmittedGpuState World) (queue : Queue) :
    Prop where
  ledger : Quiet gpuState (marks gpuState) queue
  once : (gpuState.history queue).Nodup
  submission_order :
    ((gpuState.history queue).map Event.submissionId).Pairwise (· ≤ ·)
  suspended_iff : (gpuState.queues queue).isSuspended = true ↔
    ∃ waiter, waitersOf gpuState queue = [waiter]

theorem Sound.inOrder (sound : Sound gpuState [] queue) :
    InOrder gpuState queue := by
  have ledger := sound.quiet
  rw [List.append_nil] at ledger
  have waiters := markedFor_marks gpuState queue
  obtain ⟨done, ⟨resting, _⟩ | ⟨submission, packets, address, left, waiting⟩⟩ := id ledger
  · have increasing := resting.accounts.increasing
    rw [resting.accounts.submitted, List.map_append, List.pairwise_append] at increasing
    obtain ⟨nodup, sorted⟩ := flatMap_events
      (fun entry member => (resting.accounts.finished entry member).owned)
      increasing.1
    rw [resting.unmarked] at waiters
    constructor
    · exact ledger
    · rw [resting.history]
      exact nodup
    · rw [resting.history]
      exact sorted
    · rw [resting.running, List.map_eq_nil_iff.mp waiters.symm]
      simp
  · have events : gpuState.history queue = (done ++ [(submission, packets)]).flatMap Prod.snd := by
      rw [waiting.history]
      simp
    have increasing := waiting.accounts.increasing
    rw [waiting.accounts.submitted, List.append_cons, List.map_append,
      List.pairwise_append] at increasing
    have owned : ∀ entry ∈ done ++ [(submission, packets)], Owned entry := by
      intro entry member
      rcases List.mem_append.mp member with old | new
      · exact (waiting.accounts.finished entry old).owned
      · rw [List.mem_singleton.mp new]
        exact waiting.walk.owned
    obtain ⟨nodup, sorted⟩ := flatMap_events owned (by
      rw [List.map_append]
      exact increasing.1)
    rw [waiting.marked] at waiters
    obtain ⟨waiter, isWaiter, _⟩ := List.map_eq_singleton_iff.mp waiters.symm
    constructor
    · exact ledger
    · rw [events]
      exact nodup
    · rw [events]
      exact sorted
    · rw [waiting.suspended]
      exact ⟨fun _ => ⟨waiter, isWaiter⟩, fun _ => rfl⟩

/-- A queue goes through its submissions in order, each packet once, and is
suspended exactly while one waiter says where its submission goes on. -/
theorem queues_in_order {queue : Queue} {gpuState : SubmittedGpuState World} (reachable : Reachable
      (fun start => ∃ world, start = SubmittedGpuState.new world)
      (onlyWhen (Permitted queue) (performed environment)) gpuState) :
    InOrder gpuState queue := by
  apply Sound.inOrder
  apply reachable.invariant_onlyWhen
  · rintro _ ⟨world, rfl⟩
    exact .new world queue
  · rintro before action _ sound permitted rfl
    exact sound.perform environment permitted

/-- A guest with one command buffer, a wait for the label at `0x2000` to become
one and a filler packet behind it; the world is the label. -/
def labelGuest : Environment UInt32 where
  readUInt32 label address :=
    if address = 0x1000 then some 0xc0053c00
    else if address = 0x1004 then some 3
    else if address = 0x1010 then some 1
    else if address = 0x1014 then some 0xffffffff
    else if address = 0x101c then some 0x80000000
    else if address = 0x2000 then some label
    else none
  readUInt64 _ address := if address = 0x1008 then some 0x2000 else none
  writeUInt32 _ _ value := value
  writeUInt64 _ _ value := value.toUInt32
  now _ := 0
  apply label _ _ _ := (label, [], true)
  meanwhile label := (label, [])
  arrange _ waiters := waiters
  arrange_perm _ _ := .refl _
  gpuWaitSuspendEnabled := true
  gpuDeadlockBreakTicks := 1000

/-- Two submissions wait for the label in turn, it is written, and a drain
finishes both. -/
theorem queues_in_order_sample : InOrder (perform labelGuest (perform labelGuest (perform labelGuest
            (perform labelGuest (.new 0) (.submitDcb 0x1000 8))
            (.submitDcb 0x1000 8))
          (.others 1 [(0x2000, 1)]))
        .drain) .graphics := by
  apply queues_in_order labelGuest
  refine .next (.next (.next (.next (.start ⟨0, rfl⟩) ⟨?_, rfl⟩) ⟨?_, rfl⟩) ⟨?_, rfl⟩) ⟨?_, rfl⟩
  · rw [Permitted, Countable]
    decide
  · rw [Permitted, Countable]
    decide
  · exact trivial
  · exact trivial

/-- A submission of one filler packet on a compute queue passes its packet, and
its completion is never notified. -/
theorem acb_completion_not_notified : ∃ gpuState : SubmittedGpuState UInt32,
      Reachable (fun start => ∃ world, start = SubmittedGpuState.new world)
          (performed labelGuest) gpuState ∧
        gpuState.submitted (.compute 7) = [⟨0x101c, 1, 1⟩] ∧
        (gpuState.queues (.compute 7)).hasActiveSubmission = false ∧
        (gpuState.queues (.compute 7)).pendingSubmissions = [] ∧
        gpuState.history (.compute 7) = [.packet 1 0x101c 1] := by
  refine ⟨perform labelGuest (.new 0) (.submitAcb 7 0x101c 1),
    .next (.start ⟨0, rfl⟩) rfl, ?_, ?_, ?_, ?_⟩
  · decide
  · decide
  · decide
  · decide

end Runs

end SharpEmu.Agc
