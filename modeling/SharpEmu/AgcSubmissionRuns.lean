import SharpEmu.AgcSubmissions
import SharpEmu.TransitionRuns

/-!
# Runs of the GPU queues

Between two calls every queue is either at rest with nothing pending, or
suspended in a wait with one waiter that says where its submission goes on.  What
happened on the queue is then the events of its finished submissions in the order
of submission, followed by the packets of the suspended one.

While a drain is going on, waiters taken out of the registry still stand for
their queues.
-/

namespace SharpEmu.Agc

open SubmittedGpuState

/-- What a waiter says about its queue: which submission goes on where, and how
many dwords of it are left. -/
structure Mark where
  queue : Queue
  submissionId : UInt64
  address : UInt64
  left : ℕ
  deriving DecidableEq

def WaitingDcb.mark (waiter : WaitingDcb) : Mark :=
  ⟨waiter.state, waiter.submissionId, waiter.resumeAddress,
    (waiter.totalDwords - waiter.resumeOffset).toNat⟩

inductive Walk (submissionId : UInt64) :
    UInt64 → ℕ → List Event → UInt64 → ℕ → Prop
  | nil (address : UInt64) (left : ℕ) :
      Walk submissionId address left [] address left
  | cons {address last : UInt64} {dwords : UInt32} {left final : ℕ}
      {events : List Event} (positive : 0 < dwords.toNat)
      (inside : dwords.toNat ≤ left)
      (rest : Walk submissionId (address + dwords.toUInt64 * 4)
        (left - dwords.toNat) events last final) :
      Walk submissionId address left
        (.packet submissionId address dwords :: events) last final

def Ends (submissionId address : UInt64) (left : ℕ) (tail : List Event) :
    Prop :=
  tail = [] ∧ left = 0 ∨ ∃ reason, tail = [.dropped submissionId address reason]

/-- The events of a finished submission; on the graphics queue its completion is
notified behind them. -/
def Finished (queue : Queue) (submission : PendingSubmission) (events : List Event) : Prop :=
  ∃ packets tail address left, Walk submission.submissionId submission.commandAddress
        submission.dwordCount.toNat packets address left ∧
      Ends submission.submissionId address left tail ∧
      events = packets ++ tail ++
        if queue = .graphics then [.notified submission.submissionId] else []

theorem Walk.trans {submissionId first second third : UInt64} {a b c : ℕ} {front back : List Event}
    (frontWalk : Walk submissionId first a front second b)
    (backWalk : Walk submissionId second b back third c) :
    Walk submissionId first a (front ++ back) third c := by
  induction frontWalk with
  | nil => exact backWalk
  | cons positive inside _ ih =>
    exact .cons positive inside (ih backWalk)

variable {World : Type}

section Marks

def marks (gpuState : SubmittedGpuState World) : List Mark :=
  gpuState.waiters.map WaitingDcb.mark

structure SameQueues (before after : SubmittedGpuState World) : Prop where
  queues : after.queues = before.queues
  sequence : after.submissionSequence = before.submissionSequence
  submitted : after.submitted = before.submitted
  history : after.history = before.history
  marks : marks after = marks before

theorem SameQueues.refl (gpuState : SubmittedGpuState World) :
    SameQueues gpuState gpuState :=
  ⟨rfl, rfl, rfl, rfl, rfl⟩

theorem SameQueues.trans {first second third : SubmittedGpuState World}
    (front : SameQueues first second) (back : SameQueues second third) :
    SameQueues first third :=
  ⟨back.queues.trans front.queues, back.sequence.trans front.sequence,
    back.submitted.trans front.submitted, back.history.trans front.history,
    back.marks.trans front.marks⟩

/-- Latching a waiter does not change where its submission goes on. -/
theorem sameQueues_recordProduced (gpuState : SubmittedGpuState World)
    (produced : UInt64 × UInt64) :
    SameQueues gpuState (gpuState.recordProduced produced) := by
  refine ⟨rfl, rfl, rfl, rfl, ?_⟩
  rw [marks, recordProduced, List.map_map]
  apply List.map_congr_left
  intro waiter _
  simp only [Function.comp_apply]
  split <;> rfl

theorem sameQueues_affect (gpuState : SubmittedGpuState World) (world : World)
    (produced : List (UInt64 × UInt64)) :
    SameQueues gpuState (gpuState.affect world produced) := by
  have fold : ∀ start, SameQueues gpuState start →
      SameQueues gpuState (produced.foldl recordProduced start) := by
    induction produced with
    | nil => exact fun _ same => same
    | cons first rest ih =>
      intro start same
      exact ih _ (same.trans (sameQueues_recordProduced start first))
  exact fold _ ⟨rfl, rfl, rfl, rfl, rfl⟩

theorem sameQueues_interleave (environment : Environment World)
    (gpuState : SubmittedGpuState World) :
    SameQueues gpuState (gpuState.interleave environment) :=
  sameQueues_affect gpuState _ _

end Marks

section Parsing

variable (environment : Environment World)

variable {waited : SubmittedGpuState World}

theorem handleSubmittedWaitRegMem_spec (gpuState : SubmittedGpuState World)
    (queue : Queue) (packetAddress : UInt64)
    (offset length dwordCount : UInt32) (is64Bit isStandard : Bool)
    {suspended : Bool}
    (handled : handleSubmittedWaitRegMem environment gpuState queue
      packetAddress offset length dwordCount is64Bit isStandard = (suspended, waited)) :
    (suspended = false ∧ SameQueues gpuState waited) ∨
      (suspended = true ∧ waited.queues = gpuState.queues ∧
        waited.submissionSequence = gpuState.submissionSequence ∧
        waited.submitted = gpuState.submitted ∧
        waited.history = gpuState.history ∧
        marks waited = marks gpuState ++ [⟨queue, (gpuState.queues queue).activeSubmissionId,
            packetAddress + length.toUInt64 * 4,
            (dwordCount - (offset + length)).toNat⟩]) := by
  rw [handleSubmittedWaitRegMem] at handled
  rcases fields : tryParseSubmittedWait environment gpuState.world
    packetAddress is64Bit isStandard with
    _ | ⟨waitAddress, reference, mask, compareFunction⟩
  · rw [fields] at handled
    cases handled
    exact .inl ⟨rfl, .refl _⟩
  · rw [fields] at handled
    simp only at handled
    by_cases noWait : compareFunction = 0 ∨ compareFunction = 7
    · rw [if_pos noWait] at handled
      cases handled
      exact .inl ⟨rfl, .refl _⟩
    · rw [if_neg noWait] at handled
      by_cases invalid : waitAddress = 0 ∨ mask = 0 ∨ waitAddress % (if is64Bit then 8 else 4) ≠ 0
      · rw [if_pos invalid] at handled
        cases handled
        exact .inl ⟨rfl, .refl _⟩
      · rw [if_neg invalid] at handled
        rcases current : readLabel environment gpuState.world waitAddress is64Bit with _ | value
        · rw [current] at handled
          cases handled
          exact .inl ⟨rfl, .refl _⟩
        · rw [current] at handled
          simp only at handled
          split_ifs at handled
          · cases handled
            exact .inl ⟨rfl, .refl _⟩
          · cases handled
            exact .inl ⟨rfl, ⟨rfl, rfl, rfl, rfl, rfl⟩⟩
          · cases handled
            refine .inr ⟨rfl, rfl, rfl, rfl, rfl, ?_⟩
            simp [marks, register, WaitingDcb.mark]

/-- What parsing part of a submission does: it passes packets one behind the
other, and stops in a wait that is registered, at the end, or by dropping the
rest. -/
structure Parsed (before after : SubmittedGpuState World) (queue : Queue)
    (submissionId address : UInt64) (left : ℕ) (suspended : Bool)
    (packets tail : List Event) (last : UInt64) (final : ℕ) : Prop where
  queues : after.queues = before.queues
  sequence : after.submissionSequence = before.submissionSequence
  submitted : after.submitted = before.submitted
  history : after.history = Function.update before.history queue
    (before.history queue ++ (packets ++ tail))
  walk : Walk submissionId address left packets last final
  marks : marks after = marks before ++
    if suspended then [⟨queue, submissionId, last, final⟩] else []
  ends : if suspended then tail = [] else Ends submissionId last final tail

variable {after : SubmittedGpuState World} {last : UInt64} {left final : ℕ}
  {packets tail : List Event}

theorem Parsed.afterSame {before middle : SubmittedGpuState World}
    {queue : Queue} {submissionId address : UInt64}
    {suspended : Bool}
    (same : SameQueues before middle)
    (parsed : Parsed middle after queue submissionId address left suspended
      packets tail last final) :
    Parsed before after queue submissionId address left suspended packets tail
      last final := by
  constructor
  · rw [parsed.queues, same.queues]
  · rw [parsed.sequence, same.sequence]
  · rw [parsed.submitted, same.submitted]
  · rw [parsed.history, same.history]
  · exact parsed.walk
  · rw [parsed.marks, same.marks]
  · exact parsed.ends

theorem Parsed.dropped (gpuState : SubmittedGpuState World) (queue : Queue)
    (address : UInt64) (left : ℕ) (reason : DropReason) :
    Parsed gpuState (gpuState.drop queue address reason) queue
      (gpuState.queues queue).activeSubmissionId address left false []
      [.dropped (gpuState.queues queue).activeSubmissionId address reason] address
      left := by
  constructor
  · rfl
  · rfl
  · rfl
  · rfl
  · exact .nil _ _
  · exact (List.append_nil _).symm
  · exact .inr ⟨reason, rfl⟩

theorem Parsed.atEnd (gpuState : SubmittedGpuState World) (queue : Queue)
    (submissionId address : UInt64) (nothingLeft : left = 0) :
    Parsed gpuState gpuState queue submissionId address left false [] []
      address left := by
  constructor
  · rfl
  · rfl
  · rfl
  · simp
  · exact .nil _ _
  · exact (List.append_nil _).symm
  · exact .inl ⟨rfl, nothingLeft⟩

variable {dwords : UInt32}

theorem Parsed.afterPacket {before : SubmittedGpuState World} {queue : Queue} {address : UInt64}
    {suspended : Bool}
    (positive : 0 < dwords.toNat) (inside : dwords.toNat ≤ left)
    (parsed : Parsed (before.consume queue address dwords) after queue
      (before.queues queue).activeSubmissionId
      (address + dwords.toUInt64 * 4) (left - dwords.toNat) suspended packets
      tail last final) :
    Parsed before after queue (before.queues queue).activeSubmissionId address left suspended
      (.packet (before.queues queue).activeSubmissionId address dwords ::
        packets) tail last final := by
  constructor
  · rw [parsed.queues]
    rfl
  · rw [parsed.sequence]
    rfl
  · rw [parsed.submitted]
    rfl
  · rw [parsed.history]
    simp [consume, log]
  · exact .cons positive inside parsed.walk
  · rw [parsed.marks]
    rfl
  · exact parsed.ends

theorem Parsed.suspended {before : SubmittedGpuState World} {queue : Queue} {address : UInt64}
    (positive : 0 < dwords.toNat) (inside : dwords.toNat ≤ left)
    (rest : final = left - dwords.toNat)
    (queues : waited.queues = before.queues)
    (sequence : waited.submissionSequence = before.submissionSequence)
    (submitted : waited.submitted = before.submitted)
    (history : waited.history = before.history)
    (registered : Agc.marks waited = Agc.marks before ++
      [⟨queue, (before.queues queue).activeSubmissionId, address + dwords.toUInt64 * 4, final⟩]) :
    Parsed before (waited.consume queue address dwords) queue
      (before.queues queue).activeSubmissionId address left true
      [.packet (before.queues queue).activeSubmissionId address dwords] []
      (address + dwords.toUInt64 * 4) final := by
  constructor
  · exact queues
  · exact sequence
  · exact submitted
  · simp [consume, log, queues, history]
  · rw [rest]
    exact .cons positive inside (.nil _ _)
  · exact registered
  · rfl

theorem toNat_pm4Length (header : UInt32) :
    2 ≤ (pm4Length header).toNat ∧ (pm4Length header).toNat ≤ 0x4001 := by
  have masked : (header >>> 16 &&& 0x3fff).toNat ≤ 0x3fff := by
    rw [UInt32.toNat_and]
    exact Nat.and_le_right
  rw [pm4Length, UInt32.toNat_add, show (2 : UInt32).toNat = 2 from rfl,
    Nat.mod_eq_of_lt (by omega)]
  omega

theorem packet_address (commandAddress : UInt64) {offset length : UInt32}
    (fits : offset.toNat + length.toNat < 2 ^ 32) :
    commandAddress + (offset + length).toUInt64 * 4 =
      commandAddress + offset.toUInt64 * 4 + length.toUInt64 * 4 := by
  have sum : (offset + length).toUInt64 = offset.toUInt64 + length.toUInt64 := by
    apply UInt64.toNat_inj.mp
    rw [UInt32.toNat_toUInt64, UInt32.toNat_add, UInt64.toNat_add,
      UInt32.toNat_toUInt64, UInt32.toNat_toUInt64, Nat.mod_eq_of_lt fits,
      Nat.mod_eq_of_lt (by omega)]
  rw [sum, UInt64.add_mul, UInt64.add_assoc]

theorem parseSubmittedDcbCore_spec (queue : Queue) (commandAddress : UInt64)
    {dwordCount : UInt32} (small : dwordCount.toNat ≤ 1000000) (fuel : ℕ)
    (gpuState : SubmittedGpuState World) (offset : UInt32)
    (inside : offset.toNat ≤ dwordCount.toNat)
    (enough : dwordCount.toNat - offset.toNat ≤ fuel) {suspended : Bool}
    (parsed : parseSubmittedDcbCore environment queue commandAddress dwordCount
      fuel gpuState offset = (suspended, after)) :
    ∃ packets tail last final,
      Parsed gpuState after queue (gpuState.queues queue).activeSubmissionId
        (commandAddress + offset.toUInt64 * 4)
        (dwordCount.toNat - offset.toNat) suspended packets tail last final := by
  induction fuel generalizing gpuState offset with
  | zero =>
    cases parsed
    exact ⟨_, _, _, _, .atEnd _ _ _ _ (by omega)⟩
  | succ fuel ih =>
    have same := sameQueues_interleave environment gpuState
    rw [← same.queues]
    rw [parseSubmittedDcbCore] at parsed
    generalize gpuState.interleave environment = interleaved at same parsed ⊢
    suffices fromInterleaved : ∃ packets tail last final, Parsed interleaved after queue
          (interleaved.queues queue).activeSubmissionId
          (commandAddress + offset.toUInt64 * 4)
          (dwordCount.toNat - offset.toNat) suspended packets tail last
          final by
      obtain ⟨packets, tail, last, final, whole⟩ := fromInterleaved
      exact ⟨packets, tail, last, final, whole.afterSame same⟩
    -- passing one packet and parsing the rest from behind it
    have passes (passed : SubmittedGpuState World) (length : UInt32) (positive : 0 < length.toNat)
        (fits : offset.toNat + length.toNat ≤ dwordCount.toNat)
        (unchanged : SameQueues interleaved passed)
        (rest : parseSubmittedDcbCore environment queue commandAddress
          dwordCount fuel (passed.consume queue (commandAddress + offset.toUInt64 * 4) length)
          (offset + length) = (suspended, after)) :
        ∃ packets tail last final, Parsed interleaved after queue
            (interleaved.queues queue).activeSubmissionId
            (commandAddress + offset.toUInt64 * 4)
            (dwordCount.toNat - offset.toNat) suspended packets tail last
            final := by
      have sum : (offset + length).toNat = offset.toNat + length.toNat := by
        rw [UInt32.toNat_add, Nat.mod_eq_of_lt (by omega)]
      obtain ⟨packets, tail, last, final, behind⟩ :=
        ih _ _ (by omega) (by omega) rest
      rw [packet_address commandAddress (by omega), sum, Nat.sub_add_eq] at behind
      rw [← unchanged.queues]
      exact ⟨_, tail, last, final, (Parsed.afterPacket positive (by omega)
        behind).afterSame unchanged⟩
    split at parsed
    · rename_i more
      rw [UInt32.lt_iff_toNat_lt] at more
      simp only at parsed
      split at parsed
      · cases parsed
        exact ⟨_, _, _, _, .dropped _ _ _ _ _⟩
      · rename_i header _
        split at parsed
        · exact passes _ 1 (by decide) more (.refl _) parsed
        · split at parsed
          · cases parsed
            exact ⟨_, _, _, _, .dropped _ _ _ _ _⟩
          · have lengthBounds := toNat_pm4Length header
            split at parsed
            · cases parsed
              exact ⟨_, _, _, _, .dropped _ _ _ _ _⟩
            · rename_i accepted
              have fits : offset.toNat + (pm4Length header).toNat ≤
                  dwordCount.toNat := by
                push Not at accepted
                have within := accepted.2
                rw [UInt32.le_iff_toNat_le, UInt32.toNat_add, Nat.mod_eq_of_lt (by omega)] at within
                exact within
              split at parsed
              · rename_i is64Bit isStandard _
                rcases handled : handleSubmittedWaitRegMem environment
                  interleaved queue (commandAddress + offset.toUInt64 * 4)
                  offset (pm4Length header) dwordCount is64Bit isStandard
                  with ⟨waits, waited⟩
                rw [handled] at parsed
                simp only at parsed
                rcases handleSubmittedWaitRegMem_spec environment interleaved
                  queue _ _ _ _ _ _ handled with
                  ⟨goesOn, unchanged⟩ | ⟨stops, queues, sequence, submitted, history, registered⟩
                · rw [goesOn] at parsed
                  exact passes _ _ (by omega) fits unchanged parsed
                · rw [stops] at parsed
                  cases parsed
                  have remaining : (dwordCount - (offset + pm4Length header)).toNat =
                        dwordCount.toNat - offset.toNat - (pm4Length header).toNat := by
                    rw [UInt32.toNat_sub, UInt32.toNat_add]
                    omega
                  exact ⟨_, _, _, _, .suspended (by omega) (by omega)
                    remaining queues sequence submitted history registered⟩
              · have unchanged := sameQueues_affect interleaved
                  (environment.apply interleaved.world queue (commandAddress + offset.toUInt64 * 4)
                    (pm4Length header)).1
                  (environment.apply interleaved.world queue (commandAddress + offset.toUInt64 * 4)
                    (pm4Length header)).2.1
                split at parsed
                · exact passes _ _ (by omega) fits unchanged parsed
                · cases parsed
                  rw [← unchanged.queues]
                  exact ⟨_, _, _, _, (Parsed.dropped _ _ _ _ _).afterSame unchanged⟩
    · rename_i atEnd
      rw [UInt32.lt_iff_toNat_lt] at atEnd
      cases parsed
      exact ⟨_, _, _, _, .atEnd _ _ _ _ (by omega)⟩

theorem parseSubmittedDcb_spec (gpuState : SubmittedGpuState World)
    (queue : Queue) (commandAddress : UInt64) (dwordCount : UInt32)
    {suspended : Bool}
    (parsed : parseSubmittedDcb environment gpuState queue commandAddress
      dwordCount = (suspended, after)) :
    ∃ packets tail last final,
      Parsed gpuState after queue (gpuState.queues queue).activeSubmissionId
        commandAddress dwordCount.toNat suspended packets tail last final := by
  rw [parseSubmittedDcb] at parsed
  split at parsed
  · cases parsed
    exact ⟨_, _, _, _, .dropped _ _ _ _ _⟩
  · rename_i accepted
    push Not at accepted
    obtain ⟨_, _, small⟩ := accepted
    rw [UInt32.le_iff_toNat_le] at small
    have start : commandAddress + (0 : UInt32).toUInt64 * 4 =
        commandAddress := by
      simp
    have whole := parseSubmittedDcbCore_spec environment queue commandAddress
      small dwordCount.toNat gpuState 0 (by simp) (by simp) parsed
    rw [start] at whole
    exact whole

end Parsing

section Ledgers

def markedFor (all : List Mark) (queue : Queue) : List Mark :=
  all.filter fun mark => mark.queue = queue

@[simp] theorem markedFor_append (first second : List Mark) (queue : Queue) :
    markedFor (first ++ second) queue = markedFor first queue ++ markedFor second queue := by
  simp [markedFor]

structure OnlyQueue (before after : SubmittedGpuState World) (queue : Queue) :
    Prop where
  sequence : after.submissionSequence = before.submissionSequence
  queues : ∀ other ≠ queue, after.queues other = before.queues other
  submitted : after.submitted = before.submitted
  history : ∀ other ≠ queue, after.history other = before.history other
  marks : ∀ other ≠ queue,
    markedFor (marks after) other = markedFor (marks before) other

theorem OnlyQueue.refl (gpuState : SubmittedGpuState World) (queue : Queue) :
    OnlyQueue gpuState gpuState queue :=
  ⟨rfl, fun _ _ => rfl, rfl, fun _ _ => rfl, fun _ _ => rfl⟩

theorem OnlyQueue.trans {first second third : SubmittedGpuState World}
    {queue : Queue} (front : OnlyQueue first second queue)
    (back : OnlyQueue second third queue) : OnlyQueue first third queue := by
  constructor
  · exact back.sequence.trans front.sequence
  · exact fun other apart =>
      (back.queues other apart).trans (front.queues other apart)
  · exact back.submitted.trans front.submitted
  · exact fun other apart =>
      (back.history other apart).trans (front.history other apart)
  · exact fun other apart =>
      (back.marks other apart).trans (front.marks other apart)

theorem OnlyQueue.setQueue (gpuState : SubmittedGpuState World) (queue : Queue)
    (state : SubmittedDcbState) :
    OnlyQueue gpuState (gpuState.setQueue queue state) queue :=
  ⟨rfl, fun _ apart => Function.update_of_ne apart _ _, rfl, fun _ _ => rfl,
    fun _ _ => rfl⟩

variable {after : SubmittedGpuState World}

theorem Parsed.onlyQueue {before : SubmittedGpuState World}
    {queue : Queue} {submissionId address last : UInt64} {left final : ℕ}
    {suspended : Bool} {packets tail : List Event}
    (parsed : Parsed before after queue submissionId address left suspended
      packets tail last final) : OnlyQueue before after queue := by
  constructor
  · exact parsed.sequence
  · intro other _
    rw [parsed.queues]
  · exact parsed.submitted
  · intro other apart
    rw [parsed.history, Function.update_of_ne apart]
  · intro other apart
    rw [parsed.marks, markedFor_append]
    cases suspended <;> simp [markedFor, Ne.symm apart]

theorem OnlyQueue.notify (gpuState : SubmittedGpuState World) (queue : Queue)
    (submissionId : UInt64) :
    OnlyQueue gpuState (notifySubmittedDcbCompleted gpuState queue submissionId) queue := by
  rw [notifySubmittedDcbCompleted]
  split
  · exact .refl _ _
  · constructor
    · rfl
    · exact fun other apart => Function.update_of_ne apart _ _
    · rfl
    · exact fun other apart => Function.update_of_ne apart _ _
    · exact fun _ _ => rfl

/-- What the submissions of a queue are and which of them are finished. -/
structure Accounts (gpuState : SubmittedGpuState World) (queue : Queue)
    (done : List (PendingSubmission × List Event))
    (rest : List PendingSubmission) : Prop where
  submitted : gpuState.submitted queue = done.map Prod.fst ++ rest
  finished : ∀ entry ∈ done, Finished queue entry.1 entry.2
  notified : (gpuState.queues queue).completionEventNotifiedSubmissionId = 0 ∨
    ∃ entry ∈ done, entry.1.submissionId =
      (gpuState.queues queue).completionEventNotifiedSubmissionId
  increasing : ((gpuState.submitted queue).map
    PendingSubmission.submissionId).Pairwise (· < ·)
  positive : ∀ submission ∈ gpuState.submitted queue,
    0 < submission.submissionId

/-- Nothing of the queue is being parsed or waited for. -/
structure Resting (gpuState : SubmittedGpuState World) (all : List Mark)
    (queue : Queue) (done : List (PendingSubmission × List Event)) : Prop where
  inactive : (gpuState.queues queue).hasActiveSubmission = false
  running : (gpuState.queues queue).isSuspended = false
  accounts : Accounts gpuState queue done
    (gpuState.queues queue).pendingSubmissions
  history : gpuState.history queue = done.flatMap Prod.snd
  unmarked : markedFor all queue = []

structure Waiting (gpuState : SubmittedGpuState World) (all : List Mark)
    (queue : Queue) (done : List (PendingSubmission × List Event))
    (submission : PendingSubmission) (packets : List Event)
    (address : UInt64) (left : ℕ) : Prop where
  active : (gpuState.queues queue).hasActiveSubmission = true
  suspended : (gpuState.queues queue).isSuspended = true
  activeId : (gpuState.queues queue).activeSubmissionId =
    submission.submissionId
  accounts : Accounts gpuState queue done
    (submission :: (gpuState.queues queue).pendingSubmissions)
  history : gpuState.history queue = done.flatMap Prod.snd ++ packets
  walk : Walk submission.submissionId submission.commandAddress
    submission.dwordCount.toNat packets address left
  marked : markedFor all queue =
    [⟨queue, submission.submissionId, address, left⟩]

/-- Between two calls: at rest with nothing pending, or suspended. -/
def Quiet (gpuState : SubmittedGpuState World) (all : List Mark) (queue : Queue) : Prop :=
  ∃ done, Resting gpuState all queue done ∧ (gpuState.queues queue).pendingSubmissions = [] ∨
      ∃ submission packets address left,
        Waiting gpuState all queue done submission packets address left

theorem Accounts.same {before : SubmittedGpuState World} {queue : Queue}
    {done : List (PendingSubmission × List Event)}
    {rest : List PendingSubmission} (accounts : Accounts before queue done rest)
    (submitted : after.submitted queue = before.submitted queue)
    (notified : (after.queues queue).completionEventNotifiedSubmissionId =
      (before.queues queue).completionEventNotifiedSubmissionId) :
    Accounts after queue done rest := by
  constructor
  · rw [submitted]
    exact accounts.submitted
  · exact accounts.finished
  · rw [notified]
    exact accounts.notified
  · rw [submitted]
    exact accounts.increasing
  · rw [submitted]
    exact accounts.positive

theorem Quiet.same {before : SubmittedGpuState World} {first second : List Mark} {queue : Queue}
    (quiet : Quiet before first queue)
    (queues : after.queues queue = before.queues queue)
    (submitted : after.submitted queue = before.submitted queue)
    (history : after.history queue = before.history queue)
    (marked : (markedFor second queue).Perm (markedFor first queue)) :
    Quiet after second queue := by
  have accounts {done rest} (held : Accounts before queue done rest) :
      Accounts after queue done rest := held.same submitted (by rw [queues])
  obtain ⟨done, ⟨resting, nothingPending⟩ | ⟨submission, packets, address, left, waiting⟩⟩ := quiet
  · refine ⟨done, .inl ⟨?_, by rw [queues, nothingPending]⟩⟩
    rw [resting.unmarked] at marked
    constructor
    · rw [queues, resting.inactive]
    · rw [queues, resting.running]
    · rw [queues]
      exact accounts resting.accounts
    · rw [history, resting.history]
    · exact marked.eq_nil
  · refine ⟨done, .inr ⟨submission, packets, address, left, ?_⟩⟩
    rw [waiting.marked] at marked
    constructor
    · rw [queues, waiting.active]
    · rw [queues, waiting.suspended]
    · rw [queues, waiting.activeId]
    · rw [queues]
      exact accounts waiting.accounts
    · rw [history, waiting.history]
    · exact waiting.walk
    · exact List.perm_singleton.mp marked

theorem Quiet.untouched {before : SubmittedGpuState World} {queue other : Queue} {held : List Mark}
    (quiet : Quiet before (marks before ++ held) other)
    (only : OnlyQueue before after queue) (apart : other ≠ queue) :
    Quiet after (marks after ++ held) other := by
  apply quiet.same (only.queues other apart) _ (only.history other apart)
  · rw [markedFor_append, markedFor_append, only.marks other apart]
  · rw [only.submitted]

end Ledgers

section Pumping

variable (environment : Environment World)
variable {gpuState : SubmittedGpuState World} {queue : Queue}
variable {done : List (PendingSubmission × List Event)}

def completion (queue : Queue) (submissionId : UInt64) : List Event :=
  if queue = .graphics then [.notified submissionId] else []

theorem Accounts.notified_ne {submission : PendingSubmission} {rest : List PendingSubmission}
    (accounts : Accounts gpuState queue done (submission :: rest)) :
    (gpuState.queues queue).completionEventNotifiedSubmissionId ≠
      submission.submissionId := by
  have positive := accounts.positive submission (by
    rw [accounts.submitted]
    simp)
  rcases accounts.notified with never | ⟨entry, member, isEntry⟩
  · rw [never]
    exact (UInt64.ne_of_lt positive)
  · rw [← isEntry]
    have increasing := accounts.increasing
    rw [accounts.submitted, List.map_append, List.pairwise_append] at increasing
    apply UInt64.ne_of_lt
    exact increasing.2.2 _ (List.mem_map_of_mem (List.mem_map_of_mem member)) _
      (List.mem_map_of_mem List.mem_cons_self)

theorem notifySubmittedDcbCompleted_spec {submissionId : UInt64}
    (fresh : (gpuState.queues queue).completionEventNotifiedSubmissionId ≠ submissionId) :
    (notifySubmittedDcbCompleted gpuState queue submissionId).queues queue =
        { gpuState.queues queue with
          completionEventNotifiedSubmissionId :=
            if queue = .graphics then submissionId
            else
              (gpuState.queues queue).completionEventNotifiedSubmissionId } ∧
      (notifySubmittedDcbCompleted gpuState queue submissionId).history queue =
        gpuState.history queue ++ completion queue submissionId ∧
      (notifySubmittedDcbCompleted gpuState queue submissionId).submitted = gpuState.submitted ∧
      marks (notifySubmittedDcbCompleted gpuState queue submissionId) =
        marks gpuState := by
  rw [notifySubmittedDcbCompleted]
  by_cases isGraphics : queue = .graphics
  · rw [if_neg (by simp [isGraphics, isGraphics ▸ fresh])]
    refine ⟨?_, ?_, rfl, rfl⟩
    · simp [log, setQueue, isGraphics]
    · simp [log, setQueue, isGraphics, completion]
  · rw [if_pos (.inl isGraphics)]
    simp [isGraphics, completion]

theorem notify_pending (gpuState : SubmittedGpuState World) (queue : Queue)
    (submissionId : UInt64) :
    ((notifySubmittedDcbCompleted gpuState queue submissionId).queues queue).pendingSubmissions =
      (gpuState.queues queue).pendingSubmissions := by
  rw [notifySubmittedDcbCompleted]
  split
  · rfl
  · simp [log, setQueue]

theorem notify_marks (gpuState : SubmittedGpuState World) (queue : Queue) (submissionId : UInt64) :
    marks (notifySubmittedDcbCompleted gpuState queue submissionId) =
      marks gpuState := by
  rw [notifySubmittedDcbCompleted]
  split <;> rfl

theorem Resting.finish {all : List Mark} {submission : PendingSubmission}
    {packets tail : List Event} {address : UInt64} {left : ℕ}
    (inactive : (gpuState.queues queue).hasActiveSubmission = false)
    (running : (gpuState.queues queue).isSuspended = false)
    (accounts : Accounts gpuState queue done
      (submission :: (gpuState.queues queue).pendingSubmissions))
    (history : gpuState.history queue = done.flatMap Prod.snd ++ (packets ++ tail))
    (walk : Walk submission.submissionId submission.commandAddress
      submission.dwordCount.toNat packets address left)
    (ends : Ends submission.submissionId address left tail)
    (unmarked : markedFor all queue = []) :
    Resting (notifySubmittedDcbCompleted gpuState queue submission.submissionId) all
      queue (done ++ [(submission,
        packets ++ tail ++ completion queue submission.submissionId)]) := by
  obtain ⟨queues, logged, submitted, _⟩ :=
    notifySubmittedDcbCompleted_spec accounts.notified_ne
  constructor
  · rw [queues, inactive]
  · rw [queues, running]
  · constructor
    · rw [submitted, queues, accounts.submitted]
      simp
    · intro entry member
      rcases List.mem_append.mp member with old | new
      · exact accounts.finished entry old
      · rw [List.mem_singleton.mp new]
        exact ⟨packets, tail, address, left, walk, ends, rfl⟩
    · rw [queues]
      by_cases isGraphics : queue = .graphics
      · right
        exact ⟨_, List.mem_append_right _ (List.mem_singleton_self _), (if_pos isGraphics).symm⟩
      · simp only [if_neg isGraphics]
        rcases accounts.notified with never | ⟨entry, member, isEntry⟩
        · exact .inl never
        · exact .inr ⟨entry, List.mem_append_left _ member, isEntry⟩
    · rw [submitted]
      exact accounts.increasing
    · rw [submitted]
      exact accounts.positive
  · rw [logged, history]
    simp
  · exact unmarked

/-- A submission of the queue is about to be parsed on from an address. -/
structure Underway (gpuState : SubmittedGpuState World) (all : List Mark)
    (queue : Queue) (done : List (PendingSubmission × List Event))
    (submission : PendingSubmission) (packets : List Event)
    (address : UInt64) (left : ℕ) : Prop where
  active : (gpuState.queues queue).hasActiveSubmission = true
  running : (gpuState.queues queue).isSuspended = false
  activeId : (gpuState.queues queue).activeSubmissionId =
    submission.submissionId
  accounts : Accounts gpuState queue done
    (submission :: (gpuState.queues queue).pendingSubmissions)
  history : gpuState.history queue = done.flatMap Prod.snd ++ packets
  walk : Walk submission.submissionId submission.commandAddress
    submission.dwordCount.toNat packets address left
  unmarked : markedFor all queue = []

@[simp] theorem setQueue_queues (gpuState : SubmittedGpuState World)
    (queue : Queue) (state : SubmittedDcbState) :
    (gpuState.setQueue queue state).queues queue = state :=
  Function.update_self _ _ _

@[simp] theorem setQueue_setQueue (gpuState : SubmittedGpuState World)
    (queue : Queue) (first second : SubmittedDcbState) :
    (gpuState.setQueue queue first).setQueue queue second = gpuState.setQueue queue second := by
  simp [setQueue]

section Underway

variable {held : List Mark} {submission : PendingSubmission}
variable {before : List Event} {address : UInt64} {dwordCount : UInt32}
variable {parsed : SubmittedGpuState World}

theorem Underway.suspends
    (underway : Underway gpuState (marks gpuState ++ held) queue done submission
      before address dwordCount.toNat)
    (isParsed : parseSubmittedDcb environment gpuState queue address dwordCount = (true, parsed)) :
    Quiet (parsed.setQueue queue { parsed.queues queue with isSuspended := true })
      (marks parsed ++ held) queue := by
  obtain ⟨packets, tail, last, final, spec⟩ :=
    parseSubmittedDcb_spec environment _ _ _ _ isParsed
  have noTail : tail = [] := spec.ends
  have noMark := underway.unmarked
  have walk := spec.walk
  have registered := spec.marks
  rw [underway.activeId] at walk registered
  rw [markedFor_append, List.append_eq_nil_iff] at noMark
  refine ⟨done, .inr ⟨submission, before ++ packets, last, final, ?_⟩⟩
  constructor
  · rw [setQueue_queues, spec.queues, underway.active]
  · rw [setQueue_queues]
  · rw [setQueue_queues, spec.queues, underway.activeId]
  · rw [setQueue_queues, spec.queues]
    apply underway.accounts.same
    · exact congrFun spec.submitted queue
    · rw [setQueue_queues]
  · change parsed.history queue = _
    rw [spec.history, Function.update_self, underway.history, noTail]
    simp
  · exact underway.walk.trans walk
  · rw [registered, markedFor_append, markedFor_append, noMark.1, noMark.2]
    simp [markedFor]

theorem Underway.finishes
    (underway : Underway gpuState (marks gpuState ++ held) queue done submission
      before address dwordCount.toNat)
    (isParsed : parseSubmittedDcb environment gpuState queue address
      dwordCount = (false, parsed)) {state : SubmittedDcbState}
    (isState : state = { parsed.queues queue with
      hasActiveSubmission := false, isSuspended := false }) :
    ∃ events, Resting (notifySubmittedDcbCompleted (parsed.setQueue queue state) queue
        submission.submissionId) (marks parsed ++ held) queue
      (done ++ [(submission, events)]) := by
  obtain ⟨packets, tail, last, final, spec⟩ :=
    parseSubmittedDcb_spec environment _ _ _ _ isParsed
  have walk := spec.walk
  have ends : Ends _ last final tail := spec.ends
  have registered := spec.marks
  rw [underway.activeId] at walk ends
  simp only [Bool.false_eq_true, if_false, List.append_nil] at registered
  refine ⟨_, Resting.finish ?_ ?_ ?_ ?_ (underway.walk.trans walk) ends ?_⟩
  · rw [setQueue_queues, isState]
  · rw [setQueue_queues, isState]
  · rw [setQueue_queues, isState, spec.queues]
    apply underway.accounts.same
    · exact congrFun spec.submitted queue
    · rw [setQueue_queues]
  · change parsed.history queue = _
    rw [spec.history, Function.update_self, underway.history, List.append_assoc, List.append_assoc]
  · rw [registered]
    exact underway.unmarked

end Underway

theorem pumpPending_spec (fuel : ℕ) {gpuState : SubmittedGpuState World}
    {held : List Mark} {done : List (PendingSubmission × List Event)}
    (resting : Resting gpuState (marks gpuState ++ held) queue done)
    (enough : (gpuState.queues queue).pendingSubmissions.length ≤ fuel) :
    Quiet (pumpPending environment queue fuel gpuState)
      (marks (pumpPending environment queue fuel gpuState) ++ held) queue := by
  induction fuel generalizing gpuState done with
  | zero =>
    have nothingPending := List.eq_nil_of_length_eq_zero (Nat.le_zero.mp enough)
    exact ⟨done, .inl ⟨resting, nothingPending⟩⟩
  | succ fuel ih =>
    rw [pumpPending]
    simp only [resting.inactive, Bool.false_eq_true, if_false]
    rcases pending : (gpuState.queues queue).pendingSubmissions with
      _ | ⟨submission, rest⟩
    · exact ⟨done, .inl ⟨resting, pending⟩⟩
    · simp only
      generalize isStarted : gpuState.setQueue queue _ = started
      have underway : Underway started (marks started ++ held) queue done
          submission [] submission.commandAddress
          submission.dwordCount.toNat := by
        rw [← isStarted]
        constructor
        · rw [setQueue_queues]
        · rw [setQueue_queues, resting.running]
        · rw [setQueue_queues]
        · rw [setQueue_queues]
          have accounts := resting.accounts
          rw [pending] at accounts
          exact accounts.same rfl (by rw [setQueue_queues])
        · rw [List.append_nil]
          exact resting.history
        · exact .nil _ _
        · exact resting.unmarked
      rcases isParsed : parseSubmittedDcb environment started queue
        submission.commandAddress submission.dwordCount with
        ⟨suspended, parsed⟩
      cases suspended with
      | true => exact underway.suspends environment isParsed
      | false =>
        simp only [setQueue_queues, setQueue_setQueue, Bool.false_eq_true, if_false]
        obtain ⟨events, rested⟩ :=
          underway.finishes environment isParsed rfl
        have fewer : (parsed.queues queue).pendingSubmissions = rest := by
          obtain ⟨_, _, _, _, spec⟩ :=
            parseSubmittedDcb_spec environment _ _ _ _ isParsed
          rw [spec.queues, ← isStarted, setQueue_queues]
        apply ih
        · rw [notify_marks]
          exact rested
        · rw [notify_pending, setQueue_queues, fewer]
          rw [pending, List.length_cons] at enough
          omega

theorem pumpSubmittedQueue_spec {held : List Mark}
    (resting : Resting gpuState (marks gpuState ++ held) queue done) :
    Quiet (pumpSubmittedQueue environment gpuState queue)
      (marks (pumpSubmittedQueue environment gpuState queue) ++ held)
      queue := by
  rw [pumpSubmittedQueue, resting.running]
  exact pumpPending_spec environment _ resting (Nat.le_refl _)

theorem resumeSuspendedDcb_spec {held : List Mark} {waiter : WaitingDcb}
    (quiet : Quiet gpuState (marks gpuState ++ waiter.mark :: held) waiter.state) :
    Quiet (resumeSuspendedDcb environment gpuState waiter)
      (marks (resumeSuspendedDcb environment gpuState waiter) ++ held)
      waiter.state := by
  have isMarked : waiter.mark ∈ markedFor (marks gpuState ++ waiter.mark :: held) waiter.state := by
    simp [markedFor, WaitingDcb.mark]
  obtain ⟨done, ⟨resting, _⟩ | ⟨submission, packets, address, left, waiting⟩⟩ :=
    quiet
  · rw [resting.unmarked] at isMarked
    cases isMarked
  · have unmarked : markedFor (marks gpuState ++ held) waiter.state = [] := by
      have count := congrArg List.length waiting.marked
      have first : markedFor (waiter.mark :: held) waiter.state =
          waiter.mark :: markedFor held waiter.state := by
        simp [markedFor, WaitingDcb.mark]
      rw [markedFor_append, first, List.length_append, List.length_cons] at count
      rw [markedFor_append, ← List.length_eq_zero_iff, List.length_append]
      simp only [List.length_singleton] at count
      omega
    rw [waiting.marked] at isMarked
    have mark := List.mem_singleton.mp isMarked
    simp only [WaitingDcb.mark, Mark.mk.injEq, true_and] at mark
    obtain ⟨sameId, sameAddress, sameLeft⟩ := mark
    rw [resumeSuspendedDcb]
    simp only [sameId]
    generalize isQueue : waiter.state = queue at waiting unmarked ⊢
    split
    · rename_i nothingLeft
      have noDwords : left = 0 := by
        rw [← sameLeft, nothingLeft]
        rfl
      apply pumpSubmittedQueue_spec
      rw [notify_marks]
      apply Resting.finish
      · rw [setQueue_queues]
      · rw [setQueue_queues]
      · rw [setQueue_queues]
        exact waiting.accounts.same rfl (by rw [setQueue_queues])
      · rw [List.append_nil]
        exact waiting.history
      · exact waiting.walk
      · exact .inl ⟨rfl, noDwords⟩
      · exact unmarked
    · generalize isResumed : gpuState.setQueue queue _ = resumed
      have underway : Underway resumed (marks resumed ++ held) queue done
          submission packets waiter.resumeAddress
          (waiter.totalDwords - waiter.resumeOffset).toNat := by
        rw [← isResumed]
        constructor
        · rw [setQueue_queues, waiting.active]
        · rw [setQueue_queues]
        · rw [setQueue_queues]
        · rw [setQueue_queues]
          exact waiting.accounts.same rfl (by rw [setQueue_queues])
        · exact waiting.history
        · rw [sameAddress, sameLeft]
          exact waiting.walk
        · exact unmarked
      rcases isParsed : parseSubmittedDcb environment resumed queue
        waiter.resumeAddress (waiter.totalDwords - waiter.resumeOffset) with
        ⟨suspended, parsed⟩
      cases suspended with
      | true => exact underway.suspends environment isParsed
      | false =>
        obtain ⟨_, _, _, _, spec⟩ :=
          parseSubmittedDcb_spec environment _ _ _ _ isParsed
        have stillRunning : (parsed.queues queue).isSuspended = false := by
          rw [spec.queues, ← isResumed, setQueue_queues]
        have isState : { parsed.queues queue with
              hasActiveSubmission := false } =
            { parsed.queues queue with
              hasActiveSubmission := false, isSuspended := false } := by
          simp [stillRunning]
        obtain ⟨events, rested⟩ :=
          underway.finishes environment isParsed isState
        apply pumpSubmittedQueue_spec
        rw [notify_marks]
        exact rested

end Pumping

end SharpEmu.Agc
