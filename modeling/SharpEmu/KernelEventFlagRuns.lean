import SharpEmu.KernelEventFlags
import Mathlib.Data.UInt

/-!
# Runs of an event flag

Setting bits wakes the blocked guest threads, and every other call only takes bits away,
so a satisfied waiter is visited; but bits that are taken away before the visit are lost
for it, and cancelling sets the bits and wakes no guest thread.  The number of waiting
threads is right as long as no guest thread's deadline passes and no thread waits when the
flag is cancelled.
-/

namespace SharpEmu.KernelEventFlags

open Addressed (Memory tryWriteUInt32)
open Cooperative

variable {Thread : Type*} [DecidableEq Thread]

abbrev FlagSystem (Thread : Type*) := System Thread EventFlag EventFlagWait EventFlagResult

abbrev FlagEvent (Thread : Type*) := Event Thread EventFlagCall

def created (initialPattern : UInt64) (memory : Memory) : FlagSystem Thread :=
  .fresh ⟨⟨initialPattern, 0⟩, memory⟩

section Bits

variable {bits fewer : UInt64} {wait other : EventFlagWait} {flag : EventFlag}

theorem isSatisfied_mono (included : fewer &&& bits = fewer)
    (satisfied : isSatisfied fewer wait = true) : isSatisfied bits wait = true := by
  rw [isSatisfied] at satisfied ⊢
  split
  · rename_i condition
    rw [if_pos condition] at satisfied
    have all := of_decide_eq_true satisfied
    apply decide_eq_true
    calc
      bits &&& wait.pattern = bits &&& (fewer &&& wait.pattern) := by rw [all]
      _ = fewer &&& bits &&& wait.pattern := by
        rw [← UInt64.and_assoc, UInt64.and_comm bits]
      _ = wait.pattern := by rw [included, all]
  · rename_i condition
    rw [if_neg condition] at satisfied
    have something := of_decide_eq_true satisfied
    apply decide_eq_true
    intro nothing
    apply something
    calc
      fewer &&& wait.pattern = fewer &&& bits &&& wait.pattern := by rw [included]
      _ = 0 := by rw [UInt64.and_assoc, nothing, UInt64.and_zero]

theorem and_included (bits mask : UInt64) : (bits &&& mask) &&& bits = bits &&& mask := by
  rw [UInt64.and_assoc, UInt64.and_comm mask, ← UInt64.and_assoc, UInt64.and_self]

theorem applyClearMode_included (state : EventFlagState) (wait : EventFlagWait) :
    (state.applyClearMode wait).bits &&& state.bits = (state.applyClearMode wait).bits := by
  rw [EventFlagState.applyClearMode]
  split
  · exact UInt64.zero_and
  · split
    · exact and_included _ _
    · exact UInt64.and_self

theorem applyClearMode_waitingThreads (state : EventFlagState) (wait : EventFlagWait) :
    (state.applyClearMode wait).waitingThreads = state.waitingThreads := by
  rw [EventFlagState.applyClearMode]
  split
  · rfl
  · split <;> rfl

end Bits

/-! ## What a call does to the flag -/

section Calls

variable {flag after : EventFlag} {wait : EventFlagWait} {result : EventFlagResult}

theorem tryCompleteSatisfiedWait_some
    (completed : flag.tryCompleteSatisfiedWait wait = some (after, result)) :
    after.state.bits &&& flag.state.bits = after.state.bits ∧
      after.state.waitingThreads = flag.state.waitingThreads := by
  rw [EventFlag.tryCompleteSatisfiedWait] at completed
  split at completed
  · cases completed
  · split at completed <;> obtain ⟨rfl, -⟩ := Prod.mk.inj (Option.some.inj completed)
    · exact ⟨UInt64.and_self, rfl⟩
    · exact ⟨applyClearMode_included _ _, applyClearMode_waitingThreads _ _⟩

theorem tryPrepareBlockedWait_eq (flag : EventFlag) (wait : EventFlagWait) :
    EventFlag.tryPrepareBlockedWait wait flag =
      (flag.tryCompleteSatisfiedWait wait).map fun completed =>
        ({ completed.1 with state := completed.1.state.dropWaiter }, completed.2) := by
  rw [EventFlag.tryPrepareBlockedWait, EventFlag.tryCompleteSatisfiedWait]
  split
  · rfl
  · split <;> rfl

theorem tryCompleteSatisfiedWait_isSome (flag : EventFlag) (wait : EventFlagWait) :
    (flag.tryCompleteSatisfiedWait wait).isSome = isSatisfied flag.state.bits wait := by
  rw [EventFlag.tryCompleteSatisfiedWait]
  split
  · rename_i unsatisfied
    rw [Bool.eq_false_of_not_eq_true unsatisfied]
    rfl
  · rename_i satisfied
    rw [Bool.not_eq_true, Bool.not_eq_false] at satisfied
    rw [satisfied]
    split <;> rfl

theorem isReadyFor_iff (flag : EventFlag) (wait : EventFlagWait) :
    eventFlags.IsReadyFor flag wait ↔ isSatisfied flag.state.bits wait = true := by
  rw [← tryCompleteSatisfiedWait_isSome, Protocol.IsReadyFor]
  change (EventFlag.tryPrepareBlockedWait wait flag).isSome = true ↔ _
  rw [tryPrepareBlockedWait_eq, Option.isSome_map]

def EventFlagCall.cancels (flag : EventFlag) : EventFlagCall → Bool
  | .cancel _ waiterCountAddress => (flag.tryReportWaiters waiterCountAddress).isSome
  | _ => false

inductive CallEffect (flag : EventFlag) (call : EventFlagCall) :
    Phase EventFlagWait EventFlagResult → EventFlagState →
      Turn EventFlagWait EventFlagResult → Prop
  | sets (pattern : UInt64) :
      CallEffect flag call .running (flag.kernelSetEventFlag pattern).state (.wakes .ok)
  | takes {state : EventFlagState} (result : EventFlagResult)
      (included : state.bits &&& flag.state.bits = state.bits)
      (sameWaiters : state.waitingThreads = flag.state.waitingThreads) :
      CallEffect flag call .running state (.returns result)
  | waits {turn : Turn EventFlagWait EventFlagResult} (wait : EventFlagWait)
      (isWait : turn = .blocks wait ∨ turn = .polls wait) :
      CallEffect flag call .running
        { flag.state with waitingThreads := flag.state.waitingThreads + 1 } turn
  | leaves {state : EventFlagState} (wait : EventFlagWait) (result : EventFlagResult)
      (included : state.bits &&& flag.state.bits = state.bits)
      (oneLess : state.waitingThreads = flag.state.waitingThreads - 1) :
      CallEffect flag call (.polling wait) state (.returns result)
  | resumes (wait : EventFlagWait) (woken : Option EventFlagResult)
      (result : EventFlagResult) :
      CallEffect flag call (.ready wait woken) flag.state (.returns result)
  | cancels (setPattern : UInt64) (isCancelled : call.cancels flag = true) :
      CallEffect flag call .running ⟨setPattern, 0⟩ (.returns .ok)

variable {isGuestThread : Bool} {call : EventFlagCall}
variable {phase : Phase EventFlagWait EventFlagResult}
variable {turn : Turn EventFlagWait EventFlagResult}

theorem kernelWaitEventFlag_effect (flag : EventFlag) (call : EventFlagCall)
    (isGuestThread hasScheduler : Bool) (wait : EventFlagWait) :
    CallEffect flag call .running (flag.kernelWaitEventFlag isGuestThread hasScheduler wait).1.state
      (flag.kernelWaitEventFlag isGuestThread hasScheduler wait).2 := by
  have unchanged (result : EventFlagResult) :
      CallEffect flag call .running flag.state (.returns result) :=
    .takes result UInt64.and_self rfl
  rw [EventFlag.kernelWaitEventFlag]
  split
  · exact unchanged _
  · split
    · exact unchanged _
    · split
      · rename_i completed result isCompleted
        obtain ⟨included, sameWaiters⟩ := tryCompleteSatisfiedWait_some isCompleted
        exact .takes result included sameWaiters
      · dsimp only
        split
        · exact .waits wait (.inl rfl)
        · split
          · exact unchanged _
          · exact .waits wait (.inr rfl)

theorem kernelPollEventFlag_effect (flag : EventFlag) (call : EventFlagCall)
    (wait : EventFlagWait) :
    CallEffect flag call .running (flag.kernelPollEventFlag wait).2.state
      (.returns (flag.kernelPollEventFlag wait).1) := by
  rw [EventFlag.kernelPollEventFlag]
  split
  · exact .takes _ UInt64.and_self rfl
  · split
    · exact .takes _ UInt64.and_self rfl
    · split
      · exact .takes _ UInt64.and_self rfl
      · exact .takes _ (applyClearMode_included _ _) (applyClearMode_waitingThreads _ _)

theorem kernelCancelEventFlag_effect (flag : EventFlag) (setPattern waiterCountAddress : UInt64) :
    CallEffect flag (.cancel setPattern waiterCountAddress) .running
      (flag.kernelCancelEventFlag setPattern waiterCountAddress).2.state
      (.returns (flag.kernelCancelEventFlag setPattern waiterCountAddress).1) := by
  rw [EventFlag.kernelCancelEventFlag]
  split
  · exact .takes _ UInt64.and_self rfl
  · rename_i memory reported
    apply CallEffect.cancels
    rw [EventFlagCall.cancels, reported]
    rfl

theorem pumpWait_effect {isExpired : Bool} (call : EventFlagCall)
    (pumped : flag.pumpWait wait isExpired = some (after, result)) :
    CallEffect flag call (.polling wait) after.state (.returns result) := by
  rw [EventFlag.pumpWait] at pumped
  split at pumped
  · rename_i completed _ isCompleted
    obtain ⟨rfl, rfl⟩ := Prod.mk.inj (Option.some.inj pumped)
    obtain ⟨included, sameWaiters⟩ := tryCompleteSatisfiedWait_some isCompleted
    exact .leaves wait _ included (congrArg (· - 1) sameWaiters)
  · split at pumped
    · obtain ⟨rfl, rfl⟩ := Prod.mk.inj (Option.some.inj pumped)
      exact .leaves _ _ UInt64.and_self rfl
    · cases pumped

theorem resumeWait_effect (flag : EventFlag) (call : EventFlagCall) (wait : EventFlagWait)
    (woken : Option EventFlagResult) :
    CallEffect flag call (.ready wait woken) (flag.resumeWait wait woken).1.state
      (.returns (flag.resumeWait wait woken).2) := by
  cases woken <;> exact .resumes wait _ _

theorem perform_effect
    (performed : EventFlag.perform isGuestThread call flag phase = some (after, turn)) :
    CallEffect flag call phase after.state turn := by
  cases phase with
  | running =>
    cases call with
    | set pattern =>
      obtain ⟨rfl, rfl⟩ := Prod.mk.inj (Option.some.inj performed)
      exact .sets pattern
    | clear pattern =>
      obtain ⟨rfl, rfl⟩ := Prod.mk.inj (Option.some.inj performed)
      exact .takes .ok (and_included _ _) rfl
    | poll wait =>
      obtain ⟨rfl, rfl⟩ := Prod.mk.inj (Option.some.inj performed)
      exact kernelPollEventFlag_effect flag _ wait
    | wait wait hasScheduler =>
      have same := Option.some.inj performed
      have effect := kernelWaitEventFlag_effect flag (.wait wait hasScheduler)
        isGuestThread hasScheduler wait
      rw [same] at effect
      exact effect
    | cancel setPattern waiterCountAddress =>
      obtain ⟨rfl, rfl⟩ := Prod.mk.inj (Option.some.inj performed)
      exact kernelCancelEventFlag_effect flag setPattern waiterCountAddress
    | delete =>
      obtain ⟨rfl, rfl⟩ := Prod.mk.inj (Option.some.inj performed)
      exact .takes .ok UInt64.and_self rfl
    | execute memory =>
      obtain ⟨rfl, rfl⟩ := Prod.mk.inj (Option.some.inj performed)
      exact .takes .ok UInt64.and_self rfl
    | pump | abandon | resume => cases performed
  | polling wait =>
    cases call with
    | pump isExpired =>
      obtain ⟨⟨pumped, result⟩, isPumped, same⟩ := Option.map_eq_some_iff.mp performed
      obtain ⟨rfl, rfl⟩ := Prod.mk.inj same
      exact pumpWait_effect _ isPumped
    | abandon =>
      obtain ⟨rfl, rfl⟩ := Prod.mk.inj (Option.some.inj performed)
      exact .leaves wait .threw UInt64.and_self rfl
    | _ => cases performed
  | ready wait woken =>
    cases call with
    | resume =>
      obtain ⟨rfl, rfl⟩ := Prod.mk.inj (Option.some.inj performed)
      exact resumeWait_effect flag _ wait woken
    | _ => cases performed
  | parking | blocked | waking | visiting =>
    cases call <;> cases performed

end Calls

/-! ## Lost wakeups -/

section Wakeups

variable {flag : EventFlag} {call : EventFlagCall}
variable {phase : Phase EventFlagWait EventFlagResult} {state : EventFlagState}
variable {turn : Turn EventFlagWait EventFlagResult}
variable {system before : FlagSystem Thread} {event : FlagEvent Thread}

theorem eventFlags_wakesQuietly : eventFlags.WakesQuietly := by
  intro wait flag woken result isWoken other isReady
  rw [isReadyFor_iff] at isReady ⊢
  change EventFlag.tryPrepareBlockedWait wait flag = _ at isWoken
  rw [tryPrepareBlockedWait_eq] at isWoken
  obtain ⟨⟨completed, _⟩, isCompleted, same⟩ := Option.map_eq_some_iff.mp isWoken
  obtain ⟨rfl, -⟩ := Prod.mk.inj same
  exact isSatisfied_mono (tryCompleteSatisfiedWait_some isCompleted).1 isReady

theorem CallEffect.announces (effect : CallEffect flag call phase state turn) :
    (∃ result, turn = .wakes result) ∨ (∀ wait, isSatisfied state.bits wait = true →
        isSatisfied flag.state.bits wait = true) ∨
      call.cancels flag = true := by
  cases effect with
  | sets => exact .inl ⟨_, rfl⟩
  | takes _ included | leaves _ _ included =>
    right; left
    intro wait
    exact isSatisfied_mono included
  | waits | resumes =>
    right; left
    intro wait satisfied
    exact satisfied
  | cancels _ isCancelled => exact .inr (.inr isCancelled)

/-! ### The bits that are left -/

def EventFlag.leftBy (flag : EventFlag) (wait : EventFlagWait) : UInt64 :=
  if isSatisfied flag.state.bits wait then (flag.state.applyClearMode wait).bits
  else flag.state.bits

/-- The bits that a call leaves set of those that are. -/
def EventFlag.leftByCall (flag : EventFlag) :
    EventFlagCall → Phase EventFlagWait EventFlagResult → UInt64
  | .clear pattern, .running => flag.state.bits &&& pattern
  | .poll wait, .running => flag.leftBy wait
  | .wait wait _, .running => flag.leftBy wait
  | .pump _, .polling wait => flag.leftBy wait
  | _, _ => flag.state.bits

def bitsLeft (before : FlagSystem Thread) : FlagEvent Thread → UInt64
  | .act thread call => before.object.leftByCall call (before.phase thread)
  | .block thread =>
      match before.phase thread with
      | .parking wait => before.object.leftBy wait
      | _ => before.object.state.bits
  | .next =>
      match before.visit with
      | some (_, thread :: _) =>
          match before.phase thread with
          | .blocked wait => before.object.leftBy wait
          | _ => before.object.state.bits
      | _ => before.object.state.bits
  | _ => before.object.state.bits

theorem leftBy_included (flag : EventFlag) (wait : EventFlagWait) :
    flag.leftBy wait &&& flag.state.bits = flag.leftBy wait := by
  rw [EventFlag.leftBy]
  split
  · exact applyClearMode_included _ _
  · exact UInt64.and_self

theorem leftBy_of_completed {after : EventFlag} {wait : EventFlagWait} {result : EventFlagResult}
    (completed : flag.tryCompleteSatisfiedWait wait = some (after, result)) :
    flag.leftBy wait &&& after.state.bits = flag.leftBy wait := by
  have included := leftBy_included flag wait
  rw [EventFlag.tryCompleteSatisfiedWait] at completed
  split at completed
  · cases completed
  · rename_i satisfied
    split at completed <;> obtain ⟨rfl, -⟩ := Prod.mk.inj (Option.some.inj completed)
    · exact included
    · rw [EventFlag.leftBy, if_pos (not_not.mp satisfied)]
      exact UInt64.and_self

theorem leftBy_of_wake {after : EventFlag} {wait : EventFlagWait} {result : EventFlagResult}
    (woken : EventFlag.tryPrepareBlockedWait wait flag = some (after, result)) :
    flag.leftBy wait &&& after.state.bits = flag.leftBy wait := by
  rw [tryPrepareBlockedWait_eq] at woken
  obtain ⟨⟨completed, _⟩, isCompleted, same⟩ := Option.map_eq_some_iff.mp woken
  obtain ⟨rfl, -⟩ := Prod.mk.inj same
  have left := leftBy_of_completed isCompleted
  exact left

theorem leftByCall_of_perform {isGuestThread : Bool} {after : EventFlag}
    (performed : EventFlag.perform isGuestThread call flag phase = some (after, turn))
    (uncancelled : call.cancels flag = false) :
    flag.leftByCall call phase &&& after.state.bits = flag.leftByCall call phase := by
  cases phase with
  | running =>
    cases call with
    | set pattern =>
      obtain ⟨rfl, -⟩ := Prod.mk.inj (Option.some.inj performed)
      change flag.state.bits &&& (flag.state.bits ||| pattern) = flag.state.bits
      rw [← UInt64.toBitVec_inj]
      simp only [UInt64.toBitVec_and, UInt64.toBitVec_or]
      ext index
      rw [BitVec.getElem_and, BitVec.getElem_or]
      cases flag.state.bits.toBitVec[index] <;> rfl
    | clear pattern =>
      obtain ⟨rfl, -⟩ := Prod.mk.inj (Option.some.inj performed)
      exact UInt64.and_self
    | poll wait =>
      obtain ⟨rfl, -⟩ := Prod.mk.inj (Option.some.inj performed)
      change flag.leftBy wait &&& (flag.kernelPollEventFlag wait).2.state.bits = flag.leftBy wait
      rw [EventFlag.kernelPollEventFlag]
      split
      · exact leftBy_included flag wait
      · split
        · exact leftBy_included flag wait
        · split
          · exact leftBy_included flag wait
          · rename_i satisfied
            rw [EventFlag.leftBy, if_pos (not_not.mp satisfied)]
            exact UInt64.and_self
    | wait wait hasScheduler =>
      have same := Option.some.inj performed
      change flag.leftBy wait &&& after.state.bits = flag.leftBy wait
      have isAfter := congrArg Prod.fst same
      dsimp only at isAfter
      rw [← isAfter, EventFlag.kernelWaitEventFlag]
      split
      · exact leftBy_included flag wait
      · split
        · exact leftBy_included flag wait
        · split
          · rename_i completed result isCompleted
            exact leftBy_of_completed isCompleted
          · dsimp only
            split
            · exact leftBy_included flag wait
            · split <;> exact leftBy_included flag wait
    | cancel setPattern waiterCountAddress =>
      obtain ⟨rfl, -⟩ := Prod.mk.inj (Option.some.inj performed)
      change flag.state.bits &&& (flag.kernelCancelEventFlag setPattern
        waiterCountAddress).2.state.bits = flag.state.bits
      rw [EventFlag.kernelCancelEventFlag]
      split
      · exact UInt64.and_self
      · rename_i memory reported
        rw [EventFlagCall.cancels, reported] at uncancelled
        cases uncancelled
    | delete =>
      obtain ⟨rfl, -⟩ := Prod.mk.inj (Option.some.inj performed)
      exact UInt64.and_self
    | execute memory =>
      obtain ⟨rfl, -⟩ := Prod.mk.inj (Option.some.inj performed)
      exact UInt64.and_self
    | pump | abandon | resume => cases performed
  | polling wait =>
    cases call with
    | pump isExpired =>
      obtain ⟨⟨pumped, result⟩, isPumped, same⟩ := Option.map_eq_some_iff.mp performed
      obtain ⟨rfl, -⟩ := Prod.mk.inj same
      change flag.leftBy wait &&& pumped.state.bits = flag.leftBy wait
      rw [EventFlag.pumpWait] at isPumped
      split at isPumped
      · rename_i completed _ isCompleted
        obtain ⟨rfl, -⟩ := Prod.mk.inj (Option.some.inj isPumped)
        have left := leftBy_of_completed isCompleted
        exact left
      · split at isPumped
        · obtain ⟨rfl, -⟩ := Prod.mk.inj (Option.some.inj isPumped)
          exact leftBy_included flag wait
        · cases isPumped
    | abandon =>
      obtain ⟨rfl, -⟩ := Prod.mk.inj (Option.some.inj performed)
      exact UInt64.and_self
    | _ => cases performed
  | ready wait woken =>
    cases call with
    | resume =>
      obtain ⟨rfl, -⟩ := Prod.mk.inj (Option.some.inj performed)
      cases woken <;> exact UInt64.and_self
    | _ => cases performed
  | parking | blocked | waking | visiting =>
    cases call <;> cases performed

theorem bitsLeft_of_settle {thread : Thread} {wait : EventFlagWait} : before.object.leftBy wait &&&
        (before.settle eventFlags thread wait).object.state.bits =
      before.object.leftBy wait := by
  rcases System.settle_cases eventFlags before thread wait with
    ⟨object, result, woken, settled⟩ | ⟨-, settled⟩
  · rw [settled]
    exact leftBy_of_wake woken
  · rw [settled]
    exact leftBy_included _ _

theorem bitsLeft_of_step {after : FlagSystem Thread}
    (taken : System.Step eventFlags before event after)
    (uncancelled : ∀ thread call, event = .act thread call → call.cancels before.object = false) :
    bitsLeft before event &&& after.object.state.bits = bitsLeft before event := by
  cases taken.effect with
  | start | expire | enter | leave => exact UInt64.and_self
  | act acts performed => exact leftByCall_of_perform performed (uncancelled _ _ rfl)
  | block unlocked parking known =>
    rw [bitsLeft, parking]
    exact bitsLeft_of_settle
  | visit visiting blocked =>
    simp only [bitsLeft, visiting, blocked]
    exact bitsLeft_of_settle
  | @skip waker thread rest visiting unblocked =>
    have isSame : bitsLeft before .next = before.object.state.bits := by
      simp only [bitsLeft, visiting]
    rw [isSame]
    exact UInt64.and_self

/-! ### Undisturbed wakes -/

/-- The flag is cancelled or deleted only while no guest thread waits, and bits that a
blocked waiter is satisfied with are taken by nobody else. -/
structure Undisturbed (before : FlagSystem Thread) (event : FlagEvent Thread) : Prop where
  unwaited : ∀ thread call, event = .act thread call →
    call.cancels before.object = true ∨ call = .delete →
      ∀ other wait, before.phase other ≠ .blocked wait ∧ before.phase other ≠ .parking wait
  keeps : ∀ other wait, before.phase other = .blocked wait →
    isSatisfied before.object.state.bits wait = true →
      (∀ waker rest, event = .next → before.visit ≠ some (waker, other :: rest)) →
        isSatisfied (bitsLeft before event) wait = true

theorem Undisturbed.announces (undisturbed : Undisturbed before event) :
    event.Announces eventFlags before := by
  intro thread call after turn isCall performed
  have effect := perform_effect performed
  rcases effect.announces with wakes | silent | isCancelled
  · exact .inl wakes
  · right; left
    intro wait isReady
    rw [isReadyFor_iff] at isReady ⊢
    exact silent wait isReady
  · exact .inr (.inr fun other wait =>
      (undisturbed.unwaited thread call isCall (.inl isCancelled) other wait).1)

theorem Undisturbed.stays (undisturbed : Undisturbed before event)
    (orderly : before.Orderly) {after : FlagSystem Thread}
    (taken : System.Step eventFlags before event after) {thread : Thread}
    {wait : EventFlagWait} (blocked : before.phase thread = .blocked wait)
    (satisfied : isSatisfied before.object.state.bits wait = true) :
    (after.phase thread = .blocked wait ∧ isSatisfied after.object.state.bits wait = true) ∨
      ∃ woken, after.phase thread = .ready wait woken := by
  rcases taken.effect.blocked_or_ready orderly blocked ((isReadyFor_iff _ _).mpr satisfied)
    with ⟨stillBlocked, unvisited⟩ | ready
  · refine .inl ⟨stillBlocked, isSatisfied_mono (bitsLeft_of_step taken ?_)
      (undisturbed.keeps thread wait blocked satisfied unvisited)⟩
    intro other call isCall
    apply Bool.eq_false_of_not_eq_true
    intro isCancelled
    exact (undisturbed.unwaited other call isCall (.inl isCancelled) thread wait).1 blocked
  · exact .inr ready

variable {initialPattern : UInt64} {memory : Memory}

theorem orderly_of_reachable {condition : FlagSystem Thread → FlagEvent Thread → Prop}
    (reachable : Reachable (· = created initialPattern memory)
      (onlyWhen condition (System.Step eventFlags)) system) :
    system.Orderly := by
  apply reachable.invariant
  · rintro _ rfl
    exact System.orderly_fresh _
  · exact fun _ _ _ orderly taken => taken.2.effect.orderly orderly

/-- The thread is still to be visited by a call that wakes. -/
def ToBeVisited (system : FlagSystem Thread) (thread : Thread) : Prop :=
  (∃ waker, system.phase waker = .waking) ∨
    ∃ waker rest, system.visit = some (waker, rest) ∧ thread ∈ rest

variable {events : List (FlagEvent Thread)}

/-- A blocked thread whose wait is satisfied stays so, and is still to be visited, until
it is made ready; once every call that wakes has made its visits, it has been. -/
theorem no_wakeup_lost_when_undisturbed (reachable : Reachable (· = created initialPattern memory)
      (onlyWhen Undisturbed (System.Step eventFlags)) system)
    {after : FlagSystem Thread}
    (trace : Trace (onlyWhen Undisturbed (System.Step eventFlags)) system events after) :
    (∀ thread wait, system.phase thread = .blocked wait →
      isSatisfied system.object.state.bits wait = true → (after.phase thread = .blocked wait ∧
            isSatisfied after.object.state.bits wait = true ∧ ToBeVisited after thread) ∨
          ∃ first rest middle woken,
            Trace (onlyWhen Undisturbed (System.Step eventFlags)) system first middle ∧
            Trace (onlyWhen Undisturbed (System.Step eventFlags)) middle rest after ∧
            middle.phase thread = .ready wait woken) ∧
      (∀ thread wait next, system.phase thread = .parking wait →
        isSatisfied system.object.state.bits wait = true →
        System.Step eventFlags system (.block thread) next →
          ∃ result, next.phase thread = .ready wait (some result)) ∧
      ∀ waker thread rest wait next, system.visit = some (waker, thread :: rest) →
        system.phase thread = .blocked wait →
        isSatisfied system.object.state.bits wait = true →
        System.Step eventFlags system .next next →
          ∃ result, next.phase thread = .ready wait (some result) := by
  refine ⟨?_, ?_, ?_⟩
  · intro thread wait blocked satisfied
    have attended {state : FlagSystem Thread}
        (reached : Reachable (· = created initialPattern memory)
          (onlyWhen Undisturbed (System.Step eventFlags)) state) :
        state.Attended eventFlags :=
      attended_of_reachable eventFlags_wakesQuietly
        (reached.mono fun _ _ _ taken => ⟨taken.1.announces, taken.2⟩)
    -- Along the trace: reachable, and blocked with a wait that is satisfied.
    rcases holds_or_met (fun state : FlagSystem Thread =>
          Reachable (· = created initialPattern memory)
            (onlyWhen Undisturbed (System.Step eventFlags)) state ∧
          state.phase thread = .blocked wait ∧ isSatisfied state.object.state.bits wait = true)
        (fun state => ∃ woken, state.phase thread = .ready wait woken)
        trace ⟨reachable, blocked, satisfied⟩
        (fun before event next held taken =>
          (taken.1.stays (orderly_of_reachable held.1) taken.2 held.2.1 held.2.2).imp_left
            fun stays => ⟨held.1.next taken, stays⟩) with
      ⟨reached, stillBlocked, stillSatisfied⟩ | ⟨first, rest, middle, before, behind, isMet⟩
    · exact .inl ⟨stillBlocked, stillSatisfied, attended reached thread wait
        stillBlocked ((isReadyFor_iff _ _).mpr stillSatisfied)⟩
    · obtain ⟨woken, isReady⟩ := isMet
      exact .inr ⟨first, rest, middle, woken, before, behind, isReady⟩
  · intro thread wait next parking satisfied taken
    cases taken.effect with
    | block unlocked found known =>
      obtain rfl := Phase.parking.inj (found.symm.trans parking)
      rcases System.settle_cases eventFlags system thread _ with
        ⟨object, result, -, settled⟩ | ⟨unready, -⟩
      · refine ⟨result, ?_⟩
        rw [settled]
        exact System.setPhase_self _ _
      · have isReady := (isReadyFor_iff _ _).mpr satisfied
        rw [Protocol.IsReadyFor, unready] at isReady
        cases isReady
  · intro waker thread rest wait next visiting blocked satisfied taken
    exact taken.ready_of_visit visiting blocked ((isReadyFor_iff _ _).mpr satisfied)

def firstBit : EventFlagWait := ⟨1, 0x02, 0, 0⟩

def isCalm (before : FlagSystem Thread) (event : FlagEvent Thread) : Bool :=
  (match event with
    | .act _ (.cancel _ _) => false
    | .act _ .delete => false
    | _ => true) &&
  before.threads.all fun other =>
    match before.phase other with
    | .blocked wait =>
        !isSatisfied before.object.state.bits wait || isSatisfied (bitsLeft before event) wait
    | _ => true

omit [DecidableEq Thread] in
theorem undisturbed_of_isCalm (orderly : before.Orderly) (calm : isCalm before event = true) :
    Undisturbed before event := by
  obtain ⟨kind, keeps⟩ := Bool.and_eq_true_iff.mp calm
  constructor
  · rintro thread call rfl ends
    rcases ends with isCancelled | rfl
    · cases call with
      | cancel => cases kind
      | _ => cases isCancelled
    · cases kind
  · intro other wait blocked satisfied _
    have kept := List.all_eq_true.mp keeps other (orderly.known other wait blocked)
    rw [blocked] at kept
    dsimp only at kept
    rw [satisfied] at kept
    exact kept

def calmAlong : FlagSystem Thread → List (FlagEvent Thread) → Bool
  | _, [] => true
  | before, event :: events =>
      isCalm before event && (before.perform eventFlags event).all (calmAlong · events)

theorem trace_of_calmAlong {start after : FlagSystem Thread} {earlier : List (FlagEvent Thread)}
    (trace : Trace (onlyWhen Undisturbed (System.Step eventFlags)) start earlier before)
    (orderly : before.Orderly) (calm : calmAlong before events = true)
    (performed : before.performAll eventFlags events = some after) :
    Trace (onlyWhen Undisturbed (System.Step eventFlags)) start (earlier ++ events) after := by
  induction events generalizing earlier before with
  | nil =>
    obtain rfl := Option.some.inj performed
    rw [List.append_nil]
    exact trace
  | cons event events ih =>
    obtain ⟨middle, first, rest⟩ := Option.bind_eq_some_iff.mp performed
    rw [calmAlong, first, Bool.and_eq_true] at calm
    have extended := ih (trace.snoc ⟨undisturbed_of_isCalm orderly calm.1, first⟩)
      (System.Step.effect first |>.orderly orderly) calm.2 rest
    rwa [List.append_assoc] at extended

theorem reachable_of_trace {State Label : Type*} {initial : State → Prop}
    {step : State → Label → State → Prop} {start state : State} {labels : List Label}
    (trace : Trace step start labels state) (starts : initial start) :
    Reachable initial step state := by
  induction trace with
  | nil => exact .start starts
  | snoc _ taken ih => exact ih.next taken

theorem reachable_of_calmAlong {after : FlagSystem Thread}
    (calm : calmAlong (created initialPattern memory) events = true)
    (performed : (created initialPattern memory).performAll eventFlags events = some after) :
    Reachable (· = created initialPattern memory)
      (onlyWhen Undisturbed (System.Step eventFlags)) after :=
  reachable_of_trace (trace_of_calmAlong .nil (System.orderly_fresh _) calm performed) rfl

def waiterBlocked : List (FlagEvent ℕ) :=
  [.start 1, .act 1 (.wait firstBit true), .block 1, .act 2 (.set 3)]

def waiterVisited : List (FlagEvent ℕ) := [.act 3 (.clear 1), .enter 2, .next, .leave]

/-- A guest thread is blocked; another sets the bit it waits for, and a third clears the
other bits before the visit. -/
theorem no_wakeup_lost_when_undisturbed_set : ∃ system after : FlagSystem ℕ,
      (created 0 fun _ => none).performAll eventFlags waiterBlocked = some system ∧
        system.performAll eventFlags waiterVisited = some after ∧
        system.phase 1 = .blocked firstBit ∧
        ∃ first rest middle woken,
          Trace (onlyWhen Undisturbed (System.Step eventFlags)) system first middle ∧
          Trace (onlyWhen Undisturbed (System.Step eventFlags)) middle rest after ∧
          middle.phase 1 = .ready firstBit woken := by
  have reached {system : FlagSystem ℕ}
      (performed : (created 0 fun _ => none).performAll eventFlags waiterBlocked = some system) :
      Reachable (· = created 0 fun _ => none)
        (onlyWhen Undisturbed (System.Step eventFlags)) system :=
    reachable_of_calmAlong rfl performed
  have onwards {system after : FlagSystem ℕ}
      (visited : system.performAll eventFlags waiterVisited = some after)
      (calm : calmAlong system waiterVisited = true) (orderly : system.Orderly) :
      Trace (onlyWhen Undisturbed (System.Step eventFlags)) system waiterVisited after :=
    trace_of_calmAlong .nil orderly calm visited
  refine ⟨_, _, rfl, rfl, rfl, ?_⟩
  rcases (no_wakeup_lost_when_undisturbed (reached rfl)
    (onwards rfl rfl (orderly_of_reachable (reached rfl)))).1 1 firstBit rfl rfl with ⟨stillBlocked, -⟩ | woken
  · cases stillBlocked
  · exact woken

/-- The bit that a blocked thread waits for is set, and cleared again before the visit:
the visit leaves the thread blocked. -/
theorem clear_before_visit_leaves_waiter_blocked :
    ((created 0 fun _ => none : FlagSystem ℕ).performAll eventFlags
      [.start 1, .act 1 (.wait firstBit true), .block 1, .act 2 (.set 1),
        .act 3 (.clear 0), .enter 2, .next, .leave]).map
      (fun system => (system.phase 1, system.visit)) = some (.blocked firstBit, none) :=
  rfl

/-- Cancelling sets the bit that a blocked thread waits for, and leaves it blocked. -/
theorem cancel_leaves_waiter_blocked :
    ∃ system : FlagSystem ℕ, (created 0 fun _ => none).performAll eventFlags
        [.start 1, .act 1 (.wait firstBit true), .block 1, .act 2 (.cancel 1 0)] = some system ∧
      system.phase 1 = .blocked firstBit ∧
      isSatisfied system.object.state.bits firstBit = true ∧
      system.visit = none ∧ ∀ waker, system.phase waker ≠ .waking := by
  refine ⟨_, rfl, rfl, rfl, rfl, ?_⟩
  intro waker
  -- The phases of the threads 1 and 2 were set, and no other.
  change Function.update (Function.update (Function.update (fun _ => Phase.running)
    1 (.parking firstBit)) 1 (.blocked firstBit)) 2 .running waker ≠ .waking
  by_cases first : waker = 1
  · subst first
    intro same
    cases same
  · by_cases second : waker = 2
    · subst second
      intro same
      cases same
    · rw [Function.update_of_ne second, Function.update_of_ne first, Function.update_of_ne first]
      intro same
      cases same

end Wakeups

/-! ## The number of waiting threads -/

section Waiters

variable {system before after : FlagSystem Thread} {event : FlagEvent Thread}
variable {thread : Thread}

def isWaiting : Phase EventFlagWait EventFlagResult → Bool
  | .polling _ | .parking _ | .blocked _ => true
  | _ => false

def waiters (system : FlagSystem Thread) : Set Thread :=
  {thread | isWaiting (system.phase thread) = true}

/-- No guest thread's time is up while it is blocked, and the flag is cancelled only while
no thread waits. -/
def KeepsCount (before : FlagSystem Thread) (event : FlagEvent Thread) : Prop :=
  (∀ thread, event ≠ .expire thread) ∧
    ∀ thread call, event = .act thread call → call.cancels before.object = true →
      ∀ other, isWaiting (before.phase other) = false

def countWorth (phase : Phase EventFlagWait EventFlagResult) : ℤ :=
  if isWaiting phase then 1 else 0

def waitingThreads (flag : EventFlag) : ℤ := flag.state.waitingThreads

theorem countWorth_isWorth : IsWorth countWorth where
  running := rfl
  waking := rfl
  visiting := rfl
  blocked _ := rfl

structure Counted (system : FlagSystem Thread) : Prop where
  orderly : system.Orderly
  exact : system.object.state.waitingThreads = (waiters system).ncard

omit [DecidableEq Thread] in
theorem finite_waiters (orderly : system.Orderly) : (waiters system).Finite := by
  apply orderly.finite.subset
  intro thread waits running
  change isWaiting (system.phase thread) = true at waits
  rw [running] at waits
  cases waits

omit [DecidableEq Thread] in
theorem Counted.one_le (counted : Counted system) (thread : Thread)
    (waits : isWaiting (system.phase thread) = true) :
    1 ≤ system.object.state.waitingThreads := by
  rw [counted.exact]
  exact (Set.ncard_pos (finite_waiters counted.orderly)).mpr ⟨thread, waits⟩

omit [DecidableEq Thread] in
theorem surplus_eq_zero_iff : system.surplus waitingThreads countWorth = 0 ↔
      system.object.state.waitingThreads = (waiters system).ncard := by
  have number : system.load countWorth = (waiters system).ncard :=
    system.load_eq_ncard isWaiting
  rw [System.surplus, number, waitingThreads]
  omega

theorem CallEffect.count {flag : EventFlag} {call : EventFlagCall}
    {phase : Phase EventFlagWait EventFlagResult} {state : EventFlagState}
    {turn : Turn EventFlagWait EventFlagResult}
    (effect : CallEffect flag call phase state turn)
    (counts : isWaiting phase = true → 1 ≤ flag.state.waitingThreads)
    (unwaited : call.cancels flag = true → flag.state.waitingThreads = 0) :
    state.waitingThreads + countWorth phase =
      flag.state.waitingThreads + countWorth turn.phase := by
  cases effect with
  | sets => rfl
  | takes _ _ sameWaiters =>
    rw [sameWaiters]
    rfl
  | waits wait isWait =>
    rcases isWait with rfl | rfl <;> simp [countWorth, isWaiting, Turn.phase]
  | leaves wait result _ oneLess =>
    have someone := counts rfl
    change (state.waitingThreads : ℤ) + 1 = flag.state.waitingThreads + 0
    omega
  | resumes => rfl
  | cancels setPattern isCancelled =>
    rw [unwaited isCancelled]
    rfl

theorem Counted.balances (counted : Counted before) (keeps : KeepsCount before event) :
    event.Balances eventFlags waitingThreads countWorth before := by
  constructor
  · intro thread call flag turn isCall performed
    apply (perform_effect performed).count (counted.one_le thread)
    intro isCancelled
    have nobody : waiters before = ∅ := by
      apply Set.eq_empty_of_forall_notMem
      intro other waits
      have unwaited := keeps.2 thread call isCall isCancelled other
      exact Bool.false_ne_true (unwaited.symm.trans waits)
    rw [counted.exact, nobody, Set.ncard_empty]
  · intro thread wait flag result waits isWoken
    have someone : 1 ≤ before.object.state.waitingThreads := by
      apply counted.one_le thread
      rcases waits with parking | blocked
      · rw [parking]
        rfl
      · rw [blocked]
        rfl
    change EventFlag.tryPrepareBlockedWait wait before.object = _ at isWoken
    rw [tryPrepareBlockedWait_eq] at isWoken
    obtain ⟨⟨completed, _⟩, isCompleted, same⟩ := Option.map_eq_some_iff.mp isWoken
    obtain ⟨rfl, -⟩ := Prod.mk.inj same
    have sameWaiters := (tryCompleteSatisfiedWait_some isCompleted).2
    change ((completed.state.waitingThreads - 1 : ℕ) : ℤ) + 1 =
      before.object.state.waitingThreads + 0
    omega
  · intro thread wait isExpire
    exact absurd isExpire (keeps.1 thread)

theorem kernelCancelEventFlag_reports {flag : EventFlag} (setPattern : UInt64)
    {waiterCountAddress : UInt64} (isAddress : waiterCountAddress ≠ 0)
    (isCancelled : EventFlagCall.cancels flag (.cancel setPattern waiterCountAddress) = true) :
    tryWriteUInt32 flag.memory waiterCountAddress flag.state.waitingThreads =
      some (flag.kernelCancelEventFlag setPattern waiterCountAddress).2.memory := by
  obtain ⟨memory, reported⟩ := Option.isSome_iff_exists.mp isCancelled
  have written := reported
  rw [EventFlag.tryReportWaiters, if_neg isAddress] at written
  rw [written, EventFlag.kernelCancelEventFlag, reported]

omit [DecidableEq Thread] in
theorem counted_created (initialPattern : UInt64) (memory : Memory) :
    Counted (created initialPattern memory : FlagSystem Thread) where
  orderly := System.orderly_fresh _
  exact := by
    have nobody : waiters (created initialPattern memory : FlagSystem Thread) = ∅ :=
      Set.eq_empty_of_forall_notMem fun _ waits => Bool.false_ne_true waits
    rw [nobody, Set.ncard_empty]
    rfl

/-- As long as no guest thread's time is up while it is blocked and the flag is
cancelled only while no thread waits, the count is the number of threads that
wait. -/
theorem waiters_counted_when_unexpired {initialPattern : UInt64} {memory : Memory}
    (reachable : Reachable (· = created initialPattern memory)
      (onlyWhen KeepsCount (System.Step eventFlags)) system) :
    system.object.state.waitingThreads = (waiters system).ncard ∧
      ∀ thread setPattern waiterCountAddress after, waiterCountAddress ≠ 0 →
        EventFlagCall.cancels system.object (.cancel setPattern waiterCountAddress) = true →
        System.Step eventFlags system (.act thread (.cancel setPattern waiterCountAddress)) after →
        tryWriteUInt32 system.object.memory waiterCountAddress (waiters system).ncard =
          some after.object.memory := by
  have counted : Counted system := by
    apply reachable.invariant_onlyWhen
    · rintro _ rfl
      exact counted_created initialPattern memory
    · intro before event after counted keeps taken
      have kept := taken.effect.surplus countWorth_isWorth counted.orderly (counted.balances keeps)
      rw [surplus_eq_zero_iff.mpr counted.exact] at kept
      exact ⟨taken.effect.orderly counted.orderly, surplus_eq_zero_iff.mp kept⟩
  refine ⟨counted.exact, ?_⟩
  intro thread setPattern waiterCountAddress after isAddress isCancelled taken
  have reported := kernelCancelEventFlag_reports setPattern isAddress isCancelled
  rw [counted.exact] at reported
  have effect := taken.effect
  cases effect with
  | act acts performed =>
    change EventFlag.perform _ _ system.object (system.phase thread) = _ at performed
    generalize system.phase thread = phase at performed
    cases phase with
    | running =>
      obtain ⟨rfl, -⟩ := Prod.mk.inj (Option.some.inj performed)
      exact reported
    | _ => cases performed

/-- A guest thread is blocked, and the bit it waits for is not set. -/
theorem waiters_counted_when_unexpired_blocked :
    ∃ system : FlagSystem ℕ, (created 0 fun _ => none).performAll eventFlags
        [.start 1, .act 1 (.wait firstBit true), .block 1] = some system ∧
      1 ∈ waiters system ∧ system.object.state.waitingThreads = (waiters system).ncard := by
  refine ⟨_, rfl, rfl, ?_⟩
  have reachable : Reachable (· = created 0 fun _ => none)
      (onlyWhen KeepsCount (System.Step eventFlags)) _ :=
    .next (.next (.next (.start rfl) (⟨?_, rfl⟩ : onlyWhen KeepsCount _ _ (.start 1) _))
      (⟨?_, rfl⟩ : onlyWhen KeepsCount _ _ (.act 1 (.wait firstBit true)) _))
      (⟨?_, rfl⟩ : onlyWhen KeepsCount _ _ (.block 1) _)
  · exact (waiters_counted_when_unexpired reachable).1
  · exact ⟨fun _ same => (by cases same), fun _ _ isCall => (by cases isCall)⟩
  · refine ⟨fun _ same => (by cases same), ?_⟩
    intro _ _ isCall isCancelled
    cases isCall
    cases isCancelled
  · exact ⟨fun _ same => (by cases same), fun _ _ isCall => (by cases isCall)⟩

def firstBitInTime : EventFlagWait := ⟨1, 0x02, 0, 0x1000⟩

/-- When the time of a blocked guest thread is up, it does not wait any more, but it is
still counted. -/
theorem expired_waiter_still_counted :
    ∃ system : FlagSystem ℕ, (created 0 fun _ => some 0).performAll eventFlags
        [.start 1, .act 1 (.wait firstBitInTime true), .block 1, .expire 1, .act 1 .resume] =
          some system ∧
      waiters system = ∅ ∧
      system.object.state.waitingThreads ≠ (waiters system).ncard := by
  refine ⟨_, rfl, (and_iff_left_of_imp ?_).mpr ?_⟩
  · intro nobody
    rw [nobody, Set.ncard_empty]
    exact Nat.one_ne_zero
  · apply Set.eq_empty_of_forall_notMem
    intro thread waits
    -- The phase of the first thread was set, and no other.
    change isWaiting (Function.update (Function.update (Function.update (Function.update
      (fun _ => Phase.running) 1 (.parking firstBitInTime)) 1 (.blocked firstBitInTime))
      1 (.ready firstBitInTime none)) 1 .running thread) = true at waits
    by_cases here : thread = 1
    · subst here
      cases waits
    · rw [Function.update_of_ne here, Function.update_of_ne here, Function.update_of_ne here,
        Function.update_of_ne here] at waits
      cases waits

end Waiters

end SharpEmu.KernelEventFlags
