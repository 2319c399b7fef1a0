import SharpEmu.KernelSemaphores

/-!
# Runs of a semaphore

Every call and every wake accounts for the tokens it takes, so the count is what the
ledger says, in every order of the calls.  A token that a waker has taken is held by the
woken wait until it resumes.
-/

namespace SharpEmu.KernelSemaphores

open Addressed (Memory)
open Cooperative

structure Counts where
  initialCount : ℤ
  maxCount : ℤ
  count : ℤ
  ledger : Ledger

def Semaphore.counts (semaphore : Semaphore) : Counts :=
  ⟨semaphore.state.initialCount, semaphore.state.maxCount, semaphore.state.count, semaphore.ledger⟩

namespace Counts

def take (counts : Counts) (needCount : ℤ) : Counts :=
  { counts with
    count := counts.count - needCount
    ledger :=
      { counts.ledger with
        granted := counts.ledger.granted + needCount
        grantedInAll := counts.ledger.grantedInAll + needCount } }

def returnOk (counts : Counts) (needCount : ℤ) : Counts :=
  { counts with
    ledger :=
      { counts.ledger with returnedInAll := counts.ledger.returnedInAll + needCount } }

def signal (counts : Counts) (signalCount : ℤ) : Counts :=
  { counts with
    count := counts.count + signalCount
    ledger := { counts.ledger with signalled := counts.ledger.signalled + signalCount } }

def restart (counts : Counts) (count : ℤ) : Counts :=
  { counts with
    count := count
    ledger := { counts.ledger with start := count, signalled := 0, granted := 0 } }

end Counts

section Calls

variable {semaphore after : Semaphore} {wait : SemaphoreWait} {needCount : ℤ}
variable {result : SemaphoreResult} {isGuestThread : Bool} {call : SemaphoreCall}
variable {phase : Phase SemaphoreWait SemaphoreResult}
variable {turn : Turn SemaphoreWait SemaphoreResult}

@[simp] theorem counts_take : (semaphore.take needCount).counts = semaphore.counts.take needCount :=
  rfl

@[simp] theorem counts_returnOk : (semaphore.returnOk needCount).counts =
    semaphore.counts.returnOk needCount :=
  rfl

@[simp] theorem counts_dropWaiter : semaphore.dropWaiter.counts = semaphore.counts :=
  rfl

@[simp] theorem counts_writeTimeout {timeoutAddress : UInt64} {timeoutUsec : ℕ} :
    (semaphore.writeTimeout timeoutAddress timeoutUsec).counts = semaphore.counts := by
  rw [Semaphore.writeTimeout]
  split <;> rfl

inductive CallEffect (counts : Counts) :
    Phase SemaphoreWait SemaphoreResult → Counts →
      Turn SemaphoreWait SemaphoreResult → Prop
  /-- It fails, or it is no business of the counts. -/
  | keeps (result : SemaphoreResult) : CallEffect counts .running counts (.returns result)
  | takes (needCount : ℤ) (needs : 1 ≤ needCount) (has : needCount ≤ counts.count) :
      CallEffect counts .running ((counts.take needCount).returnOk needCount) (.returns .ok)
  | waits (wait : SemaphoreWait) {turn : Turn SemaphoreWait SemaphoreResult}
      (isWait : turn = .blocks wait ∨ turn = .polls wait) :
      CallEffect counts .running counts turn
  | takesLate (wait : SemaphoreWait) (has : wait.needCount ≤ counts.count) :
      CallEffect counts (.polling wait)
        ((counts.take wait.needCount).returnOk wait.needCount) (.returns .ok)
  | givesUp (wait : SemaphoreWait) :
      CallEffect counts (.polling wait) counts (.returns .timedOut)
  | resumes (wait : SemaphoreWait) (result : SemaphoreResult) :
      CallEffect counts (.ready wait (some result)) (counts.returnOk wait.needCount)
        (.returns result)
  | expires (wait : SemaphoreWait) :
      CallEffect counts (.ready wait none) counts (.returns .timedOut)
  | signals (signalCount : ℤ) (isPositive : 0 < signalCount)
      (fits : counts.count + signalCount ≤ counts.maxCount) :
      CallEffect counts .running (counts.signal signalCount) (.wakes .ok)
  | cancels (count : ℤ)
      (isCount : count = counts.initialCount ∨ 0 ≤ count ∧ count ≤ counts.maxCount) :
      CallEffect counts .running (counts.restart count) (.wakes .ok)

theorem kernelWaitSema_effect (semaphore : Semaphore) (isGuestThread : Bool)
    (needCount : ℤ) (timeoutAddress : UInt64) :
    CallEffect semaphore.counts .running
      (semaphore.kernelWaitSema isGuestThread needCount timeoutAddress).1.counts
      (semaphore.kernelWaitSema isGuestThread needCount timeoutAddress).2 := by
  rw [Semaphore.kernelWaitSema]
  split
  · exact .keeps _
  · rename_i inside
    split
    · exact .keeps _
    · split
      · rename_i has
        simp only [counts_returnOk, counts_writeTimeout, counts_take]
        exact .takes needCount (by omega) has
      · cases isGuestThread
        · exact .waits _ (.inr rfl)
        · exact .waits _ (.inl rfl)

theorem kernelPollSema_effect (semaphore : Semaphore) (needCount : ℤ) :
    CallEffect semaphore.counts .running (semaphore.kernelPollSema needCount).1.counts
      (.returns (semaphore.kernelPollSema needCount).2) := by
  rw [Semaphore.kernelPollSema]
  split
  · exact .keeps _
  · rename_i inside
    split
    · exact .keeps _
    · rename_i has
      exact .takes needCount (by omega) (not_lt.mp has)

theorem kernelSignalSema_effect (semaphore : Semaphore) (signalCount : ℤ) :
    CallEffect semaphore.counts .running (semaphore.kernelSignalSema signalCount).1.counts
      (semaphore.kernelSignalSema signalCount).2 := by
  rw [Semaphore.kernelSignalSema]
  split
  · exact .keeps _
  · rename_i positive
    split
    · exact .keeps _
    · rename_i fits
      apply CallEffect.signals signalCount (by omega)
      change semaphore.state.count + signalCount ≤ semaphore.state.maxCount
      omega

theorem kernelCancelSema_effect (semaphore : Semaphore) (setCount : ℤ)
    (waitingThreadsAddress : UInt64) :
    CallEffect semaphore.counts .running
      (semaphore.kernelCancelSema setCount waitingThreadsAddress).1.counts
      (semaphore.kernelCancelSema setCount waitingThreadsAddress).2 := by
  rw [Semaphore.kernelCancelSema]
  split
  · exact .keeps _
  · rename_i fits
    split
    · exact .keeps _
    · apply CallEffect.cancels
      dsimp only
      split
      · exact .inl rfl
      · right
        change 0 ≤ setCount ∧ setCount ≤ semaphore.state.maxCount
        omega

theorem waitSemaphoreOnHostThread_effect {isExpired : Bool}
    (pumped : semaphore.waitSemaphoreOnHostThread wait isExpired = some (after, result)) :
    CallEffect semaphore.counts (.polling wait) after.counts (.returns result) := by
  rw [Semaphore.waitSemaphoreOnHostThread] at pumped
  split at pumped
  · split at pumped
    · obtain ⟨rfl, rfl⟩ := Prod.mk.inj (Option.some.inj pumped)
      simp only [counts_writeTimeout, counts_dropWaiter]
      exact .givesUp wait
    · cases pumped
  · rename_i has
    obtain ⟨rfl, rfl⟩ := Prod.mk.inj (Option.some.inj pumped)
    simp only [counts_returnOk, counts_writeTimeout, counts_dropWaiter, counts_take]
    exact .takesLate wait (not_lt.mp has)

theorem resumeWait_effect (semaphore : Semaphore) (wait : SemaphoreWait)
    (woken : Option SemaphoreResult) :
    CallEffect semaphore.counts (.ready wait woken) (semaphore.resumeWait wait woken).1.counts
      (.returns (semaphore.resumeWait wait woken).2) := by
  cases woken with
  | none =>
    simp only [Semaphore.resumeWait, counts_writeTimeout, counts_dropWaiter]
    exact .expires wait
  | some result =>
    simp only [Semaphore.resumeWait, counts_returnOk, counts_writeTimeout]
    exact .resumes wait result

theorem perform_effect
    (performed : Semaphore.perform isGuestThread call semaphore phase = some (after, turn)) :
    CallEffect semaphore.counts phase after.counts turn := by
  cases phase with
  | running =>
    cases call with
    | wait needCount timeoutAddress =>
      have effect := kernelWaitSema_effect semaphore isGuestThread needCount timeoutAddress
      rw [Option.some.inj performed] at effect
      exact effect
    | poll needCount =>
      obtain ⟨rfl, rfl⟩ := Prod.mk.inj (Option.some.inj performed)
      exact kernelPollSema_effect semaphore needCount
    | signal signalCount =>
      have effect := kernelSignalSema_effect semaphore signalCount
      rw [Option.some.inj performed] at effect
      exact effect
    | cancel setCount waitingThreadsAddress =>
      have effect := kernelCancelSema_effect semaphore setCount waitingThreadsAddress
      rw [Option.some.inj performed] at effect
      exact effect
    | delete | execute =>
      obtain ⟨rfl, rfl⟩ := Prod.mk.inj (Option.some.inj performed)
      exact .keeps .ok
    | pump | resume => cases performed
  | polling wait =>
    cases call with
    | pump isExpired =>
      obtain ⟨⟨pumped, result⟩, isPumped, same⟩ := Option.map_eq_some_iff.mp performed
      obtain ⟨rfl, rfl⟩ := Prod.mk.inj same
      exact waitSemaphoreOnHostThread_effect isPumped
    | _ => cases performed
  | ready wait woken =>
    cases call with
    | resume =>
      obtain ⟨rfl, rfl⟩ := Prod.mk.inj (Option.some.inj performed)
      exact resumeWait_effect semaphore wait woken
    | _ => cases performed
  | parking | blocked | waking | visiting =>
    cases call <;> cases performed

end Calls

/-! ## Tokens -/

section Tokens

variable {Thread : Type*} [DecidableEq Thread]

abbrev SemaphoreSystem (Thread : Type*) :=
  System Thread Semaphore SemaphoreWait SemaphoreResult

def IsCreated (system : SemaphoreSystem Thread) : Prop :=
  ∃ initialCount maxCount memory, acceptsCounts initialCount maxCount = true ∧
    system = .fresh (.created initialCount maxCount memory)

structure Counts.Sound (counts : Counts) : Prop where
  initial : 0 ≤ counts.initialCount ∧ counts.initialCount ≤ counts.maxCount
  range : 0 ≤ counts.count ∧ counts.count ≤ counts.maxCount
  balance : counts.count = counts.ledger.start + counts.ledger.signalled -
    counts.ledger.granted

variable {counts after : Counts} {needCount : ℤ}
variable {phase : Phase SemaphoreWait SemaphoreResult}
variable {turn : Turn SemaphoreWait SemaphoreResult}
variable {system : SemaphoreSystem Thread}

theorem Counts.Sound.take (sound : counts.Sound) (needs : 1 ≤ needCount)
    (has : needCount ≤ counts.count) : (counts.take needCount).Sound := by
  obtain ⟨initial, range, balance⟩ := sound
  constructor
  · exact initial
  · change 0 ≤ counts.count - needCount ∧ counts.count - needCount ≤ counts.maxCount
    omega
  · change counts.count - needCount = counts.ledger.start + counts.ledger.signalled -
      (counts.ledger.granted + needCount)
    omega

theorem Counts.Sound.returnOk (sound : counts.Sound) : (counts.returnOk needCount).Sound :=
  ⟨sound.initial, sound.range, sound.balance⟩

theorem CallEffect.sound (effect : CallEffect counts phase after turn)
    (sound : counts.Sound) : after.Sound := by
  cases effect with
  | keeps | waits | givesUp | expires => exact sound
  | takes needCount needs has => exact (sound.take needs has).returnOk
  | takesLate wait has => exact (sound.take wait.needs has).returnOk
  | resumes => exact sound.returnOk
  | signals signalCount isPositive fits =>
    obtain ⟨initial, range, balance⟩ := sound
    constructor
    · exact initial
    · change 0 ≤ counts.count + signalCount ∧ counts.count + signalCount ≤ counts.maxCount
      omega
    · change counts.count + signalCount = counts.ledger.start +
        (counts.ledger.signalled + signalCount) - counts.ledger.granted
      omega
  | cancels count isCount =>
    obtain ⟨initial, range, balance⟩ := sound
    constructor
    · exact initial
    · change 0 ≤ count ∧ count ≤ counts.maxCount
      rcases isCount with rfl | inside
      · exact initial
      · exact inside
    · change count = count + 0 - 0
      omega

/-- The tokens that a woken wait holds until it resumes. -/
def held : Phase SemaphoreWait SemaphoreResult → ℤ
  | .ready wait (some _) => wait.needCount
  | _ => 0

theorem held_isWorth : IsWorth held where
  running := rfl
  waking := rfl
  visiting := rfl
  blocked _ := rfl

/-- The tokens granted to waits and polls that have not returned. -/
def outstanding (semaphore : Semaphore) : ℤ :=
  semaphore.ledger.grantedInAll - semaphore.ledger.returnedInAll

theorem CallEffect.outstanding (effect : CallEffect counts phase after turn) :
    after.ledger.grantedInAll - after.ledger.returnedInAll + held phase =
      counts.ledger.grantedInAll - counts.ledger.returnedInAll + held turn.phase := by
  cases effect with
  | keeps | givesUp | expires | signals | cancels => rfl
  | takes needCount | takesLate wait =>
    simp only [Counts.take, Counts.returnOk, held, Turn.phase]
    omega
  | waits wait isWait => rcases isWait with rfl | rfl <;> rfl
  | resumes wait result =>
    simp only [Counts.returnOk, held, Turn.phase]
    omega

theorem wakePredicate_effect {semaphore woken : Semaphore} {wait : SemaphoreWait}
    {result : SemaphoreResult}
    (isWoken : Semaphore.wakePredicate wait semaphore = some (woken, result)) :
    wait.needCount ≤ semaphore.counts.count ∧
      woken.counts = semaphore.counts.take wait.needCount ∧ result = .ok := by
  rw [Semaphore.wakePredicate] at isWoken
  split at isWoken
  · rename_i has
    obtain ⟨rfl, rfl⟩ := Prod.mk.inj (Option.some.inj isWoken)
    exact ⟨has, rfl, rfl⟩
  · cases isWoken

theorem balances_semaphores (before : SemaphoreSystem Thread) (event : Event Thread SemaphoreCall) :
    event.Balances semaphores outstanding held before := by
  constructor
  · intro thread call after turn _ performed
    exact (perform_effect performed).outstanding
  · intro thread wait woken result _ isWoken
    obtain ⟨-, taken, -⟩ := wakePredicate_effect isWoken
    have ledger := congrArg Counts.ledger taken
    change woken.ledger = (before.object.counts.take wait.needCount).ledger at ledger
    rw [outstanding, outstanding, ledger]
    simp only [Counts.take, Semaphore.counts, held]
    omega
  · intro thread wait _ _
    rfl

/-- The invariant of the tokens. -/
structure Conserved (system : SemaphoreSystem Thread) : Prop where
  orderly : system.Orderly
  sound : system.object.counts.Sound
  surplus : system.surplus outstanding held = 0
  woken : ∀ thread wait result, system.phase thread = .ready wait (some result) → result = .ok

omit [DecidableEq Thread] in
theorem conserved_of_isCreated (isCreated : IsCreated system) : Conserved system := by
  obtain ⟨initialCount, maxCount, memory, accepted, rfl⟩ := isCreated
  have inside := of_decide_eq_true accepted
  constructor
  · exact System.orderly_fresh _
  · constructor
    · change 0 ≤ initialCount ∧ initialCount ≤ maxCount
      omega
    · change 0 ≤ initialCount ∧ initialCount ≤ maxCount
      omega
    · change initialCount = initialCount + 0 - 0
      omega
  · have nothing : (System.fresh (.created initialCount maxCount memory) :
        SemaphoreSystem Thread).load held = 0 := finsum_zero
    rw [System.surplus, nothing]
    rfl
  · intro _ _ _ isReady
    cases isReady

theorem Conserved.step {before after : SemaphoreSystem Thread}
    {event : Event Thread SemaphoreCall} (conserved : Conserved before)
    (taken : System.Step semaphores before event after) : Conserved after := by
  have effect := taken.effect
  constructor
  · exact effect.orderly conserved.orderly
  · apply effect.object (fun semaphore => semaphore.counts.Sound) _ _ conserved.sound
    · intro _ _ _ _ _ _ sound performed
      exact (perform_effect performed).sound sound
    · intro wait semaphore woken result sound isWoken
      obtain ⟨has, same, -⟩ := wakePredicate_effect isWoken
      rw [same]
      exact sound.take wait.needs has
  · rw [effect.surplus held_isWorth conserved.orderly (balances_semaphores before event)]
    exact conserved.surplus
  · apply effect.results _ conserved.woken
    intro _ _ _ _ isWoken
    exact (wakePredicate_effect isWoken).2.2

theorem CallEffect.eq_of_fails {result : SemaphoreResult}
    (effect : CallEffect counts phase after (.returns result)) (fails : result ≠ .ok)
    (woken : ∀ wait result, phase = .ready wait (some result) → result = .ok) :
    after = counts := by
  cases effect with
  | keeps | givesUp | expires => rfl
  | waits wait isWait => rcases isWait with same | same <;> cases same
  | takes | takesLate => exact absurd rfl fails
  | resumes wait result => exact absurd (woken wait result rfl) fails

/-- The count is within its bounds and is what the ledger says, and the tokens
granted are those of the calls that have returned success and those that the
woken waits hold. -/
theorem tokens_conserved (reachable : Reachable IsCreated (System.Step semaphores) system) :
    0 ≤ system.object.state.count ∧ system.object.state.count ≤ system.object.state.maxCount ∧
      system.object.state.count = system.object.ledger.start +
        system.object.ledger.signalled - system.object.ledger.granted ∧
      system.object.ledger.grantedInAll = system.object.ledger.returnedInAll + system.load held ∧
      ∀ thread call after result,
        Semaphore.perform (decide (thread ∈ system.threads)) call system.object
          (system.phase thread) = some (after, .returns result) → result ≠ .ok →
        after.state.count = system.object.state.count ∧ after.ledger = system.object.ledger := by
  have conserved : Conserved system := by
    apply reachable.invariant
    · intro start isCreated
      exact conserved_of_isCreated isCreated
    · intro before event after conserved taken
      exact conserved.step taken
  refine ⟨conserved.sound.range.1, conserved.sound.range.2, conserved.sound.balance, ?_, ?_⟩
  · have surplus := conserved.surplus
    rw [System.surplus, outstanding] at surplus
    omega
  · intro thread call after result performed fails
    have same := (perform_effect performed).eq_of_fails fails (conserved.woken thread)
    exact ⟨congrArg Counts.count same, congrArg Counts.ledger same⟩

/-- One token is signalled for a blocked wait, which returns with it. -/
theorem tokens_conserved_signal : ∃ system : SemaphoreSystem ℕ,
      (System.fresh (.created 0 1 fun _ => none)).performAll semaphores
        [.start 1, .act 1 (.wait 1 0), .block 1, .act 2 (.signal 1), .enter 2, .next,
          .leave, .act 1 .resume] = some system ∧
      system.object.ledger.signalled = 1 ∧
      system.object.ledger.grantedInAll =
        system.object.ledger.returnedInAll + system.load held := by
  refine ⟨_, rfl, rfl, ?_⟩
  have isCreated : IsCreated (System.fresh (.created 0 1 fun _ => none) : SemaphoreSystem ℕ) :=
    ⟨0, 1, _, by decide, rfl⟩
  have reachable := System.reachable_performAll (.start isCreated)
    (rfl : System.performAll semaphores _
      [.start 1, .act 1 (.wait 1 0), .block 1, .act 2 (.signal 1), .enter 2, .next, .leave,
        .act 1 .resume] = some _)
  exact (tokens_conserved reachable).2.2.2.1

/-- A wait that was woken and has not resumed has its token, but has not returned. -/
theorem woken_wait_has_taken : ∃ system : SemaphoreSystem ℕ,
      (System.fresh (.created 0 1 fun _ => none)).performAll semaphores
        [.start 1, .act 1 (.wait 1 0), .block 1, .act 2 (.signal 1), .enter 2, .next] =
          some system ∧
      system.object.state.count ≠ system.object.ledger.start +
        system.object.ledger.signalled - system.object.ledger.returnedInAll := by
  exact ⟨_, rfl, by decide⟩

end Tokens

end SharpEmu.KernelSemaphores
