import SharpEmu.TransitionRuns
import Mathlib.Algebra.BigOperators.Finprod
import Mathlib.Data.Set.Card.Arithmetic
import Mathlib.Logic.Function.Basic

/-!
# Cooperative waits

Threads share an object.  A thread that finds the object not ready for it asks to be
parked, and is parked a little later, unless the object has become ready by then.  A
thread that has made the object ready visits every thread under the lock of the
scheduler and tries to wake the blocked ones.  The lock keeps threads from being parked
during the visits, but not from changing the object.

A protocol says what the actions and the wakes do to the object.  If every action that
makes the object ready for a waiter wakes the others, then no blocked waiter is left
behind.
-/

namespace SharpEmu.Cooperative

/-- Where a thread is. -/
inductive Phase (Wait Result : Type*)
  | running
  /-- It looks at the object from time to time. -/
  | polling (wait : Wait)
  /-- It has asked to be parked. -/
  | parking (wait : Wait)
  | blocked (wait : Wait)
  /-- It was woken, with a result, or its deadline has passed. -/
  | ready (wait : Wait) (woken : Option Result)
  /-- It is about to wake the others, or visits them. -/
  | waking
  | visiting
deriving DecidableEq

def Phase.acts {Wait Result : Type*} : Phase Wait Result → Bool
  | .running | .polling _ | .ready _ _ => true
  | _ => false

/-- How an action ends; an action that wakes the others returns behind that. -/
inductive Turn (Wait Result : Type*)
  | returns (result : Result)
  | wakes (result : Result)
  | polls (wait : Wait)
  | blocks (wait : Wait)
deriving DecidableEq

def Turn.phase {Wait Result : Type*} : Turn Wait Result → Phase Wait Result
  | .returns _ => .running
  | .wakes _ => .waking
  | .polls wait => .polling wait
  | .blocks wait => .parking wait

/-- What the actions do to the object, for threads that can be parked or not, and when
a waiter is woken. -/
structure Protocol (Object Wait Result Action : Type*) where
  perform : Bool → Action → Object → Phase Wait Result →
    Option (Object × Turn Wait Result)
  tryWake : Wait → Object → Option (Object × Result)
  hasDeadline : Wait → Bool

structure System (Thread Object Wait Result : Type*) where
  object : Object
  phase : Thread → Phase Wait Result
  threads : List Thread
  visit : Option (Thread × List Thread)

inductive Event (Thread Action : Type*)
  | start (thread : Thread)
  | act (thread : Thread) (action : Action)
  | block (thread : Thread)
  | expire (thread : Thread)
  | enter (thread : Thread)
  | next
  | leave

variable {Thread Object Wait Result Action : Type*} [DecidableEq Thread]

namespace System

/-- Nothing has happened to the object yet. -/
def fresh (object : Object) : System Thread Object Wait Result :=
  ⟨object, fun _ => .running, [], none⟩

def setPhase (system : System Thread Object Wait Result) (thread : Thread)
    (phase : Phase Wait Result) : System Thread Object Wait Result :=
  { system with phase := Function.update system.phase thread phase }

/-- Wake a waiter if the object is ready for it, or else leave it blocked. -/
def settle (protocol : Protocol Object Wait Result Action)
    (system : System Thread Object Wait Result) (thread : Thread) (wait : Wait) :
    System Thread Object Wait Result :=
  match protocol.tryWake wait system.object with
  | some (object, result) =>
      { system.setPhase thread (.ready wait (some result)) with object }
  | none => system.setPhase thread (.blocked wait)

def perform (protocol : Protocol Object Wait Result Action)
    (system : System Thread Object Wait Result) :
    Event Thread Action → Option (System Thread Object Wait Result)
  | .start thread =>
      if system.visit.isNone ∧ thread ∉ system.threads then
        some { system with threads := system.threads ++ [thread] }
      else none
  | .act thread action =>
      if (system.phase thread).acts then
        (protocol.perform (decide (thread ∈ system.threads)) action system.object
          (system.phase thread)).map fun done =>
            { system.setPhase thread done.2.phase with object := done.1 }
      else none
  | .block thread =>
      match system.visit, system.phase thread with
      | none, .parking wait =>
          if thread ∈ system.threads then some (system.settle protocol thread wait)
          else none
      | _, _ => none
  | .expire thread =>
      match system.visit, system.phase thread with
      | none, .blocked wait =>
          if protocol.hasDeadline wait then
            some (system.setPhase thread (.ready wait none))
          else none
      | _, _ => none
  | .enter thread =>
      match system.visit, system.phase thread with
      | none, .waking =>
          some { system.setPhase thread .visiting with
            visit := some (thread, system.threads) }
      | _, _ => none
  | .next =>
      match system.visit with
      | some (waker, thread :: rest) =>
          match system.phase thread with
          | .blocked wait =>
              some { system.settle protocol thread wait with visit := some (waker, rest) }
          | _ => some { system with visit := some (waker, rest) }
      | _ => none
  | .leave =>
      match system.visit with
      | some (waker, []) => some { system.setPhase waker .running with visit := none }
      | _ => none

def performAll (protocol : Protocol Object Wait Result Action)
    (system : System Thread Object Wait Result) :
    List (Event Thread Action) → Option (System Thread Object Wait Result)
  | [] => some system
  | event :: events =>
      (system.perform protocol event).bind fun after => after.performAll protocol events

def Step (protocol : Protocol Object Wait Result Action)
    (before : System Thread Object Wait Result) (event : Event Thread Action)
    (after : System Thread Object Wait Result) : Prop :=
  before.perform protocol event = some after

theorem reachable_performAll {protocol : Protocol Object Wait Result Action}
    {initial : System Thread Object Wait Result → Prop}
    {before after : System Thread Object Wait Result} {events : List (Event Thread Action)}
    (reachable : Reachable initial (Step protocol) before)
    (performed : before.performAll protocol events = some after) :
    Reachable initial (Step protocol) after := by
  induction events generalizing before with
  | nil =>
    obtain rfl := Option.some.inj performed
    exact reachable
  | cons event events ih =>
    obtain ⟨middle, first, rest⟩ := Option.bind_eq_some_iff.mp performed
    exact ih (reachable.next first) rest

end System

/-! ## What an event does -/

section Effects

variable {protocol : Protocol Object Wait Result Action}
variable {system before after : System Thread Object Wait Result}
variable {thread other : Thread} {wait : Wait} {event : Event Thread Action}

@[simp] theorem System.setPhase_self (thread : Thread) (phase : Phase Wait Result) :
    (system.setPhase thread phase).phase thread = phase :=
  Function.update_self _ _ _

theorem System.setPhase_of_ne (phase : Phase Wait Result) (different : other ≠ thread) :
    (system.setPhase thread phase).phase other = system.phase other :=
  Function.update_of_ne different _ _

theorem System.blocked_of_setPhase {phase : Phase Wait Result}
    (unblocked : ∀ wait, phase ≠ .blocked wait)
    (blocked : (system.setPhase thread phase).phase other = .blocked wait) :
    other ≠ thread ∧ system.phase other = .blocked wait := by
  by_cases here : other = thread
  · subst here
    rw [setPhase_self] at blocked
    exact absurd blocked (unblocked wait)
  · rw [setPhase_of_ne phase here] at blocked
    exact ⟨here, blocked⟩

theorem System.settle_cases (protocol : Protocol Object Wait Result Action)
    (system : System Thread Object Wait Result) (thread : Thread) (wait : Wait) :
    (∃ object result, protocol.tryWake wait system.object = some (object, result) ∧
        system.settle protocol thread wait =
          { system.setPhase thread (.ready wait (some result)) with object }) ∨
      protocol.tryWake wait system.object = none ∧
        system.settle protocol thread wait = system.setPhase thread (.blocked wait) := by
  rw [settle]
  split
  · rename_i object result woken
    exact .inl ⟨object, result, woken, rfl⟩
  · rename_i unready
    exact .inr ⟨unready, rfl⟩

inductive Effect (protocol : Protocol Object Wait Result Action)
    (before : System Thread Object Wait Result) :
    Event Thread Action → System Thread Object Wait Result → Prop
  | start {thread : Thread} (isNew : thread ∉ before.threads) :
      Effect protocol before (.start thread)
        { before with threads := before.threads ++ [thread] }
  | act {thread : Thread} {action : Action} {object : Object} {turn : Turn Wait Result}
      (acts : (before.phase thread).acts = true)
      (performed : protocol.perform (decide (thread ∈ before.threads)) action
        before.object (before.phase thread) = some (object, turn)) :
      Effect protocol before (.act thread action)
        { before.setPhase thread turn.phase with object }
  | block {thread : Thread} {wait : Wait} (unlocked : before.visit = none)
      (parking : before.phase thread = .parking wait) (known : thread ∈ before.threads) :
      Effect protocol before (.block thread) (before.settle protocol thread wait)
  | expire {thread : Thread} {wait : Wait} (unlocked : before.visit = none)
      (blocked : before.phase thread = .blocked wait)
      (timed : protocol.hasDeadline wait = true) :
      Effect protocol before (.expire thread) (before.setPhase thread (.ready wait none))
  | enter {thread : Thread} (unlocked : before.visit = none)
      (waking : before.phase thread = .waking) :
      Effect protocol before (.enter thread)
        { before.setPhase thread .visiting with visit := some (thread, before.threads) }
  | visit {waker thread : Thread} {rest : List Thread} {wait : Wait}
      (visiting : before.visit = some (waker, thread :: rest))
      (blocked : before.phase thread = .blocked wait) :
      Effect protocol before .next
        { before.settle protocol thread wait with visit := some (waker, rest) }
  | skip {waker thread : Thread} {rest : List Thread}
      (visiting : before.visit = some (waker, thread :: rest))
      (unblocked : ∀ wait, before.phase thread ≠ .blocked wait) :
      Effect protocol before .next { before with visit := some (waker, rest) }
  | leave {waker : Thread} (visiting : before.visit = some (waker, [])) :
      Effect protocol before .leave { before.setPhase waker .running with visit := none }

theorem System.Step.effect (taken : System.Step protocol before event after) :
    Effect protocol before event after := by
  rw [System.Step] at taken
  cases event with
  | start thread =>
    rw [System.perform] at taken
    split at taken
    · rename_i free
      obtain rfl := Option.some.inj taken
      exact .start free.2
    · cases taken
  | act thread action =>
    rw [System.perform] at taken
    split at taken
    · rename_i acts
      obtain ⟨⟨object, turn⟩, performed, rfl⟩ := Option.map_eq_some_iff.mp taken
      exact .act acts performed
    · cases taken
  | block thread =>
    rw [System.perform] at taken
    split at taken
    · rename_i wait unlocked parking
      split at taken
      · rename_i known
        obtain rfl := Option.some.inj taken
        exact .block unlocked parking known
      · cases taken
    · cases taken
  | expire thread =>
    rw [System.perform] at taken
    split at taken
    · rename_i wait unlocked blocked
      split at taken
      · rename_i timed
        obtain rfl := Option.some.inj taken
        exact .expire unlocked blocked timed
      · cases taken
    · cases taken
  | enter thread =>
    rw [System.perform] at taken
    split at taken
    · rename_i unlocked waking
      obtain rfl := Option.some.inj taken
      exact .enter unlocked waking
    · cases taken
  | next =>
    rw [System.perform] at taken
    split at taken
    · rename_i waker thread rest visiting
      split at taken
      · rename_i wait blocked
        obtain rfl := Option.some.inj taken
        exact .visit visiting blocked
      · rename_i unblocked
        obtain rfl := Option.some.inj taken
        exact .skip visiting unblocked
    · cases taken
  | leave =>
    rw [System.perform] at taken
    split at taken
    · rename_i waker visiting
      obtain rfl := Option.some.inj taken
      exact .leave visiting
    · cases taken

end Effects

/-! ## Order -/

section Order

def System.away (system : System Thread Object Wait Result) : Set Thread :=
  {thread | system.phase thread ≠ .running}

/-- The scheduler knows the blocked threads and the one that holds its lock, and only
finitely many threads are not running. -/
structure System.Orderly (system : System Thread Object Wait Result) : Prop where
  known : ∀ thread wait, system.phase thread = .blocked wait → thread ∈ system.threads
  visitor : ∀ waker rest, system.visit = some (waker, rest) →
    system.phase waker = .visiting
  finite : system.away.Finite

variable {protocol : Protocol Object Wait Result Action}
variable {system before after : System Thread Object Wait Result}
variable {thread : Thread} {wait : Wait} {event : Event Thread Action}

omit [DecidableEq Thread] in
theorem System.orderly_fresh (object : Object) :
    (System.fresh object : System Thread Object Wait Result).Orderly where
  known := by
    intro thread wait blocked
    cases blocked
  visitor := by
    intro waker rest visiting
    cases visiting
  finite := by
    have nobody : (System.fresh object : System Thread Object Wait Result).away = ∅ :=
      Set.eq_empty_of_forall_notMem fun _ isAway => isAway rfl
    rw [nobody]
    exact Set.finite_empty

theorem System.finite_away_setPhase (finite : system.away.Finite)
    (phase : Phase Wait Result) : (system.setPhase thread phase).away.Finite := by
  apply (finite.insert thread).subset
  intro other isAway
  by_cases here : other = thread
  · exact .inl here
  · right
    have same : (system.setPhase thread phase).phase other = system.phase other :=
      setPhase_of_ne phase here
    exact fun running => isAway (same.trans running)

variable {phase : Phase Wait Result}

theorem System.Orderly.setPhase (orderly : system.Orderly)
    (notVisiting : system.phase thread ≠ .visiting)
    (blocks : ∀ wait, phase = .blocked wait → thread ∈ system.threads) :
    (system.setPhase thread phase).Orderly := by
  constructor
  · intro other wait blocked
    by_cases here : other = thread
    · subst here
      rw [setPhase_self] at blocked
      exact blocks wait blocked
    · rw [setPhase_of_ne phase here] at blocked
      exact orderly.known other wait blocked
  · intro waker rest visiting
    have isVisiting := orderly.visitor waker rest visiting
    have different : waker ≠ thread := by
      rintro rfl
      exact notVisiting isVisiting
    rw [setPhase_of_ne phase different]
    exact isVisiting
  · exact finite_away_setPhase orderly.finite phase

theorem System.Orderly.settle (orderly : system.Orderly) (known : thread ∈ system.threads)
    (notVisiting : system.phase thread ≠ .visiting) :
    (system.settle protocol thread wait).Orderly := by
  rcases settle_cases protocol system thread wait with ⟨_, result, -, settled⟩ | ⟨-, settled⟩
  · rw [settled]
    have woken : (system.setPhase thread (.ready wait (some result))).Orderly :=
      orderly.setPhase notVisiting (by simp)
    exact ⟨woken.known, woken.visitor, woken.finite⟩
  · rw [settled]
    exact orderly.setPhase notVisiting fun _ _ => known

theorem System.settle_visit (system : System Thread Object Wait Result) :
    (system.settle protocol thread wait).visit = system.visit := by
  rcases settle_cases protocol system thread wait with ⟨_, _, -, settled⟩ | ⟨-, settled⟩ <;>
    rw [settled] <;> rfl

theorem Phase.ne_of_acts (acts : phase.acts = true) : phase ≠ .waking ∧ phase ≠ .visiting := by
  constructor <;> rintro rfl <;> cases acts

theorem Turn.phase_ne_blocked (turn : Turn Wait Result) (wait : Wait) :
    turn.phase ≠ .blocked wait := by
  cases turn <;> intro same <;> cases same

theorem Effect.orderly (effect : Effect protocol before event after)
    (orderly : before.Orderly) : after.Orderly := by
  cases effect with
  | start isNew =>
    constructor
    · intro thread wait blocked
      exact List.mem_append_left _ (orderly.known thread wait blocked)
    · exact orderly.visitor
    · exact orderly.finite
  | @act thread action object turn acts performed =>
    have acted : (before.setPhase thread turn.phase).Orderly :=
      orderly.setPhase (Phase.ne_of_acts acts).2
        fun wait same => absurd same (turn.phase_ne_blocked wait)
    exact ⟨acted.known, acted.visitor, acted.finite⟩
  | block unlocked parking known =>
    apply orderly.settle known
    simp [parking]
  | expire unlocked blocked timed =>
    apply orderly.setPhase
    · simp [blocked]
    · simp
  | @enter thread unlocked waking =>
    have entered : (before.setPhase thread .visiting).Orderly :=
      orderly.setPhase (by simp [waking]) (by simp)
    constructor
    · exact entered.known
    · intro waker rest visiting
      obtain ⟨rfl, -⟩ := Prod.mk.inj (Option.some.inj visiting)
      exact System.setPhase_self _ _
    · exact entered.finite
  | @visit waker thread rest wait visiting blocked =>
    have settled : (before.settle protocol thread wait).Orderly :=
      orderly.settle (orderly.known thread wait blocked) (by simp [blocked])
    constructor
    · exact settled.known
    · intro other _ here
      obtain ⟨rfl, -⟩ := Prod.mk.inj (Option.some.inj here)
      exact settled.visitor waker _ (by rw [System.settle_visit, visiting])
    · exact settled.finite
  | @skip waker thread rest visiting unblocked =>
    constructor
    · exact orderly.known
    · intro other _ here
      obtain ⟨rfl, -⟩ := Prod.mk.inj (Option.some.inj here)
      exact orderly.visitor waker _ visiting
    · exact orderly.finite
  | @leave waker visiting =>
    constructor
    · intro other wait blocked
      exact orderly.known other wait (System.blocked_of_setPhase (by simp) blocked).2
    · intro _ _ here
      cases here
    · exact System.finite_away_setPhase orderly.finite _

end Order

/-! ## The object -/

section Objects

variable {protocol : Protocol Object Wait Result Action}
variable {before after : System Thread Object Wait Result} {event : Event Thread Action}

theorem Effect.object (effect : Effect protocol before event after) (property : Object → Prop)
    (performs : ∀ isKnown action object phase done turn, property object →
      protocol.perform isKnown action object phase = some (done, turn) → property done)
    (wakes : ∀ wait object woken result, property object →
      protocol.tryWake wait object = some (woken, result) → property woken)
    (holds : property before.object) : property after.object := by
  have settles (thread : Thread) (wait : Wait) :
      property (before.settle protocol thread wait).object := by
    rcases System.settle_cases protocol before thread wait with
      ⟨object, result, woken, settled⟩ | ⟨-, settled⟩
    · rw [settled]
      exact wakes wait before.object object result holds woken
    · rw [settled]
      exact holds
  cases effect with
  | act acts performed => exact performs _ _ _ _ _ _ holds performed
  | block | visit => exact settles _ _
  | start | expire | enter | skip | leave => exact holds

theorem System.settle_phase_cases {system : System Thread Object Wait Result}
    {thread other : Thread} {wait : Wait} {phase : Phase Wait Result}
    (isPhase : (system.settle protocol thread wait).phase other = phase) :
    system.phase other = phase ∨ phase = .blocked wait ∨
      ∃ woken result, protocol.tryWake wait system.object = some (woken, result) ∧
        phase = .ready wait (some result) := by
  by_cases here : other = thread
  · subst here
    right
    rcases settle_cases protocol system other wait with
      ⟨object, result, woken, settled⟩ | ⟨-, settled⟩
    · rw [settled, setPhase_self] at isPhase
      exact .inr ⟨object, result, woken, isPhase.symm⟩
    · rw [settled, setPhase_self] at isPhase
      exact .inl isPhase.symm
  · left
    rw [← isPhase]
    rcases settle_cases protocol system thread wait with
      ⟨object, result, -, settled⟩ | ⟨-, settled⟩ <;> rw [settled] <;>
      exact (setPhase_of_ne _ here).symm

theorem Effect.results {property : Wait → Result → Prop}
    (effect : Effect protocol before event after)
    (wakes : ∀ wait object woken result,
      protocol.tryWake wait object = some (woken, result) → property wait result)
    (holds : ∀ thread wait result, before.phase thread = .ready wait (some result) →
      property wait result) :
    ∀ thread wait result, after.phase thread = .ready wait (some result) →
      property wait result := by
  have keeps (thread : Thread) (phase : Phase Wait Result)
      (notWoken : ∀ wait result, phase ≠ .ready wait (some result)) :
      ∀ other wait result, (before.setPhase thread phase).phase other =
        .ready wait (some result) → property wait result := by
    intro other wait result isReady
    by_cases here : other = thread
    · subst here
      rw [System.setPhase_self] at isReady
      exact absurd isReady (notWoken wait result)
    · rw [System.setPhase_of_ne phase here] at isReady
      exact holds other wait result isReady
  have settles (thread : Thread) (asked : Wait) :
      ∀ other wait result, (before.settle protocol thread asked).phase other =
        .ready wait (some result) → property wait result := by
    intro other wait result isReady
    rcases System.settle_phase_cases isReady with
      same | isBlocked | ⟨object, result, woken, same⟩
    · exact holds other wait _ same
    · cases isBlocked
    · cases same
      exact wakes _ _ _ _ woken
  cases effect with
  | @act thread action object turn acts performed =>
    exact keeps thread turn.phase (by cases turn <;> simp [Turn.phase])
  | block | visit => exact settles _ _
  | expire | enter | leave => exact keeps _ _ (by simp)
  | start | skip => exact holds

end Objects

/-! ## No waiter is left behind -/

section Attention

def Protocol.IsReadyFor (protocol : Protocol Object Wait Result Action) (object : Object)
    (wait : Wait) : Prop :=
  (protocol.tryWake wait object).isSome = true

/-- Each blocked waiter that the object is ready for is still going to be visited. -/
def System.Attended (protocol : Protocol Object Wait Result Action)
    (system : System Thread Object Wait Result) : Prop :=
  ∀ thread wait, system.phase thread = .blocked wait → protocol.IsReadyFor system.object wait →
      (∃ waker, system.phase waker = .waking) ∨
        ∃ waker rest, system.visit = some (waker, rest) ∧ thread ∈ rest

def Protocol.WakesQuietly (protocol : Protocol Object Wait Result Action) : Prop :=
  ∀ wait object woken result, protocol.tryWake wait object = some (woken, result) →
    ∀ other, protocol.IsReadyFor woken other → protocol.IsReadyFor object other

def Event.Announces (protocol : Protocol Object Wait Result Action)
    (before : System Thread Object Wait Result) (event : Event Thread Action) : Prop :=
  ∀ thread action object turn, event = .act thread action →
    protocol.perform (decide (thread ∈ before.threads)) action before.object
      (before.phase thread) = some (object, turn) →
    (∃ result, turn = .wakes result) ∨ (∀ wait, protocol.IsReadyFor object wait →
        protocol.IsReadyFor before.object wait) ∨
      ∀ other wait, before.phase other ≠ .blocked wait

variable {protocol : Protocol Object Wait Result Action}
variable {system before after : System Thread Object Wait Result}
variable {thread : Thread} {wait : Wait} {event : Event Thread Action}

theorem System.Attended.setPhase (attended : system.Attended protocol)
    {phase : Phase Wait Result} (object : Object)
    (notWaking : system.phase thread ≠ .waking)
    (blocks : ∀ wait, phase = .blocked wait → ¬ protocol.IsReadyFor object wait)
    (quiet : ∀ other wait, system.phase other = .blocked wait →
      protocol.IsReadyFor object wait → protocol.IsReadyFor system.object wait) :
    Attended protocol { system.setPhase thread phase with object } := by
  intro other wait blocked isReady
  by_cases here : other = thread
  · subst here
    rw [setPhase_self] at blocked
    exact absurd isReady (blocks wait blocked)
  · rw [setPhase_of_ne phase here] at blocked
    rcases attended other wait blocked (quiet other wait blocked isReady) with
      ⟨waker, waking⟩ | visited
    · have different : waker ≠ thread := by
        rintro rfl
        exact notWaking waking
      left
      refine ⟨waker, ?_⟩
      rw [← waking]
      exact setPhase_of_ne phase different
    · exact .inr visited

theorem System.Attended.settle (attended : system.Attended protocol)
    (quiet : protocol.WakesQuietly) (notWaking : system.phase thread ≠ .waking) :
    (system.settle protocol thread wait).Attended protocol ∧
      ∀ other, (system.settle protocol thread wait).phase thread = .blocked other →
        ¬ protocol.IsReadyFor (system.settle protocol thread wait).object other := by
  rcases settle_cases protocol system thread wait with
    ⟨object, result, woken, settled⟩ | ⟨unready, settled⟩
  · rw [settled]
    constructor
    · apply attended.setPhase object notWaking
      · simp
      · intro _ other _ isReady
        exact quiet wait system.object object result woken other isReady
    · simp
  · rw [settled]
    have notReady : ∀ other, (Phase.blocked wait : Phase Wait Result) = .blocked other →
        ¬ protocol.IsReadyFor system.object other := by
      rintro other same isReady
      obtain rfl := Phase.blocked.inj same
      rw [Protocol.IsReadyFor, unready] at isReady
      cases isReady
    constructor
    · apply attended.setPhase system.object notWaking notReady
      intro _ _ _ isReady
      exact isReady
    · rw [setPhase_self]
      exact notReady

variable {waker : Thread} {rest : List Thread}

omit [DecidableEq Thread] in
theorem System.Attended.next (attended : system.Attended protocol)
    (visiting : system.visit = some (waker, thread :: rest))
    (done : ∀ wait, system.phase thread = .blocked wait →
      ¬ protocol.IsReadyFor system.object wait) :
    Attended protocol { system with visit := some (waker, rest) } := by
  intro other wait blocked isReady
  rcases attended other wait blocked isReady with waking | ⟨_, _, visited, member⟩
  · exact .inl waking
  · rw [visiting] at visited
    obtain ⟨rfl, rfl⟩ := Prod.mk.inj (Option.some.inj visited)
    rcases List.mem_cons.mp member with rfl | later
    · exact absurd isReady (done wait blocked)
    · exact .inr ⟨_, _, rfl, later⟩

theorem Effect.attended (effect : Effect protocol before event after)
    (quiet : protocol.WakesQuietly) (announces : event.Announces protocol before)
    (orderly : before.Orderly) (attended : before.Attended protocol) :
    after.Attended protocol := by
  cases effect with
  | start isNew => exact attended
  | @act thread action object turn acts performed =>
    have notWaking := (Phase.ne_of_acts acts).1
    have blocks : ∀ wait, turn.phase = .blocked wait → ¬ protocol.IsReadyFor object wait := by
      intro wait same
      exact absurd same (turn.phase_ne_blocked wait)
    rcases announces thread action object turn rfl performed with
      ⟨result, rfl⟩ | silent | nobody
    · -- The thread itself is now about to wake the others.
      intro _ _ _ _
      exact .inl ⟨thread, System.setPhase_self thread _⟩
    · apply attended.setPhase object notWaking blocks
      intro _ wait _ isReady
      exact silent wait isReady
    · apply attended.setPhase object notWaking blocks
      intro other wait blocked _
      exact absurd blocked (nobody other wait)
  | block unlocked parking known =>
    exact (attended.settle quiet (by simp [parking])).1
  | expire unlocked blocked timed =>
    apply attended.setPhase before.object
    · simp [blocked]
    · simp
    · intro _ _ _ isReady
      exact isReady
  | @enter thread unlocked waking =>
    intro other wait blocked _
    obtain ⟨-, blocked⟩ := System.blocked_of_setPhase (by simp) blocked
    exact .inr ⟨thread, _, rfl, orderly.known other wait blocked⟩
  | @visit waker thread rest wait visiting blocked =>
    have settled : (before.settle protocol thread wait).Attended protocol ∧ _ :=
      attended.settle quiet (by simp [blocked])
    apply settled.1.next _ settled.2
    rw [System.settle_visit, visiting]
  | skip visiting unblocked =>
    apply attended.next visiting
    intro wait blocked
    exact absurd blocked (unblocked wait)
  | @leave waker visiting =>
    have isVisiting := orderly.visitor waker [] visiting
    intro other wait blocked isReady
    obtain ⟨-, blocked⟩ := System.blocked_of_setPhase (by simp) blocked
    rcases attended other wait blocked isReady with
      ⟨another, waking⟩ | ⟨_, rest, visited, member⟩
    · have different : another ≠ waker := by
        rintro rfl
        rw [isVisiting] at waking
        cases waking
      left
      refine ⟨another, ?_⟩
      rw [← waking]
      exact System.setPhase_of_ne _ different
    · rw [visiting] at visited
      obtain ⟨-, rfl⟩ := Prod.mk.inj (Option.some.inj visited)
      cases member

theorem System.Step.ready_of_visit (taken : System.Step protocol before .next after)
    (visiting : before.visit = some (waker, thread :: rest))
    (blocked : before.phase thread = .blocked wait)
    (isReady : protocol.IsReadyFor before.object wait) :
    ∃ result, after.phase thread = .ready wait (some result) := by
  have effect := taken.effect
  cases effect with
  | visit visited found =>
    obtain ⟨-, same⟩ := Prod.mk.inj (Option.some.inj (visited.symm.trans visiting))
    obtain ⟨rfl, rfl⟩ := List.cons.inj same
    obtain rfl := Phase.blocked.inj (found.symm.trans blocked)
    rcases System.settle_cases protocol before _ _ with
      ⟨object, result, -, settled⟩ | ⟨unready, -⟩
    · refine ⟨result, ?_⟩
      rw [settled]
      exact System.setPhase_self _ _
    · rw [Protocol.IsReadyFor, unready] at isReady
      cases isReady
  | skip visited unblocked =>
    obtain ⟨-, same⟩ := Prod.mk.inj (Option.some.inj (visited.symm.trans visiting))
    obtain ⟨rfl, rfl⟩ := List.cons.inj same
    exact absurd blocked (unblocked _)

theorem System.setPhase_settle_of_ne {other : Thread} (different : other ≠ thread) :
    (system.settle protocol thread wait).phase other = system.phase other := by
  rcases settle_cases protocol system thread wait with ⟨_, _, -, settled⟩ | ⟨-, settled⟩ <;>
    rw [settled] <;> exact setPhase_of_ne _ different

/-- A blocked waiter that the object is ready for stays blocked until it is made ready,
and its visit makes it ready. -/
theorem Effect.blocked_or_ready (effect : Effect protocol before event after)
    (orderly : before.Orderly) (blocked : before.phase thread = .blocked wait)
    (isReady : protocol.IsReadyFor before.object wait) :
    (after.phase thread = .blocked wait ∧
        ∀ waker rest, event = .next → before.visit ≠ some (waker, thread :: rest)) ∨
      ∃ woken, after.phase thread = .ready wait woken := by
  have stays (other : Thread) (phase : Phase Wait Result) (different : thread ≠ other) :
      (before.setPhase other phase).phase thread = .blocked wait :=
    (System.setPhase_of_ne phase different).trans blocked
  cases effect with
  | start isNew => exact .inl ⟨blocked, nofun⟩
  | @act other action object turn acts performed =>
    refine .inl ⟨stays other turn.phase ?_, nofun⟩
    rintro rfl
    rw [blocked] at acts
    cases acts
  | @block other asked unlocked parking known =>
    have different : thread ≠ other := by
      rintro rfl
      rw [blocked] at parking
      cases parking
    exact .inl ⟨(System.setPhase_settle_of_ne different).trans blocked, nofun⟩
  | @expire other asked unlocked found timed =>
    by_cases here : thread = other
    · subst here
      obtain rfl := Phase.blocked.inj (found.symm.trans blocked)
      exact .inr ⟨none, System.setPhase_self _ _⟩
    · exact .inl ⟨stays other _ here, nofun⟩
  | @enter other unlocked waking =>
    refine .inl ⟨stays other .visiting ?_, nofun⟩
    rintro rfl
    rw [blocked] at waking
    cases waking
  | @visit waker other rest asked visiting found =>
    by_cases here : thread = other
    · subst here
      obtain rfl := Phase.blocked.inj (found.symm.trans blocked)
      rcases System.settle_cases protocol before thread asked with
        ⟨object, result, -, settled⟩ | ⟨unready, -⟩
      · refine .inr ⟨some result, ?_⟩
        rw [settled]
        exact System.setPhase_self _ _
      · rw [Protocol.IsReadyFor, unready] at isReady
        cases isReady
    · refine .inl ⟨(System.setPhase_settle_of_ne here).trans blocked, ?_⟩
      intro _ _ _ other
      rw [visiting] at other
      exact here (List.cons.inj (Prod.mk.inj (Option.some.inj other)).2).1.symm
  | @skip waker other rest visiting unblocked =>
    refine .inl ⟨blocked, ?_⟩
    intro _ _ _ visited
    rw [visiting] at visited
    obtain ⟨rfl, -⟩ := List.cons.inj (Prod.mk.inj (Option.some.inj visited)).2
    exact unblocked wait blocked
  | @leave waker visiting =>
    refine .inl ⟨stays waker .running ?_, nofun⟩
    rintro rfl
    rw [orderly.visitor _ _ visiting] at blocked
    cases blocked

/-- What holds stays so along a trace, or something has come of it. -/
theorem holds_or_met {State Label : Type*} {step : State → Label → State → Prop}
    (holds met : State → Prop) {start state : State} {labels : List Label}
    (trace : Trace step start labels state) (starts : holds start)
    (respects : ∀ before label next, holds before → step before label next →
      holds next ∨ met next) :
    holds state ∨ ∃ first rest middle, Trace step start first middle ∧
      Trace step middle rest state ∧ met middle := by
  induction trace with
  | nil => exact .inl starts
  | @snoc labels before after label earlier taken ih =>
    rcases ih with stillHolds | ⟨first, rest, middle, reached, onwards, isMet⟩
    · rcases respects before label after stillHolds taken with next | isMet
      · exact .inl next
      · exact .inr ⟨_, [], after, earlier.snoc taken, .nil, isMet⟩
    · exact .inr ⟨first, _, middle, reached, onwards.snoc taken, isMet⟩

theorem attended_of_reachable {object : Object} (quiet : protocol.WakesQuietly)
    (reachable : Reachable (· = System.fresh object)
      (onlyWhen (fun before event => event.Announces protocol before)
        (System.Step protocol)) system) : system.Attended protocol := by
  have held : system.Orderly ∧ system.Attended protocol := by
    apply reachable.invariant_onlyWhen
    · rintro _ rfl
      refine ⟨System.orderly_fresh object, ?_⟩
      intro thread wait blocked
      cases blocked
    · intro before event after held announces taken
      exact ⟨taken.effect.orderly held.1, taken.effect.attended quiet announces held.1 held.2⟩
  exact held.2

end Attention

/-! ## What the waits are worth -/

section Balance

/-- Replacing one summand. -/
theorem finsum_update {Index Value : Type*} [DecidableEq Index] [AddCommMonoid Value]
    {values : Index → Value} (finite : (Function.support values).Finite) (index : Index)
    (value : Value) :
    ∑ᶠ other, Function.update values index value other + values index =
      ∑ᶠ other, values other + value := by
  let indices := insert index finite.toFinset
  have isIndex : index ∈ indices := Finset.mem_insert_self _ _
  have covers : Function.support values ⊆ indices := by
    intro other inside
    exact Finset.mem_insert_of_mem (finite.mem_toFinset.mpr inside)
  have coversUpdated : Function.support (Function.update values index value) ⊆ indices := by
    intro other inside
    by_cases here : other = index
    · rw [here]
      exact isIndex
    · rw [Function.mem_support, Function.update_of_ne here] at inside
      exact covers inside
  rw [finsum_eq_sum_of_support_subset _ covers,
    finsum_eq_sum_of_support_subset _ coversUpdated, Finset.sum_update_of_mem isIndex,
    ← Finset.add_sum_erase indices values isIndex, Finset.sdiff_singleton_eq_erase]
  rw [add_comm value, add_right_comm, add_comm _ (values index)]

noncomputable def System.load (system : System Thread Object Wait Result)
    (weight : Phase Wait Result → ℤ) : ℤ :=
  ∑ᶠ thread, weight (system.phase thread)

variable {protocol : Protocol Object Wait Result Action}
variable {system before after : System Thread Object Wait Result}
variable {thread : Thread} {event : Event Thread Action}
variable {measure : Object → ℤ} {weight : Phase Wait Result → ℤ}

theorem System.load_setPhase (finite : system.away.Finite) (isZero : weight .running = 0)
    (thread : Thread) (phase : Phase Wait Result) :
    (system.setPhase thread phase).load weight + weight (system.phase thread) =
      system.load weight + weight phase := by
  have support : (Function.support fun other => weight (system.phase other)).Finite := by
    apply finite.subset
    intro other inside running
    rw [Function.mem_support, running] at inside
    exact inside isZero
  have updated : (fun other => weight ((system.setPhase thread phase).phase other)) =
      Function.update (fun other => weight (system.phase other)) thread (weight phase) :=
    funext fun other => Function.apply_update (fun _ => weight) _ _ _ _
  rw [load, updated]
  exact finsum_update support thread (weight phase)

omit [DecidableEq Thread] in
theorem System.load_eq_ncard (system : System Thread Object Wait Result)
    (counts : Phase Wait Result → Bool) :
    system.load (fun phase => if counts phase then 1 else 0) =
      Set.ncard {thread | counts (system.phase thread) = true} := by
  classical
  have cast := (Nat.castAddMonoidHom ℤ).map_finsum_of_injective Nat.cast_injective
    (Set.indicator {thread | counts (system.phase thread) = true} 1)
  rw [← finsum_one, finsum_mem_def]
  refine Eq.trans (finsum_congr fun thread => ?_) cast.symm
  dsimp only
  by_cases counted : counts (system.phase thread) = true
  · have member : thread ∈ {other | counts (system.phase other) = true} := counted
    rw [if_pos counted, Set.indicator_of_mem member]
    rfl
  · have notMember : thread ∉ {other | counts (system.phase other) = true} := counted
    rw [if_neg counted, Set.indicator_of_notMem notMember]
    rfl

structure IsWorth (weight : Phase Wait Result → ℤ) : Prop where
  running : weight .running = 0
  waking : weight .waking = 0
  visiting : weight .visiting = 0
  blocked : ∀ wait, weight (.blocked wait) = weight (.parking wait)

/-- What the event changes in the object is what its thread's new phase is worth more
than the old one. -/
structure Event.Balances (protocol : Protocol Object Wait Result Action)
    (measure : Object → ℤ) (weight : Phase Wait Result → ℤ)
    (before : System Thread Object Wait Result) (event : Event Thread Action) : Prop where
  acted : ∀ thread action object turn, event = .act thread action →
    protocol.perform (decide (thread ∈ before.threads)) action before.object
      (before.phase thread) = some (object, turn) →
    measure object + weight (before.phase thread) =
      measure before.object + weight turn.phase
  woken : ∀ thread wait object result,
    before.phase thread = .parking wait ∨ before.phase thread = .blocked wait →
    protocol.tryWake wait before.object = some (object, result) →
    measure object + weight (.parking wait) =
      measure before.object + weight (.ready wait (some result))
  expired : ∀ thread wait, event = .expire thread →
    before.phase thread = .blocked wait → weight (.ready wait none) = weight (.blocked wait)

noncomputable def System.surplus (system : System Thread Object Wait Result)
    (measure : Object → ℤ) (weight : Phase Wait Result → ℤ) : ℤ :=
  measure system.object - system.load weight

theorem System.surplus_setPhase (finite : system.away.Finite) (isWorth : IsWorth weight)
    {phase : Phase Wait Result} {object : Object}
    (balanced : measure object + weight (system.phase thread) =
      measure system.object + weight phase) :
    surplus { system.setPhase thread phase with object } measure weight =
      system.surplus measure weight := by
  have moved := load_setPhase finite isWorth.running thread phase
  change measure object - (system.setPhase thread phase).load weight =
    measure system.object - system.load weight
  omega

theorem System.surplus_settle (finite : system.away.Finite) (isWorth : IsWorth weight)
    {wait : Wait} (waits : weight (system.phase thread) = weight (.parking wait))
    (woken : ∀ object result, protocol.tryWake wait system.object = some (object, result) →
      measure object + weight (.parking wait) =
        measure system.object + weight (.ready wait (some result))) :
    (system.settle protocol thread wait).surplus measure weight =
      system.surplus measure weight := by
  rcases settle_cases protocol system thread wait with
    ⟨object, result, isWoken, settled⟩ | ⟨-, settled⟩
  · rw [settled]
    apply surplus_setPhase finite isWorth
    rw [waits]
    exact woken object result isWoken
  · rw [settled]
    apply surplus_setPhase finite isWorth
    rw [waits, isWorth.blocked]

theorem Effect.surplus (effect : Effect protocol before event after)
    (isWorth : IsWorth weight) (orderly : before.Orderly)
    (balances : event.Balances protocol measure weight before) :
    after.surplus measure weight = before.surplus measure weight := by
  have finite := orderly.finite
  cases effect with
  | start | skip => rfl
  | act acts performed =>
    exact System.surplus_setPhase finite isWorth (balances.acted _ _ _ _ rfl performed)
  | @block thread wait unlocked parking known =>
    apply System.surplus_settle finite isWorth
    · rw [parking]
    · intro object result isWoken
      exact balances.woken thread wait object result (.inl parking) isWoken
  | @expire thread wait unlocked blocked timed =>
    apply System.surplus_setPhase finite isWorth
    rw [blocked, balances.expired thread wait rfl blocked]
  | enter unlocked waking =>
    apply System.surplus_setPhase finite isWorth
    rw [waking, isWorth.waking, isWorth.visiting]
    rfl
  | @visit waker thread rest wait visiting blocked =>
    apply System.surplus_settle finite isWorth
    · rw [blocked, isWorth.blocked]
    · intro object result isWoken
      exact balances.woken thread wait object result (.inr blocked) isWoken
  | leave visiting =>
    apply System.surplus_setPhase finite isWorth
    rw [orderly.visitor _ _ visiting, isWorth.visiting, isWorth.running]
    rfl

end Balance

end SharpEmu.Cooperative
