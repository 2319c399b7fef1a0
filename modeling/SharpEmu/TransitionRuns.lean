import Mathlib.Tactic.Common

/-!
# Runs of a labelled transition system

A system is given by its initial states and a step relation labelled with the
actions of its environment.  The reachable states are those at the end of some
finite run; an invariant is proved once per step and then holds along every run.
A condition on steps restricts the runs, not the states, so a conditioned
invariant is an invariant of the restricted system.

A trace also remembers the actions.  One system refines another when its traces,
observed from outside, are traces of the other.
-/

namespace SharpEmu

section Runs

variable {State Action : Type*}
variable {initial : State → Prop} {step : State → Action → State → Prop}

inductive Reachable (initial : State → Prop)
    (step : State → Action → State → Prop) : State → Prop
  | start {state : State} : initial state → Reachable initial step state
  | next {before after : State} {action : Action} :
      Reachable initial step before → step before action after →
        Reachable initial step after

def onlyWhen (condition : State → Action → Prop) (step : State → Action → State → Prop) :
    State → Action → State → Prop :=
  fun before action after => condition before action ∧ step before action after

variable {property : State → Prop} {state : State}

theorem Reachable.invariant (reachable : Reachable initial step state)
    (holdsInitially : ∀ start, initial start → property start)
    (preserved : ∀ before action after, property before →
      step before action after → property after) :
    property state := by
  induction reachable with
  | start isInitial => exact holdsInitially _ isInitial
  | next _ taken ih =>
    exact preserved _ _ _ ih taken

theorem Reachable.mono {smaller : State → Action → State → Prop}
    (reachable : Reachable initial smaller state)
    (included : ∀ before action after, smaller before action after → step before action after) :
    Reachable initial step state := by
  induction reachable with
  | start isInitial => exact .start isInitial
  | next _ taken ih =>
    exact ih.next (included _ _ _ taken)

theorem Reachable.invariant_onlyWhen {condition : State → Action → Prop}
    (reachable : Reachable initial (onlyWhen condition step) state)
    (holdsInitially : ∀ start, initial start → property start)
    (preserved : ∀ before action after, property before →
      condition before action → step before action after → property after) :
    property state :=
  reachable.invariant holdsInitially
    fun _ _ _ holds taken => preserved _ _ _ holds taken.1 taken.2

end Runs

section Traces

variable {State Action : Type*}

inductive Trace (step : State → Action → State → Prop) (start : State) :
    List Action → State → Prop
  | nil : Trace step start [] start
  | snoc {actions : List Action} {before after : State} {action : Action} :
      Trace step start actions before → step before action after →
        Trace step start (actions ++ [action]) after

end Traces

section Deterministic

variable {State Action : Type*} (step : State → Action → State)

def HoldsAlong (property : State → Prop) : State → List Action → Prop
  | state, [] => property state
  | state, action :: rest => property state ∧ HoldsAlong property (step state action) rest

def StepsMeet (condition : State → Action → Prop) : State → List Action → Prop
  | _, [] => True
  | state, action :: rest =>
      condition state action ∧ StepsMeet condition (step state action) rest

variable {step}

variable {invariant : State → Prop} {condition : State → Action → Prop} {state : State}
  {actions : List Action}

theorem StepsMeet.imp_of_invariant {wanted : State → Action → Prop}
    (preserved : ∀ state action, invariant state → condition state action →
      invariant (step state action))
    (ensured : ∀ state action, invariant state → condition state action → wanted state action)
    (holds : invariant state)
    (meets : StepsMeet step condition state actions) :
    StepsMeet step wanted state actions := by
  induction actions generalizing state with
  | nil => trivial
  | cons action rest ih =>
    exact ⟨ensured state action holds meets.1, ih (preserved state action holds meets.1) meets.2⟩

theorem holdsAlong_iff_stepsMeet {property : State → Prop} {allowed : State → Action → Prop}
    (preserved : ∀ state action, invariant state → invariant (step state action))
    (exact : ∀ state action, invariant state → allowed state action → property state →
      (property (step state action) ↔ condition state action))
    (holds : invariant state)
    (isAllowed : StepsMeet step allowed state actions) (starts : property state) :
    HoldsAlong step property state actions ↔ StepsMeet step condition state actions := by
  induction actions generalizing state with
  | nil => exact ⟨fun _ => trivial, fun _ => starts⟩
  | cons action rest ih =>
    have stepExact := exact state action holds isAllowed.1 starts
    have restExact := ih (preserved state action holds) isAllowed.2
    constructor
    · rintro ⟨-, along⟩
      have after : property (step state action) := by
        cases rest with
        | nil => exact along
        | cons => exact along.1
      exact ⟨stepExact.mp after, (restExact after).mp along⟩
    · rintro ⟨meets, rest⟩
      exact ⟨starts, (restExact (stepExact.mpr meets)).mpr rest⟩

end Deterministic

end SharpEmu
