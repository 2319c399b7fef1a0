import Mathlib.Tactic.Common

/-!
# Answered requests

A machine answers requests one after another.  A second machine that simulates it
gives the same answers, read in its own way, as long as the simulation lasts.
-/

namespace SharpEmu

variable {State Other Request Answer Reading : Type*}

def answers (next : State → Request → Answer × State) : State → List Request → List Answer
  | _, [] => []
  | state, request :: rest =>
      (next state request).1 :: answers next (next state request).2 rest

structure AnswersAlike (next : State → Request → Answer × State)
    (other : Other → Request → Reading × Other) (read : Answer → Reading)
    (Related : ℕ → State → Other → Prop) : Prop where
  same_answer : ∀ budget state otherState request,
    Related (budget + 1) state otherState →
      (other otherState request).1 = read (next state request).1
  stays_related : ∀ budget state otherState request,
    Related (budget + 1) state otherState →
      Related budget (next state request).2 (other otherState request).2

theorem AnswersAlike.answers_eq {next : State → Request → Answer × State}
    {other : Other → Request → Reading × Other} {read : Answer → Reading}
    {Related : ℕ → State → Other → Prop}
    (alike : AnswersAlike next other read Related) {state : State}
    {otherState : Other} {requests : List Request}
    (related : Related requests.length state otherState) :
    answers other otherState requests = (answers next state requests).map read := by
  induction requests generalizing state otherState with
  | nil => rfl
  | cons request rest ih =>
    rw [answers, answers, List.map_cons, alike.same_answer _ _ _ _ related,
      ih (alike.stays_related _ _ _ _ related)]

end SharpEmu
