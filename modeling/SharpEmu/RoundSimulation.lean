import Mathlib.Logic.Function.Iterate
import Mathlib.Tactic.Common

/-!
# Simulation by rounds

A machine that works in rounds carries out a machine that works in steps when
each round stands for one or more steps.  Both machines stay where they are once
they have ended, and related states have ended together.
-/

namespace SharpEmu

structure RoundSimulation {Rounds Steps : Type*} (round : Rounds → Rounds)
    (step : Steps → Steps) (finished : Rounds → Prop) (stopped : Steps → Prop)
    (Related : Rounds → Steps → Prop) : Prop where
  round_finished : ∀ whole, finished whole → round whole = whole
  step_stopped : ∀ small, stopped small → step small = small
  end_together : ∀ whole small, Related whole small →
    (finished whole ↔ stopped small)
  advances : ∀ whole small, Related whole small → ¬ finished whole →
    ∃ count, 1 ≤ count ∧ Related (round whole) (step^[count] small)

namespace RoundSimulation

variable {Rounds Steps : Type*} {round : Rounds → Rounds} {step : Steps → Steps}
variable {finished : Rounds → Prop} {stopped : Steps → Prop}
variable {Related : Rounds → Steps → Prop} {whole : Rounds} {small : Steps}

theorem after_rounds (simulation : RoundSimulation round step finished stopped Related)
    (related : Related whole small) (rounds : ℕ) :
    ∃ steps, Related (round^[rounds] whole) (step^[steps] small) ∧
      (finished (round^[rounds] whole) ∨ rounds ≤ steps) := by
  induction rounds with
  | zero => exact ⟨0, related, .inr (Nat.le_refl 0)⟩
  | succ rounds ih =>
    obtain ⟨steps, here, progress⟩ := ih
    rw [Function.iterate_succ_apply']
    by_cases ended : finished (round^[rounds] whole)
    · rw [simulation.round_finished _ ended]
      exact ⟨steps, here, .inl ended⟩
    · obtain ⟨more, positive, next⟩ := simulation.advances _ _ here ended
      refine ⟨more + steps, ?_, .inr ?_⟩
      · rw [Function.iterate_add_apply]
        exact next
      · have kept := progress.resolve_left ended
        omega

theorem stopped_later (simulation : RoundSimulation round step finished stopped Related)
    {steps later : ℕ} (ended : stopped (step^[steps] small))
    (order : steps ≤ later) : step^[later] small = step^[steps] small := by
  obtain ⟨more, rfl⟩ := Nat.exists_eq_add_of_le' order
  rw [Function.iterate_add_apply]
  exact Function.iterate_fixed (simulation.step_stopped _ ended) more

theorem finishes (simulation : RoundSimulation round step finished stopped Related)
    (related : Related whole small) {steps : ℕ}
    (ended : stopped (step^[steps] small)) :
    finished (round^[steps + 1] whole) ∧
      Related (round^[steps + 1] whole) (step^[steps] small) := by
  obtain ⟨reached, here, progress⟩ := simulation.after_rounds related (steps + 1)
  have isFinished : finished (round^[steps + 1] whole) := by
    rcases progress with isFinished | behind
    · exact isFinished
    · rw [simulation.end_together _ _ here, simulation.stopped_later ended (by omega)]
      exact ended
  refine ⟨isFinished, ?_⟩
  have reachedEnd := (simulation.end_together _ _ here).mp isFinished
  have sameEnd : step^[reached] small = step^[steps] small := by
    rcases Nat.le_total reached steps with before | behind
    · exact (simulation.stopped_later reachedEnd before).symm
    · exact simulation.stopped_later ended behind
  rwa [sameEnd] at here

end RoundSimulation
end SharpEmu
