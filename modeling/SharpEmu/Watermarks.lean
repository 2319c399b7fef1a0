import Mathlib.Data.Finset.Card
import Mathlib.Data.Finset.Basic

/-!
# Completed sequence numbers behind a watermark

Sequence numbers are completed in any order.  The ones up to a watermark are all
complete; the ones beyond it are kept in a set, and the watermark moves on over
the ones that follow it without a gap.
-/

namespace SharpEmu

/-- All numbers up to `upTo` and those in `beyond`. -/
structure Watermark where
  upTo : ℕ
  beyond : Finset ℕ
  deriving DecidableEq

namespace Watermark

def Holds (watermark : Watermark) (sequence : ℕ) : Prop :=
  sequence ≤ watermark.upTo ∨ sequence ∈ watermark.beyond

instance (watermark : Watermark) (sequence : ℕ) : Decidable (watermark.Holds sequence) :=
  inferInstanceAs (Decidable (_ ∨ _))

/-- Move the watermark over the numbers that follow it. -/
def advance : ℕ → Watermark → Watermark
  | 0, watermark => watermark
  | fuel + 1, watermark =>
      if watermark.upTo + 1 ∈ watermark.beyond then
        advance fuel ⟨watermark.upTo + 1, watermark.beyond.erase (watermark.upTo + 1)⟩
      else watermark

def complete (watermark : Watermark) (sequence : ℕ) : Watermark :=
  if sequence = watermark.upTo + 1 then
    advance watermark.beyond.card ⟨sequence, watermark.beyond⟩
  else if watermark.upTo < sequence then
    ⟨watermark.upTo, insert sequence watermark.beyond⟩
  else watermark

theorem holds_advance (fuel : ℕ) (watermark : Watermark) (sequence : ℕ) :
    (advance fuel watermark).Holds sequence ↔ watermark.Holds sequence := by
  induction fuel generalizing watermark with
  | zero => rfl
  | succ fuel ih =>
    rw [advance]
    split
    · rename_i follows
      rw [ih]
      simp only [Holds, Finset.mem_erase]
      constructor
      · rintro (below | ⟨_, member⟩)
        · by_cases isNext : sequence = watermark.upTo + 1
          · exact .inr (isNext ▸ follows)
          · exact .inl (by omega)
        · exact .inr member
      · rintro (below | member)
        · exact .inl (by omega)
        · by_cases isNext : sequence = watermark.upTo + 1
          · exact .inl (by omega)
          · exact .inr ⟨isNext, member⟩
    · rfl

theorem holds_complete (watermark : Watermark) (sequence other : ℕ) :
    (watermark.complete sequence).Holds other ↔ watermark.Holds other ∨ other = sequence := by
  rw [complete]
  split
  · rename_i isNext
    have below : other ≤ sequence ↔ other ≤ watermark.upTo ∨ other = sequence := by
      omega
    rw [holds_advance]
    simp only [Holds, below]
    tauto
  · split
    · simp only [Holds, Finset.mem_insert]
      tauto
    · rename_i notBeyond
      constructor
      · exact .inl
      · rintro (holds | rfl)
        · exact holds
        · exact .inl (by omega)

end Watermark

end SharpEmu
