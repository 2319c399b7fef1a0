import Mathlib.Data.List.Basic
import Mathlib.Tactic.Common

/-!
# Parity patterns

A parity pattern reads an assignment of bits through masks: each mask gives one
bit, the parity of the assigned bits it selects.  Where a mask selects one
position that is not known yet, its parity determines that position, so a
pattern determines every position that such masks peel off one after another.
-/

namespace SharpEmu

namespace ParityPattern

variable {Position : Type*} [DecidableEq Position]

def parity (bits : Position → Bool) (mask : List Position) : Nat :=
  mask.countP bits % 2

def unknowns (known mask : List Position) : List Position :=
  mask.filter fun position => !known.contains position

def learn (known mask : List Position) : List Position :=
  match unknowns known mask with
  | [position] => position :: known
  | _ => known

def peel (masks : List (List Position)) : Nat → List Position → List Position
  | 0, known => known
  | rounds + 1, known => peel masks rounds (masks.foldl learn known)

variable {first second : Position → Bool}

theorem agree_learn {known mask : List Position}
    (agree : ∀ position ∈ known, first position = second position)
    (sameParity : parity first mask = parity second mask) :
    ∀ position ∈ learn known mask, first position = second position := by
  unfold learn
  split
  · next learnt isUnknown =>
    have knownAlike : (mask.filter known.contains).countP first =
        (mask.filter known.contains).countP second := by
      apply List.countP_congr
      intro position isMember
      have isKnown : position ∈ known := by
        simpa using (List.mem_filter.mp isMember).2
      rw [agree position isKnown]
    have cut (bits : Position → Bool) : mask.countP bits =
        (mask.filter known.contains).countP bits + (unknowns known mask).countP bits :=
      List.countP_eq_countP_filter_add mask bits known.contains
    unfold parity at sameParity
    rw [cut first, cut second, isUnknown, knownAlike] at sameParity
    intro position isMember
    cases List.mem_cons.mp isMember with
    | inl isLearnt =>
      subst isLearnt
      cases isFirst : first position <;> cases isSecond : second position <;>
        simp [isFirst, isSecond] at sameParity ⊢ <;> omega
    | inr isKnown => exact agree position isKnown
  · exact agree

variable {masks : List (List Position)}

theorem agree_foldl_learn :
    ∀ {known : List Position}, (∀ position ∈ known, first position = second position) →
      (∀ mask ∈ masks, parity first mask = parity second mask) →
      ∀ position ∈ masks.foldl learn known,
        first position = second position := by
  induction masks with
  | nil => exact fun agree _ => agree
  | cons mask masks ih =>
    intro known agree sameParity
    exact ih (agree_learn agree (sameParity mask List.mem_cons_self))
      (List.forall_mem_cons.mp sameParity).2

theorem agree_peel (sameParity : ∀ mask ∈ masks, parity first mask = parity second mask)
    (rounds : Nat) :
    ∀ {known : List Position}, (∀ position ∈ known, first position = second position) →
      ∀ position ∈ peel masks rounds known,
        first position = second position := by
  induction rounds with
  | zero => exact fun agree => agree
  | succ rounds ih =>
    intro known agree
    exact ih (agree_foldl_learn agree sameParity)

end ParityPattern

end SharpEmu
