import Mathlib.Data.List.Induction
import Mathlib.Data.List.Pairwise
import Mathlib.Data.List.TakeDrop
import Mathlib.Tactic.Common

/-!
# Backward sweeps

A backward sweep goes over the indices of a list from the last to the first,
removes each selected item and appends it to a second list.  It keeps the order
of the items that stay and returns the removed ones in reverse order.  The
removed items of a sorted list are therefore sorted only when there is at most
one of them.
-/

namespace SharpEmu

namespace BackwardSweep

variable {Item : Type*}

/-- The loop, with the number of indices left to visit. -/
def sweep (selected : Item → Bool) : Nat → List Item → List Item → List Item × List Item
  | 0, list, removed => (list, removed)
  | index + 1, list, removed =>
      match list[index]? with
      | none => sweep selected index list removed
      | some item =>
          if selected item then
            sweep selected index (list.eraseIdx index) (removed ++ [item])
          else sweep selected index list removed

theorem sweep_eq (selected : Item → Bool) (back : List Item) : ∀ (front removed : List Item),
      sweep selected front.length (front ++ back) removed =
        (front.filter (fun item => !selected item) ++ back,
          removed ++ (front.filter selected).reverse) := by
  intro front
  induction front using List.reverseRecOn generalizing back with
  | nil => simp [sweep]
  | append_singleton front item ih =>
    intro removed
    have isItem : (front ++ [item] ++ back)[front.length]? = some item := by
      simp
    have erased : (front ++ [item] ++ back).eraseIdx front.length = front ++ back := by
      simp [List.eraseIdx_append_of_length_le]
    rw [List.length_append, List.length_singleton, sweep, isItem]
    cases isSelected : selected item with
    | true =>
      dsimp only
      rw [if_pos isSelected, erased, ih]
      simp [isSelected]
    | false =>
      have kept := ih (item :: back) removed
      simp only [List.append_assoc, List.cons_append, List.nil_append]
      simp [kept, isSelected]

theorem sweep_all (selected : Item → Bool) (list removed : List Item) :
    sweep selected list.length list removed = (list.filter (fun item => !selected item),
        removed ++ (list.filter selected).reverse) := by
  simpa using sweep_eq selected [] list removed

theorem pairwise_reverse_iff {relation : Item → Item → Prop}
    (asymmetric : ∀ first second, relation first second → ¬ relation second first)
    {list : List Item} (sorted : list.Pairwise relation) :
    list.reverse.Pairwise relation ↔ list.length ≤ 1 := by
  rw [List.pairwise_reverse]
  constructor
  · intro reversed
    match list, sorted, reversed with
    | [], _, _ => simp
    | [_], _, _ => simp
    | first :: second :: rest, sorted, reversed =>
      have forwards := List.rel_of_pairwise_cons sorted List.mem_cons_self
      have backwards := List.rel_of_pairwise_cons reversed List.mem_cons_self
      exact absurd backwards (asymmetric _ _ forwards)
  · intro small
    match list, small with
    | [], _ => simp
    | [_], _ => simp

end BackwardSweep

end SharpEmu
