import Mathlib.Data.List.SplitBy
import Mathlib.Data.List.Sort
import Mathlib.Tactic.Common

/-!
# Cutting a list in front of marked elements

The pieces of a list that is cut in front of each marked element are described
by their heads: a piece is one marked element and the unmarked ones behind it.
-/

namespace SharpEmu
namespace ListCuts

variable {Item : Type*} (marked : Item → Bool)

def pieces (items : List Item) : List (List Item) :=
  items.splitBy fun _ next => !marked next

/-- A marked element and unmarked ones behind it. -/
def Headed (piece : List Item) : Prop :=
  ∃ head tail, piece = head :: tail ∧ marked head = true ∧ ∀ item ∈ tail, marked item = false

theorem flatten_pieces (items : List Item) : (pieces marked items).flatten = items :=
  List.flatten_splitBy _ items

variable {marked}

theorem tail_unmarked {head : Item} {tail : List Item}
    (chain : (head :: tail).IsChain fun _ next => !marked next) :
    ∀ item ∈ tail, marked item = false := by
  induction tail generalizing head with
  | nil => simp
  | cons next rest ih =>
    rw [List.isChain_cons_cons] at chain
    intro item member
    rcases List.mem_cons.mp member with rfl | later
    · simpa using chain.1
    · exact ih chain.2 item later

variable {groups : List (List Item)}

theorem heads_marked (chain : groups.IsChain fun before after =>
      ∃ hasLast hasHead, (fun _ next => !marked next) (before.getLast hasLast)
        (after.head hasHead) = false) :
    ∀ group ∈ groups.tail, ∃ hasHead, marked (group.head hasHead) = true := by
  induction groups with
  | nil => simp
  | cons first rest ih =>
    cases rest with
    | nil => simp
    | cons second rest =>
      rw [List.isChain_cons_cons] at chain
      obtain ⟨⟨_, hasHead, isMarked⟩, chainRest⟩ := chain
      intro group member
      rcases List.mem_cons.mp member with rfl | later
      · exact ⟨hasHead, by simpa using isMarked⟩
      · exact ih chainRest group later

theorem pieces_headed {first : Item} {rest : List Item} (isMarked : marked first = true) :
    ∀ piece ∈ pieces marked (first :: rest), Headed marked piece := by
  have nonempty : ∀ piece ∈ pieces marked (first :: rest), piece ≠ [] :=
    fun piece member => List.ne_nil_of_mem_splitBy member
  have headMarked : ∀ piece ∈ pieces marked (first :: rest),
      ∀ hasHead : piece ≠ [], marked (piece.head hasHead) = true := by
    have starts := List.head_head_splitBy (fun _ next => !marked next) (List.cons_ne_nil first rest)
    have later := heads_marked (List.isChain_getLast_head_splitBy
      (fun _ next => !marked next) (first :: rest))
    intro piece member hasHead
    unfold pieces at member
    cases isPieces : (first :: rest).splitBy fun _ next => !marked next with
    | nil =>
      rw [isPieces] at member
      cases member
    | cons front others =>
      rw [isPieces] at member later
      simp only [isPieces, List.head_cons] at starts
      rcases List.mem_cons.mp member with rfl | inOthers
      · rw [starts]
        exact isMarked
      · obtain ⟨_, result⟩ := later piece inOthers
        exact result
  intro piece member
  have chain := List.isChain_of_mem_splitBy member
  cases piece with
  | nil => exact absurd rfl (nonempty [] member)
  | cons head tail =>
    exact ⟨head, tail, rfl, headMarked _ member (List.cons_ne_nil _ _), tail_unmarked chain⟩

theorem filter_flatten (headed : ∀ group ∈ groups, Headed marked group) :
    groups.flatten.filter marked = groups.filterMap List.head? := by
  induction groups with
  | nil => rfl
  | cons group groups ih =>
    obtain ⟨head, tail, rfl, isMarked, unmarked⟩ :=
      headed group List.mem_cons_self
    have noTail : tail.filter marked = [] := by
      rw [List.filter_eq_nil_iff]
      intro item member
      simp [unmarked item member]
    rw [List.flatten_cons, List.filter_append, ih (List.forall_mem_cons.mp headed).2,
      List.filter_cons_of_pos isMarked, noTail]
    rfl

theorem eq_of_strictly_sorted [PartialOrder Item] {first second : List Item}
    (firstSorted : first.Pairwise (· < ·)) (secondSorted : second.Pairwise (· < ·))
    (sameElements : ∀ item, item ∈ first ↔ item ∈ second) : first = second := by
  apply List.Perm.eq_of_pairwise _ firstSorted secondSorted
  · rw [List.perm_ext_iff_of_nodup (firstSorted.imp ne_of_lt) (secondSorted.imp ne_of_lt)]
    exact sameElements
  · intro one other _ _ below above
    exact absurd above (lt_asymm below)

end ListCuts
end SharpEmu
