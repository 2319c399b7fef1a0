import Mathlib.Data.BitVec
import Mathlib.Tactic.Common
import Mathlib.Algebra.Order.Group.Nat

/-!
# Depositing and extracting bits under a selector

A selector names positions of a word of any width.  Depositing spreads the low
bits of a source over the selected positions, and extracting gathers the
selected bits of a source at the low end.  The rank of a position, the number
of selected positions below it, is what both of them are about: it numbers the
selected positions from zero without a gap.
-/

namespace BitSelections

variable {width : ℕ}

def rank (selector : BitVec width) (position : ℕ) : ℕ :=
  selector.cpopNatRec position 0

def ofPositions (bit : Fin width → Bool) : BitVec width :=
  (BitVec.iunfoldr (fun position (_ : Unit) => ((), bit position)) ()).2

def deposit (source selector : BitVec width) : BitVec width :=
  ofPositions fun position : Fin width =>
    selector.getLsbD position && source.getLsbD (rank selector position)

def extract (source selector : BitVec width) : BitVec width :=
  ofPositions fun place : Fin width =>
    decide (∃ position : Fin width, selector.getLsbD position = true ∧
      rank selector position = place ∧ source.getLsbD position = true)

theorem getLsbD_ofPositions (bit : Fin width → Bool) (position : Fin width) :
    (ofPositions bit).getLsbD position = bit position :=
  BitVec.iunfoldr_getLsbD (fun _ => ()) position (fun _ => rfl)

@[simp]
theorem rank_zero (selector : BitVec width) : rank selector 0 = 0 := rfl

theorem rank_succ (selector : BitVec width) (position : ℕ) : rank selector (position + 1) =
      rank selector position + (selector.getLsbD position).toNat := by
  simp only [rank, BitVec.cpopNatRec_succ, Nat.zero_add]
  exact BitVec.cpopNatRec_eq _

variable {selector : BitVec width} {position : ℕ}

@[simp]
theorem rank_succ_of_selected (selected : selector.getLsbD position = true) :
    rank selector (position + 1) = rank selector position + 1 := by
  rw [rank_succ, selected, Bool.toNat_true]

@[simp]
theorem rank_succ_of_not_selected (skipped : selector.getLsbD position = false) :
    rank selector (position + 1) = rank selector position := by
  rw [rank_succ, skipped, Bool.toNat_false, Nat.add_zero]

theorem rank_width (selector : BitVec width) : rank selector width = selector.cpop.toNat :=
  (BitVec.toNat_cpop selector).symm

variable {low high : ℕ}

theorem rank_mono (selector : BitVec width) (le : low ≤ high) :
    rank selector low ≤ rank selector high := by
  induction high, le using Nat.le_induction with
  | base => exact le_rfl
  | succ high _ ih =>
    rw [rank_succ]
    exact ih.trans (Nat.le_add_right _ _)

theorem rank_le (selector : BitVec width) (position : ℕ) : rank selector position ≤ position := by
  have le : selector.cpopNatRec position 0 ≤ 0 + position :=
    BitVec.cpopNatRec_le position
  simpa [rank] using le

theorem rank_lt_of_selected (selected : selector.getLsbD low = true) (lt : low < high) :
    rank selector low < rank selector high :=
  calc rank selector low < rank selector (low + 1) := by
        rw [rank_succ_of_selected selected]
        exact Nat.lt_succ_self _
    _ ≤ rank selector high := rank_mono selector lt

theorem eq_of_rank_eq {first second : ℕ} (firstSelected : selector.getLsbD first = true)
    (secondSelected : selector.getLsbD second = true)
    (same : rank selector first = rank selector second) : first = second := by
  rcases Nat.lt_trichotomy first second with lt | eq | lt
  · exact absurd same (rank_lt_of_selected firstSelected lt).ne
  · exact eq
  · exact absurd same (rank_lt_of_selected secondSelected lt).ne'

variable {place : ℕ}

theorem exists_selected_of_lt_rank (selector : BitVec width) {limit : ℕ}
    (lt : place < rank selector limit) :
    ∃ position < limit, selector.getLsbD position = true ∧ rank selector position = place := by
  induction limit with
  | zero => simp at lt
  | succ limit ih =>
    by_cases before : place < rank selector limit
    · obtain ⟨position, below, selected, ranked⟩ := ih before
      exact ⟨position, by omega, selected, ranked⟩
    · cases here : selector.getLsbD limit with
      | false =>
        rw [rank_succ_of_not_selected here] at lt
        exact absurd lt before
      | true =>
        rw [rank_succ_of_selected here] at lt
        exact ⟨limit, by omega, here, by omega⟩

theorem lt_width_of_selected (selected : selector.getLsbD position = true) : position < width :=
  BitVec.lt_of_getLsbD selected

theorem getLsbD_deposit (source selector : BitVec width) (position : ℕ) :
    (deposit source selector).getLsbD position = (selector.getLsbD position &&
        source.getLsbD (rank selector position)) := by
  by_cases inside : position < width
  · exact getLsbD_ofPositions _ ⟨position, inside⟩
  · rw [BitVec.getLsbD_of_ge _ position (by omega),
      BitVec.getLsbD_of_ge selector position (by omega), Bool.false_and]

theorem getLsbD_extract (source selector : BitVec width) (place : ℕ) :
    (extract source selector).getLsbD place = true ↔ ∃ position, selector.getLsbD position = true ∧
        rank selector position = place ∧
        source.getLsbD position = true := by
  constructor
  · intro set
    have below := lt_width_of_selected set
    rw [extract, getLsbD_ofPositions _ ⟨place, below⟩] at set
    obtain ⟨position, selected, ranked, bit⟩ := of_decide_eq_true set
    exact ⟨position, selected, ranked, bit⟩
  · rintro ⟨position, selected, ranked, bit⟩
    have inside := lt_width_of_selected selected
    have below : place < width := by
      have := rank_le selector position
      omega
    rw [extract, getLsbD_ofPositions _ ⟨place, below⟩]
    exact decide_eq_true ⟨⟨position, inside⟩, selected, ranked, bit⟩

theorem getLsbD_extract_rank (source : BitVec width) (selected : selector.getLsbD position = true) :
    (extract source selector).getLsbD (rank selector position) = source.getLsbD position := by
  rw [Bool.eq_iff_iff, getLsbD_extract]
  constructor
  · rintro ⟨other, otherSelected, ranked, bit⟩
    rwa [eq_of_rank_eq otherSelected selected ranked] at bit
  · intro bit
    exact ⟨position, selected, rfl, bit⟩

theorem getLsbD_extract_of_le (source : BitVec width) (above : selector.cpop.toNat ≤ place) :
    (extract source selector).getLsbD place = false := by
  rw [Bool.eq_false_iff, Ne, getLsbD_extract]
  rintro ⟨position, selected, ranked, -⟩
  have lt := rank_lt_of_selected selected (lt_width_of_selected selected)
  rw [rank_width] at lt
  omega

theorem deposit_extract (source selector : BitVec width) :
    deposit (extract source selector) selector = source &&& selector := by
  apply BitVec.eq_of_getLsbD_eq
  intro position _
  rw [getLsbD_deposit, BitVec.getLsbD_and]
  cases selected : selector.getLsbD position with
  | false => simp
  | true => simp [getLsbD_extract_rank source selected]

theorem getLsbD_extract_deposit (source selector : BitVec width) (place : ℕ) :
    (extract (deposit source selector) selector).getLsbD place =
      (decide (place < selector.cpop.toNat) && source.getLsbD place) := by
  by_cases below : place < selector.cpop.toNat
  · rw [← rank_width] at below
    obtain ⟨position, inside, selected, ranked⟩ :=
      exists_selected_of_lt_rank selector below
    rw [← ranked, getLsbD_extract_rank _ selected, getLsbD_deposit, selected,
      ← rank_width, ranked, decide_eq_true below]
  · rw [getLsbD_extract_of_le _ (by omega), decide_eq_false below, Bool.false_and]

theorem toNat_extract_deposit (source selector : BitVec width) :
    (extract (deposit source selector) selector).toNat =
      source.toNat % 2 ^ selector.cpop.toNat := by
  apply Nat.eq_of_testBit_eq
  intro place
  rw [Nat.testBit_mod_two_pow]
  exact getLsbD_extract_deposit source selector place

end BitSelections
