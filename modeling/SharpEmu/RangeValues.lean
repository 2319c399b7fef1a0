import Mathlib.Algebra.Order.Group.Multiset
import Mathlib.Data.Multiset.Filter
import SharpEmu.RangeCoverage

/-!
# What a table of ranges says about each point

The entries of a table whose ranges contain a point give it values.  They are
collected with their multiplicities, so that nothing is assumed about overlaps; a
table of disjoint ranges gives each point at most one value.  Assigning and removing
entries change the values of the points in their ranges only.
-/

namespace SharpEmu
namespace Extent

variable {Key Entry Value : Type*}

def valuesAt (extent : Entry → Extent) (value : Entry → ℕ → Value)
    (entries : List Entry) (point : ℕ) : Multiset Value :=
  ((entries.filter fun entry => (extent entry).Contains point).map (value · point) : List Value)

variable {extent : Entry → Extent} {value : Entry → ℕ → Value}
variable {entries : List Entry} {point : ℕ}

@[simp]
theorem valuesAt_nil : valuesAt extent value [] point = 0 := rfl

theorem valuesAt_cons (entry : Entry) (entries : List Entry) :
    valuesAt extent value (entry :: entries) point =
      (if (extent entry).Contains point then {value entry point} else 0) +
        valuesAt extent value entries point := by
  unfold valuesAt
  rw [List.filter_cons]
  split
  · rename_i inside
    rw [if_pos (of_decide_eq_true inside), List.map_cons, Multiset.singleton_add]
    rfl
  · rename_i outside
    rw [if_neg fun inside => outside (decide_eq_true inside), zero_add]

theorem valuesAt_perm {first second : List Entry} (permuted : first.Perm second) :
    valuesAt extent value first point = valuesAt extent value second point :=
  Multiset.coe_eq_coe.mpr ((permuted.filter _).map _)

theorem card_valuesAt : Multiset.card (valuesAt extent value entries point) =
    coverage (entries.map extent) point := by
  induction entries with
  | nil => rfl
  | cons entry entries ih =>
    rw [valuesAt_cons, Multiset.card_add, ih, List.map_cons, coverage_cons, Nat.add_comm]
    split
    · rfl
    · rfl

theorem valuesAt_eq_zero : valuesAt extent value entries point = 0 ↔
    ∀ entry ∈ entries, ¬ (extent entry).Contains point := by
  rw [← Multiset.card_eq_zero, card_valuesAt, coverage_eq_zero]
  exact List.forall_mem_map

theorem valuesAt_filter_add (test : Entry → Bool) :
    valuesAt extent value (entries.filter test) point +
        valuesAt extent value (entries.filter fun entry => !test entry) point =
      valuesAt extent value entries point := by
  induction entries with
  | nil => rfl
  | cons entry entries ih =>
    rw [valuesAt_cons, ← ih]
    cases isTest : test entry with
    | true =>
      rw [List.filter_cons_of_pos isTest, List.filter_cons_of_neg (by simp [isTest]),
        valuesAt_cons, add_assoc]
    | false =>
      rw [List.filter_cons_of_neg (by simp [isTest]),
        List.filter_cons_of_pos (by simp [isTest]), valuesAt_cons]
      exact add_left_comm _ _ _

theorem map_valuesAt {Image : Type*} (image : Value → Image) :
    (valuesAt extent value entries point).map image =
      valuesAt extent (fun entry point => image (value entry point)) entries point := by
  unfold valuesAt
  rw [Multiset.map_coe, List.map_map]
  rfl

theorem valuesAt_congr {other : Entry → ℕ → Value}
    (same : ∀ entry ∈ entries, (extent entry).Contains point →
      value entry point = other entry point) :
    valuesAt extent value entries point = valuesAt extent other entries point := by
  unfold valuesAt
  congr 1
  apply List.map_congr_left
  intro entry member
  obtain ⟨member, inside⟩ := List.mem_filter.mp member
  exact same entry member (of_decide_eq_true inside)

section Tables

variable [LinearOrder Key] {key : Entry → Key} {table : SortedTable key}

theorem valuesAt_set (entry : Entry) : valuesAt extent value (table.set entry).entries point =
      (if (extent entry).Contains point then {value entry point} else 0) +
        valuesAt extent value (table.remove (key entry)).entries point := by
  rw [valuesAt_perm (table.perm_set entry), valuesAt_cons]

variable {entry : Entry}

theorem valuesAt_of_mem (member : entry ∈ table.entries) :
    valuesAt extent value table.entries point =
      (if (extent entry).Contains point then {value entry point} else 0) +
        valuesAt extent value (table.remove (key entry)).entries point := by
  rw [valuesAt_perm (SortedTable.perm_of_mem member), valuesAt_cons]

theorem valuesAt_foldl_remove {removed : List Entry} (nodup : removed.Nodup)
    (stored : ∀ entry ∈ removed, entry ∈ table.entries) :
    valuesAt extent value table.entries point = valuesAt extent value removed point +
        valuesAt extent value (removed.foldl (fun table entry =>
          table.remove (key entry)) table).entries point := by
  have parts : valuesAt extent value _ point + _ = valuesAt extent value table.entries point :=
    valuesAt_filter_add fun entry => decide (∃ other ∈ removed, key entry = key other)
  rw [SortedTable.entries_foldl_remove, ← parts]
  congr 1
  · apply valuesAt_perm
    rw [List.perm_ext_iff_of_nodup (table.nodup.filter _) nodup]
    intro entry
    rw [List.mem_filter, decide_eq_true_eq]
    constructor
    · rintro ⟨member, other, otherMember, sameKey⟩
      rw [SortedTable.eq_of_key_eq member (stored other otherMember) sameKey]
      exact otherMember
    · intro member
      exact ⟨stored entry member, entry, member, rfl⟩
  · congr 1
    apply List.filter_congr
    intro entry _
    rw [← decide_not, decide_eq_decide]
    constructor
    · intro missing other otherMember sameKey
      exact missing ⟨other, otherMember, sameKey⟩
    · rintro missing ⟨other, otherMember, sameKey⟩
      exact missing other otherMember sameKey

theorem valuesAt_remove_of_outside {wanted : Key}
    (outside : ∀ entry ∈ table.entries, key entry = wanted → ¬ (extent entry).Contains point) :
    valuesAt extent value (table.remove wanted).entries point =
      valuesAt extent value table.entries point := by
  by_cases present : ∃ entry ∈ table.entries, key entry = wanted
  · obtain ⟨entry, member, rfl⟩ := present
    rw [valuesAt_of_mem member, if_neg (outside entry member rfl), zero_add]
  · rw [SortedTable.remove_of_absent]
    intro entry member isKey
    exact present ⟨entry, member, isKey⟩

theorem valuesAt_remove_of_inside (member : entry ∈ table.entries)
    (coveredOnce : coverage (table.entries.map extent) point ≤ 1)
    (inside : (extent entry).Contains point) :
    valuesAt extent value (table.remove (key entry)).entries point = 0 := by
  have split := coverage_remove extent member point
  rw [if_pos inside] at split
  rw [← Multiset.card_eq_zero, card_valuesAt]
  omega

end Tables

end Extent
end SharpEmu
