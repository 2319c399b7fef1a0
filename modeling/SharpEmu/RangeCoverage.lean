import Mathlib.Data.List.Pairwise
import Mathlib.Data.List.Count
import Mathlib.Tactic.Common
import SharpEmu.SortedTables

/-!
# Half-open ranges and their coverage

An extent is a half-open range of natural numbers.  The coverage of a point by a
list of extents counts the extents that contain it.  Splitting, merging and
reordering extents do not change coverage, and a list of nonempty extents has
coverage at most one exactly when its extents are pairwise separated.  Tables
whose entries have separated ranges are closed under removing entries and under
assigning an entry that is apart from the others.
-/

namespace SharpEmu

/-- The range `[start, start + length)`. -/
structure Extent where
  start : ℕ
  length : ℕ
deriving DecidableEq, Repr

namespace Extent

/-- Membership of a point in a half-open range. -/
def Contains (extent : Extent) (point : ℕ) : Prop :=
  extent.start ≤ point ∧ point < extent.start + extent.length

instance (extent : Extent) (point : ℕ) : Decidable (extent.Contains point) :=
  inferInstanceAs (Decidable (_ ∧ _))

/-- One range ends before the other starts. -/
def Separated (first second : Extent) : Prop :=
  first.start + first.length ≤ second.start ∨ second.start + second.length ≤ first.start

instance (first second : Extent) : Decidable (first.Separated second) :=
  inferInstanceAs (Decidable (_ ∨ _))

variable {first second : Extent}

theorem Separated.symm (separated : first.Separated second) : second.Separated first :=
  Or.symm separated

variable {point : ℕ}

theorem Separated.not_contains
    (separated : first.Separated second) (inFirst : first.Contains point) :
    ¬ second.Contains point := by
  unfold Separated Contains at *
  omega

theorem separated_of_no_common_point
    (firstNonempty : 0 < first.length) (secondNonempty : 0 < second.length)
    (noCommonPoint : ∀ point, first.Contains point → ¬ second.Contains point) :
    first.Separated second := by
  have atFirst := noCommonPoint first.start
  have atSecond := noCommonPoint second.start
  unfold Separated Contains at *
  omega

variable {outer inner other : Extent}

theorem Separated.of_within
    (separated : outer.Separated other) (startsInside : outer.start ≤ inner.start)
    (endsInside : inner.start + inner.length ≤ outer.start + outer.length) :
    inner.Separated other := by
  unfold Separated at *
  omega

/-- Two ranges neither overlap nor touch. -/
def Apart (first second : Extent) : Prop :=
  first.start + first.length < second.start ∨ second.start + second.length < first.start

instance (first second : Extent) : Decidable (first.Apart second) :=
  inferInstanceAs (Decidable (_ ∨ _))

theorem Apart.symm (apart : first.Apart second) : second.Apart first :=
  Or.symm apart

theorem Apart.of_within (apart : outer.Apart other) (startsInside : outer.start ≤ inner.start)
    (endsInside : inner.start + inner.length ≤ outer.start + outer.length) :
    inner.Apart other := by
  unfold Apart at *
  omega

/-- The smallest range around two ranges. -/
def hull (first second : Extent) : Extent :=
  ⟨min first.start second.start, max (first.start + first.length) (second.start + second.length) -
      min first.start second.start⟩

theorem contains_hull_iff (near : ¬ first.Apart second) (point : ℕ) :
    (first.hull second).Contains point ↔
      first.Contains point ∨ second.Contains point := by
  unfold Apart at near
  simp only [hull, Contains]
  omega

theorem Apart.hull (near : ¬ first.Apart second)
    (fromFirst : other.Apart first) (fromSecond : other.Apart second) :
    other.Apart (first.hull second) := by
  unfold Apart at *
  simp only [Extent.hull]
  omega

def coverage (extents : List Extent) (point : ℕ) : ℕ :=
  extents.countP fun extent => extent.Contains point

@[simp]
theorem coverage_nil (point : ℕ) : coverage [] point = 0 := rfl

theorem coverage_cons (extent : Extent) (extents : List Extent) (point : ℕ) :
    coverage (extent :: extents) point =
      coverage extents point + if extent.Contains point then 1 else 0 := by
  simp [coverage, List.countP_cons]

theorem coverage_append (first second : List Extent) (point : ℕ) :
    coverage (first ++ second) point = coverage first point + coverage second point := by
  simp [coverage]

theorem coverage_perm {first second : List Extent} (permuted : first.Perm second) (point : ℕ) :
    coverage first point = coverage second point :=
  permuted.countP_eq _

theorem coverage_empty_extent (start : ℕ) (extents : List Extent) (point : ℕ) :
    coverage (⟨start, 0⟩ :: extents) point = coverage extents point := by
  grind [coverage_cons, Contains]

variable {extents : List Extent}

theorem coverage_pos : 0 < coverage extents point ↔ ∃ extent ∈ extents, extent.Contains point := by
  simp [coverage, List.countP_pos_iff]

theorem coverage_eq_zero : coverage extents point = 0 ↔
      ∀ extent ∈ extents, ¬ extent.Contains point := by
  simp [coverage, List.countP_eq_zero]

theorem pairwise_separated_of_coverage (nonempty : ∀ extent ∈ extents, 0 < extent.length)
    (coveredOnce : ∀ point, coverage extents point ≤ 1) :
    extents.Pairwise Separated := by
  induction extents with
  | nil => exact List.Pairwise.nil
  | cons head rest ih =>
    refine List.pairwise_cons.mpr ⟨?_, ih (List.forall_mem_cons.mp nonempty).2
      fun point => ?_⟩
    · intro other member
      refine separated_of_no_common_point (nonempty head List.mem_cons_self)
        (nonempty other (List.mem_cons_of_mem _ member)) ?_
      intro point inHead inOther
      have atPoint := coveredOnce point
      have covered := coverage_pos.mpr ⟨other, member, inOther⟩
      rw [coverage_cons, if_pos inHead] at atPoint
      omega
    · have atPoint := coveredOnce point
      rw [coverage_cons] at atPoint
      omega

theorem coverage_le_one_of_pairwise (separated : extents.Pairwise Separated) (point : ℕ) :
    coverage extents point ≤ 1 := by
  induction extents with
  | nil => exact Nat.zero_le _
  | cons head rest ih =>
    obtain ⟨headSeparated, restSeparated⟩ := List.pairwise_cons.mp separated
    rw [coverage_cons]
    split
    case isTrue inHead =>
      have uncovered : coverage rest point = 0 :=
        coverage_eq_zero.mpr fun other member =>
          (headSeparated other member).not_contains inHead
      omega
    case isFalse =>
      exact ih restSeparated

theorem separated_of_pairwise {Entry : Type*} {extent : Entry → Extent} {entries : List Entry}
    (separated : (entries.map extent).Pairwise Separated)
    {first second : Entry} (firstMem : first ∈ entries)
    (secondMem : second ∈ entries) (different : first ≠ second) :
    (extent first).Separated (extent second) := by
  have symmetric : Std.Symm fun first second : Entry =>
      (extent first).Separated (extent second) := ⟨fun _ _ => Separated.symm⟩
  exact (List.pairwise_map.mp separated).forall firstMem secondMem different

section Tables

variable {Key Entry : Type*} [LinearOrder Key] {key : Entry → Key}
variable {table : SortedTable key} (extent : Entry → Extent)

theorem coverage_set (entry : Entry)
    (absent : ∀ other ∈ table.entries, key other ≠ key entry) (point : ℕ) :
    coverage ((table.set entry).entries.map extent) point =
      coverage (table.entries.map extent) point +
        if (extent entry).Contains point then 1 else 0 := by
  rw [coverage_perm ((table.perm_set entry).map extent),
    SortedTable.remove_of_absent absent, List.map_cons, coverage_cons]

variable {entry : Entry}

/-- Removing a stored entry takes its range away. -/
theorem coverage_remove (member : entry ∈ table.entries) (point : ℕ) :
    coverage (table.entries.map extent) point =
      coverage ((table.remove (key entry)).entries.map extent) point +
        if (extent entry).Contains point then 1 else 0 := by
  rw [coverage_perm ((SortedTable.perm_of_mem member).map extent), List.map_cons, coverage_cons]

/-- Entries under different keys have separated ranges. -/
def ApartTable (extent : Entry → Extent) (table : SortedTable key) : Prop :=
  ∀ first ∈ table.entries, ∀ second ∈ table.entries,
    key first ≠ key second → (extent first).Separated (extent second)

variable {extent}

theorem apartTable_empty : ApartTable extent (.empty : SortedTable key) := by
  simp [ApartTable]

theorem ApartTable.pairwise (apart : ApartTable extent table) :
    (table.entries.map extent).Pairwise Separated := by
  rw [List.pairwise_map]
  exact table.ascending.imp_of_mem fun firstMem secondMem below =>
    apart _ firstMem _ secondMem below.ne

theorem ApartTable.remove (apart : ApartTable extent table) (wanted : Key) :
    ApartTable extent (table.remove wanted) := by
  intro first firstMem second secondMem different
  exact apart first (SortedTable.mem_remove.mp firstMem).1
    second (SortedTable.mem_remove.mp secondMem).1 different

theorem ApartTable.set (apart : ApartTable extent table)
    (apartFromOthers : ∀ other ∈ table.entries, key other ≠ key entry →
      (extent other).Separated (extent entry)) :
    ApartTable extent (table.set entry) := by
  intro first firstMem second secondMem different
  rcases SortedTable.mem_set.mp firstMem with rfl | ⟨firstOld, firstOther⟩
  · rcases SortedTable.mem_set.mp secondMem with rfl | ⟨secondOld, secondOther⟩
    · exact absurd rfl different
    · exact (apartFromOthers second secondOld secondOther).symm
  · rcases SortedTable.mem_set.mp secondMem with rfl | ⟨secondOld, _⟩
    · exact apartFromOthers first firstOld firstOther
    · exact apart first firstOld second secondOld different

end Tables

structure Tiles (lower upper : ℕ) (extents : List Extent) : Prop where
  nonempty : ∀ extent ∈ extents, 0 < extent.length
  separated : extents.Pairwise Separated
  inside : ∀ extent ∈ extents,
    lower ≤ extent.start ∧ extent.start + extent.length ≤ upper
  covers : ∀ point, lower ≤ point → point < upper →
    ∃ extent ∈ extents, extent.Contains point

theorem tiles_iff_coverage {lower upper : ℕ} : Tiles lower upper extents ↔
      (∀ extent ∈ extents, 0 < extent.length) ∧ ∀ point, coverage extents point =
          if lower ≤ point ∧ point < upper then 1 else 0 := by
  constructor
  · intro tiles
    refine ⟨tiles.nonempty, fun point => ?_⟩
    have atMostOnce := coverage_le_one_of_pairwise tiles.separated point
    split
    case isTrue inner =>
      have covered := coverage_pos.mpr (tiles.covers point inner.1 inner.2)
      omega
    case isFalse outer =>
      refine coverage_eq_zero.mpr fun extent member inExtent => outer ?_
      obtain ⟨startInside, endInside⟩ := tiles.inside extent member
      exact ⟨Nat.le_trans startInside inExtent.1, Nat.lt_of_lt_of_le inExtent.2 endInside⟩
  · rintro ⟨nonempty, coverageEq⟩
    have inner {extent : Extent} (point : ℕ) (member : extent ∈ extents)
        (inExtent : extent.Contains point) : lower ≤ point ∧ point < upper := by
      by_contra outer
      have uncovered := coverageEq point
      rw [if_neg outer, coverage_eq_zero] at uncovered
      exact uncovered extent member inExtent
    refine ⟨nonempty, pairwise_separated_of_coverage nonempty ?_, ?_, ?_⟩
    · intro point
      rw [coverageEq]
      split <;> omega
    · intro extent member
      have positive := nonempty extent member
      have first := inner extent.start member ⟨Nat.le_refl _, by omega⟩
      have last := inner (extent.start + extent.length - 1) member ⟨by omega, by omega⟩
      omega
    · intro point above below
      refine coverage_pos.mp ?_
      rw [coverageEq, if_pos ⟨above, below⟩]
      exact Nat.one_pos

end Extent
end SharpEmu
