import Mathlib.Order.MinMax
import Mathlib.Data.List.Basic
import Mathlib.Tactic.Common

/-!
# Linked intervals

A window over a line is widened over the intervals that it meets until none widens
it any more.  Started from the intervals around a point, it ends as the union of the
intervals that are linked to the point by points they share.
-/

namespace SharpEmu
namespace Interval

variable {Point Item : Type*} [LinearOrder Point] (span : Item → Point × Point)

def Meets (window interval : Point × Point) : Prop :=
  interval.1 < window.2 ∧ window.1 < interval.2

instance (window interval : Point × Point) : Decidable (Meets window interval) :=
  inferInstanceAs (Decidable (_ ∧ _))

def join (window interval : Point × Point) : Point × Point :=
  (min window.1 interval.1, max window.2 interval.2)

def Within (interval window : Point × Point) : Prop :=
  window.1 ≤ interval.1 ∧ interval.2 ≤ window.2

instance (interval window : Point × Point) : Decidable (Within interval window) :=
  inferInstanceAs (Decidable (_ ∧ _))

def Holds (interval : Point × Point) (point : Point) : Prop :=
  interval.1 ≤ point ∧ point < interval.2

def widen (items : List Item) (window : Point × Point) : Point × Point :=
  items.foldl (fun window item =>
    if Meets window (span item) then join window (span item) else window) window

def settle (items : List Item) : ℕ → Point × Point → Point × Point
  | 0, window => window
  | turns + 1, window =>
      if widen span items window = window then window
      else settle items turns (widen span items window)

def around (items : List Item) (point : Point) (start : Point × Point) : Point × Point :=
  items.foldl (fun window item =>
    if point < (span item).1 ∨ (span item).2 ≤ point then window
    else join window (span item)) start

inductive Linked (items : List Item) (point : Point) : Item → Prop
  | holds {item : Item} : item ∈ items → Holds (span item) point →
      Linked items point item
  | next {item other : Item} {shared : Point} : Linked items point item →
      other ∈ items → Holds (span item) shared → Holds (span other) shared →
      Linked items point other

section Widening

variable {span} {items : List Item} {window interval : Point × Point} {item : Item}

theorem within_refl (window : Point × Point) : Within window window :=
  ⟨le_rfl, le_rfl⟩

theorem Within.trans {first second third : Point × Point}
    (inSecond : Within first second) (inThird : Within second third) :
    Within first third :=
  ⟨inThird.1.trans inSecond.1, inSecond.2.trans inThird.2⟩

theorem within_join_left (window interval : Point × Point) : Within window (join window interval) :=
  ⟨min_le_left _ _, le_max_left _ _⟩

theorem within_join_right (window interval : Point × Point) :
    Within interval (join window interval) :=
  ⟨min_le_right _ _, le_max_right _ _⟩

theorem join_of_within (within : Within interval window) : join window interval = window :=
  Prod.ext (min_eq_left within.1) (max_eq_left within.2)

theorem eq_of_within (inside : Within window interval)
    (around : Within interval window) : window = interval :=
  Prod.ext (le_antisymm around.1 inside.1) (le_antisymm inside.2 around.2)

theorem within_widen (items : List Item) (window : Point × Point) :
    Within window (widen span items window) := by
  induction items generalizing window with
  | nil => exact within_refl window
  | cons head rest ih =>
    unfold widen
    rw [List.foldl_cons]
    split
    · exact (within_join_left _ _).trans (ih _)
    · exact ih window

theorem widen_eq_self_iff : widen span items window = window ↔
      ∀ item ∈ items, Meets window (span item) → Within (span item) window := by
  induction items generalizing window with
  | nil => simp [widen]
  | cons head rest ih =>
    unfold widen at ih ⊢
    rw [List.foldl_cons, List.forall_mem_cons]
    by_cases meets : Meets window (span head)
    · rw [if_pos meets]
      constructor
      · intro settled
        have grown : Within (join window (span head)) window := by
          have widened : Within _ (widen span rest _) :=
            within_widen rest (join window (span head))
          unfold widen at widened
          rwa [settled] at widened
        have same : join window (span head) = window :=
          eq_of_within grown (within_join_left _ _)
        rw [same] at settled
        exact ⟨fun _ => (within_join_right _ _).trans grown, ih.mp settled⟩
      · rintro ⟨headWithin, restWithin⟩
        rw [join_of_within (headWithin meets)]
        exact ih.mpr restWithin
    · rw [if_neg meets, ih]
      exact ⟨fun restWithin => ⟨fun impossible => absurd impossible meets, restWithin⟩,
        fun both => both.2⟩

/-- How many intervals the window has not taken in. -/
def outside (span : Item → Point × Point) (items : List Item) (window : Point × Point) : ℕ :=
  items.countP fun item => ¬ Within (span item) window

theorem Meets.grow {wider : Point × Point} (meets : Meets window interval)
    (grown : Within window wider) : Meets wider interval :=
  ⟨lt_of_lt_of_le meets.1 grown.2, lt_of_le_of_lt grown.1 meets.2⟩

theorem within_widen_of_meets (member : item ∈ items) (meets : Meets window (span item)) :
    Within (span item) (widen span items window) := by
  induction items generalizing window with
  | nil => cases member
  | cons head rest ih =>
    unfold widen at ih ⊢
    rw [List.foldl_cons]
    rcases List.mem_cons.mp member with rfl | later
    · rw [if_pos meets]
      exact (within_join_right _ _).trans (within_widen rest _)
    · split
      · exact ih later (meets.grow (within_join_left _ _))
      · exact ih later meets

theorem outside_widen_lt (unsettled : widen span items window ≠ window) :
    outside span items (widen span items window) < outside span items window := by
  have left : ∃ item ∈ items, Meets window (span item) ∧ ¬ Within (span item) window := by
    by_contra none
    apply unsettled
    apply widen_eq_self_iff.mpr
    intro item member meets
    by_contra notWithin
    exact none ⟨item, member, meets, notWithin⟩
  obtain ⟨taken, member, meets, notWithin⟩ := left
  have kept : ∀ item, ¬ Within (span item) (widen span items window) →
      ¬ Within (span item) window :=
    fun item out within => out (within.trans (within_widen items window))
  have takenIn := within_widen_of_meets member meets
  unfold outside
  -- The interval that was taken in splits both counts.
  generalize widen span items window = wider at kept takenIn
  obtain ⟨front, back, rfl⟩ := List.append_of_mem member
  have frontLe : front.countP (fun item => ¬ Within (span item) wider) ≤
      front.countP (fun item => ¬ Within (span item) window) :=
    List.countP_mono_left fun item _ out => by
      simpa using kept item (by simpa using out)
  have backLe : back.countP (fun item => ¬ Within (span item) wider) ≤
      back.countP (fun item => ¬ Within (span item) window) :=
    List.countP_mono_left fun item _ out => by
      simpa using kept item (by simpa using out)
  rw [List.countP_append, List.countP_append, List.countP_cons, List.countP_cons,
    if_neg (by simpa using takenIn), if_pos (by simpa using notWithin)]
  omega

theorem widen_settle {turns : ℕ} (enough : outside span items window ≤ turns) :
    widen span items (settle span items turns window) =
      settle span items turns window := by
  induction turns generalizing window with
  | zero =>
    rw [settle]
    by_contra unsettled
    have fewer := outside_widen_lt unsettled
    omega
  | succ turns ih =>
    rw [settle]
    split
    · assumption
    · rename_i unsettled
      have fewer := outside_widen_lt unsettled
      exact ih (by omega)

theorem outside_le_length (items : List Item) (window : Point × Point) :
    outside span items window ≤ items.length :=
  List.countP_le_length

theorem within_settle (items : List Item) (turns : ℕ) (window : Point × Point) :
    Within window (settle span items turns window) := by
  induction turns generalizing window with
  | zero => exact within_refl window
  | succ turns ih =>
    rw [settle]
    split
    · exact within_refl window
    · exact (within_widen items window).trans (ih _)

end Widening

section Linking

variable {span} {items : List Item} {point : Point} {window : Point × Point}

def Covered (span : Item → Point × Point) (items : List Item) (point : Point)
    (window : Point × Point) : Prop :=
  ∀ inside, Holds window inside → ∃ item, Linked span items point item ∧ Holds (span item) inside

theorem exists_shared {interval : Point × Point} (meets : Meets window interval)
    (proper : interval.1 < interval.2) (open_ : window.1 < window.2) :
    ∃ shared, Holds window shared ∧ Holds interval shared := by
  refine ⟨max window.1 interval.1, ⟨le_max_left _ _, ?_⟩, le_max_right _ _, ?_⟩
  · exact max_lt open_ meets.1
  · exact max_lt meets.2 proper

theorem linked_of_meets {item : Item} (covered : Covered span items point window)
    (open_ : window.1 < window.2) (member : item ∈ items)
    (proper : (span item).1 < (span item).2) (meets : Meets window (span item)) :
    Linked span items point item := by
  obtain ⟨shared, inWindow, inItem⟩ := exists_shared meets proper open_
  obtain ⟨other, linked, inOther⟩ := covered shared inWindow
  exact linked.next member inOther inItem

theorem Covered.join {item : Item} (covered : Covered span items point window)
    (meets : Meets window (span item)) (linked : Linked span items point item) :
    Covered span items point (Interval.join window (span item)) := by
  rintro inside ⟨above, below⟩
  by_cases inWindow : Holds window inside
  · exact covered inside inWindow
  · refine ⟨item, linked, ?_⟩
    simp only [Interval.join, min_le_iff, lt_max_iff] at above below
    unfold Holds at inWindow ⊢
    rcases le_or_gt window.1 inside with afterStart | beforeStart
    · have past : window.2 ≤ inside := not_lt.mp fun before =>
        inWindow ⟨afterStart, before⟩
      exact ⟨meets.1.le.trans past, below.resolve_left (not_lt.mpr past)⟩
    · exact ⟨above.resolve_left (not_le.mpr beforeStart), beforeStart.trans meets.2⟩

theorem open_join {interval : Point × Point} (open_ : window.1 < window.2) :
    (join window interval).1 < (join window interval).2 :=
  lt_of_le_of_lt (min_le_left _ _) (lt_of_lt_of_le open_ (le_max_left _ _))

variable {rest : List Item}

theorem covered_foldl (proper : ∀ item ∈ items, (span item).1 < (span item).2)
    (subset : ∀ item ∈ rest, item ∈ items) (open_ : window.1 < window.2)
    (covered : Covered span items point window) :
    (widen span rest window).1 < (widen span rest window).2 ∧
      Covered span items point (widen span rest window) := by
  induction rest generalizing window with
  | nil => exact ⟨open_, covered⟩
  | cons head rest ih =>
    have member := subset head List.mem_cons_self
    have restSubset := (List.forall_mem_cons.mp subset).2
    unfold widen at ih ⊢
    rw [List.foldl_cons]
    split
    · rename_i meets
      exact ih restSubset (open_join open_) (covered.join meets
        (linked_of_meets covered open_ member (proper head member) meets))
    · exact ih restSubset open_ covered

theorem covered_settle (turns : ℕ) (proper : ∀ item ∈ items, (span item).1 < (span item).2)
    (open_ : window.1 < window.2) (covered : Covered span items point window) :
    (settle span items turns window).1 < (settle span items turns window).2 ∧
      Covered span items point (settle span items turns window) := by
  induction turns generalizing window with
  | zero => exact ⟨open_, covered⟩
  | succ turns ih =>
    rw [settle]
    split
    · exact ⟨open_, covered⟩
    · obtain ⟨wider, isCovered⟩ :=
        covered_foldl proper (fun _ member => member) open_ covered
      exact ih wider isCovered

theorem within_of_linked {item : Item} (settled : widen span items window = window)
    (taken : ∀ item ∈ items, Holds (span item) point → Within (span item) window)
    (linked : Linked span items point item) : Within (span item) window := by
  induction linked with
  | holds member inside => exact taken _ member inside
  | next _ member inItem inOther ih =>
    apply widen_eq_self_iff.mp settled _ member
    exact ⟨lt_of_le_of_lt inOther.1 (lt_of_lt_of_le inItem.2 ih.2),
      lt_of_le_of_lt ih.1 (lt_of_le_of_lt inItem.1 inOther.2)⟩

theorem not_skipped_iff {interval : Point × Point} :
    ¬ (point < interval.1 ∨ interval.2 ≤ point) ↔ Holds interval point := by
  rw [not_or, not_lt, not_le]
  rfl

theorem around_of_holds (subset : ∀ item ∈ rest, item ∈ items)
    (holds : Holds window point) (covered : Covered span items point window) :
    Holds (around span rest point window) point ∧
      Covered span items point (around span rest point window) ∧
      Within window (around span rest point window) ∧
      ∀ item ∈ rest, Holds (span item) point →
        Within (span item) (around span rest point window) := by
  induction rest generalizing window with
  | nil => exact ⟨holds, covered, within_refl window, by simp⟩
  | cons head rest ih =>
    have restSubset := (List.forall_mem_cons.mp subset).2
    unfold around at ih ⊢
    rw [List.foldl_cons]
    by_cases skipped : point < (span head).1 ∨ (span head).2 ≤ point
    · rw [if_pos skipped]
      obtain ⟨stillHolds, isCovered, grown, takes⟩ := ih restSubset holds covered
      refine ⟨stillHolds, isCovered, grown, List.forall_mem_cons.mpr ⟨?_, takes⟩⟩
      intro inHead
      exact absurd skipped (not_skipped_iff.mpr inHead)
    · rw [if_neg skipped]
      have inHead := not_skipped_iff.mp skipped
      have linked : Linked span items point head :=
        .holds (subset head List.mem_cons_self) inHead
      have meets : Meets window (span head) :=
        ⟨lt_of_le_of_lt inHead.1 holds.2, lt_of_le_of_lt holds.1 inHead.2⟩
      obtain ⟨stillHolds, isCovered, grown, takes⟩ := ih restSubset
        ⟨(min_le_left _ _).trans holds.1, holds.2.trans_le (le_max_left _ _)⟩
        (covered.join meets linked)
      exact ⟨stillHolds, isCovered, (within_join_left _ _).trans grown, List.forall_mem_cons.mpr
          ⟨fun _ => (within_join_right _ _).trans grown, takes⟩⟩

variable {start : Point × Point}

theorem around_of_none (none : ∀ item ∈ items, ¬ Holds (span item) point) :
    around span items point start = start := by
  induction items with
  | nil => rfl
  | cons head rest ih =>
    obtain ⟨notHead, notRest⟩ := List.forall_mem_cons.mp none
    unfold around at ih ⊢
    rw [List.foldl_cons, if_pos (not_not.mp (mt not_skipped_iff.mp notHead))]
    exact ih notRest

theorem around_of_some (first : ∀ other, other ≤ start.1) (last : ∀ other, start.2 ≤ other)
    (subset : ∀ item ∈ rest, item ∈ items)
    (some : ∃ item ∈ rest, Holds (span item) point) :
    Holds (around span rest point start) point ∧
      Covered span items point (around span rest point start) ∧
      ∀ item ∈ rest, Holds (span item) point →
        Within (span item) (around span rest point start) := by
  induction rest with
  | nil =>
    obtain ⟨_, member, _⟩ := some
    cases member
  | cons head rest ih =>
    have restSubset := (List.forall_mem_cons.mp subset).2
    unfold around at ih ⊢
    rw [List.foldl_cons]
    by_cases skipped : point < (span head).1 ∨ (span head).2 ≤ point
    · rw [if_pos skipped]
      have notHead : ¬ Holds (span head) point :=
        fun inHead => not_skipped_iff.mpr inHead skipped
      obtain ⟨stillHolds, isCovered, takes⟩ := ih restSubset (by
        obtain ⟨item, member, inside⟩ := some
        rcases List.mem_cons.mp member with rfl | later
        · exact absurd inside notHead
        · exact ⟨item, later, inside⟩)
      exact ⟨stillHolds, isCovered, List.forall_mem_cons.mpr
        ⟨fun inHead => absurd inHead notHead, takes⟩⟩
    · rw [if_neg skipped]
      have inHead := not_skipped_iff.mp skipped
      have isHead : Interval.join start (span head) = span head :=
        Prod.ext (min_eq_right (first _)) (max_eq_right (last _))
      have linked : Linked span items point head :=
        .holds (subset head List.mem_cons_self) inHead
      rw [isHead]
      obtain ⟨stillHolds, isCovered, grown, takes⟩ :=
        around_of_holds restSubset inHead fun inside inItem =>
          ⟨head, linked, inItem⟩
      exact ⟨stillHolds, isCovered, List.forall_mem_cons.mpr ⟨fun _ => grown, takes⟩⟩

theorem meets_settle_around_iff {item : Item} {turns : ℕ}
    (proper : ∀ item ∈ items, (span item).1 < (span item).2)
    (first : ∀ other, other ≤ start.1) (last : ∀ other, start.2 ≤ other)
    (enough : items.length ≤ turns) (member : item ∈ items)
    (some : ∃ item ∈ items, Holds (span item) point) :
    Meets (settle span items turns (around span items point start)) (span item) ↔
      Linked span items point item := by
  obtain ⟨holds, covered, taken⟩ :=
    around_of_some first last (fun _ member => member) some
  obtain ⟨open_, isCovered⟩ := covered_settle turns proper (lt_of_le_of_lt holds.1 holds.2) covered
  constructor
  · exact linked_of_meets isCovered open_ member (proper item member)
  · intro linked
    have settled : widen span items (settle span items turns (around span items point start)) = _ :=
      widen_settle ((outside_le_length items _).trans enough)
    have within := within_of_linked settled (fun other inItems inside =>
        (taken other inItems inside).trans (within_settle items turns _)) linked
    have isProper := proper item member
    exact ⟨lt_of_lt_of_le isProper within.2, lt_of_le_of_lt within.1 isProper⟩

end Linking

end Interval
end SharpEmu
