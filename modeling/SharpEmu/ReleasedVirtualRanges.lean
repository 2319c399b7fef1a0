import SharpEmu.MachineWords
import SharpEmu.RangeCoverage
import SharpEmu.TransitionRuns
import Mathlib.Data.Set.Basic

/-!
# The pool of released virtual ranges

Ranges that the guest unmaps are kept for reuse.  Registering a range merges it
with every range that it overlaps or touches; taking a range cuts an aligned
piece out of the first range that fits it.  The pool is compared with the set of
addresses that were released and not taken again.
-/

namespace SharpEmu
namespace ReleasedVirtualRanges

open Word64

/-! ## The source -/

structure ReleasedVirtualRange where
  address : UInt64
  length : UInt64
deriving DecidableEq, Repr

def ReleasedVirtualRange.rangeEnd (range : ReleasedVirtualRange) : UInt64 :=
  range.address + range.length

def alignUp (value alignment : UInt64) : UInt64 :=
  if alignment ≤ 1 then value else wrappingRoundUp value alignment

/-- The loop of a registration, from the last range to the first: the ranges that
stay, and the bounds of the merged range. -/
def mergeReleased (start end_ : UInt64) (pool : List ReleasedVirtualRange) :
    List ReleasedVirtualRange × UInt64 × UInt64 :=
  pool.foldr (fun existing (kept, start, end_) =>
      if end_ < existing.address ∨ existing.rangeEnd < start then
        (existing :: kept, start, end_)
      else (kept, min start existing.address, max end_ existing.rangeEnd))
    ([], start, end_)

def IgnoresRelease (address length : UInt64) : Prop :=
  address = 0 ∨ length = 0 ∨ 0xFFFFFFFFFFFFFFFF - address < length

instance (address length : UInt64) : Decidable (IgnoresRelease address length) :=
  inferInstanceAs (Decidable (_ ∨ _ ∨ _))

def registerReleasedVirtualRange (pool : List ReleasedVirtualRange)
    (address length : UInt64) : List ReleasedVirtualRange :=
  if IgnoresRelease address length then pool
  else
    let merged := mergeReleased address (address + length) pool
    merged.1 ++ [⟨merged.2.1, merged.2.2 - merged.2.1⟩]

def Fits (length alignment : UInt64) (range : ReleasedVirtualRange) : Prop :=
  ¬ (alignUp range.address alignment ≥ range.rangeEnd ∨
    length > range.rangeEnd - alignUp range.address alignment)

instance (length alignment : UInt64) (range : ReleasedVirtualRange) :
    Decidable (Fits length alignment range) :=
  inferInstanceAs (Decidable (¬ _))

def leftover (range : ReleasedVirtualRange) (aligned length : UInt64) :
    List ReleasedVirtualRange :=
  (if aligned > range.address then [⟨range.address, aligned - range.address⟩]
    else []) ++
    if aligned + length < range.rangeEnd then
      [⟨aligned + length, range.rangeEnd - (aligned + length)⟩]
    else []

def takeFrom (length alignment : UInt64) (passed : List ReleasedVirtualRange) :
    List ReleasedVirtualRange → Option (UInt64 × List ReleasedVirtualRange)
  | [] => none
  | range :: rest =>
      if Fits length alignment range then
        let aligned := alignUp range.address alignment
        some (aligned, passed ++ rest ++ leftover range aligned length)
      else takeFrom length alignment (passed ++ [range]) rest

def tryTakeReleasedVirtualRange (pool : List ReleasedVirtualRange)
    (length alignment : UInt64) : Option (UInt64 × List ReleasedVirtualRange) :=
  takeFrom length alignment [] pool

/-! ## Pools as sets of addresses -/

def ReleasedVirtualRange.extent (range : ReleasedVirtualRange) : Extent :=
  ⟨range.address.toNat, range.length.toNat⟩

def Holds (pool : List ReleasedVirtualRange) (point : ℕ) : Prop :=
  ∃ range ∈ pool, range.extent.Contains point

/-- Nonempty ranges below the last address that neither overlap nor touch. -/
structure WellFormed (pool : List ReleasedVirtualRange) : Prop where
  nonempty : ∀ range ∈ pool, 0 < range.extent.length
  bounded : ∀ range ∈ pool, range.extent.start + range.extent.length < 2 ^ 64
  apart : (pool.map ReleasedVirtualRange.extent).Pairwise Extent.Apart

theorem holds_append (first second : List ReleasedVirtualRange) (point : ℕ) :
    Holds (first ++ second) point ↔ Holds first point ∨ Holds second point := by
  simp [Holds, or_and_right, exists_or]

theorem holds_cons (range : ReleasedVirtualRange) (rest : List ReleasedVirtualRange) (point : ℕ) :
    Holds (range :: rest) point ↔ range.extent.Contains point ∨ Holds rest point := by
  simp [Holds]

variable {range : ReleasedVirtualRange}

theorem toNat_rangeEnd (bounded : range.extent.start + range.extent.length < 2 ^ 64) :
    range.rangeEnd.toNat = range.extent.start + range.extent.length :=
  toNat_add_of_lt bounded

/-! ## Releases -/

/-- A word-sized range between two words. -/
def between (start end_ : UInt64) : Extent :=
  ⟨start.toNat, end_.toNat - start.toNat⟩

theorem WellFormed.tail
    {rest : List ReleasedVirtualRange} (wellFormed : WellFormed (range :: rest)) :
    WellFormed rest where
  nonempty := (List.forall_mem_cons.mp wellFormed.nonempty).2
  bounded := (List.forall_mem_cons.mp wellFormed.bounded).2
  apart := (List.pairwise_cons.mp wellFormed.apart).2

variable {pool : List ReleasedVirtualRange}

theorem WellFormed.sublist {smaller : List ReleasedVirtualRange}
    (wellFormed : WellFormed pool) (isSublist : smaller.Sublist pool) :
    WellFormed smaller where
  nonempty range member := wellFormed.nonempty range (isSublist.subset member)
  bounded range member := wellFormed.bounded range (isSublist.subset member)
  apart := wellFormed.apart.sublist (isSublist.map _)

theorem WellFormed.append {first second : List ReleasedVirtualRange}
    (firstFormed : WellFormed first) (secondFormed : WellFormed second)
    (across : ∀ one ∈ first, ∀ other ∈ second, one.extent.Apart other.extent) :
    WellFormed (first ++ second) where
  nonempty range member := (List.mem_append.mp member).elim
    (firstFormed.nonempty range) (secondFormed.nonempty range)
  bounded range member := (List.mem_append.mp member).elim
    (firstFormed.bounded range) (secondFormed.bounded range)
  apart := by
    rw [List.map_append, List.pairwise_append]
    refine ⟨firstFormed.apart, secondFormed.apart, ?_⟩
    intro extent member other otherMem
    obtain ⟨one, oneMem, rfl⟩ := List.mem_map.mp member
    obtain ⟨another, anotherMem, rfl⟩ := List.mem_map.mp otherMem
    exact across one oneMem another anotherMem

/-- At most one range, from one word up to another. -/
theorem piece_spec (start end_ : UInt64) :
    let pieces := if start < end_ then
      [ReleasedVirtualRange.mk start (end_ - start)] else []
    WellFormed pieces ∧ (∀ piece ∈ pieces, piece.extent = between start end_) ∧
      ∀ point, Holds pieces point ↔ start.toNat ≤ point ∧ point < end_.toNat := by
  simp only
  split
  · rename_i below
    have belowNat := UInt64.lt_iff_toNat_lt.mp below
    have isExtent : (ReleasedVirtualRange.mk start (end_ - start)).extent =
        between start end_ := by
      simp only [ReleasedVirtualRange.extent, between]
      rw [UInt64.toNat_sub_of_le _ _ below.le]
    have endBound := end_.toNat_lt
    refine ⟨⟨?_, ?_, by simp⟩, by simp [isExtent], ?_⟩
    · simp only [List.mem_singleton, forall_eq, isExtent, between]
      omega
    · simp only [List.mem_singleton, forall_eq, isExtent, between]
      omega
    · intro point
      simp only [Holds, List.mem_singleton, exists_eq_left, isExtent, between, Extent.Contains]
      omega
  · rename_i notBelow
    have aboveNat := UInt64.le_iff_toNat_le.mp (not_lt.mp notBelow)
    refine ⟨⟨by simp, by simp, by simp⟩, by simp, ?_⟩
    intro point
    simp only [Holds, List.not_mem_nil, false_and, exists_false, false_iff]
    omega

variable {start end_ : UInt64}

theorem passes_iff_apart (ordered : start < end_)
    (bounded : range.extent.start + range.extent.length < 2 ^ 64) :
    (end_ < range.address ∨ range.rangeEnd < start) ↔ (between start end_).Apart range.extent := by
  have below := UInt64.lt_iff_toNat_lt.mp ordered
  rw [UInt64.lt_iff_toNat_lt, UInt64.lt_iff_toNat_lt, toNat_rangeEnd bounded]
  simp only [between, Extent.Apart, ReleasedVirtualRange.extent]
  rw [Nat.add_sub_of_le below.le]

theorem between_merged (ordered : start < end_)
    (bounded : range.extent.start + range.extent.length < 2 ^ 64) :
    between (min start range.address) (max end_ range.rangeEnd) =
      (between start end_).hull range.extent := by
  have below := UInt64.lt_iff_toNat_lt.mp ordered
  simp only [between, Extent.hull, toNat_min, toNat_max,
    toNat_rangeEnd bounded, Nat.add_sub_of_le below.le]
  rfl

theorem mergeReleased_spec (ordered : start < end_) (wellFormed : WellFormed pool) :
    let merged := mergeReleased start end_ pool
    merged.2.1 < merged.2.2 ∧ merged.1.Sublist pool ∧ (∀ range ∈ merged.1,
        range.extent.Apart (between merged.2.1 merged.2.2)) ∧
      ∀ point, (between merged.2.1 merged.2.2).Contains point ∨ Holds merged.1 point ↔
        (between start end_).Contains point ∨ Holds pool point := by
  induction pool with
  | nil => exact ⟨ordered, List.Sublist.refl _, by simp [mergeReleased],
      fun point => Iff.rfl⟩
  | cons range rest ih =>
    obtain ⟨restOrdered, isSublist, keptApart, sameSet⟩ := ih wellFormed.tail
    have bounded := wellFormed.bounded range (by simp)
    have restApart : ∀ other ∈ rest, range.extent.Apart other.extent := by
      intro other member
      exact (List.pairwise_cons.mp wellFormed.apart).1 _ (List.mem_map_of_mem member)
    have unfolded : mergeReleased start end_ (range :: rest) =
        (let merged := mergeReleased start end_ rest
        if merged.2.2 < range.address ∨ range.rangeEnd < merged.2.1 then
          (range :: merged.1, merged.2.1, merged.2.2)
        else (merged.1, min merged.2.1 range.address, max merged.2.2 range.rangeEnd)) := rfl
    rw [unfolded]
    generalize mergeReleased start end_ rest = merged at *
    obtain ⟨kept, mergedStart, mergedEnd⟩ := merged
    simp only at restOrdered isSublist keptApart sameSet ⊢
    split
    · rename_i passes
      rw [passes_iff_apart restOrdered bounded] at passes
      refine ⟨restOrdered, isSublist.cons_cons range, ?_, ?_⟩
      · intro other member
        rcases List.mem_cons.mp member with rfl | inKept
        · exact passes.symm
        · exact keptApart other inKept
      · intro point
        have atPoint := sameSet point
        rw [holds_cons, holds_cons]
        tauto
    · rename_i touches
      rw [passes_iff_apart restOrdered bounded] at touches
      rw [between_merged restOrdered bounded]
      refine ⟨?_, isSublist.cons range, ?_, ?_⟩
      · have below := UInt64.lt_iff_toNat_lt.mp restOrdered
        rw [UInt64.lt_iff_toNat_lt, toNat_min, toNat_max]
        omega
      · intro other member
        exact Extent.Apart.hull touches (keptApart other member)
          (restApart other (isSublist.subset member)).symm
      · intro point
        have atPoint := sameSet point
        rw [Extent.contains_hull_iff touches, holds_cons]
        tauto

variable {address length : UInt64}

theorem not_ignoresRelease (accepted : ¬ IgnoresRelease address length) :
    0 < length.toNat ∧ address.toNat + length.toNat < 2 ^ 64 := by
  simp only [IgnoresRelease, not_or, UInt64.lt_iff_toNat_lt, Nat.not_lt] at accepted
  obtain ⟨_, nonempty, room⟩ := accepted
  have positive := toNat_pos nonempty
  have bound := address.toNat_lt
  rw [UInt64.toNat_sub_of_le _ _ (by
    rw [UInt64.le_iff_toNat_le]
    have top : (0xFFFFFFFFFFFFFFFF : UInt64).toNat = 2 ^ 64 - 1 := rfl
    omega)] at room
  have top : (0xFFFFFFFFFFFFFFFF : UInt64).toNat = 2 ^ 64 - 1 := rfl
  omega

theorem register_spec (wellFormed : WellFormed pool) (accepted : ¬ IgnoresRelease address length) :
    WellFormed (registerReleasedVirtualRange pool address length) ∧
      ∀ point, Holds (registerReleasedVirtualRange pool address length) point ↔ Holds pool point ∨
          Extent.Contains ⟨address.toNat, length.toNat⟩ point := by
  obtain ⟨positive, bounded⟩ := not_ignoresRelease accepted
  have endNat := toNat_add_of_lt bounded
  have ordered : address < address + length := by
    rw [UInt64.lt_iff_toNat_lt, endNat]
    omega
  obtain ⟨mergedOrdered, isSublist, keptApart, sameSet⟩ :=
    mergeReleased_spec ordered wellFormed
  have isNew : between address (address + length) = ⟨address.toNat, length.toNat⟩ := by
    simp only [between, endNat, Extent.mk.injEq, true_and]
    omega
  rw [isNew] at sameSet
  unfold registerReleasedVirtualRange
  rw [if_neg accepted]
  generalize mergeReleased address (address + length) pool = merged at *
  obtain ⟨kept, mergedStart, mergedEnd⟩ := merged
  simp only at mergedOrdered isSublist keptApart sameSet ⊢
  have below := UInt64.lt_iff_toNat_lt.mp mergedOrdered
  have keptFormed := wellFormed.sublist isSublist
  have pieces := piece_spec mergedStart mergedEnd
  simp only [mergedOrdered, if_true] at pieces
  obtain ⟨pieceFormed, isMerged, pieceHolds⟩ := pieces
  constructor
  · apply keptFormed.append pieceFormed
    intro one oneMem other otherMem
    rw [isMerged other otherMem]
    exact keptApart one oneMem
  · intro point
    have inMerged : (between mergedStart mergedEnd).Contains point ↔
        mergedStart.toNat ≤ point ∧ point < mergedEnd.toNat := by
      simp only [between, Extent.Contains]
      omega
    rw [holds_append, pieceHolds, ← inMerged, or_comm, sameSet, or_comm]

/-! ## Takes -/

variable {alignment : UInt64}

theorem le_alignUp {value : UInt64} (noWrap : value.toNat + (alignment.toNat - 1) < 2 ^ 64) :
    value ≤ alignUp value alignment := by
  unfold alignUp
  split
  · exact le_refl value
  · rename_i large
    apply wrappingRoundUp_of_lt _ noWrap
    rintro rfl
    exact large (by decide)

theorem dvd_alignUp (value : UInt64) (power : IsPowerOfTwo alignment) :
    alignment.toNat ∣ (alignUp value alignment).toNat := by
  unfold alignUp
  split
  · next small =>
    have isOne : alignment.toNat = 1 := by
      have positive := toNat_pos power.1
      rw [UInt64.le_iff_toNat_le, UInt64.toNat_one] at small
      omega
    rw [isOne]
    exact one_dvd _
  · exact dvd_roundDown _ power

theorem takeFrom_eq {passed : List ReleasedVirtualRange} {after : List ReleasedVirtualRange}
    (takes : takeFrom length alignment passed pool = some (address, after)) :
    ∃ front range rest, pool = front ++ range :: rest ∧
      pool.find? (Fits length alignment ·) = some range ∧
      Fits length alignment range ∧
      address = alignUp range.address alignment ∧
      after = passed ++ front ++ rest ++ leftover range address length := by
  induction pool generalizing passed with
  | nil => cases takes
  | cons range rest ih =>
    rw [takeFrom] at takes
    split at takes
    · rename_i fits
      simp only [Option.some.injEq, Prod.mk.injEq] at takes
      obtain ⟨rfl, rfl⟩ := takes
      exact ⟨[], range, rest, rfl, by simp [fits], fits, rfl, by simp⟩
    · rename_i noRoom
      obtain ⟨front, found, behind, rfl, isFound, fits, isAddress, isAfter⟩ :=
        ih takes
      exact ⟨range :: front, found, behind, rfl,
        by rw [List.find?_cons_of_neg (by simpa using noRoom), isFound], fits,
        isAddress, by simp [isAfter]⟩

theorem room_of_fits (fits : Fits length alignment range)
    (bounded : range.extent.start + range.extent.length < 2 ^ 64) :
    (alignUp range.address alignment).toNat + length.toNat ≤
      range.extent.start + range.extent.length := by
  unfold Fits at fits
  rw [not_or, ge_iff_le, not_le, gt_iff_lt, not_lt] at fits
  obtain ⟨below, room⟩ := fits
  rw [UInt64.le_iff_toNat_le, UInt64.toNat_sub_of_le _ _ below.le, toNat_rangeEnd bounded] at room
  rw [UInt64.lt_iff_toNat_lt, toNat_rangeEnd bounded] at below
  omega

theorem leftover_spec {aligned : UInt64}
    (bounded : range.extent.start + range.extent.length < 2 ^ 64)
    (above : range.address ≤ aligned) (positive : 0 < length.toNat)
    (room : aligned.toNat + length.toNat ≤ range.extent.start + range.extent.length) :
    WellFormed (leftover range aligned length) ∧ (∀ piece ∈ leftover range aligned length,
        range.extent.start ≤ piece.extent.start ∧ piece.extent.start + piece.extent.length ≤
            range.extent.start + range.extent.length) ∧
      ∀ point, Holds (leftover range aligned length) point ↔ range.extent.Contains point ∧
          ¬ Extent.Contains ⟨aligned.toNat, length.toNat⟩ point := by
  have endNat := toNat_rangeEnd bounded
  have pieceEnd : (aligned + length).toNat = aligned.toNat + length.toNat :=
    toNat_add_of_lt (by omega)
  have startsBelow := UInt64.le_iff_toNat_le.mp above
  have isStart : range.extent.start = range.address.toNat := rfl
  obtain ⟨headFormed, headExtent, headHolds⟩ := piece_spec range.address aligned
  obtain ⟨tailFormed, tailExtent, tailHolds⟩ :=
    piece_spec (aligned + length) range.rangeEnd
  refine ⟨headFormed.append tailFormed ?_, ?_, ?_⟩
  · intro head headMem tail tailMem
    rw [headExtent head headMem, tailExtent tail tailMem]
    simp only [Extent.Apart, between, pieceEnd]
    omega
  · intro piece member
    rcases List.mem_append.mp member with isHead | isTail
    · rw [headExtent piece isHead]
      simp only [between]
      omega
    · rw [tailExtent piece isTail]
      simp only [between, pieceEnd, endNat]
      have notEmpty := tailFormed.nonempty piece isTail
      rw [tailExtent piece isTail] at notEmpty
      simp only [between, pieceEnd, endNat] at notEmpty
      omega
  · intro point
    unfold leftover
    rw [holds_append, headHolds, tailHolds, pieceEnd, endNat]
    simp only [Extent.Contains]
    omega

theorem take_spec {after : List ReleasedVirtualRange} (wellFormed : WellFormed pool)
    (positive : 0 < length.toNat)
    (noWrap : ∀ range, pool.find? (Fits length alignment ·) = some range →
      range.address.toNat + (alignment.toNat - 1) < 2 ^ 64)
    (takes : tryTakeReleasedVirtualRange pool length alignment = some (address, after)) :
    WellFormed after ∧ (∀ point, Extent.Contains ⟨address.toNat, length.toNat⟩ point →
        Holds pool point) ∧
      ∀ point, Holds after point ↔ Holds pool point ∧
          ¬ Extent.Contains ⟨address.toNat, length.toNat⟩ point := by
  obtain ⟨front, range, rest, rfl, isFound, fits, isAddress, isAfter⟩ :=
    takeFrom_eq takes
  have bounded := wellFormed.bounded range (by simp)
  have above : range.address ≤ address := by
    rw [isAddress]
    exact le_alignUp (noWrap range isFound)
  have room := room_of_fits fits bounded
  rw [← isAddress] at room
  obtain ⟨pieceFormed, pieceWithin, pieceHolds⟩ :=
    leftover_spec bounded above positive room
  have startsBelow := UInt64.le_iff_toNat_le.mp above
  have isStart : range.extent.start = range.address.toNat := rfl
  have othersFormed : WellFormed (front ++ rest) :=
    wellFormed.sublist (List.Sublist.append_left (List.sublist_cons_self _ _) _)
  have othersApart : ∀ other ∈ front ++ rest, other.extent.Apart range.extent := by
    have pairwise := wellFormed.apart
    rw [List.map_append, List.map_cons, List.pairwise_append, List.pairwise_cons] at pairwise
    obtain ⟨_, ⟨restApart, _⟩, frontApart⟩ := pairwise
    intro other member
    rcases List.mem_append.mp member with inFront | inRest
    · exact frontApart _ (List.mem_map_of_mem inFront) _ (by simp)
    · exact (restApart _ (List.mem_map_of_mem inRest)).symm
  have inside : ∀ point, Extent.Contains ⟨address.toNat, length.toNat⟩ point →
      range.extent.Contains point := by
    intro point
    simp only [Extent.Contains]
    omega
  rw [List.nil_append] at isAfter
  subst isAfter
  refine ⟨othersFormed.append pieceFormed ?_, ?_, ?_⟩
  · intro other otherMem piece pieceMem
    obtain ⟨startsInside, endsInside⟩ := pieceWithin piece pieceMem
    exact ((othersApart other otherMem).symm.of_within startsInside endsInside).symm
  · intro point inPiece
    exact ⟨range, by simp, inside point inPiece⟩
  · intro point
    have notOthers : Extent.Contains ⟨address.toNat, length.toNat⟩ point →
        ¬ Holds (front ++ rest) point := by
      rintro inPiece ⟨other, otherMem, inOther⟩
      have inRange := inside point inPiece
      have apart := othersApart other otherMem
      simp only [Extent.Apart, Extent.Contains] at apart inOther inRange
      omega
    rw [holds_append, pieceHolds, holds_append, holds_append, holds_cons]
    rw [holds_append] at notOthers
    tauto

/-! ## Runs -/

/-- The pool beside the addresses released and not taken again. -/
structure State where
  pool : List ReleasedVirtualRange
  released : Set ℕ

inductive Action
  | release (address length : UInt64)
  | take (length alignment : UInt64)

def State.after (state : State) : Action → State
  | .release address length =>
      ⟨registerReleasedVirtualRange state.pool address length,
        {point | point ∈ state.released ∨
          Extent.Contains ⟨address.toNat, length.toNat⟩ point}⟩
  | .take length alignment =>
      match tryTakeReleasedVirtualRange state.pool length alignment with
      | none => state
      | some (address, pool) =>
          ⟨pool, {point | point ∈ state.released ∧
            ¬ Extent.Contains ⟨address.toNat, length.toNat⟩ point}⟩

def initial (state : State) : Prop :=
  state = ⟨[], ∅⟩

def step (before : State) (action : Action) (after : State) : Prop :=
  after = before.after action

/-- A release is one that unmapping lets through; a take asks for something at an
alignment of the usual kind, and rounding up the first fitting range does not wrap. -/
def Sound (state : State) : Action → Prop
  | .release address length => IgnoresRelease address length → length = 0
  | .take length alignment =>
      0 < length ∧ (alignment = 0 ∨ IsPowerOfTwo alignment) ∧
        ∀ range, state.pool.find? (Fits length alignment ·) = some range →
          range.address.toNat + (alignment.toNat - 1) < 2 ^ 64

structure Tracked (state : State) : Prop where
  wellFormed : WellFormed state.pool
  holds_iff : ∀ point, Holds state.pool point ↔ point ∈ state.released

theorem Tracked.after {state : State} (tracked : Tracked state) {action : Action}
    (sound : Sound state action) : Tracked (state.after action) := by
  cases action with
  | release address length =>
    by_cases ignored : IgnoresRelease address length
    · have empty : length = 0 := sound ignored
      have samePool : registerReleasedVirtualRange state.pool address length =
          state.pool := if_pos ignored
      rw [State.after, samePool]
      refine ⟨tracked.wellFormed, fun point => ?_⟩
      have noPoint : ¬ Extent.Contains ⟨address.toNat, length.toNat⟩ point := by
        simp only [empty, Extent.Contains, UInt64.toNat_zero]
        omega
      simp only [Set.mem_ofPred_eq, noPoint, or_false]
      exact tracked.holds_iff point
    · obtain ⟨wellFormed, holds⟩ := register_spec tracked.wellFormed ignored
      refine ⟨wellFormed, fun point => ?_⟩
      rw [State.after]
      simp only [Set.mem_ofPred_eq]
      rw [holds, tracked.holds_iff]
  | take length alignment =>
    obtain ⟨positive, -, fitting⟩ := sound
    rw [State.after]
    split
    · exact tracked
    · rename_i address pool takes
      obtain ⟨wellFormed, _, holds⟩ := take_spec tracked.wellFormed
        (UInt64.lt_iff_toNat_lt.mp positive) fitting takes
      refine ⟨wellFormed, fun point => ?_⟩
      simp only [Set.mem_ofPred_eq]
      rw [holds, tracked.holds_iff]

/-- Along every run of sound steps the pool is a set of separate ranges that
holds exactly the released addresses, and a sound take is aligned and inside. -/
theorem pool_tracks_released {state : State}
    (reachable : Reachable initial (onlyWhen Sound step) state) :
    WellFormed state.pool ∧ (∀ point, Holds state.pool point ↔ point ∈ state.released) ∧
      ∀ length alignment, Sound state (.take length alignment) → ∀ address after,
          tryTakeReleasedVirtualRange state.pool length alignment = some (address, after) →
          (alignment = 0 ∨ alignment.toNat ∣ address.toNat) ∧
            ∀ point, Extent.Contains ⟨address.toNat, length.toNat⟩ point →
              Holds state.pool point := by
  have tracked : Tracked state := by
    apply reachable.invariant_onlyWhen
    · rintro start rfl
      exact ⟨⟨by simp, by simp, by simp⟩, by simp [Holds]⟩
    · rintro before action after tracked sound rfl
      exact tracked.after sound
  refine ⟨tracked.wellFormed, tracked.holds_iff, ?_⟩
  rintro length alignment ⟨positive, usual, fitting⟩ address after takes
  obtain ⟨_, range, _, _, _, _, isAddress, _⟩ := takeFrom_eq takes
  constructor
  · rw [isAddress]
    exact usual.imp_right fun power => dvd_alignUp range.address power
  · exact (take_spec tracked.wellFormed (UInt64.lt_iff_toNat_lt.mp positive) fitting takes).2.1

/-- Of `[0x11000, 0x17000)` a page is taken at an alignment of four pages. -/
theorem pool_tracks_release_and_take :
    let released := State.after ⟨[], ∅⟩ (.release 0x11000 0x6000)
    let taken := released.after (.take 0x1000 0x4000)
    taken.pool = [⟨0x11000, 0x3000⟩, ⟨0x15000, 0x2000⟩] ∧
      (0x4000 : UInt64).toNat ∣ (0x14000 : UInt64).toNat ∧
      Holds released.pool 0x14000 ∧
      0x14000 ∉ taken.released ∧ 0x15000 ∈ taken.released := by
  intro released taken
  have firstSound : Sound ⟨[], ∅⟩ (.release 0x11000 0x6000) :=
    fun ignored => absurd ignored (by decide)
  have isReleased : Reachable initial (onlyWhen Sound step) released :=
    .next (.start rfl) ⟨firstSound, rfl⟩
  have onePiece : released.pool = [⟨0x11000, 0x6000⟩] := by decide
  have takeSound : Sound released (.take 0x1000 0x4000) := by
    refine ⟨by decide, .inr (by decide), ?_⟩
    rw [onePiece]
    intro range isFound
    cases List.mem_singleton.mp (List.mem_of_find?_eq_some isFound)
    decide
  have isTaken : Reachable initial (onlyWhen Sound step) taken :=
    .next isReleased ⟨takeSound, rfl⟩
  have takes : tryTakeReleasedVirtualRange released.pool 0x1000 0x4000 =
      some (0x14000, [⟨0x11000, 0x3000⟩, ⟨0x15000, 0x2000⟩]) := by decide
  obtain ⟨aligned, inside⟩ :=
    (pool_tracks_released isReleased).2.2 _ _ takeSound _ _ takes
  have isPool : taken.pool = [⟨0x11000, 0x3000⟩, ⟨0x15000, 0x2000⟩] := by decide
  have holds := (pool_tracks_released isTaken).2.1
  simp only [isPool, Holds, ReleasedVirtualRange.extent, Extent.Contains,
    List.exists_mem_cons_iff] at holds
  refine ⟨isPool, aligned.resolve_left (by decide), inside _ (by decide), ?_, ?_⟩
  · rw [← holds]
    decide
  · rw [← holds]
    decide

/-- After a release of `[0x10000, 0x11000)`, a take with the alignment 2^64 - 1
hands out `[0, 0x1000)`. -/
theorem wrapped_take_leaves_pool : ¬ ∀ state, Reachable initial step state →
      ∀ length alignment address after, tryTakeReleasedVirtualRange state.pool length alignment =
          some (address, after) →
        ∀ point, Extent.Contains ⟨address.toNat, length.toNat⟩ point → Holds state.pool point := by
  intro always
  have reachable : Reachable initial step (State.after ⟨[], ∅⟩ (.release 0x10000 0x1000)) :=
    .next (.start rfl) rfl
  have inside := always _ reachable 0x1000 0xFFFFFFFFFFFFFFFF 0
    [⟨0x1000, 0x10000⟩] (by decide) 0 (by decide)
  revert inside
  have isPool : (State.after ⟨[], ∅⟩ (.release 0x10000 0x1000)).pool =
      [⟨0x10000, 0x1000⟩] := by decide
  rw [isPool]
  simp [Holds, ReleasedVirtualRange.extent, Extent.Contains]

end ReleasedVirtualRanges
end SharpEmu
