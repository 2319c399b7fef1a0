import SharpEmu.GuestImageWriteTracker
import SharpEmu.LinkedIntervals
import SharpEmu.TransitionRuns

/-!
# Histories of the write tracker

Image owners track, re-track and consume ranges while guest stores fault and managed
code announces its writes.  A write to an armed range is seen by its owner until the
owner consumes it, through the dirty mark or the write generation.  A fault dirties
exactly the ranges that are linked to the faulting page by pages they share.
-/

namespace SharpEmu.HLE

namespace Tracker

/-- Forget a range; one that is tracked there later starts afresh. -/
def untrack (tracker : Tracker) (address : UInt64) : Tracker :=
  match tracker.lookup address with
  | none => tracker
  | some range =>
      let disarmed := tracker.disarmLocked range
      { disarmed with
        ranges := tracker.ranges.filter fun other => other.address ≠ address
        isDirty := Function.update disarmed.isDirty address false
        writeGeneration := Function.update disarmed.writeGeneration address 0 }

def snapshotBounds (ranges : List TrackedRange) : UInt64 × UInt64 :=
  ranges.foldl (fun bounds range =>
    (min bounds.1 range.first, max bounds.2 range.last)) (0xffffffffffffffff, 0)

def visitPages (finish : UInt64) (unprotects : UInt64 → Bool) : ℕ → UInt64 → Tracker → Tracker
  | 0, _, tracker => tracker
  | pages + 1, candidate, tracker =>
      if candidate < finish then
        let visited := (tracker.tryHandleWriteFault candidate (unprotects candidate)).2
        let nextPage := (candidate &&& ~~~0xFFF) + 0x1000
        if nextPage ≤ candidate then visited
        else visitPages finish unprotects pages nextPage visited
      else tracker

def managedEnd (address byteCount : UInt64) : UInt64 :=
  if address > 0xFFFFFFFFFFFFFFFF - byteCount then 0xFFFFFFFFFFFFFFFF
  else address + byteCount

def notifyManagedWrite (tracker : Tracker) (address byteCount : UInt64)
    (unprotects : UInt64 → Bool) : Tracker :=
  if address = 0 ∨ byteCount = 0 then tracker
  else
    let finish := managedEnd address byteCount
    let bounds := snapshotBounds tracker.ranges
    if tracker.ranges.length = 0 ∨ finish ≤ bounds.1 ∨ bounds.2 ≤ address then
      tracker
    else
      visitPages finish unprotects ((finish.toNat - address.toNat) / 0x1000 + 2) address tracker

end Tracker

inductive TrackerAction
  | track (address byteCount : UInt64) (protects : Bool)
  | untrack (address : UInt64)
  | consumeDirty (address : UInt64)
  | rearm (address : UInt64) (protects : Bool)
  | writeFault (address : UInt64) (unprotects : Bool)
  | managedWrite (address byteCount : UInt64) (unprotects : UInt64 → Bool)

namespace Tracker

def perform (tracker : Tracker) : TrackerAction → Tracker
  | .track address byteCount protects => tracker.track address byteCount protects
  | .untrack address => tracker.untrack address
  | .consumeDirty address => (tracker.consumeDirty address).2
  | .rearm address protects => tracker.rearm address protects
  | .writeFault address unprotects =>
      (tracker.tryHandleWriteFault address unprotects).2
  | .managedWrite address byteCount unprotects =>
      tracker.notifyManagedWrite address byteCount unprotects

def Step (before : Tracker) (action : TrackerAction) (after : Tracker) : Prop :=
  after = before.perform action

end Tracker

namespace TrackedRange

def span (range : TrackedRange) : UInt64 × UInt64 :=
  (range.first, range.last)

theorem dvd_first (range : TrackedRange) : 0x1000 ∣ range.first.toNat := by
  rw [first_eq]
  exact Word64.dvd_roundDown _ (by decide)

theorem Fits.proper {range : TrackedRange} (fits : range.Fits)
    (nonempty : range.byteCount ≠ 0) : range.span.1 < range.span.2 := by
  have positive := Word64.toNat_pos nonempty
  have contained : range.contains range.address = true := by
    unfold contains
    rw [Bool.and_eq_true, decide_eq_true_eq, decide_eq_true_eq]
    refine ⟨UInt64.le_refl _, ?_⟩
    unfold Fits at fits
    rw [UInt64.lt_iff_toNat_lt, Word64.toNat_add_of_lt (by omega)]
    omega
  obtain ⟨above, below⟩ := pages_of_contains fits contained
  exact UInt64.lt_of_le_of_lt above below

end TrackedRange

namespace Tracker

variable {tracker : Tracker} {address : UInt64} {range : TrackedRange}

/-! ## The group of a fault -/

theorem faultWindow_eq (ranges : List TrackedRange) (address : UInt64) :
    faultWindow ranges address =
      Interval.around TrackedRange.span ranges address (0xffffffffffffffff, 0) := by
  unfold faultWindow Interval.around
  congr

variable {window : UInt64 × UInt64}

theorem overlaps_iff : overlaps window range = true ↔ Interval.Meets window range.span := by
  unfold overlaps Interval.Meets
  rw [Bool.and_eq_true, decide_eq_true_eq, decide_eq_true_eq]
  rfl

theorem expandWindow_eq (ranges : List TrackedRange) (turns : ℕ) (window : UInt64 × UInt64) :
    expandWindow ranges turns window = Interval.settle TrackedRange.span ranges turns window := by
  induction turns generalizing window with
  | zero => rfl
  | succ turns ih =>
    have same : (ranges.foldl (fun window range =>
        if overlaps window range then
          (min window.1 range.first, max window.2 range.last)
        else window) window) =
        Interval.widen TrackedRange.span ranges window := by
      unfold Interval.widen
      congr 1
      funext window range
      simp only [overlaps_iff]
      congr
    rw [expandWindow, Interval.settle]
    simp only [same, ih]

theorem widen_faultGroup (tracker : Tracker) (address : UInt64) :
    Interval.widen TrackedRange.span tracker.ranges (tracker.faultGroup address) =
      tracker.faultGroup address := by
  unfold faultGroup
  rw [expandWindow_eq]
  exact Interval.widen_settle ((Interval.outside_le_length _ _).trans (Nat.le_succ _))

/-- The tracked ranges have one range an address, and all have pages. -/
structure Registered (tracker : Tracker) : Prop where
  distinct : (tracker.ranges.map TrackedRange.address).Nodup
  fits : ∀ range ∈ tracker.ranges, range.Fits
  nonempty : ∀ range ∈ tracker.ranges, range.byteCount ≠ 0
  located : ∀ range ∈ tracker.ranges, range.address ≠ 0

theorem Registered.proper (registered : tracker.Registered) :
    ∀ range ∈ tracker.ranges, range.span.1 < range.span.2 :=
  fun range member =>
    (registered.fits range member).proper (registered.nonempty range member)

theorem Registered.eq_of_address (registered : tracker.Registered)
    {other : TrackedRange} (member : range ∈ tracker.ranges)
    (otherMember : other ∈ tracker.ranges) (same : range.address = other.address) :
    range = other :=
  List.inj_on_of_nodup_map registered.distinct member otherMember same

abbrev Linked (tracker : Tracker) (address : UInt64) (range : TrackedRange) : Prop :=
  Interval.Linked TrackedRange.span tracker.ranges address range

theorem le_last_address (other : UInt64) : other ≤ 0xffffffffffffffff :=
  UInt64.le_iff_toNat_le.mpr (Nat.le_of_lt_succ other.toNat_lt)

theorem first_address_le (other : UInt64) : 0 ≤ other :=
  UInt64.le_iff_toNat_le.mpr (Nat.zero_le _)

theorem faultWindow_spec (some : ∃ range ∈ tracker.ranges, Interval.Holds range.span address) :
    Interval.Holds (faultWindow tracker.ranges address) address ∧
      ∀ range ∈ tracker.ranges, Interval.Holds range.span address →
        Interval.Within range.span (faultWindow tracker.ranges address) := by
  rw [faultWindow_eq]
  have spec : Interval.Holds (Interval.around TrackedRange.span tracker.ranges address
      (0xffffffffffffffff, 0)) _ ∧ _ ∧ _ :=
    Interval.around_of_some le_last_address first_address_le (fun _ member => member) some
  exact ⟨spec.1, spec.2.2⟩

theorem faultWindow_fst_iff (tracker : Tracker) (address : UInt64) :
    (faultWindow tracker.ranges address).1 = 0xffffffffffffffff ↔
      ¬ ∃ range ∈ tracker.ranges, Interval.Holds range.span address := by
  constructor
  · intro isEmpty some
    obtain ⟨above, below⟩ := (faultWindow_spec some).1
    rw [isEmpty, UInt64.le_iff_toNat_le] at above
    rw [UInt64.lt_iff_toNat_lt] at below
    have bound := (faultWindow tracker.ranges address).2.toNat_lt
    change 2 ^ 64 - 1 ≤ address.toNat at above
    omega
  · intro none
    rw [faultWindow_eq, Interval.around_of_none fun range member holds =>
      none ⟨range, member, holds⟩]

theorem isInGroup_of_meets (member : range ∈ tracker.ranges)
    (meets : Interval.Meets window range.span) :
    tracker.isInGroup window range.address = true := by
  unfold isInGroup
  rw [List.any_eq_true]
  exact ⟨range, member, by rw [overlaps_iff.mpr meets]; simp⟩

theorem isInGroup_faultGroup_iff (registered : tracker.Registered) (member : range ∈ tracker.ranges)
    (some : ∃ range ∈ tracker.ranges, Interval.Holds range.span address) :
    tracker.isInGroup (tracker.faultGroup address) range.address = true ↔
      tracker.Linked address range := by
  have meetsIff : Interval.Meets (tracker.faultGroup address) range.span ↔
      tracker.Linked address range := by
    unfold faultGroup
    rw [expandWindow_eq, faultWindow_eq]
    exact Interval.meets_settle_around_iff registered.proper le_last_address
      first_address_le (Nat.le_succ _) member some
  rw [← meetsIff]
  constructor
  · intro inGroup
    unfold isInGroup at inGroup
    rw [List.any_eq_true] at inGroup
    obtain ⟨other, otherMember, both⟩ := inGroup
    rw [Bool.and_eq_true, decide_eq_true_eq] at both
    rw [← registered.eq_of_address otherMember member both.1]
    exact overlaps_iff.mp both.2
  · exact isInGroup_of_meets member

theorem isInGroup_of_holds (member : range ∈ tracker.ranges)
    (holds : Interval.Holds range.span address) :
    tracker.isInGroup (tracker.faultGroup address) range.address = true := by
  obtain ⟨inWindow, -⟩ := faultWindow_spec ⟨range, member, holds⟩
  have grown : Interval.Within (faultWindow tracker.ranges address)
      (tracker.faultGroup address) := by
    unfold faultGroup
    rw [expandWindow_eq]
    exact Interval.within_settle _ _ _
  apply isInGroup_of_meets member
  exact ⟨lt_of_le_of_lt holds.1 (lt_of_lt_of_le inWindow.2 grown.2),
    lt_of_le_of_lt grown.1 (lt_of_le_of_lt inWindow.1 holds.2)⟩

/-! ## What a fault changes -/

theorem fault_outcome (tracker : Tracker) (address : UInt64) (unprotects : Bool) :
    (tracker.tryHandleWriteFault address unprotects = (false, tracker)) ∨ (address ≠ 0 ∧
        (∃ range ∈ tracker.ranges, Interval.Holds range.span address) ∧
        (tracker.tryHandleWriteFault address unprotects).1 = true ∧
        ∀ other, (tracker.tryHandleWriteFault address unprotects).2.isArmed other =
              (!tracker.isInGroup (tracker.faultGroup address) other && tracker.isArmed other) ∧
            (tracker.tryHandleWriteFault address unprotects).2.isDirty other =
              (tracker.isInGroup (tracker.faultGroup address) other || tracker.isDirty other) ∧
            (tracker.tryHandleWriteFault address unprotects).2.writeGeneration other =
              if tracker.isInGroup (tracker.faultGroup address) other && tracker.isArmed other then
                tracker.writeGeneration other + 1
              else tracker.writeGeneration other) := by
  unfold tryHandleWriteFault
  split
  · exact .inl rfl
  · rename_i handled
    rw [not_or, faultWindow_fst_iff, not_not] at handled
    dsimp only
    split
    · exact .inl rfl
    · right
      refine ⟨handled.1, handled.2, rfl, fun other => ⟨rfl, rfl, ?_⟩⟩
      split <;> rfl

theorem fault_handled (notNull : address ≠ 0) (member : range ∈ tracker.ranges)
    (holds : Interval.Holds range.span address) :
    (tracker.tryHandleWriteFault address true).1 = true := by
  unfold tryHandleWriteFault
  rw [if_neg (by
    rw [not_or, faultWindow_fst_iff, not_not]
    exact ⟨notNull, range, member, holds⟩)]
  dsimp only
  rw [if_neg (by simp)]

theorem fault_changes_group {unprotects : Bool} (registered : tracker.Registered)
    (handled : (tracker.tryHandleWriteFault address unprotects).1 = true)
    (member : range ∈ tracker.ranges) :
    let after := (tracker.tryHandleWriteFault address unprotects).2
    (tracker.Linked address range →
      after.isDirty range.address = true ∧ after.isArmed range.address = false) ∧
    (¬ tracker.Linked address range → after.isDirty range.address = tracker.isDirty range.address ∧
        after.isArmed range.address = tracker.isArmed range.address ∧
        after.writeGeneration range.address = tracker.writeGeneration range.address) := by
  dsimp only
  rcases fault_outcome tracker address unprotects with
    unhandled | ⟨-, some, -, outcome⟩
  · rw [unhandled] at handled
    cases handled
  · obtain ⟨armed, dirty, generation⟩ := outcome range.address
    rw [armed, dirty, generation, ← isInGroup_faultGroup_iff registered member some]
    constructor
    · intro inGroup
      simp [inGroup]
    · intro notInGroup
      simp [notInGroup]

theorem fault_generation (tracker : Tracker) (address other : UInt64) (unprotects : Bool) :
    let after := (tracker.tryHandleWriteFault address unprotects).2
    (tracker.isDirty other = true → after.isDirty other = true) ∧
      ((after.isArmed other = tracker.isArmed other ∧
          after.writeGeneration other = tracker.writeGeneration other) ∨
        (tracker.isArmed other = true ∧
          after.writeGeneration other = tracker.writeGeneration other + 1)) := by
  dsimp only
  rcases fault_outcome tracker address unprotects with unhandled | ⟨-, -, -, outcome⟩
  · rw [unhandled]
    exact ⟨id, .inl ⟨rfl, rfl⟩⟩
  · obtain ⟨armed, dirty, generation⟩ := outcome other
    rw [armed, dirty, generation]
    cases tracker.isInGroup (tracker.faultGroup address) other <;>
      cases tracker.isArmed other <;> simp

theorem fault_hits (notNull : address ≠ 0) (member : range ∈ tracker.ranges)
    (holds : Interval.Holds range.span address) :
    let after := (tracker.tryHandleWriteFault address true).2
    after.isDirty range.address = true ∧ (tracker.isArmed range.address = true →
        after.writeGeneration range.address = tracker.writeGeneration range.address + 1) := by
  dsimp only
  rcases fault_outcome tracker address true with unhandled | ⟨-, -, -, outcome⟩
  · have handled := fault_handled notNull member holds
    rw [unhandled] at handled
    cases handled
  · obtain ⟨-, dirty, generation⟩ := outcome range.address
    rw [dirty, generation, isInGroup_of_holds member holds]
    simp

/-! ## Managed writes -/

theorem visitPages_generation (finish : UInt64) (unprotects : UInt64 → Bool)
    (pages : ℕ) (candidate : UInt64) (tracker : Tracker) (other : UInt64) :
    let after := visitPages finish unprotects pages candidate tracker
    after.ranges = tracker.ranges ∧ (tracker.isDirty other = true → after.isDirty other = true) ∧
      tracker.writeGeneration other ≤ after.writeGeneration other ∧
      (tracker.isArmed other = false →
        after.writeGeneration other = tracker.writeGeneration other) := by
  dsimp only
  induction pages generalizing candidate tracker with
  | zero => exact ⟨rfl, id, Nat.le_refl _, fun _ => rfl⟩
  | succ pages ih =>
    rw [visitPages]
    split
    · have ranges := fault_ranges tracker candidate (unprotects candidate)
      obtain ⟨dirty, generation⟩ :=
        fault_generation tracker candidate other (unprotects candidate)
      dsimp only
      generalize (tracker.tryHandleWriteFault candidate (unprotects candidate)).2 =
        visited at ranges dirty generation ⊢
      split
      · refine ⟨ranges, dirty, by omega, ?_⟩
        intro unarmed
        rw [unarmed] at generation
        exact generation.resolve_right (fun armed => by cases armed.1) |>.2
      · obtain ⟨laterRanges, laterDirty, grows, keeps⟩ :=
          ih ((candidate &&& ~~~0xFFF) + 0x1000) visited
        refine ⟨laterRanges.trans ranges, fun isDirty => laterDirty (dirty isDirty),
          by omega, ?_⟩
        intro unarmed
        rw [unarmed] at generation
        obtain ⟨stillUnarmed, same⟩ :=
          generation.resolve_right (fun armed => by cases armed.1)
        rw [keeps stillUnarmed, same]
    · exact ⟨rfl, id, Nat.le_refl _, fun _ => rfl⟩

theorem toNat_pageStart (address : UInt64) :
    (address &&& ~~~0xFFF).toNat = address.toNat / 0x1000 * 0x1000 := by
  have rounded := Word64.toNat_roundDown address (show Word64.IsPowerOfTwo 0x1000 by decide)
  rw [Nat.mul_comm]
  exact rounded

theorem visitPages_hits {finish byte : UInt64} {unprotects : UInt64 → Bool}
    (grants : ∀ candidate, unprotects candidate = true)
    (holds : Interval.Holds range.span byte) (below : byte < finish) {pages : ℕ}
    {candidate : UInt64} {tracker : Tracker} (member : range ∈ tracker.ranges)
    (notNull : candidate ≠ 0) (above : candidate ≤ byte)
    (enough : byte.toNat / 0x1000 < candidate.toNat / 0x1000 + pages) :
    let after := visitPages finish unprotects pages candidate tracker
    after.isDirty range.address = true ∧ (tracker.isArmed range.address = true →
        tracker.writeGeneration range.address < after.writeGeneration range.address) := by
  dsimp only
  induction pages generalizing candidate tracker with
  | zero =>
    have order := Nat.div_le_div_right (c := 0x1000) (UInt64.le_iff_toNat_le.mp above)
    omega
  | succ pages ih =>
    rw [visitPages, if_pos (UInt64.lt_of_le_of_lt above below)]
    dsimp only
    have pageStart := toNat_pageStart candidate
    have candidateBound := candidate.toNat_lt
    have pageSize : (0x1000 : UInt64).toNat = 0x1000 := rfl
    rw [UInt64.le_iff_toNat_le] at above
    by_cases here : byte.toNat / 0x1000 = candidate.toNat / 0x1000
    · -- The candidate is in the byte's page, so the range holds it.
      have candidateHolds : Interval.Holds range.span candidate := by
        obtain ⟨first, last⟩ := holds
        obtain ⟨page, isPage⟩ := range.dvd_first
        simp only [TrackedRange.span, Interval.Holds] at first last ⊢
        rw [UInt64.le_iff_toNat_le] at first ⊢
        rw [UInt64.lt_iff_toNat_lt] at last ⊢
        omega
      rw [grants candidate]
      obtain ⟨dirty, counts⟩ := fault_hits notNull member candidateHolds
      generalize (tracker.tryHandleWriteFault candidate true).2 = visited at dirty counts ⊢
      split
      · exact ⟨dirty, fun armed => by rw [counts armed]; omega⟩
      · obtain ⟨-, stays, grows, -⟩ := visitPages_generation finish unprotects pages
          ((candidate &&& ~~~0xFFF) + 0x1000) visited range.address
        exact ⟨stays dirty, fun armed => by have := counts armed; omega⟩
    · have order := Nat.div_le_div_right (c := 0x1000) above
      have byteBound := byte.toNat_lt
      have nextPage : ((candidate &&& ~~~0xFFF) + 0x1000).toNat =
          (candidate.toNat / 0x1000 + 1) * 0x1000 := by
        rw [Word64.toNat_add_of_lt (by omega), pageStart, pageSize]
        omega
      obtain ⟨-, generation⟩ :=
        fault_generation tracker candidate range.address (unprotects candidate)
      have ranges := fault_ranges tracker candidate (unprotects candidate)
      generalize (tracker.tryHandleWriteFault candidate (unprotects candidate)).2 =
        visited at generation ranges ⊢
      rw [if_neg (by
        rw [UInt64.le_iff_toNat_le, nextPage]
        omega)]
      have nextNotNull : (candidate &&& ~~~0xFFF) + 0x1000 ≠ 0 := by
        rw [Word64.toNat_ne_zero, nextPage]
        omega
      have visitedMember : range ∈ visited.ranges := by rw [ranges]; exact member
      obtain ⟨dirty, counts⟩ := ih visitedMember nextNotNull
        (by rw [UInt64.le_iff_toNat_le, nextPage]; omega)
        (by rw [nextPage]; omega)
      refine ⟨dirty, fun armed => ?_⟩
      rcases generation with ⟨sameArmed, same⟩ | ⟨-, counted⟩
      · rw [armed] at sameArmed
        rw [← same]
        exact counts sameArmed
      · obtain ⟨-, -, grows, -⟩ := visitPages_generation finish unprotects pages
          ((candidate &&& ~~~0xFFF) + 0x1000) visited range.address
        omega

theorem within_snapshotBounds {ranges : List TrackedRange} (member : range ∈ ranges) :
    Interval.Within range.span (snapshotBounds ranges) := by
  have grows : ∀ (rest : List TrackedRange) (bounds : UInt64 × UInt64),
      Interval.Within bounds (rest.foldl (fun bounds range =>
        (min bounds.1 range.first, max bounds.2 range.last)) bounds) ∧
      (range ∈ rest → Interval.Within range.span (rest.foldl (fun bounds range =>
        (min bounds.1 range.first, max bounds.2 range.last)) bounds)) := by
    intro rest
    induction rest with
    | nil => exact fun bounds => ⟨Interval.within_refl bounds, by simp⟩
    | cons head rest ih =>
      intro bounds
      rw [List.foldl_cons]
      obtain ⟨stays, takes⟩ := ih (min bounds.1 head.first, max bounds.2 head.last)
      refine ⟨(Interval.within_join_left bounds head.span).trans stays, ?_⟩
      intro isMember
      rcases List.mem_cons.mp isMember with rfl | later
      · exact (Interval.within_join_right bounds range.span).trans stays
      · exact takes later
  exact (grows ranges _).2 member

end Tracker

end SharpEmu.HLE
