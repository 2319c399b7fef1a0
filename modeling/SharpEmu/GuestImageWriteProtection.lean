import SharpEmu.GuestImageWriteRuns

/-!
# Armed ranges and the protection of their pages

A fault disarms every range whose pages it opens.  Disarming one range, when it is
untracked or resized, opens its pages and looks at no other range.  A resized range is
armed again in the same call, so only the pages that its new size leaves out stay open.
-/

namespace SharpEmu.HLE

namespace Tracker

variable {tracker : Tracker} {address : UInt64} {range other : TrackedRange}
variable {action : TrackerAction}

/-- Disarming the range tracked at an address opens no page of another armed range,
but for pages that are kept. -/
def OpensOnly (tracker : Tracker) (address : UInt64) (kept : UInt64 → Prop) : Prop :=
  ∀ range, tracker.lookup address = some range → tracker.isArmed address = true →
    ∀ other ∈ tracker.ranges, other.address ≠ address → tracker.isArmed other.address = true →
        ∀ page, Interval.Holds range.span page → Interval.Holds other.span page → kept page

/-- No page of another armed range is left open: untracking opens none, and a resize
none that the new size does not protect again. -/
def DisarmsAlone (tracker : Tracker) : TrackerAction → Prop
  | .untrack address => tracker.OpensOnly address fun _ => False
  | .track address byteCount protects =>
      byteCount ≠ 0 → (∃ range, tracker.lookup address = some range ∧ range.byteCount ≠ byteCount) →
          tracker.OpensOnly address fun page =>
            protects = true ∧ Interval.Holds (TrackedRange.mk address byteCount).span page
  | _ => True

/-- There is one range an address, and no page of an armed range is writable. -/
structure Guarded (tracker : Tracker) : Prop where
  distinct : (tracker.ranges.map TrackedRange.address).Nodup
  guards : ∀ range ∈ tracker.ranges, tracker.isArmed range.address = true →
    tracker.Guards range

theorem Guarded.eq_of_address (guarded : tracker.Guarded) (member : range ∈ tracker.ranges)
    (otherMember : other ∈ tracker.ranges) (same : range.address = other.address) :
    range = other :=
  List.inj_on_of_nodup_map guarded.distinct member otherMember same

/-! ## Arming and disarming -/

variable {page : UInt64}

theorem isWritable_of_disarmLocked
    (writable : (tracker.disarmLocked range).isWritable page = true) :
    tracker.isWritable page = true ∨
      tracker.isArmed range.address = true ∧ Interval.Holds range.span page := by
  rw [disarmLocked] at writable
  split at writable
  · rename_i armed
    by_cases holds : Interval.Holds range.span page
    · exact .inr ⟨armed, holds⟩
    · exact .inl ((if_neg holds).symm.trans writable)
  · exact .inl writable

theorem disarmLocked_isArmed (tracker : Tracker) (range : TrackedRange) :
    (tracker.disarmLocked range).isArmed = Function.update tracker.isArmed range.address false := by
  rw [disarmLocked]
  split
  · rfl
  · rename_i unarmed
    ext address
    by_cases here : address = range.address
    · rw [here, Function.update_self]
      exact Bool.eq_false_of_not_eq_true unarmed
    · rw [Function.update_of_ne here]

variable {protects : Bool}

theorem armLocked_isArmed_of_armed
    (armed : (tracker.armLocked range protects).isArmed range.address = true) :
    protects = true ∨ tracker.isArmed range.address = true := by
  rw [armLocked] at armed
  split at armed
  · exact .inr armed
  · split at armed
    · rename_i isProtected
      exact .inl isProtected
    · simp [setArmed] at armed

theorem Guarded.armLocked (guarded : tracker.Guarded) (member : range ∈ tracker.ranges)
    (protects : Bool) : (tracker.armLocked range protects).Guarded := by
  constructor
  · rw [armLocked_ranges]
    exact guarded.distinct
  · intro other otherMember armed
    rw [armLocked_ranges] at otherMember
    by_cases here : other.address = range.address
    · obtain rfl := guarded.eq_of_address otherMember member here
      rcases armLocked_isArmed_of_armed armed with rfl | wasArmed
      · exact guards_armLocked (guarded.guards other otherMember)
      · exact (guarded.guards other otherMember wasArmed).armLocked protects
    · rw [armLocked_isArmed_ne here] at armed
      exact (guarded.guards other otherMember armed).armLocked protects

theorem Guarded.disarmed (guarded : tracker.Guarded) {kept : UInt64 → Prop}
    (found : tracker.lookup address = some range) (opens : tracker.OpensOnly address kept)
    (member : other ∈ tracker.ranges) (different : other.address ≠ address)
    (armed : (tracker.disarmLocked range).isArmed other.address = true) (page : UInt64)
    (holds : Interval.Holds other.span page)
    (writable : (tracker.disarmLocked range).isWritable page = true) : kept page := by
  obtain ⟨-, rfl⟩ := lookup_eq_some found
  rw [disarmLocked_isArmed, Function.update_of_ne different] at armed
  rcases isWritable_of_disarmLocked writable with wasWritable | ⟨wasArmed, opened⟩
  · rw [guarded.guards other member armed page holds.1 holds.2] at wasWritable
    cases wasWritable
  · exact opens range found wasArmed other member different armed page opened holds

theorem isWritable_of_armLocked (unarmed : tracker.isArmed range.address = false)
    (writable : (tracker.armLocked range protects).isWritable page = true) :
    tracker.isWritable page = true ∧ ¬ (protects = true ∧ Interval.Holds range.span page) := by
  rw [armLocked, if_neg (by rw [unarmed]; exact Bool.false_ne_true)] at writable
  split at writable
  · by_cases holds : Interval.Holds range.span page
    · cases (if_pos holds).symm.trans writable
    · exact ⟨(if_neg holds).symm.trans writable, fun kept => holds kept.2⟩
  · rename_i unprotected
    exact ⟨writable, fun kept => unprotected kept.1⟩

/-- A fresh range is armed, and protects what the others have lost within it. -/
theorem Guarded.replaceRange {before : Tracker} (guarded : before.Guarded)
    (sameRanges : tracker.ranges = before.ranges) (protects : Bool)
    (guards : ∀ other ∈ before.ranges, other.address ≠ range.address →
      tracker.isArmed other.address = true → ∀ page, Interval.Holds other.span page →
        tracker.isWritable page = true → protects = true ∧ Interval.Holds range.span page) :
    ((tracker.replaceRange range).armLocked range protects).Guarded := by
  have unarmed : (tracker.replaceRange range).isArmed range.address = false :=
    Function.update_self _ _ _
  constructor
  · rw [armLocked_ranges, replaceRange_ranges, sameRanges, List.map_append, List.nodup_append]
    refine ⟨guarded.distinct.sublist (List.filter_sublist.map _), List.nodup_singleton _, ?_⟩
    intro first firstMember second secondMember
    obtain ⟨other, member, rfl⟩ := List.mem_map.mp firstMember
    rw [List.map_singleton, List.mem_singleton] at secondMember
    rw [secondMember]
    exact of_decide_eq_true (List.mem_filter.mp member).2
  · intro other member armed
    rw [armLocked_ranges, replaceRange_ranges, sameRanges, List.mem_append,
      List.mem_singleton, List.mem_filter] at member
    rcases member with ⟨kept, different⟩ | rfl
    · have different := of_decide_eq_true different
      rw [armLocked_isArmed_ne different] at armed
      have wasArmed : tracker.isArmed other.address = true := by
        rw [← armed]
        exact (Function.update_of_ne different _ _).symm
      intro page above below
      by_contra notGuarded
      obtain ⟨writable, outside⟩ :=
        isWritable_of_armLocked unarmed (Bool.eq_true_of_not_eq_false notGuarded)
      exact outside (guards other kept different wasArmed page ⟨above, below⟩ writable)
    · rcases armLocked_isArmed_of_armed armed with rfl | wasArmed
      · exact guards_armLocked fun isArmed => by rw [unarmed] at isArmed; cases isArmed
      · rw [unarmed] at wasArmed
        cases wasArmed

/-! ## The calls -/

theorem Guarded.track (guarded : tracker.Guarded) {byteCount : UInt64}
    (alone : tracker.DisarmsAlone (.track address byteCount protects)) :
    (tracker.track address byteCount protects).Guarded := by
  unfold Tracker.track
  dsimp only
  split
  · exact guarded
  · rename_i proper
    split
    · rename_i existing found
      obtain ⟨member, isAddress⟩ := lookup_eq_some found
      split
      · rename_i same
        rw [same] at member
        exact guarded.armLocked member protects
      · rename_i different
        have resized : existing.byteCount ≠ byteCount := by
          intro sameCount
          apply different
          rw [← sameCount, ← isAddress]
        have opens := alone (fun isZero => proper (.inr isZero)) ⟨existing, found, resized⟩
        apply guarded.replaceRange (disarmLocked_ranges _ _)
        intro other otherMember apart armed page holds writable
        exact guarded.disarmed found opens otherMember apart armed page holds writable
    · apply guarded.replaceRange rfl
      intro other otherMember _ armed page holds writable
      rw [guarded.guards other otherMember armed page holds.1 holds.2] at writable
      cases writable

theorem Guarded.untrack (guarded : tracker.Guarded)
    (opens : tracker.OpensOnly address fun _ => False) :
    (tracker.untrack address).Guarded := by
  unfold Tracker.untrack
  split
  · exact guarded
  · rename_i range found
    constructor
    · exact guarded.distinct.sublist (List.filter_sublist.map _)
    · intro other member armed page above below
      obtain ⟨kept, different⟩ := List.mem_filter.mp member
      by_contra notGuarded
      exact guarded.disarmed found opens kept (of_decide_eq_true different) armed page
        ⟨above, below⟩ (Bool.eq_true_of_not_eq_false notGuarded)

theorem Guarded.fault (guarded : tracker.Guarded) (unprotects : Bool) :
    (tracker.tryHandleWriteFault address unprotects).2.Guarded := by
  constructor
  · rw [fault_ranges]
    exact guarded.distinct
  · intro other member armed
    rw [fault_ranges] at member
    rcases fault_cases tracker address unprotects member with
      ⟨-, disarmed⟩ | ⟨-, sameArmed, stays⟩
    · rw [disarmed] at armed
      cases armed
    · rw [sameArmed] at armed
      exact stays (guarded.guards other member armed)

theorem Guarded.visitPages (guarded : tracker.Guarded) (finish : UInt64)
    (unprotects : UInt64 → Bool) (pages : ℕ) (candidate : UInt64) :
    (visitPages finish unprotects pages candidate tracker).Guarded := by
  induction pages generalizing candidate tracker with
  | zero => exact guarded
  | succ pages ih =>
    rw [Tracker.visitPages]
    split
    · dsimp only
      split
      · exact guarded.fault _
      · exact ih (guarded.fault _) _
    · exact guarded

theorem Guarded.perform (guarded : tracker.Guarded) (alone : tracker.DisarmsAlone action) :
    (tracker.perform action).Guarded := by
  cases action with
  | track address byteCount protects => exact guarded.track alone
  | untrack address => exact guarded.untrack alone
  | consumeDirty address =>
    unfold Tracker.perform consumeDirty
    dsimp only
    split
    · exact guarded
    · exact ⟨guarded.distinct, guarded.guards⟩
  | rearm address protects =>
    unfold Tracker.perform rearm
    dsimp only
    split
    · exact guarded
    · rename_i range found
      exact guarded.armLocked (lookup_eq_some found).1 protects
  | writeFault address unprotects => exact guarded.fault unprotects
  | managedWrite address byteCount unprotects =>
    rw [Tracker.perform]
    rcases notifyManagedWrite_cases tracker address byteCount unprotects with
      same | visited
    · rw [same]
      exact guarded
    · rw [visited]
      exact guarded.visitPages _ _ _ _

theorem guarded_new : new.Guarded where
  distinct := List.nodup_nil
  guards := by simp [new]

/-- In every run whose calls leave no page of another armed range open, the pages of
each armed range are write-protected. -/
theorem armed_guarded_when_disarmed_alone
    (reachable : Reachable (· = new) (onlyWhen DisarmsAlone Step) tracker) :
    ∀ range ∈ tracker.ranges, tracker.isArmed range.address = true → tracker.Guards range := by
  have guarded : tracker.Guarded := by
    apply reachable.invariant_onlyWhen
    · rintro _ rfl
      exact guarded_new
    · rintro before action _ guarded alone rfl
      exact guarded.perform alone
  exact guarded.guards

/-- Two ranges in one page, of which the first is resized, both are disarmed by a fault,
the second is armed again and the first untracked. -/
def sharedPage : Tracker :=
  performAll new [.track 0x10000 0x400 true, .track 0x10800 0x400 true, .track 0x10000 0x200 true,
      .writeFault 0x10000 true, .consumeDirty 0x10800, .rearm 0x10800 true,
      .untrack 0x10000]

theorem reachable_perform (action : TrackerAction)
    (reachable : Reachable (· = new) (onlyWhen DisarmsAlone Step) tracker)
    (alone : tracker.DisarmsAlone action) :
    Reachable (· = new) (onlyWhen DisarmsAlone Step) (tracker.perform action) :=
  reachable.next ⟨alone, rfl⟩

theorem sharedPage_reachable : Reachable (· = new) (onlyWhen DisarmsAlone Step) sharedPage := by
  refine reachable_perform (.untrack 0x10000) (reachable_perform (.rearm 0x10800 true)
    (reachable_perform (.consumeDirty 0x10800) (reachable_perform (.writeFault 0x10000 true)
      (reachable_perform (.track 0x10000 0x200 true) (reachable_perform (.track 0x10800 0x400 true)
          (reachable_perform (.track 0x10000 0x400 true) (.start rfl) ?_) ?_) ?_)
        trivial) trivial) trivial) ?_
  · rintro - ⟨range, found, -⟩
    cases found
  · rintro - ⟨range, found, -⟩
    cases found
  · -- The resized range keeps the page that both are in.
    intro _ _ range found _ _ _ _ _ page holds _
    obtain rfl : (⟨0x10000, 0x400⟩ : TrackedRange) = range := Option.some.inj found
    exact ⟨rfl, holds⟩
  · -- The fault has disarmed the range that is untracked.
    intro range _ armed
    cases armed

/-- The second range is armed, and its page is protected. -/
theorem armed_guarded_when_disarmed_alone_tracked :
    sharedPage.isArmed 0x10800 = true ∧ sharedPage.isWritable 0x10000 = false := by
  have member : (⟨0x10800, 0x400⟩ : TrackedRange) ∈ sharedPage.ranges := by decide
  have armed : sharedPage.isArmed 0x10800 = true := by decide +kernel
  exact ⟨armed, armed_guarded_when_disarmed_alone sharedPage_reachable _ member armed
    0x10000 (by decide) (by decide)⟩

/-- Untracking one of two ranges in a page leaves the other armed, but not protected. -/
theorem untrack_opens_armed_page :
    let shared := performAll new
      [.track 0x10000 0x400 true, .track 0x10800 0x400 true, .untrack 0x10000]
    (⟨0x10800, 0x400⟩ : TrackedRange) ∈ shared.ranges ∧ shared.isArmed 0x10800 = true ∧
      (⟨0x10800, 0x400⟩ : TrackedRange).first = 0x10000 ∧
      shared.isWritable 0x10000 = true := by
  decide +kernel

end Tracker

end SharpEmu.HLE
