import SharpEmu.GuestImageWriteHistories

/-!
# Which guest writes their owners see

A write that hits an armed range raises its generation, and no later call lowers the
generation while the range is tracked.  A write that hits a range whose protection is
already gone leaves the dirty mark only.  Tracking the range again with a new size
publishes a fresh range, which carries the generation but not the mark.
-/

namespace SharpEmu.HLE

namespace Tracker

def tryGetWriteGeneration (tracker : Tracker) (address : UInt64) : Option ℕ :=
  (tracker.lookup address).map fun _ => tracker.writeGeneration address

variable {tracker : Tracker} {address : UInt64} {range : TrackedRange}
variable {action : TrackerAction}

/-! ## The tracked ranges along a run -/

theorem lookup_ne_none_iff : tracker.lookup address ≠ none ↔
      ∃ range ∈ tracker.ranges, range.address = address := by
  unfold lookup
  rw [ne_eq, List.find?_eq_none]
  push Not
  simp only [decide_eq_true_eq]

theorem Registered.lookup (registered : tracker.Registered) (member : range ∈ tracker.ranges) :
    tracker.lookup range.address = some range := by
  obtain ⟨found, isFound⟩ := Option.ne_none_iff_exists'.mp (lookup_ne_none member)
  obtain ⟨foundMember, same⟩ := lookup_eq_some isFound
  rw [isFound, registered.eq_of_address foundMember member same]

@[simp]
theorem disarmLocked_ranges (tracker : Tracker) (range : TrackedRange) :
    (tracker.disarmLocked range).ranges = tracker.ranges := by
  rw [disarmLocked]
  split <;> rfl

@[simp]
theorem replaceRange_ranges (tracker : Tracker) (range : TrackedRange) :
    (tracker.replaceRange range).ranges =
      tracker.ranges.filter (fun other => other.address ≠ range.address) ++ [range] :=
  rfl

@[simp]
theorem disarmLocked_writeGeneration (tracker : Tracker) (range : TrackedRange) :
    (tracker.disarmLocked range).writeGeneration = tracker.writeGeneration := by
  rw [disarmLocked]
  split <;> rfl

@[simp]
theorem armLocked_writeGeneration (tracker : Tracker) (range : TrackedRange) (protects : Bool) :
    (tracker.armLocked range protects).writeGeneration = tracker.writeGeneration := by
  rw [armLocked]
  split
  · rfl
  · split <;> rfl

@[simp]
theorem replaceRange_writeGeneration (tracker : Tracker) (range : TrackedRange) :
    (tracker.replaceRange range).writeGeneration = tracker.writeGeneration :=
  rfl

@[simp]
theorem replaceRange_isDirty (tracker : Tracker) (range : TrackedRange) :
    (tracker.replaceRange range).isDirty = Function.update tracker.isDirty range.address false :=
  rfl

theorem track_cases (tracker : Tracker) (address byteCount : UInt64) (protects : Bool) :
    let after := tracker.track address byteCount protects
    after.writeGeneration = tracker.writeGeneration ∧ (after.ranges = tracker.ranges ∨
        (address ≠ 0 ∧ byteCount ≠ 0 ∧
          after.ranges = tracker.ranges.filter (fun other => other.address ≠ address) ++
            [⟨address, byteCount⟩])) := by
  dsimp only
  unfold track
  dsimp only
  split
  · exact ⟨rfl, .inl rfl⟩
  · rename_i valid
    obtain ⟨notNull, nonempty⟩ := not_or.mp valid
    split
    · split
      · exact ⟨by simp, .inl (by simp)⟩
      · exact ⟨by simp, .inr ⟨notNull, nonempty, by simp⟩⟩
    · exact ⟨by simp, .inr ⟨notNull, nonempty, by simp⟩⟩

theorem untrack_ranges (tracker : Tracker) (address : UInt64) : (tracker.untrack address).ranges =
      tracker.ranges.filter fun other => other.address ≠ address := by
  unfold untrack
  split
  · rename_i absent
    symm
    rw [List.filter_eq_self]
    intro other member
    rw [decide_eq_true_eq]
    rintro rfl
    exact lookup_ne_none member absent
  · rfl

theorem untrack_writeGeneration (tracker : Tracker) {other : UInt64} (different : address ≠ other) :
    (tracker.untrack other).writeGeneration address = tracker.writeGeneration address := by
  unfold untrack
  split
  · rfl
  · dsimp only
    rw [Function.update_of_ne different, disarmLocked_writeGeneration]

theorem consumeDirty_cases (tracker : Tracker) (address : UInt64) :
    let after := (tracker.consumeDirty address).2
    after.ranges = tracker.ranges ∧ after.writeGeneration = tracker.writeGeneration := by
  dsimp only
  unfold consumeDirty
  split <;> exact ⟨rfl, rfl⟩

theorem rearm_cases (tracker : Tracker) (address : UInt64) (protects : Bool) :
    let after := tracker.rearm address protects
    after.ranges = tracker.ranges ∧ after.writeGeneration = tracker.writeGeneration := by
  dsimp only
  unfold rearm
  split
  · exact ⟨rfl, rfl⟩
  · exact ⟨armLocked_ranges _ _ _, armLocked_writeGeneration _ _ _⟩

theorem notifyManagedWrite_cases (tracker : Tracker) (address byteCount : UInt64)
    (unprotects : UInt64 → Bool) :
    tracker.notifyManagedWrite address byteCount unprotects = tracker ∨
      tracker.notifyManagedWrite address byteCount unprotects =
        visitPages (managedEnd address byteCount) unprotects
          (((managedEnd address byteCount).toNat - address.toNat) / 0x1000 + 2)
          address tracker := by
  unfold notifyManagedWrite
  split
  · exact .inl rfl
  · dsimp only
    split
    · exact .inl rfl
    · exact .inr rfl

theorem perform_ranges (tracker : Tracker) (action : TrackerAction) :
    (tracker.perform action).ranges = tracker.ranges ∨ (∃ address, action = .untrack address ∧
        (tracker.perform action).ranges =
          tracker.ranges.filter fun other => other.address ≠ address) ∨
      (∃ address byteCount protects, action = .track address byteCount protects ∧
        address ≠ 0 ∧ byteCount ≠ 0 ∧
        (tracker.perform action).ranges =
          tracker.ranges.filter (fun other => other.address ≠ address) ++
            [⟨address, byteCount⟩]) := by
  cases action with
  | track address byteCount protects =>
    obtain ⟨-, same | ⟨notNull, nonempty, replaced⟩⟩ :=
      track_cases tracker address byteCount protects
    · exact .inl same
    · exact .inr (.inr ⟨address, byteCount, protects, rfl, notNull, nonempty, replaced⟩)
  | untrack address => exact .inr (.inl ⟨address, rfl, untrack_ranges tracker address⟩)
  | consumeDirty address => exact .inl (consumeDirty_cases tracker address).1
  | rearm address protects => exact .inl (rearm_cases tracker address protects).1
  | writeFault address unprotects =>
    exact .inl (fault_ranges tracker address unprotects)
  | managedWrite address byteCount unprotects =>
    left
    rcases notifyManagedWrite_cases tracker address byteCount unprotects with
      same | visited
    · rw [perform, same]
    · rw [perform, visited]
      exact (visitPages_generation _ unprotects _ address tracker 0).1

def Fitting (_ : Tracker) : TrackerAction → Prop
  | .track address byteCount _ => (⟨address, byteCount⟩ : TrackedRange).Fits
  | _ => True

theorem registered_new : new.Registered where
  distinct := List.nodup_nil
  fits := by simp [new]
  nonempty := by simp [new]
  located := by simp [new]

theorem Registered.perform (registered : tracker.Registered)
    (fitting : tracker.Fitting action) : (tracker.perform action).Registered := by
  rcases perform_ranges tracker action with
    same | ⟨address, -, untracked⟩ |
      ⟨address, byteCount, protects, rfl, notNull, nonempty, replaced⟩
  · exact ⟨same ▸ registered.distinct, same ▸ registered.fits,
      same ▸ registered.nonempty, same ▸ registered.located⟩
  · constructor
    · rw [untracked]
      exact registered.distinct.sublist (List.filter_sublist.map _)
    all_goals
      intro range member
      rw [untracked] at member
      have kept := (List.mem_filter.mp member).1
    · exact registered.fits range kept
    · exact registered.nonempty range kept
    · exact registered.located range kept
  · have members : ∀ range ∈ (tracker.perform (.track address byteCount protects)).ranges,
        range ∈ tracker.ranges ∨ range = ⟨address, byteCount⟩ := by
      intro range member
      rw [replaced, List.mem_append, List.mem_singleton] at member
      exact member.imp_left fun kept => (List.mem_filter.mp kept).1
    constructor
    · rw [replaced, List.map_append, List.nodup_append]
      refine ⟨registered.distinct.sublist (List.filter_sublist.map _), List.nodup_singleton _, ?_⟩
      intro other otherMember new newMember
      obtain ⟨range, member, rfl⟩ := List.mem_map.mp otherMember
      rw [List.map_singleton, List.mem_singleton] at newMember
      rw [newMember]
      exact of_decide_eq_true (List.mem_filter.mp member).2
    · intro range member
      rcases members range member with kept | rfl
      · exact registered.fits range kept
      · exact fitting
    · intro range member
      rcases members range member with kept | rfl
      · exact registered.nonempty range kept
      · exact nonempty
    · intro range member
      rcases members range member with kept | rfl
      · exact registered.located range kept
      · exact notNull

/-- The run rule: the tracked ranges stay in order along every run whose tracked spans
end below the end of the address space. -/
theorem Registered.of_reachable (reachable : Reachable (· = new) (onlyWhen Fitting Step) tracker) :
    tracker.Registered := by
  apply reachable.invariant_onlyWhen
  · rintro _ rfl
    exact registered_new
  · rintro before action _ registered fitting rfl
    exact registered.perform fitting

/-! ## Seen writes -/

/-- The owner of a range sees that it was written since a state: the dirty mark is set,
or the generation is above that of the state. -/
def SeesWrite (before after : Tracker) (address : UInt64) : Prop :=
  (after.consumeDirty address).1 = true ∨
    ∃ generation, after.tryGetWriteGeneration address = some generation ∧
      before.writeGeneration address < generation

def Hits : TrackerAction → TrackedRange → Prop
  | .writeFault address unprotects, range =>
      address ≠ 0 ∧ unprotects = true ∧ Interval.Holds range.span address
  | .managedWrite address byteCount unprotects, range =>
      address ≠ 0 ∧ (∀ page, unprotects page = true) ∧
        ∃ byte, address ≤ byte ∧ byte.toNat < address.toNat + byteCount.toNat ∧
          Interval.Holds range.span byte
  | _, _ => False

/-- The call neither takes the dirty mark of an address nor stops tracking it. -/
def LeavesUnread (address : UInt64) : TrackerAction → Prop
  | .consumeDirty other => other ≠ address
  | .untrack other => other ≠ address
  | _ => True

/-- The state after some calls. -/
def performAll (tracker : Tracker) (actions : List TrackerAction) : Tracker :=
  actions.foldl perform tracker

variable {byteCount byte : UInt64}

theorem managedWrite_visits (unprotects : UInt64 → Bool)
    (member : range ∈ tracker.ranges) (notNull : address ≠ 0) (above : address ≤ byte)
    (below : byte < managedEnd address byteCount) (nonempty : byteCount ≠ 0)
    (holds : Interval.Holds range.span byte) :
    tracker.notifyManagedWrite address byteCount unprotects =
      visitPages (managedEnd address byteCount) unprotects
        (((managedEnd address byteCount).toNat - address.toNat) / 0x1000 + 2)
        address tracker := by
  obtain ⟨least, greatest⟩ := within_snapshotBounds member
  unfold notifyManagedWrite
  rw [if_neg (not_or.mpr ⟨notNull, nonempty⟩)]
  dsimp only
  rw [if_neg]
  rw [not_or, not_or]
  refine ⟨?_, ?_, ?_⟩
  · exact (List.length_pos_of_mem member).ne'
  · exact not_le.mpr (lt_of_le_of_lt (least.trans holds.1) below)
  · exact not_le.mpr (lt_of_le_of_lt above (lt_of_lt_of_le holds.2 greatest))

theorem lt_managedEnd (inside : byte.toNat < address.toNat + byteCount.toNat)
    (holds : Interval.Holds range.span byte) : byte < managedEnd address byteCount := by
  have last := UInt64.lt_iff_toNat_lt.mp holds.2
  have lastBound := range.span.2.toNat_lt
  unfold managedEnd
  rw [UInt64.lt_iff_toNat_lt]
  split
  · change byte.toNat < 2 ^ 64 - 1
    omega
  · rename_i noWrap
    have most : (0xFFFFFFFFFFFFFFFF : UInt64).toNat = 2 ^ 64 - 1 := rfl
    have countBound := byteCount.toNat_lt
    rw [gt_iff_lt, UInt64.lt_iff_toNat_lt,
      UInt64.toNat_sub_of_le _ _ (le_last_address _), most] at noWrap
    rw [Word64.toNat_add_of_lt (by omega)]
    exact inside

theorem hit_outcome (member : range ∈ tracker.ranges) (hits : Hits action range) :
    let after := tracker.perform action
    after.isDirty range.address = true ∧ (tracker.isArmed range.address = true →
        tracker.writeGeneration range.address < after.writeGeneration range.address) ∧
      (tracker.isArmed range.address = false → after.writeGeneration range.address =
          tracker.writeGeneration range.address) := by
  dsimp only
  cases action with
  | writeFault address unprotects =>
    obtain ⟨notNull, rfl, holds⟩ := hits
    obtain ⟨dirty, counts⟩ := fault_hits notNull member holds
    obtain ⟨-, generation⟩ := fault_generation tracker address range.address true
    refine ⟨dirty, fun armed => ?_, fun unarmed => ?_⟩
    · rw [perform, counts armed]
      omega
    · rw [unarmed] at generation
      exact (generation.resolve_right fun armed => by cases armed.1).2
  | managedWrite address byteCount unprotects =>
    obtain ⟨notNull, grants, byte, above, inside, holds⟩ := hits
    have below := lt_managedEnd inside holds
    have nonempty : byteCount ≠ 0 := by
      rintro rfl
      have noBytes : (0 : UInt64).toNat = 0 := rfl
      rw [UInt64.le_iff_toNat_le] at above
      omega
    rw [perform, managedWrite_visits unprotects member notNull above below nonempty holds]
    have enough : byte.toNat / 0x1000 < address.toNat / 0x1000 +
        (((managedEnd address byteCount).toNat - address.toNat) / 0x1000 + 2) := by
      rw [UInt64.lt_iff_toNat_lt] at below
      rw [UInt64.le_iff_toNat_le] at above
      omega
    obtain ⟨dirty, counts⟩ :=
      visitPages_hits grants holds below member notNull above enough
    obtain ⟨-, -, -, keeps⟩ := visitPages_generation (managedEnd address byteCount)
      unprotects (((managedEnd address byteCount).toNat - address.toNat) / 0x1000 + 2)
      address tracker range.address
    exact ⟨dirty, counts, keeps⟩
  | track _ _ _ => cases hits
  | untrack _ => cases hits
  | consumeDirty _ => cases hits
  | rearm _ _ => cases hits

theorem perform_keeps (leaves : LeavesUnread address action)
    (tracked : tracker.lookup address ≠ none) :
    (tracker.perform action).lookup address ≠ none ∧ tracker.writeGeneration address ≤
        (tracker.perform action).writeGeneration address := by
  constructor
  · rw [lookup_ne_none_iff] at tracked ⊢
    obtain ⟨range, member, rfl⟩ := tracked
    rcases perform_ranges tracker action with
      same | ⟨other, rfl, untracked⟩ | ⟨other, byteCount, _, -, -, -, replaced⟩
    · exact ⟨range, same ▸ member, rfl⟩
    · rw [untracked]
      exact ⟨range, List.mem_filter.mpr ⟨member, decide_eq_true leaves.symm⟩, rfl⟩
    · rw [replaced]
      by_cases here : range.address = other
      · exact ⟨⟨other, byteCount⟩, List.mem_append_right _ List.mem_cons_self, here.symm⟩
      · exact ⟨range, List.mem_append_left _
          (List.mem_filter.mpr ⟨member, decide_eq_true here⟩), rfl⟩
  · cases action with
    | track other byteCount protects =>
      exact (congrFun (track_cases tracker other byteCount protects).1 address).ge
    | untrack other => exact (untrack_writeGeneration tracker leaves.symm).ge
    | consumeDirty other =>
      exact (congrFun (consumeDirty_cases tracker other).2 address).ge
    | rearm other protects =>
      exact (congrFun (rearm_cases tracker other protects).2 address).ge
    | writeFault other unprotects =>
      rcases (fault_generation tracker other address unprotects).2 with
        ⟨-, same⟩ | ⟨-, counted⟩
      · exact same.ge
      · rw [perform, counted]
        omega
    | managedWrite other byteCount unprotects =>
      rw [perform]
      rcases notifyManagedWrite_cases tracker other byteCount unprotects with
        same | visited
      · rw [same]
      · rw [visited]
        exact (visitPages_generation _ unprotects _ other tracker address).2.2.1

variable {actions : List TrackerAction}

theorem performAll_keeps (leaves : ∀ action ∈ actions, LeavesUnread address action)
    (tracked : tracker.lookup address ≠ none) :
    (tracker.performAll actions).lookup address ≠ none ∧ tracker.writeGeneration address ≤
        (tracker.performAll actions).writeGeneration address := by
  induction actions generalizing tracker with
  | nil => exact ⟨tracked, Nat.le_refl _⟩
  | cons action actions ih =>
    obtain ⟨first, rest⟩ := List.forall_mem_cons.mp leaves
    obtain ⟨stays, grows⟩ := perform_keeps first tracked
    obtain ⟨isTracked, grown⟩ := ih rest stays
    exact ⟨isTracked, grows.trans grown⟩

variable {after : Tracker}

theorem seesWrite_of_lt (tracked : after.lookup address ≠ none)
    (counted : tracker.writeGeneration address < after.writeGeneration address) :
    SeesWrite tracker after address := by
  obtain ⟨found, isFound⟩ := Option.ne_none_iff_exists'.mp tracked
  right
  refine ⟨after.writeGeneration address, ?_, counted⟩
  unfold tryGetWriteGeneration
  rw [isFound, Option.map_some]

theorem not_seesWrite (clean : after.isDirty address = false)
    (same : after.writeGeneration address = tracker.writeGeneration address) :
    ¬ SeesWrite tracker after address := by
  rintro (dirty | ⟨generation, isGeneration, larger⟩)
  · unfold consumeDirty at dirty
    split at dirty
    · cases dirty
    · rw [clean] at dirty
      cases dirty
  · obtain ⟨_, -, rfl⟩ := Option.map_eq_some_iff.mp isGeneration
    omega

theorem track_resized (registered : tracker.Registered)
    (member : range ∈ tracker.ranges) (nonempty : byteCount ≠ 0)
    (resized : range.byteCount ≠ byteCount) (protects : Bool) :
    (tracker.track range.address byteCount protects).isDirty range.address =
      false := by
  unfold track
  dsimp only
  rw [if_neg (not_or.mpr ⟨registered.located range member, nonempty⟩), registered.lookup member]
  dsimp only
  rw [if_neg (fun same => resized (congrArg TrackedRange.byteCount same)),
    armLocked_isDirty, replaceRange_isDirty, Function.update_self]

theorem sees_of_armed (member : range ∈ tracker.ranges)
    (hits : Hits action range) (armed : tracker.isArmed range.address = true)
    (leaves : ∀ later ∈ actions, LeavesUnread range.address later) :
    SeesWrite tracker ((tracker.perform action).performAll actions) range.address := by
  obtain ⟨-, counts, -⟩ := hit_outcome member hits
  have leavesHit : LeavesUnread range.address action := by
    cases action <;> trivial
  obtain ⟨tracked, -⟩ := perform_keeps leavesHit (lookup_ne_none member)
  obtain ⟨stillTracked, grown⟩ := performAll_keeps leaves tracked
  exact seesWrite_of_lt stillTracked ((counts armed).trans_le grown)

theorem lost_of_unarmed (registered : tracker.Registered)
    (member : range ∈ tracker.ranges) (hits : Hits action range)
    (unarmed : tracker.isArmed range.address = false) :
    ∃ byteCount, ¬ SeesWrite tracker ((tracker.perform action).performAll
      [.track range.address byteCount true]) range.address := by
  obtain ⟨byteCount, nonempty, resized⟩ :
      ∃ byteCount : UInt64, byteCount ≠ 0 ∧ range.byteCount ≠ byteCount := by
    by_cases isOne : range.byteCount = 1
    · exact ⟨2, by decide, isOne ▸ by decide⟩
    · exact ⟨1, by decide, isOne⟩
  have fitting : tracker.Fitting action := by
    cases action <;> trivial
  have hitRegistered := registered.perform fitting
  have hitMember : range ∈ (tracker.perform action).ranges := by
    rcases perform_ranges tracker action with same | ⟨_, rfl, -⟩ | ⟨_, _, _, rfl, -⟩
    · exact same ▸ member
    · cases hits
    · cases hits
  obtain ⟨-, -, keeps⟩ := hit_outcome member hits
  refine ⟨byteCount, not_seesWrite ?_ ?_⟩
  · exact track_resized hitRegistered hitMember nonempty resized true
  · change ((tracker.perform action).track range.address byteCount true).writeGeneration
      range.address = _
    rw [(track_cases _ _ _ _).1]
    exact keeps unarmed

/-- Along every run, the writes to a range that no later call can hide are those that
hit it while it is armed, and a fault dirties and disarms exactly the ranges linked to
the faulting address. -/
theorem writes_seen_iff_armed (reachable : Reachable (· = new) (onlyWhen Fitting Step) tracker)
    (member : range ∈ tracker.ranges) :
    (∀ action, Hits action range →
      ((∀ actions, (∀ later ∈ actions, LeavesUnread range.address later) →
          SeesWrite tracker ((tracker.perform action).performAll actions) range.address) ↔
        tracker.isArmed range.address = true)) ∧
    (∀ address unprotects,
      Interval.widen TrackedRange.span tracker.ranges (tracker.faultGroup address) =
          tracker.faultGroup address ∧
        (address ≠ 0 → unprotects = true → Interval.Holds range.span address →
          (tracker.tryHandleWriteFault address unprotects).1 = true) ∧
        ((tracker.tryHandleWriteFault address unprotects).1 = true →
          let after := (tracker.tryHandleWriteFault address unprotects).2
          (tracker.Linked address range → after.isDirty range.address = true ∧
              after.isArmed range.address = false) ∧
          (¬ tracker.Linked address range →
            after.isDirty range.address = tracker.isDirty range.address ∧
              after.isArmed range.address = tracker.isArmed range.address))) := by
  have registered := Registered.of_reachable reachable
  constructor
  · intro action hits
    constructor
    · intro seen
      by_contra notArmed
      have unarmed := Bool.eq_false_of_not_eq_true notArmed
      obtain ⟨byteCount, lost⟩ := lost_of_unarmed registered member hits unarmed
      apply lost
      apply seen
      intro later isLater
      rw [List.mem_singleton.mp isLater]
      trivial
    · intro armed actions leaves
      exact sees_of_armed member hits armed leaves
  · intro address unprotects
    refine ⟨widen_faultGroup tracker address, ?_, ?_⟩
    · rintro notNull rfl holds
      exact fault_handled notNull member holds
    · intro handled
      obtain ⟨linked, apart⟩ := fault_changes_group registered handled member
      refine ⟨linked, fun notLinked => ?_⟩
      obtain ⟨dirty, armed, -⟩ := apart notLinked
      exact ⟨dirty, armed⟩

theorem performAll_reachable (reachable : Reachable (· = new) (onlyWhen Fitting Step) tracker)
    (fitting : ∀ action ∈ actions, ∀ before : Tracker, before.Fitting action) :
    Reachable (· = new) (onlyWhen Fitting Step) (tracker.performAll actions) := by
  induction actions generalizing tracker with
  | nil => exact reachable
  | cons action actions ih =>
    obtain ⟨first, rest⟩ := List.forall_mem_cons.mp fitting
    exact ih (reachable.next ⟨first tracker, rfl⟩) rest

/-- A range that was armed, hit by a fault and read by its owner. -/
def consumed : Tracker :=
  performAll new [.track 0x10000 0x1000 true, .writeFault 0x10000 true, .consumeDirty 0x10000]

theorem consumed_reachable : Reachable (· = new) (onlyWhen Fitting Step) consumed := by
  apply performAll_reachable (.start rfl)
  simp [Fitting, TrackedRange.Fits]

theorem consumed_hit : Hits (.managedWrite 0x10000 8 fun _ => true) ⟨0x10000, 0x1000⟩ :=
  ⟨by decide, fun _ => rfl, 0x10000, by decide, by decide, by decide, by decide⟩

/-- The range is still tracked but no longer armed, so some calls hide a managed write
to it. -/
theorem writes_seen_iff_armed_consumed : ¬ ∀ actions : List TrackerAction,
      (∀ later ∈ actions, LeavesUnread 0x10000 later) → SeesWrite consumed ((consumed.perform
          (.managedWrite 0x10000 8 fun _ => true)).performAll actions) 0x10000 := by
  intro seen
  have member : (⟨0x10000, 0x1000⟩ : TrackedRange) ∈ consumed.ranges := by decide
  have armed := ((writes_seen_iff_armed consumed_reachable member).1 _ consumed_hit).mp seen
  exact absurd armed (by decide)

/-- A managed write to a range that was tracked, armed and consumed leaves no trace
once the range is tracked with a new size. -/
theorem resize_hides_write :
    let write : TrackerAction := .managedWrite 0x10000 8 fun _ => true
    let resize : TrackerAction := .track 0x10000 0x2000 true
    (new.track 0x10000 0x1000 true).isArmed 0x10000 = true ∧
      (⟨0x10000, 0x1000⟩ : TrackedRange) ∈ consumed.ranges ∧
      Hits write ⟨0x10000, 0x1000⟩ ∧
      LeavesUnread 0x10000 resize ∧
      ¬ SeesWrite consumed ((consumed.perform write).perform resize) 0x10000 := by
  exact ⟨by decide, by decide, consumed_hit, trivial,
    not_seesWrite (by decide +kernel) (by decide +kernel)⟩

end Tracker

end SharpEmu.HLE
