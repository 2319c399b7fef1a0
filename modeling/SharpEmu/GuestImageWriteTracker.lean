import SharpEmu.MachineWords
import Mathlib.Data.List.Basic
import Mathlib.Data.UInt
import Mathlib.Logic.Function.Basic

/-!
# Tracking guest writes to images by page protection

The pages of a tracked range are write-protected.  The first write faults; the
fault handler restores write access to the whole group of ranges that overlap,
disarms them and marks them dirty.  An owner that consumes the dirty mark arms
the range again once it has read the bytes.
-/

namespace SharpEmu.HLE

structure TrackedRange where
  address : UInt64
  byteCount : UInt64
  deriving DecidableEq

/-- The start and the length of the pages of a span. -/
def pageAlign (address byteCount : UInt64) : UInt64 × UInt64 :=
  let start := address &&& ~~~0xFFF
  let finish := (address + byteCount + 0xFFF) &&& ~~~0xFFF
  (start, finish - start)

namespace TrackedRange

def first (range : TrackedRange) : UInt64 :=
  (pageAlign range.address range.byteCount).1

def last (range : TrackedRange) : UInt64 :=
  range.first + (pageAlign range.address range.byteCount).2

end TrackedRange

/-- The ranges by address, their flags, and the protection of the pages. -/
structure Tracker where
  ranges : List TrackedRange
  isDirty : UInt64 → Bool
  isArmed : UInt64 → Bool
  writeGeneration : UInt64 → ℕ
  isWritable : UInt64 → Bool

namespace Tracker

def new : Tracker where
  ranges := []
  isDirty := fun _ => false
  isArmed := fun _ => false
  writeGeneration := fun _ => 0
  isWritable := fun _ => true

/-- Change the protection of the pages from one address up to another. -/
def mprotect (tracker : Tracker) (first last : UInt64) (isWritable : Bool) :
    Tracker :=
  { tracker with
    isWritable := fun address =>
      if first ≤ address ∧ address < last then isWritable
      else tracker.isWritable address }

def setArmed (tracker : Tracker) (address : UInt64) (isArmed : Bool) : Tracker :=
  { tracker with
    isArmed := Function.update tracker.isArmed address isArmed }

def armLocked (tracker : Tracker) (range : TrackedRange) (protects : Bool) :
    Tracker :=
  if tracker.isArmed range.address then tracker
  else if protects then
    (tracker.mprotect range.first range.last false).setArmed range.address true
  else tracker.setArmed range.address false

def disarmLocked (tracker : Tracker) (range : TrackedRange) : Tracker :=
  if tracker.isArmed range.address then
    (tracker.mprotect range.first range.last true).setArmed range.address false
  else tracker

def lookup (tracker : Tracker) (address : UInt64) : Option TrackedRange :=
  tracker.ranges.find? fun range => range.address = address

/-- Forget the range at an address and put a new one there, which is not dirty;
the write generation stays. -/
def replaceRange (tracker : Tracker) (range : TrackedRange) : Tracker :=
  { tracker with
    ranges := tracker.ranges.filter (fun other =>
      other.address ≠ range.address) ++ [range]
    isDirty := Function.update tracker.isDirty range.address false
    isArmed := Function.update tracker.isArmed range.address false }

/-- Register a range and arm it. -/
def track (tracker : Tracker) (address byteCount : UInt64) (protects : Bool) :
    Tracker :=
  let range : TrackedRange := ⟨address, byteCount⟩
  if address = 0 ∨ byteCount = 0 then tracker
  else
    match tracker.lookup address with
    | some existing =>
        if existing = range then tracker.armLocked range protects
        else
          ((tracker.disarmLocked existing).replaceRange range).armLocked range protects
    | none => (tracker.replaceRange range).armLocked range protects

def consumeDirty (tracker : Tracker) (address : UInt64) : Bool × Tracker :=
  match tracker.lookup address with
  | none => (false, tracker)
  | some _ =>
      (tracker.isDirty address,
        { tracker with
          isDirty := Function.update tracker.isDirty address false })

def rearm (tracker : Tracker) (address : UInt64) (protects : Bool) : Tracker :=
  match tracker.lookup address with
  | none => tracker
  | some range => tracker.armLocked range protects

/-- The span from the least start to the greatest end of the ranges that contain
an address; it is empty when there are none. -/
def faultWindow (ranges : List TrackedRange) (address : UInt64) : UInt64 × UInt64 :=
  ranges.foldl (fun window range =>
    if address < range.first ∨ range.last ≤ address then window
    else (min window.1 range.first, max window.2 range.last))
    (0xffffffffffffffff, 0)

def overlaps (window : UInt64 × UInt64) (range : TrackedRange) : Bool :=
  range.first < window.2 && window.1 < range.last

/-- Widen the window over all ranges that it overlaps, until none widens it.
Each turn but the last takes in another range for good. -/
def expandWindow (ranges : List TrackedRange) : ℕ → UInt64 × UInt64 → UInt64 × UInt64
  | 0, window => window
  | fuel + 1, window =>
      let wider := ranges.foldl (fun window range =>
        if overlaps window range then
          (min window.1 range.first, max window.2 range.last)
        else window) window
      if wider = window then window else expandWindow ranges fuel wider

def faultGroup (tracker : Tracker) (address : UInt64) : UInt64 × UInt64 :=
  expandWindow tracker.ranges (tracker.ranges.length + 1) (faultWindow tracker.ranges address)

def isInGroup (tracker : Tracker) (window : UInt64 × UInt64) (address : UInt64) : Bool :=
  tracker.ranges.any fun range =>
    range.address = address && overlaps window range

/-- Handle a write fault: unprotect the group, and disarm and dirty its ranges.
`unprotects` says whether restoring write access succeeds. -/
def tryHandleWriteFault (tracker : Tracker) (address : UInt64)
    (unprotects : Bool) : Bool × Tracker :=
  if address = 0 ∨ (faultWindow tracker.ranges address).1 = 0xffffffffffffffff then
    (false, tracker)
  else
    let window := tracker.faultGroup address
    let needsUnprotect := tracker.ranges.any fun range =>
      overlaps window range && tracker.isArmed range.address
    if needsUnprotect && !unprotects then (false, tracker)
    else
      let opened :=
        if needsUnprotect then tracker.mprotect window.1 window.2 true
        else tracker
      (true,
        { opened with
          isArmed := fun other =>
            !tracker.isInGroup window other && tracker.isArmed other
          writeGeneration := fun other =>
            if tracker.isInGroup window other && tracker.isArmed other then
              tracker.writeGeneration other + 1
            else tracker.writeGeneration other
          isDirty := fun other =>
            tracker.isInGroup window other || tracker.isDirty other })

end Tracker

section Spans

variable {range : TrackedRange} {address : UInt64}

namespace TrackedRange

def contains (range : TrackedRange) (address : UInt64) : Bool :=
  range.address ≤ address && address < range.address + range.byteCount

/-- The pages of the range are below the end of the address space. -/
def Fits (range : TrackedRange) : Prop :=
  range.address.toNat + range.byteCount.toNat + 0xFFF < 2 ^ 64

theorem first_eq (range : TrackedRange) : range.first = Word64.roundDown range.address 0x1000 :=
  rfl

theorem last_eq (range : TrackedRange) : range.last = Word64.roundDown
      (range.address + range.byteCount + 0xFFF) 0x1000 := by
  have cancel (start finish : UInt64) : start + (finish - start) = finish := by
    rw [UInt64.add_comm, UInt64.sub_add_cancel]
  exact cancel _ _

theorem pages_of_contains (fits : range.Fits) (contained : range.contains address = true) :
    range.first ≤ address ∧ address < range.last := by
  obtain ⟨above, below⟩ := Bool.and_eq_true_iff.mp contained
  have above := of_decide_eq_true above
  have below := of_decide_eq_true below
  rw [Fits] at fits
  constructor
  · rw [first_eq]
    exact UInt64.le_trans (Word64.roundDown_le _ _) above
  · have covers := Word64.toNat_lt_roundDown_add (range.address + range.byteCount + 0xFFF)
      (show (0x1000 : UInt64) ≠ 0 by decide)
    rw [UInt64.lt_iff_toNat_lt, UInt64.toNat_add, Nat.mod_eq_of_lt (by omega)] at below
    rw [last_eq, UInt64.lt_iff_toNat_lt]
    have total : (range.address + range.byteCount + 0xFFF).toNat =
        range.address.toNat + range.byteCount.toNat + 0xFFF := by
      have isConstant : (0xFFF : UInt64).toNat = 0xFFF := rfl
      rw [UInt64.toNat_add, UInt64.toNat_add, isConstant]
      omega
    rw [total] at covers
    have page : (0x1000 : UInt64).toNat = 0x1000 := rfl
    omega

end TrackedRange

end Spans

section Protection

namespace Tracker

variable {tracker : Tracker} {range other : TrackedRange}

def Guards (tracker : Tracker) (range : TrackedRange) : Prop :=
  ∀ address, range.first ≤ address → address < range.last → tracker.isWritable address = false

theorem Guards.protect (guards : tracker.Guards range) (first last : UInt64) :
    (tracker.mprotect first last false).Guards range := by
  intro address above below
  rw [mprotect]
  simp only
  split
  · rfl
  · exact guards address above below

theorem guards_protect (tracker : Tracker) (range : TrackedRange) :
    (tracker.mprotect range.first range.last false).Guards range := by
  intro address above below
  exact if_pos ⟨above, below⟩

theorem Guards.armLocked (guards : tracker.Guards range) (protects : Bool) :
    (tracker.armLocked other protects).Guards range := by
  rw [Tracker.armLocked]
  split
  · exact guards
  · split
    · exact guards.protect other.first other.last
    · exact guards

theorem guards_armLocked (armed : tracker.isArmed range.address = true → tracker.Guards range) :
    (tracker.armLocked range true).Guards range := by
  rw [armLocked]
  split
  · rename_i isArmed
    exact armed isArmed
  · exact guards_protect tracker range

variable {window : UInt64 × UInt64}

theorem Guards.fault (guards : tracker.Guards range) (apart : overlaps window range = false) :
    (tracker.mprotect window.1 window.2 true).Guards range := by
  intro address above below
  have outside : ¬ (window.1 ≤ address ∧ address < window.2) := by
    rintro ⟨inside, before⟩
    have overlapping : overlaps window range = true := by
      rw [overlaps, Bool.and_eq_true_iff]
      exact ⟨decide_eq_true (UInt64.lt_of_le_of_lt above before),
        decide_eq_true (UInt64.lt_of_le_of_lt inside below)⟩
    rw [apart] at overlapping
    cases overlapping
  exact (if_neg outside).trans (guards address above below)

theorem overlaps_of_notInGroup (member : range ∈ tracker.ranges)
    (outside : tracker.isInGroup window range.address = false) :
    overlaps window range = false := by
  have none := List.any_eq_false.mp outside range member
  simpa using none

theorem fault_cases (tracker : Tracker) (address : UInt64) (unprotects : Bool)
    (member : range ∈ tracker.ranges) :
    let after := (tracker.tryHandleWriteFault address unprotects).2
    after.isDirty range.address = true ∧ after.isArmed range.address = false ∨
      after.isDirty range.address = tracker.isDirty range.address ∧
      after.isArmed range.address = tracker.isArmed range.address ∧
      (tracker.Guards range → after.Guards range) := by
  rw [tryHandleWriteFault]
  split
  · exact .inr ⟨rfl, rfl, id⟩
  · simp only
    split
    · exact .inr ⟨rfl, rfl, id⟩
    · generalize tracker.faultGroup address = window
      cases isGroup : tracker.isInGroup window range.address with
      | true =>
        left
        simp [isGroup]
      | false =>
        right
        have apart := overlaps_of_notInGroup member isGroup
        refine ⟨by simp [isGroup], by simp [isGroup], ?_⟩
        intro guards
        split
        · exact guards.fault apart
        · exact guards

@[simp]
theorem fault_ranges (tracker : Tracker) (address : UInt64) (unprotects : Bool) :
    (tracker.tryHandleWriteFault address unprotects).2.ranges =
      tracker.ranges := by
  rw [tryHandleWriteFault]
  split
  · rfl
  · simp only
    split
    · rfl
    · split
      · rfl
      · rfl

@[simp]
theorem armLocked_ranges (tracker : Tracker) (range : TrackedRange) (protects : Bool) :
    (tracker.armLocked range protects).ranges = tracker.ranges := by
  rw [armLocked]
  split
  · rfl
  · split <;> rfl

@[simp]
theorem armLocked_isDirty (tracker : Tracker) (range : TrackedRange) (protects : Bool) :
    (tracker.armLocked range protects).isDirty = tracker.isDirty := by
  rw [armLocked]
  split
  · rfl
  · split <;> rfl

theorem armLocked_isArmed_ne {address : UInt64} (different : address ≠ range.address)
    (protects : Bool) :
    (tracker.armLocked range protects).isArmed address = tracker.isArmed address := by
  rw [armLocked]
  split
  · rfl
  · split
    · exact Function.update_of_ne different _ _
    · exact Function.update_of_ne different _ _

theorem lookup_ne_none (member : range ∈ tracker.ranges) : tracker.lookup range.address ≠ none := by
  intro isNone
  have different := List.find?_eq_none.mp isNone range member
  simp at different

theorem lookup_eq_some {address : UInt64} (isRange : tracker.lookup address = some range) :
    range ∈ tracker.ranges ∧ range.address = address :=
  ⟨List.mem_of_find?_eq_some isRange,
    of_decide_eq_true (List.find?_eq_some_iff_append.mp isRange).1⟩

end Tracker

end Protection

end SharpEmu.HLE
