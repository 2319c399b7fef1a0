import SharpEmu.GuestImageWriteTracker
import SharpEmu.TransitionRuns

/-!
# Uploading the guest images the CPU has written

A sync goes over the images; where the dirty mark is set it clears it, reads the
bytes, issues an upload and arms the range again.  Other threads write in
between, and several syncs can run at once.  The state counts the writes that
have landed in each image and those that its uploads contain.
-/

namespace SharpEmu.Agc

open HLE

section Model

abbrev GuestImageExtent := TrackedRange

def maxPresentedTextureBytes : UInt64 := 128 * 1024 * 1024

structure SyncScope where
  scopeAddress : UInt64
  scopeByteCount : UInt64

def rangesOverlap (leftAddress leftLength rightAddress rightLength : UInt64) :
    Bool :=
  let leftEnd :=
    if leftAddress > 0xffffffffffffffff - leftLength then 0xffffffffffffffff
    else leftAddress + leftLength
  let rightEnd :=
    if rightAddress > 0xffffffffffffffff - rightLength then 0xffffffffffffffff
    else rightAddress + rightLength
  leftAddress < rightEnd && rightAddress < leftEnd

def SyncScope.covers (scope : SyncScope) (image : GuestImageExtent) : Bool :=
  scope.scopeByteCount = 0xffffffffffffffff ||
    rangesOverlap image.address image.byteCount scope.scopeAddress scope.scopeByteCount

/-- Where a sync is: at its next image, with an image whose mark it has cleared,
with the bytes it has read of one (as the number of writes they contain), or
about to arm one again. -/
inductive SyncPhase
  | idle
  | scanning (scope : SyncScope) (todo : List GuestImageExtent)
  | consumed (scope : SyncScope) (image : GuestImageExtent)
      (todo : List GuestImageExtent)
  | read (scope : SyncScope) (image : GuestImageExtent) (pixels : ℕ)
      (todo : List GuestImageExtent)
  | rearming (scope : SyncScope) (image : GuestImageExtent)
      (todo : List GuestImageExtent)

structure SyncState (Thread : Type) where
  tracker : Tracker
  extents : List GuestImageExtent
  syncs : Thread → SyncPhase
  writes : UInt64 → ℕ
  uploaded : UInt64 → ℕ

variable {Thread : Type} [DecidableEq Thread]

namespace SyncState

def setSync (state : SyncState Thread) (thread : Thread) (phase : SyncPhase) :
    SyncState Thread :=
  { state with syncs := Function.update state.syncs thread phase }

def store (state : SyncState Thread) (address : UInt64) : SyncState Thread :=
  { state with
    writes := fun image =>
      if state.tracker.ranges.any fun range =>
          range.address = image && range.contains address then
        state.writes image + 1
      else state.writes image }

def fault (state : SyncState Thread) (address : UInt64) (unprotects : Bool) :
    SyncState Thread :=
  { state with
    tracker := (state.tracker.tryHandleWriteFault address unprotects).2 }

def begin (state : SyncState Thread) (thread : Thread) (scope : SyncScope) :
    SyncState Thread :=
  if scope.scopeByteCount = 0 then state
  else state.setSync thread (.scanning scope state.extents)

/-- Go to the next image; clear its mark if it is dirty. -/
def consume (state : SyncState Thread) (thread : Thread) : SyncState Thread :=
  match state.syncs thread with
  | .scanning _ [] => state.setSync thread .idle
  | .scanning scope (image :: todo) =>
      if scope.covers image then
        let (isDirty, tracker) := state.tracker.consumeDirty image.address
        { state with tracker := tracker }.setSync thread
          (if isDirty then .consumed scope image todo else .scanning scope todo)
      else state.setSync thread (.scanning scope todo)
  | _ => state

/-- Read the bytes; `readable` says whether the guest memory can be read. -/
def read (state : SyncState Thread) (thread : Thread) (readable : Bool) :
    SyncState Thread :=
  match state.syncs thread with
  | .consumed scope image todo =>
      state.setSync thread (if image.byteCount = 0 ∨ maxPresentedTextureBytes < image.byteCount then
          .scanning scope todo
        else if readable then
          .read scope image (state.writes image.address) todo
        else .rearming scope image todo)
  | _ => state

def upload (state : SyncState Thread) (thread : Thread) : SyncState Thread :=
  match state.syncs thread with
  | .read scope image pixels todo =>
      { state with
        uploaded := Function.update state.uploaded image.address
          (max (state.uploaded image.address) pixels) }.setSync thread (.rearming scope image todo)
  | _ => state

def rearm (state : SyncState Thread) (thread : Thread) (protects : Bool) :
    SyncState Thread :=
  match state.syncs thread with
  | .rearming scope image todo =>
      { state with
        tracker := state.tracker.rearm image.address protects }.setSync thread
          (.scanning scope todo)
  | _ => state

/-- The ranges are tracked one after another, and nothing has happened yet. -/
def start (tracked extents : List GuestImageExtent) : SyncState Thread where
  tracker := tracked.foldl (fun tracker range => tracker.track range.address range.byteCount true)
    Tracker.new
  extents := extents
  syncs := fun _ => .idle
  writes := fun _ => 0
  uploaded := fun _ => 0

end SyncState

inductive SyncAction (Thread : Type)
  | fault (address : UInt64) (unprotects : Bool)
  | store (address : UInt64)
  | begin (thread : Thread) (scope : SyncScope)
  | consume (thread : Thread)
  | read (thread : Thread) (readable : Bool)
  | upload (thread : Thread)
  | rearm (thread : Thread) (protects : Bool)

/-- A guest store lands only while its page is writable; before that it faults,
any number of times.  A sync begins in a thread that is in none. -/
inductive SyncStep (state : SyncState Thread) :
    SyncAction Thread → SyncState Thread → Prop
  | fault (address : UInt64) (unprotects : Bool) :
      SyncStep state (.fault address unprotects)
        (state.fault address unprotects)
  | store (address : UInt64) :
      state.tracker.isWritable address = true →
      SyncStep state (.store address) (state.store address)
  | begin (thread : Thread) (scope : SyncScope) :
      state.syncs thread = .idle →
      SyncStep state (.begin thread scope) (state.begin thread scope)
  | consume (thread : Thread) :
      SyncStep state (.consume thread) (state.consume thread)
  | read (thread : Thread) (readable : Bool) :
      SyncStep state (.read thread readable) (state.read thread readable)
  | upload (thread : Thread) :
      SyncStep state (.upload thread) (state.upload thread)
  | rearm (thread : Thread) (protects : Bool) :
      SyncStep state (.rearm thread protects) (state.rearm thread protects)

end Model

section Invariant

variable {Thread : Type} [DecidableEq Thread]

namespace SyncPhase

def willRead (image : GuestImageExtent) : SyncPhase → Prop
  | .consumed _ other _ => other = image
  | _ => False

def hasRead (image : GuestImageExtent) (count : ℕ) : SyncPhase → Prop
  | .read _ other pixels _ => other = image ∧ count ≤ pixels
  | _ => False

def isBehind (image : GuestImageExtent) : SyncPhase → Prop
  | .read _ other _ _ => other = image
  | .rearming _ other _ => other = image
  | _ => False

def images : SyncPhase → List GuestImageExtent
  | .idle => []
  | .scanning _ todo => todo
  | .consumed _ image todo => image :: todo
  | .read _ image _ todo => image :: todo
  | .rearming _ image todo => image :: todo

end SyncPhase

namespace SyncState

def Marked (state : SyncState Thread) (image : GuestImageExtent) : Prop :=
  state.tracker.isDirty image.address = true ∨ ∃ thread, (state.syncs thread).willRead image

/-- Every write is in an upload, or in bytes about to be uploaded, or will be
read. -/
def Kept (state : SyncState Thread) (image : GuestImageExtent) : Prop :=
  state.writes image.address ≤ state.uploaded image.address ∨ state.Marked image ∨
    ∃ thread, (state.syncs thread).hasRead image (state.writes image.address)

/-- The next write is read or faults, unless it lands behind a read. -/
def Guarded (state : SyncState Thread) (image : GuestImageExtent) : Prop :=
  state.Marked image ∨ (∃ thread, (state.syncs thread).isBehind image) ∨ state.tracker.Guards image

def IsTracked (state : SyncState Thread) (image : GuestImageExtent) : Prop :=
  image ∈ state.tracker.ranges ∧ image ∈ state.extents

end SyncState

/-- The images that are tracked, and those of the presenter, are each known by
their address. -/
structure KeepsWrites (state : SyncState Thread) : Prop where
  ranges : ∀ image ∈ state.tracker.ranges, ∀ other ∈ state.tracker.ranges,
    image.address = other.address → image = other
  extents : ∀ image ∈ state.extents, ∀ other ∈ state.extents,
    image.address = other.address → image = other
  fits : ∀ image ∈ state.tracker.ranges, image.Fits
  armed : ∀ image ∈ state.tracker.ranges,
    state.tracker.isArmed image.address = true → state.tracker.Guards image
  held : ∀ thread, ∀ image ∈ (state.syncs thread).images,
    image ∈ state.extents
  kept : ∀ image, state.IsTracked image → state.Kept image
  guarded : ∀ image, state.IsTracked image → state.Guarded image

/-- What keeps the writes: none lands in an image that was read and is not armed
again, unless the image is marked; an image whose mark is cleared has a size
that is read, and reading it and arming it again succeed. -/
def LosesNothing (state : SyncState Thread) : SyncAction Thread → Prop
  | .store address => ∀ image, state.IsTracked image →
      image.contains address = true → state.Marked image ∨
        ∀ thread, ¬ (state.syncs thread).isBehind image
  | .read thread readable => ∀ image, (state.syncs thread).willRead image →
      image.byteCount ≠ 0 ∧ image.byteCount ≤ maxPresentedTextureBytes ∧ readable = true
  | .rearm _ protects => protects = true
  | _ => True

end Invariant

section Steps

variable {Thread : Type} [DecidableEq Thread]
variable {state : SyncState Thread} {thread : Thread} {image : GuestImageExtent}

variable {phase : SyncPhase}

theorem exists_update {property : SyncPhase → Prop} (holds : ∃ other, property (state.syncs other))
    (carries : property (state.syncs thread) → property phase) :
    ∃ other, property (Function.update state.syncs thread phase other) := by
  obtain ⟨other, holdsOther⟩ := holds
  refine ⟨other, ?_⟩
  by_cases same : other = thread
  · rw [same, Function.update_self]
    rw [same] at holdsOther
    exact carries holdsOther
  · rw [Function.update_of_ne same]
    exact holdsOther

omit [DecidableEq Thread] in
theorem KeepsWrites.fault (sound : KeepsWrites state) (address : UInt64)
    (unprotects : Bool) : KeepsWrites (state.fault address unprotects) := by
  have cases (image : GuestImageExtent) (member : image ∈ state.tracker.ranges) :=
    state.tracker.fault_cases address unprotects member
  have same : (state.fault address unprotects).tracker.ranges =
      state.tracker.ranges :=
    state.tracker.fault_ranges address unprotects
  have marked (image : GuestImageExtent) (member : image ∈ state.tracker.ranges)
      (isMarked : state.Marked image) :
      (state.fault address unprotects).Marked image := by
    rcases isMarked with isDirty | reading
    · rcases cases image member with ⟨nowDirty, _⟩ | ⟨isSame, _⟩
      · exact .inl nowDirty
      · exact .inl (isSame.trans isDirty)
    · exact .inr reading
  constructor
  · rw [same]
    exact sound.ranges
  · exact sound.extents
  · rw [same]
    exact sound.fits
  · rw [same]
    intro image member isArmed
    rcases cases image member with ⟨_, isDisarmed⟩ | ⟨_, isSame, guards⟩
    · exact absurd isArmed (by rw [SyncState.fault, isDisarmed]; simp)
    · exact guards (sound.armed image member (isSame.symm.trans isArmed))
  · exact sound.held
  · rintro image ⟨member, isExtent⟩
    rw [same] at member
    rcases sound.kept image ⟨member, isExtent⟩ with sent | isMarked | isRead
    · exact .inl sent
    · exact .inr (.inl (marked image member isMarked))
    · exact .inr (.inr isRead)
  · rintro image ⟨member, isExtent⟩
    rw [same] at member
    rcases sound.guarded image ⟨member, isExtent⟩ with isMarked | behind | guards
    · exact .inl (marked image member isMarked)
    · exact .inr (.inl behind)
    · rcases cases image member with ⟨nowDirty, _⟩ | ⟨_, _, keeps⟩
      · exact .inl (.inl nowDirty)
      · exact .inr (.inr (keeps guards))

omit [DecidableEq Thread] in
theorem KeepsWrites.store (sound : KeepsWrites state) {address : UInt64}
    (isWritable : state.tracker.isWritable address = true)
    (losesNothing : LosesNothing state (.store address)) :
    KeepsWrites (state.store address) := by
  refine ⟨sound.ranges, sound.extents, sound.fits, sound.armed, sound.held, ?_, sound.guarded⟩
  rintro image tracked
  by_cases contained : image.contains address = true
  · right
    left
    rcases sound.guarded image tracked with isMarked | behind | guards
    · exact isMarked
    · rcases losesNothing image tracked contained with isMarked | notBehind
      · exact isMarked
      · obtain ⟨thread, isBehind⟩ := behind
        exact absurd isBehind (notBehind thread)
    · obtain ⟨above, below⟩ := HLE.TrackedRange.pages_of_contains
        (sound.fits image tracked.1) contained
      rw [guards address above below] at isWritable
      cases isWritable
  · have untouched : (state.store address).writes image.address = state.writes image.address := by
      apply if_neg
      intro found
      obtain ⟨other, member, isOther⟩ := List.any_eq_true.mp found
      obtain ⟨sameAddress, inOther⟩ := Bool.and_eq_true_iff.mp isOther
      rw [sound.ranges other member image tracked.1 (of_decide_eq_true sameAddress)] at inOther
      exact contained inOther
    have kept := sound.kept image tracked
    rw [SyncState.Kept] at kept ⊢
    rw [untouched]
    exact kept

theorem KeepsWrites.move (sound : KeepsWrites state)
    (free : ∀ image, ¬ (state.syncs thread).willRead image ∧
      (∀ count, ¬ (state.syncs thread).hasRead image count) ∧
      ¬ (state.syncs thread).isBehind image)
    (held : ∀ image ∈ phase.images, image ∈ state.extents) :
    KeepsWrites (state.setSync thread phase) := by
  have marked (image : GuestImageExtent) (isMarked : state.Marked image) :
      (state.setSync thread phase).Marked image :=
    isMarked.imp id fun reading =>
      exists_update reading fun holds => absurd holds (free image).1
  constructor
  · exact sound.ranges
  · exact sound.extents
  · exact sound.fits
  · exact sound.armed
  · intro other
    change ∀ image ∈ (Function.update state.syncs thread phase other).images, _
    by_cases same : other = thread
    · rw [same, Function.update_self]
      exact held
    · rw [Function.update_of_ne same]
      exact sound.held other
  · intro image tracked
    rcases sound.kept image tracked with sent | isMarked | isRead
    · exact .inl sent
    · exact .inr (.inl (marked image isMarked))
    · exact .inr (.inr (exists_update isRead fun holds =>
        absurd holds ((free image).2.1 _)))
  · intro image tracked
    rcases sound.guarded image tracked with isMarked | behind | guards
    · exact .inl (marked image isMarked)
    · exact .inr (.inl (exists_update behind fun holds =>
        absurd holds (free image).2.2))
    · exact .inr (.inr guards)

variable {after : SyncState Thread}

theorem KeepsWrites.advance (sound : KeepsWrites state) (isImage : image ∈ state.extents)
    (ranges : after.tracker.ranges = state.tracker.ranges)
    (extents : after.extents = state.extents)
    (writes : after.writes = state.writes)
    (syncs : after.syncs = Function.update state.syncs thread phase)
    (armed : ∀ other ∈ state.tracker.ranges,
      after.tracker.isArmed other.address = true → after.tracker.Guards other)
    (held : ∀ other ∈ phase.images, other ∈ state.extents)
    (elsewhere : ∀ other : GuestImageExtent, other.address ≠ image.address →
      after.tracker.isDirty other.address = state.tracker.isDirty other.address ∧
      after.uploaded other.address = state.uploaded other.address)
    (guards : ∀ other, state.tracker.Guards other → after.tracker.Guards other)
    (free : ∀ other, other ≠ image → ¬ (state.syncs thread).willRead other ∧
      (∀ count, ¬ (state.syncs thread).hasRead other count) ∧
      ¬ (state.syncs thread).isBehind other)
    (here : state.IsTracked image → after.Kept image ∧ after.Guarded image) :
    KeepsWrites after := by
  have apart (other : GuestImageExtent) (tracked : state.IsTracked other)
      (different : other ≠ image) : other.address ≠ image.address := by
    intro same
    exact different (sound.extents other tracked.2 image isImage same)
  have marked (other : GuestImageExtent) (tracked : state.IsTracked other)
      (different : other ≠ image) (isMarked : state.Marked other) :
      after.Marked other := by
    rcases isMarked with isDirty | reading
    · exact .inl ((elsewhere other (apart other tracked different)).1.trans isDirty)
    · right
      rw [syncs]
      exact exists_update reading fun holds =>
        absurd holds (free other different).1
  constructor
  · rw [ranges]
    exact sound.ranges
  · rw [extents]
    exact sound.extents
  · rw [ranges]
    exact sound.fits
  · rw [ranges]
    exact armed
  · rw [syncs, extents]
    intro other
    by_cases same : other = thread
    · rw [same, Function.update_self]
      exact held
    · rw [Function.update_of_ne same]
      exact sound.held other
  · intro other tracked
    rw [SyncState.IsTracked, ranges, extents] at tracked
    by_cases same : other = image
    · rw [same] at tracked ⊢
      exact (here tracked).1
    · have kept := sound.kept other tracked
      rw [SyncState.Kept] at kept ⊢
      rw [writes, (elsewhere other (apart other tracked same)).2]
      rcases kept with sent | isMarked | isRead
      · exact .inl sent
      · exact .inr (.inl (marked other tracked same isMarked))
      · right
        right
        rw [syncs]
        exact exists_update isRead fun holds =>
          absurd holds ((free other same).2.1 _)
  · intro other tracked
    rw [SyncState.IsTracked, ranges, extents] at tracked
    by_cases same : other = image
    · rw [same] at tracked ⊢
      exact (here tracked).2
    · rcases sound.guarded other tracked with isMarked | behind | isGuarded
      · exact .inl (marked other tracked same isMarked)
      · right
        left
        rw [syncs]
        exact exists_update behind fun holds =>
          absurd holds (free other same).2.2
      · exact .inr (.inr (guards other isGuarded))

theorem KeepsWrites.begin (sound : KeepsWrites state) (scope : SyncScope)
    (isIdle : state.syncs thread = .idle) :
    KeepsWrites (state.begin thread scope) := by
  rw [SyncState.begin]
  split
  · exact sound
  · apply sound.move
    · intro image
      rw [isIdle]
      exact ⟨id, fun _ => id, id⟩
    · exact fun _ => id

theorem KeepsWrites.consume (sound : KeepsWrites state) (thread : Thread) :
    KeepsWrites (state.consume thread) := by
  rw [SyncState.consume]
  have held := sound.held thread
  split
  · rename_i scope isPhase
    apply sound.move
    · intro image
      rw [isPhase]
      exact ⟨id, fun _ => id, id⟩
    · intro image member
      cases member
  · rename_i scope image todo isPhase
    rw [isPhase] at held
    have free (other : GuestImageExtent) : ¬ (state.syncs thread).willRead other ∧
        (∀ count, ¬ (state.syncs thread).hasRead other count) ∧
        ¬ (state.syncs thread).isBehind other := by
      rw [isPhase]
      exact ⟨id, fun _ => id, id⟩
    have next : KeepsWrites (state.setSync thread (.scanning scope todo)) :=
      sound.move free (List.forall_mem_cons.mp held).2
    split
    · cases isRange : state.tracker.lookup image.address with
      | none =>
        rw [HLE.Tracker.consumeDirty, isRange]
        exact next
      | some range =>
        rw [HLE.Tracker.consumeDirty, isRange]
        cases isDirty : state.tracker.isDirty image.address with
        | false =>
          have unchanged : Function.update state.tracker.isDirty
              image.address false = state.tracker.isDirty := by
            rw [← isDirty]
            exact Function.update_eq_self _ _
          simp only [unchanged]
          exact next
        | true =>
          have reading : (Function.update state.syncs thread
              (.consumed scope image todo) thread).willRead image := by
            rw [Function.update_self]
            rfl
          refine sound.advance (held image List.mem_cons_self) rfl rfl rfl rfl
            sound.armed held ?_ (fun _ => id) (fun other _ => free other) ?_
          · intro other different
            exact ⟨Function.update_of_ne different _ _, rfl⟩
          · intro _
            exact ⟨.inr (.inl (.inr ⟨thread, reading⟩)), .inl (.inr ⟨thread, reading⟩)⟩
    · exact next
  · exact sound

theorem KeepsWrites.read (sound : KeepsWrites state) {readable : Bool}
    (losesNothing : LosesNothing state (.read thread readable)) :
    KeepsWrites (state.read thread readable) := by
  have held := sound.held thread
  rw [SyncState.read]
  split
  · rename_i scope image todo isPhase
    have reads : (state.syncs thread).willRead image := by
      rw [isPhase]
      rfl
    obtain ⟨notEmpty, fits, isReadable⟩ := losesNothing image reads
    have isSized : ¬ (image.byteCount = 0 ∨ maxPresentedTextureBytes < image.byteCount) :=
      not_or.mpr ⟨notEmpty, UInt64.not_lt.mpr fits⟩
    rw [if_neg isSized, if_pos isReadable]
    rw [isPhase] at held
    refine sound.advance (held image List.mem_cons_self) rfl rfl rfl rfl
      sound.armed held (fun _ _ => ⟨rfl, rfl⟩) (fun _ => id) ?_ ?_
    · intro other different
      rw [isPhase]
      exact ⟨Ne.symm different, fun _ => id, id⟩
    · intro _
      constructor
      · refine .inr (.inr ⟨thread, ?_⟩)
        change (Function.update state.syncs thread _ thread).hasRead image _
        rw [Function.update_self]
        exact ⟨rfl, Nat.le_refl _⟩
      · refine .inr (.inl ⟨thread, ?_⟩)
        change (Function.update state.syncs thread _ thread).isBehind image
        rw [Function.update_self]
        rfl
  · exact sound

theorem KeepsWrites.upload (sound : KeepsWrites state) (thread : Thread) :
    KeepsWrites (state.upload thread) := by
  have held := sound.held thread
  rw [SyncState.upload]
  split
  · rename_i scope image pixels todo isPhase
    rw [isPhase] at held
    have behind : (Function.update state.syncs thread
        (.rearming scope image todo) thread).isBehind image := by
      rw [Function.update_self]
      rfl
    refine sound.advance (held image List.mem_cons_self) rfl rfl rfl rfl
      sound.armed held ?_ (fun _ => id) ?_ ?_
    · intro other different
      exact ⟨rfl, Function.update_of_ne different _ _⟩
    · intro other different
      rw [isPhase]
      exact ⟨id, fun _ holds => different holds.1.symm, Ne.symm different⟩
    · intro tracked
      refine ⟨?_, .inr (.inl ⟨thread, behind⟩)⟩
      have isUploaded : Function.update state.uploaded image.address
          (max (state.uploaded image.address) pixels) image.address =
            max (state.uploaded image.address) pixels :=
        Function.update_self _ _ _
      rcases sound.kept image tracked with sent | isMarked | isRead
      · exact .inl (sent.trans ((Nat.le_max_left _ _).trans_eq isUploaded.symm))
      · refine .inr (.inl (isMarked.imp id fun reading => ?_))
        refine exists_update reading fun holds => ?_
        rw [isPhase] at holds
        exact holds
      · by_cases mine : state.writes image.address ≤ pixels
        · exact .inl (mine.trans ((Nat.le_max_right _ _).trans_eq isUploaded.symm))
        · refine .inr (.inr (exists_update isRead fun holds => ?_))
          rw [isPhase] at holds
          exact absurd holds.2 mine
  · exact sound

theorem KeepsWrites.rearm (sound : KeepsWrites state) (thread : Thread) :
    KeepsWrites (state.rearm thread true) := by
  have held := sound.held thread
  rw [SyncState.rearm]
  split
  · rename_i scope image todo isPhase
    rw [isPhase] at held
    have free (other : GuestImageExtent) : ¬ (state.syncs thread).willRead other ∧
        (∀ count, ¬ (state.syncs thread).hasRead other count) := by
      rw [isPhase]
      exact ⟨id, fun _ => id⟩
    have todoHeld (other : GuestImageExtent) (member : other ∈ todo) : other ∈ state.extents :=
      held other (List.mem_cons_of_mem _ member)
    have behindFree (other : GuestImageExtent) (different : other ≠ image) :
        ¬ (state.syncs thread).willRead other ∧
        (∀ count, ¬ (state.syncs thread).hasRead other count) ∧
        ¬ (state.syncs thread).isBehind other := by
      refine ⟨(free other).1, (free other).2, ?_⟩
      rw [isPhase]
      exact Ne.symm different
    rw [HLE.Tracker.rearm]
    cases isRange : state.tracker.lookup image.address with
    | none =>
      refine sound.advance (held image List.mem_cons_self) rfl rfl rfl rfl
        sound.armed todoHeld (fun _ _ => ⟨rfl, rfl⟩) (fun _ => id) behindFree ?_
      intro tracked
      exact absurd isRange (HLE.Tracker.lookup_ne_none tracked.1)
    | some range =>
      obtain ⟨isMember, sameAddress⟩ := HLE.Tracker.lookup_eq_some isRange
      have nowGuarded := HLE.Tracker.guards_armLocked (sound.armed range isMember)
      have sameDirty := HLE.Tracker.armLocked_isDirty state.tracker range true
      change KeepsWrites ({ state with
        tracker := state.tracker.armLocked range true }.setSync thread (.scanning scope todo))
      refine sound.advance (held image List.mem_cons_self)
        (HLE.Tracker.armLocked_ranges _ _ _) rfl rfl rfl ?_ todoHeld
        (fun other _ => ⟨congrFun sameDirty _, rfl⟩)
        (fun _ guards => guards.armLocked true) behindFree ?_
      · intro other member isArmed
        by_cases same : other.address = range.address
        · rw [sound.ranges other member range isMember same]
          exact nowGuarded
        · apply HLE.Tracker.Guards.armLocked
          apply sound.armed other member
          rw [← HLE.Tracker.armLocked_isArmed_ne same true]
          exact isArmed
      · intro tracked
        have isSame : image = range :=
          sound.ranges image tracked.1 range isMember sameAddress.symm
        subst isSame
        refine ⟨?_, .inr (.inr nowGuarded)⟩
        rcases sound.kept image tracked with sent | isMarked | isRead
        · exact .inl sent
        · refine .inr (.inl (isMarked.imp (fun isDirty => ?_) fun reading => ?_))
          · exact (congrFun sameDirty _).trans isDirty
          · exact exists_update reading fun holds =>
              absurd holds (free image).1
        · exact .inr (.inr (exists_update isRead fun holds =>
            absurd holds ((free image).2 _)))
  · exact sound

theorem KeepsWrites.step {action : SyncAction Thread} (sound : KeepsWrites state)
    (losesNothing : LosesNothing state action)
    (taken : SyncStep state action after) : KeepsWrites after := by
  cases taken with
  | fault address unprotects => exact sound.fault address unprotects
  | store address isWritable => exact sound.store isWritable losesNothing
  | begin thread scope isIdle => exact sound.begin scope isIdle
  | consume thread => exact sound.consume thread
  | read thread readable => exact sound.read losesNothing
  | upload thread => exact sound.upload thread
  | rearm thread protects =>
    have isTrue : protects = true := losesNothing
    rw [isTrue]
    exact sound.rearm thread

end Steps

section Results

variable {Thread : Type} [DecidableEq Thread]

/-- A set of images: one for each address, none at the end of the address
space. -/
structure GuestImages where
  images : List GuestImageExtent
  distinct : (images.map TrackedRange.address).Nodup
  fits : ∀ image ∈ images, image.Fits

theorem GuestImages.unique (set : GuestImages) : ∀ image ∈ set.images, ∀ other ∈ set.images,
      image.address = other.address → image = other := by
  intro image member other otherMember same
  exact List.inj_on_of_nodup_map set.distinct member otherMember same

structure Tracks (tracker : Tracker) (images : List GuestImageExtent) : Prop where
  ranges : ∀ image ∈ tracker.ranges, image ∈ images
  clean : ∀ image, tracker.isDirty image = false
  guards : ∀ image ∈ tracker.ranges, tracker.Guards image

variable {tracker : Tracker}

theorem Tracks.track {images : List GuestImageExtent}
    (tracks : Tracks tracker images) (image : GuestImageExtent)
    (fresh : ∀ other ∈ images, other.address ≠ image.address) :
    Tracks (tracker.track image.address image.byteCount true) (images ++ [image]) := by
  rw [HLE.Tracker.track]
  split
  · exact ⟨fun other member => List.mem_append_left _ (tracks.ranges other member),
      tracks.clean, tracks.guards⟩
  · have isNew : tracker.lookup image.address = none := by
      apply List.find?_eq_none.mpr
      intro other member same
      exact fresh other (tracks.ranges other member) (of_decide_eq_true same)
    simp only [isNew]
    have replaced : (tracker.replaceRange image).ranges = tracker.ranges ++ [image] := by
      change tracker.ranges.filter _ ++ [image] = _
      rw [List.filter_eq_self.mpr]
      intro other member
      exact decide_eq_true (fresh other (tracks.ranges other member))
    have isFree : (tracker.replaceRange image).isArmed image.address = false :=
      Function.update_self _ _ _
    constructor
    · intro other member
      rw [HLE.Tracker.armLocked_ranges] at member
      rcases List.mem_append.mp (replaced ▸ member) with isOld | isImage
      · exact List.mem_append_left _ (tracks.ranges other isOld)
      · exact List.mem_append_right _ isImage
    · intro other
      rw [HLE.Tracker.armLocked_isDirty, HLE.Tracker.replaceRange]
      by_cases same : other = image.address
      · rw [same]
        exact Function.update_self _ _ _
      · exact (Function.update_of_ne same _ _).trans (tracks.clean other)
    · intro other member
      rw [HLE.Tracker.armLocked_ranges] at member
      rcases List.mem_append.mp (replaced ▸ member) with isOld | isImage
      · have kept : (tracker.replaceRange image).Guards other :=
          tracks.guards other isOld
        exact kept.armLocked true
      · rw [List.mem_singleton.mp isImage]
        apply HLE.Tracker.guards_armLocked
        intro isArmed
        exact absurd isArmed (by rw [isFree]; simp)

theorem tracks_foldl (images : List GuestImageExtent)
    {earlier : List GuestImageExtent} (tracks : Tracks tracker earlier)
    (distinct : ((earlier ++ images).map TrackedRange.address).Nodup) :
    Tracks (images.foldl (fun tracker range => tracker.track range.address range.byteCount true)
      tracker) (earlier ++ images) := by
  induction images generalizing tracker earlier with
  | nil =>
    rw [List.append_nil]
    exact tracks
  | cons image rest ih =>
    rw [List.foldl_cons]
    have fresh : ∀ other ∈ earlier, other.address ≠ image.address := by
      intro other member same
      rw [List.map_append, List.map_cons, List.nodup_append] at distinct
      exact distinct.2.2 _ (List.mem_map_of_mem member) _ List.mem_cons_self same
    have next := ih (tracks.track image fresh)
    rw [List.append_assoc, List.singleton_append] at next
    exact next distinct

theorem Tracks.new : Tracks Tracker.new [] where
  ranges := by simp [HLE.Tracker.new]
  clean := fun _ => rfl
  guards := by simp [HLE.Tracker.new]

omit [DecidableEq Thread] in
theorem keepsWrites_start (tracked extents : GuestImages) :
    KeepsWrites (SyncState.start tracked.images extents.images : SyncState Thread) := by
  have tracks : Tracks _ ([] ++ tracked.images) :=
    tracks_foldl tracked.images .new tracked.distinct
  rw [List.nil_append] at tracks
  constructor
  · intro image member other otherMember same
    exact tracked.unique image (tracks.ranges image member) other
      (tracks.ranges other otherMember) same
  · exact extents.unique
  · exact fun image member => tracked.fits image (tracks.ranges image member)
  · exact fun image member _ => tracks.guards image member
  · intro thread image member
    cases member
  · exact fun image _ => .inl (Nat.le_refl _)
  · exact fun image isTracked => .inr (.inr (tracks.guards image isTracked.1))

/-- While no step loses anything, every write to a tracked image is in an upload,
or will be read or uploaded by a sync under way, or leaves the image dirty. -/
theorem no_write_lost (tracked extents : GuestImages) (state : SyncState Thread)
    (reachable : Reachable (fun start => start = SyncState.start tracked.images extents.images)
      (onlyWhen LosesNothing SyncStep) state)
    (image : GuestImageExtent) (isTracked : state.IsTracked image) :
    state.Kept image := by
  have sound : KeepsWrites state := by
    apply reachable.invariant_onlyWhen
    · rintro _ rfl
      exact keepsWrites_start tracked extents
    · intro before action after sound losesNothing taken
      exact sound.step losesNothing taken
  exact sound.kept image isTracked

end Results

section Samples

def singleImage : GuestImages where
  images := [⟨0x10000, 0x1000⟩]
  distinct := List.nodup_singleton _
  fits := by
    intro image member
    rw [List.mem_singleton.mp member, TrackedRange.Fits]
    decide

def untouchedImage : SyncState Unit :=
  .start singleImage.images singleImage.images

/-- One write has faulted and landed. -/
def writtenImage : SyncState Unit :=
  (untouchedImage.fault 0x10000 true).store 0x10000

def readImage : SyncState Unit :=
  ((writtenImage.begin () ⟨0, 0xffffffffffffffff⟩).consume ()).read () true

theorem no_write_lost_sample : (readImage.upload ()).Kept ⟨0x10000, 0x1000⟩ := by
  have started : Reachable (fun start => start = untouchedImage)
      (onlyWhen LosesNothing SyncStep) untouchedImage := .start rfl
  have fault : onlyWhen LosesNothing SyncStep untouchedImage
      (.fault 0x10000 true) _ := ⟨trivial, .fault 0x10000 true⟩
  have store : onlyWhen LosesNothing SyncStep
      (untouchedImage.fault 0x10000 true) (.store 0x10000) writtenImage := by
    refine ⟨?_, .store 0x10000 rfl⟩
    intro image tracked _
    rw [List.mem_singleton.mp tracked.1]
    exact .inl (.inl rfl)
  have begin : onlyWhen LosesNothing SyncStep writtenImage
      (.begin () ⟨0, 0xffffffffffffffff⟩) _ := ⟨trivial, .begin () _ rfl⟩
  have consume : onlyWhen LosesNothing SyncStep
      (writtenImage.begin () ⟨0, 0xffffffffffffffff⟩) (.consume ()) _ :=
    ⟨trivial, .consume ()⟩
  have read : onlyWhen LosesNothing SyncStep
      ((writtenImage.begin () ⟨0, 0xffffffffffffffff⟩).consume ())
      (.read () true) readImage := by
    refine ⟨?_, .read () true⟩
    intro image reading
    have isImage : ⟨0x10000, 0x1000⟩ = image := reading
    rw [← isImage]
    decide
  have upload : onlyWhen LosesNothing SyncStep readImage (.upload ()) _ :=
    ⟨trivial, .upload ()⟩
  exact no_write_lost singleImage singleImage _
    ((((((started.next fault).next store).next begin).next consume).next
      read).next upload) ⟨0x10000, 0x1000⟩
    ⟨List.mem_singleton_self _, List.mem_singleton_self _⟩

/-- A write that lands between the read and the arming is lost. -/
theorem write_behind_read_lost : ¬ ∀ (tracked extents : GuestImages) (state : SyncState Unit),
      Reachable (fun start => start = SyncState.start tracked.images extents.images)
        SyncStep state →
      ∀ image, state.IsTracked image → state.Kept image := by
  intro kept
  have started : Reachable (fun start => start = untouchedImage) SyncStep
      untouchedImage := .start rfl
  have written := (started.next (.fault 0x10000 true)).next (.store 0x10000 rfl)
  have read := ((written.next (.begin () ⟨0, 0xffffffffffffffff⟩ rfl)).next
    (.consume ())).next (.read () true)
  have lost := ((((read.next (.store 0x10008 rfl)).next (.upload ())).next
    (.rearm () true)).next (.consume ()))
  rcases kept singleImage singleImage _ lost ⟨0x10000, 0x1000⟩
      ⟨List.mem_singleton_self _, List.mem_singleton_self _⟩ with
    sent | (isDirty | ⟨_, reading⟩) | ⟨_, isRead⟩
  · revert sent
    decide
  · revert isDirty
    decide
  · cases reading
  · cases isRead

end Samples

end SharpEmu.Agc
