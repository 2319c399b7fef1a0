import SharpEmu.PresentedSurfaces
import SharpEmu.TransitionRuns

/-!
# Runs of presents

Presents and writes of the guest follow each other.  A copy that is left out is
harmless as long as an earlier present has shown the same pixels of the same texture
in the display buffer and the display buffer still holds what it held then.
-/

namespace SharpEmu.SoftwarePresenter

open Addressed

/-! ## Steps -/

inductive PresentAction where
  | present (source : TextureDescriptor) (displayBuffer : Option DisplayBufferInfo)
  | write (address : UInt64) (data : List UInt8)

structure PresentEvent where
  before : GuardedMemory
  source : TextureDescriptor
  displayBuffer : Option DisplayBufferInfo
  result : Option Bool
  after : GuardedMemory

structure RunState where
  presenter : PresenterState
  history : List PresentEvent

/-- Nothing has been presented. -/
def IsFresh (state : RunState) : Prop :=
  (∀ key, state.presenter.fingerprints key = none) ∧ state.history = []

def stepOf (state : RunState) : PresentAction → RunState
  | .present source displayBuffer =>
      let ended := trySoftwarePresent state.presenter source displayBuffer
      ⟨ended.1, ⟨state.presenter.memory, source, displayBuffer, ended.2,
        ended.1.memory⟩ :: state.history⟩
  | .write address data =>
      { state with
        presenter.memory :=
          (state.presenter.memory.tryWrite address data).getD state.presenter.memory }

def takesStep (before : RunState) (action : PresentAction) (after : RunState) :
    Prop :=
  stepOf before action = after

variable {state : RunState}

theorem reachable_stepOf (reachable : Reachable IsFresh takesStep state) (action : PresentAction) :
    Reachable IsFresh takesStep (stepOf state action) :=
  .next reachable (rfl : takesStep state action _)

/-! ## Left out copies -/

def IsLeftOut (state : PresenterState) (source : TextureDescriptor)
    (destination : DisplayBufferInfo) (sourceBytes : List UInt8) : Prop :=
  readSource state.memory source = some sourceBytes ∧
    state.fingerprints (source.address, destination.address) = some (computeFingerprint sourceBytes)

def IsStillShown (state : RunState) (source : TextureDescriptor)
    (destination : DisplayBufferInfo) (sourceBytes : List UInt8) : Prop :=
  ∃ shown ∈ state.history, shown.source = source ∧
    shown.displayBuffer = some destination ∧ shown.result = some true ∧
    readSource shown.before source = some sourceBytes ∧
    ∀ y < destination.height, ∀ x < destination.width,
      heldPixel state.presenter.memory destination y x = heldPixel shown.after destination y x

def IsPresentedSafely (state : RunState) : PresentAction → Prop
  | .present source displayBuffer =>
      ∀ destination, displayBuffer = some destination → IsCopied source destination →
          HasPackedRows source destination ∧ ∀ sourceBytes,
              IsLeftOut state.presenter source destination sourceBytes →
                IsStillShown state source destination sourceBytes
  | .write _ _ => True

/-- A present that returns true has left its pixels in the display buffer. -/
def PresentEvent.IsFaithful (event : PresentEvent) : Prop :=
  event.result = some true → ∃ destination, event.displayBuffer = some destination ∧
      Shows event.before event.after event.source destination

def AllFaithful (state : RunState) : Prop :=
  ∀ event ∈ state.history, event.IsFaithful

variable {source : TextureDescriptor}

theorem shows_of_isStillShown {destination : DisplayBufferInfo} {sourceBytes : List UInt8}
    (faithful : AllFaithful state) (packed : HasPackedRows source destination)
    (isRead : readSource state.presenter.memory source = some sourceBytes)
    (still : IsStillShown state source destination sourceBytes) :
    Shows state.presenter.memory state.presenter.memory source destination := by
  obtain ⟨shown, member, rfl, isBuffer, succeeded, wasRead, isHeld⟩ := still
  obtain ⟨_, isBufferToo, shows⟩ := faithful shown member succeeded
  obtain rfl := Option.some.inj (isBuffer.symm.trans isBufferToo)
  intro y inHeight x inWidth
  obtain ⟨pixel, isExpected, wasHeld⟩ := shows y inHeight x inWidth
  rw [← destinationPixel_of_packed wasRead packed inHeight inWidth,
    destinationPixel_of_packed isRead packed inHeight inWidth] at isExpected
  exact ⟨pixel, isExpected, (isHeld y inHeight x inWidth).trans wasHeld⟩

/-! ## Faithful presents -/

theorem isFaithful_of_isPresentedSafely {displayBuffer : Option DisplayBufferInfo}
    (faithful : AllFaithful state)
    (safe : IsPresentedSafely state (.present source displayBuffer))
    (succeeds : (trySoftwarePresent state.presenter source displayBuffer).2 = some true) :
    ∃ destination, displayBuffer = some destination ∧ Shows state.presenter.memory
        (trySoftwarePresent state.presenter source displayBuffer).1.memory source
        destination := by
  cases displayBuffer with
  | none => cases succeeds
  | some destination =>
    refine ⟨destination, rfl, ?_⟩
    unfold trySoftwarePresent at succeeds ⊢
    dsimp only at succeeds ⊢
    split at succeeds
    · cases succeeds
    next isCopied =>
      rw [if_neg isCopied]
      rw [not_not] at isCopied
      obtain ⟨packed, leftOut⟩ := safe destination rfl isCopied
      split at succeeds
      · cases succeeds
      next sourceBytes isRead =>
        split at succeeds
        next remembered =>
          rw [if_pos remembered]
          exact shows_of_isStillShown faithful packed isRead
            (leftOut sourceBytes ⟨isRead, remembered⟩)
        next forgotten =>
          rw [if_neg forgotten]
          exact shows_of_copyPixels isCopied packed isRead (Prod.ext rfl succeeds)

/-- In a run whose presents are all made safely, each present that returns true has
left the pixels of its texture in the display buffer. -/
theorem presents_faithful {state : RunState}
    (reachable : Reachable IsFresh (onlyWhen IsPresentedSafely takesStep) state) :
    AllFaithful state := by
  apply reachable.invariant_onlyWhen
  · rintro start ⟨-, isEmpty⟩ event member
    rw [isEmpty] at member
    cases member
  · rintro before action after faithful safe rfl
    cases action with
    | write address data => exact faithful
    | present source displayBuffer =>
      intro event member
      obtain rfl | earlier := List.mem_cons.mp member
      · exact isFaithful_of_isPresentedSafely faithful safe
      · exact faithful event earlier

theorem reachable_safely {action : PresentAction}
    (reachable : Reachable IsFresh (onlyWhen IsPresentedSafely takesStep) state)
    (safe : IsPresentedSafely state action) :
    Reachable IsFresh (onlyWhen IsPresentedSafely takesStep) (stepOf state action) :=
  .next reachable ⟨safe, rfl⟩

/-! ## An overwritten display buffer -/

def onePixel : TextureDescriptor :=
  ⟨0x1000, 1, 1, gen5TextureFormatR8G8B8A8Unorm, 0, gen5TextureType2D, 64⟩

def oneCell : DisplayBufferInfo := ⟨0x2000, .a8b8g8r8Srgb, 0, 1, 1, 0⟩

def freshRun : RunState :=
  ⟨⟨⟨fun address => some (if address < 0x2000 then 7 else 0), fun _ => true⟩,
    fun _ => none⟩, []⟩

def presentOnePixel : PresentAction := .present onePixel (some oneCell)

def presentedAround (address : UInt64) : RunState :=
  [presentOnePixel, .write address [9, 9, 9, 9], presentOnePixel].foldl stepOf freshRun

theorem isFresh_freshRun : IsFresh freshRun := ⟨fun _ => rfl, rfl⟩

theorem packed_onePixel : HasPackedRows onePixel oneCell := .inr (.inl rfl)

theorem isPresentedSafely_first : IsPresentedSafely freshRun presentOnePixel := by
  intro destination isBuffer _
  obtain rfl := Option.some.inj isBuffer
  refine ⟨packed_onePixel, fun sourceBytes leftOut => ?_⟩
  cases leftOut.2

theorem isPresentedSafely_write : IsPresentedSafely (stepOf freshRun presentOnePixel)
      (.write 0x3000 [9, 9, 9, 9]) :=
  trivial

theorem isPresentedSafely_again : IsPresentedSafely
      (stepOf (stepOf freshRun presentOnePixel) (.write 0x3000 [9, 9, 9, 9]))
      presentOnePixel := by
  intro destination isBuffer _
  obtain rfl := Option.some.inj isBuffer
  refine ⟨packed_onePixel, fun sourceBytes leftOut => ?_⟩
  have isRead : readSource (stepOf (stepOf freshRun presentOnePixel)
      (.write 0x3000 [9, 9, 9, 9])).presenter.memory onePixel = some [7, 7, 7, 7] := by
    decide +kernel
  obtain rfl := Option.some.inj (leftOut.1.symm.trans isRead)
  refine ⟨_, List.mem_cons_self, rfl, rfl, by decide +kernel, by decide +kernel, ?_⟩
  intro y inHeight x inWidth
  obtain rfl := Nat.lt_one_iff.mp inHeight
  obtain rfl := Nat.lt_one_iff.mp inWidth
  decide +kernel

/-- The second copy is left out, and the display buffer still holds the pixel. -/
theorem presents_faithful_again : AllFaithful (presentedAround 0x3000) ∧
      ((presentedAround 0x3000).history.map (·.result)) = [some true, some true] :=
  ⟨presents_faithful (reachable_safely (reachable_safely
        (reachable_safely (.start isFresh_freshRun) isPresentedSafely_first)
        isPresentedSafely_write)
      isPresentedSafely_again), by decide +kernel⟩

theorem present_leaves_overwritten_pixel :
    ∃ state, Reachable IsFresh takesStep state ∧ ¬ AllFaithful state := by
  refine ⟨presentedAround 0x2000, ?_, fun faithful => ?_⟩
  · have first := reachable_stepOf (.start isFresh_freshRun) presentOnePixel
    have second := reachable_stepOf first (.write 0x2000 [9, 9, 9, 9])
    exact reachable_stepOf second presentOnePixel
  obtain ⟨destination, isBuffer, shows⟩ :=
    faithful _ List.mem_cons_self (by decide +kernel)
  obtain rfl := Option.some.inj isBuffer
  obtain ⟨pixel, isExpected, isHeld⟩ := shows 0 (by decide) 0 (by decide)
  have expected : expectedPixel (stepOf (stepOf freshRun presentOnePixel)
      (.write 0x2000 [9, 9, 9, 9])).presenter.memory onePixel oneCell 0 0 = some [7, 7, 7, 7] := by
    decide +kernel
  have held : heldPixel (presentedAround 0x2000).presenter.memory oneCell 0 0 =
      some [9, 9, 9, 9] := by
    decide +kernel
  obtain rfl := Option.some.inj (isExpected.symm.trans expected)
  cases isHeld.symm.trans held

end SharpEmu.SoftwarePresenter
