import SharpEmu.VulkanGuestWorkRuns

/-!
# Presentations that wait for guest work

A presentation records one sequence number and is handed out when that number is
complete.  The number stands for all the items the presentation depends on: the
writers of a flipped image, or the items of the submitting queue.  That is right
for an item of the queue of the recorded one that runs before it; it is wrong
when the recorded number is the later one only by count, as a follow-up's is.
-/

namespace SharpEmu.VideoOut

open Presenter

variable {Name : Type} [DecidableEq Name]
variable {presenter after : Presenter Name} {queue : Name}

section Model

def maxPendingGuestFlipVersions : ℕ := 4

def Presenter.nextPresentation (presenter : Presenter Name) : ℕ :=
  match presenter.latestPresentation with
  | some latest => latest.sequence + 1
  | none => 1

def enqueueFlip (presenter : Presenter Name) (flip : Presentation) :
    Presenter Name :=
  let flips := presenter.pendingGuestImagePresentations ++ [flip]
  { presenter with
    latestPresentation := some flip
    pendingGuestImagePresentations :=
      flips.drop (flips.length - maxPendingGuestFlipVersions) }

/-- The accepted items that write an image. -/
def writersOf (presenter : Presenter Name) (address : UInt64) : List (PendingGuestWork Name) :=
  presenter.accepted.filter fun item => address ∈ item.work.writes

def requiredForImage (presenter : Presenter Name) (address : UInt64) : ℕ :=
  match presenter.guestImageWorkSequences address with
  | some sequence => sequence
  | none => presenter.completedGuestWork.upTo

def trySubmitGuestImage (presenter : Presenter Name) (address : UInt64)
    (width height : UInt32) : Presenter Name :=
  if presenter.availableGuestImages address then
    enqueueFlip presenter
      { hasPixels := false
        width := width
        height := height
        sequence := presenter.nextPresentation
        drawKind := .none
        requiredGuestWorkSequence := requiredForImage presenter address
        guestImageAddress := address
        dependsOn := (writersOf presenter address).map PendingGuestWork.sequence }
  else presenter

def currentSubmittingQueueTailLocked (presenter : Presenter Name) : Option Name → ℕ
  | some queue => (presenter.lastEnqueuedGuestWorkByQueue queue).getD 0
  | none => 0

def presentDraw (presenter : Presenter Name) (default : Name)
    (submitting : Option Name) (drawKind : GuestDrawKind)
    (width height : UInt32) : Presenter Name :=
  { presenter with
    latestPresentation := some
      { hasPixels := false
        width := width
        height := height
        sequence := presenter.nextPresentation
        drawKind := drawKind
        requiredGuestWorkSequence :=
          currentSubmittingQueueTailLocked presenter submitting
        guestImageAddress := 0
        dependsOn := (onQueue (submitting.getD default) presenter.accepted).map
          PendingGuestWork.sequence } }

def isLatestDraw (presenter : Presenter Name) (drawKind : GuestDrawKind)
    (width height : UInt32) : Bool :=
  match presenter.latestPresentation with
  | some latest =>
      latest.hasPixels = false && latest.drawKind = drawKind &&
        latest.width = width && latest.height = height
  | none => false

def submitGuestDraw (presenter : Presenter Name) (default : Name)
    (submitting : Option Name) (drawKind : GuestDrawKind)
    (width height : UInt32) : Presenter Name :=
  if drawKind = .none ∨ width = 0 ∨ height = 0 then presenter
  else if isLatestDraw presenter drawKind width height then presenter
  else presentDraw presenter default submitting drawKind width height

def submitTranslatedDraw (presenter : Presenter Name) (default : Name)
    (submitting : Option Name) (width height : UInt32) (pixelSpirvLength : ℕ) :
    Presenter Name :=
  if pixelSpirvLength = 0 ∨ width = 0 ∨ height = 0 then presenter
  else presentDraw presenter default submitting .none width height

def submitFrame (presenter : Presenter Name) (width height : UInt32) :
    Presenter Name :=
  { presenter with
    latestPresentation := some
      { hasPixels := true
        width := width
        height := height
        sequence := presenter.nextPresentation
        drawKind := .none
        requiredGuestWorkSequence := 0
        guestImageAddress := 0
        dependsOn := [] } }

/-- An ordered flip presents a copy that it captures itself, and no guest work
writes the copy. -/
def executeOrderedGuestFlip (presenter : Presenter Name)
    (item : PendingGuestWork Name) (address : UInt64) (width height : UInt32) :
    Presenter Name :=
  enqueueFlip presenter
    { hasPixels := false
      width := width
      height := height
      sequence := presenter.nextPresentation
      drawKind := .none
      requiredGuestWorkSequence := item.sequence
      guestImageAddress := address
      dependsOn := [] }

/-- Hand out the first flip, or else the latest presentation, if what it
requires is complete. -/
def tryTakePresentation (presenter : Presenter Name) (presentedSequence : ℕ) :
    Option Presentation × Presenter Name :=
  let flips := presenter.pendingGuestImagePresentations.dropWhile
    fun flip => flip.sequence ≤ presentedSequence
  let dropped := { presenter with pendingGuestImagePresentations := flips }
  match flips with
  | flip :: rest =>
      if presenter.isGuestWorkCompletedLocked flip.requiredGuestWorkSequence then
        (some flip, { presenter with pendingGuestImagePresentations := rest })
      else (none, dropped)
  | [] =>
      match presenter.latestPresentation with
      | none => (none, dropped)
      | some latest =>
          if latest.sequence = presentedSequence then (none, dropped)
          else if presenter.isGuestWorkCompletedLocked latest.requiredGuestWorkSequence then
            (some latest, dropped)
          else (none, dropped)

end Model

section Steps

inductive PresentationAction (Name : Type)
  | work (action : Action Name)
  | images (available : UInt64 → Bool)
  | submitImage (address : UInt64) (width height : UInt32)
  | submitDraw (submitting : Option Name) (drawKind : GuestDrawKind)
      (width height : UInt32)
  | submitTranslatedDraw (submitting : Option Name) (width height : UInt32)
      (pixelSpirvLength : ℕ)
  | submitFrame (width height : UInt32)
  | executeFlip (address : UInt64) (width height : UInt32)
  | take (presentedSequence : ℕ)

inductive PresentationStep (default : Name) (maxItems : ℕ) (maxBytes : UInt64)
    (presenter : Presenter Name) :
    PresentationAction Name → Presenter Name → Prop
  | work (action : Action Name) (after : Presenter Name) :
      Step maxItems maxBytes presenter action after →
      PresentationStep default maxItems maxBytes presenter (.work action) after
  | images (available : UInt64 → Bool) :
      PresentationStep default maxItems maxBytes presenter (.images available)
        { presenter with availableGuestImages := available }
  | submitImage (address : UInt64) (width height : UInt32) :
      PresentationStep default maxItems maxBytes presenter
        (.submitImage address width height)
        (trySubmitGuestImage presenter address width height)
  | submitDraw (submitting : Option Name) (drawKind : GuestDrawKind)
      (width height : UInt32) :
      PresentationStep default maxItems maxBytes presenter
        (.submitDraw submitting drawKind width height)
        (submitGuestDraw presenter default submitting drawKind width height)
  | submitTranslatedDraw (submitting : Option Name) (width height : UInt32)
      (pixelSpirvLength : ℕ) :
      PresentationStep default maxItems maxBytes presenter
        (.submitTranslatedDraw submitting width height pixelSpirvLength)
        (submitTranslatedDraw presenter default submitting width height
          pixelSpirvLength)
  | submitFrame (width height : UInt32) :
      PresentationStep default maxItems maxBytes presenter
        (.submitFrame width height) (submitFrame presenter width height)
  | executeFlip (execution : Execution Name) (address : UInt64)
      (width height : UInt32) :
      presenter.executing = some execution →
      execution.item.work = .orderedFlip address →
      PresentationStep default maxItems maxBytes presenter
        (.executeFlip address width height)
        (executeOrderedGuestFlip presenter execution.item address width height)
  | take (presentedSequence : ℕ) :
      PresentationStep default maxItems maxBytes presenter
        (.take presentedSequence)
        (tryTakePresentation presenter presentedSequence).2

end Steps

section Ordering

variable {item : PendingGuestWork Name}

omit [DecidableEq Name] in
theorem Numbered.sequence_pos (numbered : Numbered presenter) (member : item ∈ presenter.accepted) :
    0 < item.sequence := by
  have listed := List.mem_map_of_mem (f := PendingGuestWork.sequence) member
  rw [numbered.numbers, List.mem_range'_1] at listed
  omega

omit [DecidableEq Name] in
theorem Numbered.not_holds (numbered : Numbered presenter) (member : item ∈ presenter.unfinished) :
    ¬ presenter.completedGuestWork.Holds item.sequence := by
  intro holds
  have accepted : item ∈ presenter.accepted :=
    numbered.partition.mem_iff.mpr (List.mem_append_right _ member)
  rcases (numbered.completed _).mp holds with isZero | ⟨other, isDone, same⟩
  · have positive := numbered.sequence_pos accepted
    omega
  · have nodup : ((presenter.finished ++ presenter.unfinished).map
        PendingGuestWork.sequence).Nodup := by
      rw [← (numbered.partition.map _).nodup_iff, numbered.numbers]
      exact List.nodup_range'
    rw [List.map_append, List.nodup_append] at nodup
    exact nodup.2.2 _ (List.mem_map_of_mem isDone) _ (List.mem_map_of_mem member) same

theorem line_subset (member : item ∈ presenter.line queue) : item ∈ presenter.unfinished := by
  rcases List.mem_append.mp member with isRunning | isQueued
  · exact List.mem_append_left _ (List.mem_of_mem_filter isRunning)
  · exact List.mem_append_right _ (Buckets.mem_items.mpr ⟨queue, isQueued⟩)

theorem Sound.holds_of_sublist (sound : Sound presenter) {earlier required : ℕ}
    (inOrder : [earlier, required].Sublist (presenter.programOrder queue))
    (holds : presenter.completedGuestWork.Holds required) :
    presenter.completedGuestWork.Holds earlier := by
  rw [sound.inLine.inOrder, List.map_append, List.sublist_append_iff] at inOrder
  obtain ⟨front, back, isPair, inFinished, inLine⟩ := inOrder
  have isFront : back = [] := by
    by_contra present
    have isLast : required ∈ back := by
      have last : (front ++ back).getLast? = some required := by
        rw [← isPair]
        rfl
      rw [List.getLast?_append_of_ne_nil _ present] at last
      exact List.mem_of_getLast? last
    obtain ⟨item, member, isItem⟩ := List.mem_map.mp (inLine.subset isLast)
    apply sound.numbered.not_holds (line_subset member)
    rw [isItem]
    exact holds
  rw [isFront, List.append_nil] at isPair
  rw [← isPair] at inFinished
  obtain ⟨item, member, isItem⟩ :=
    List.mem_map.mp (inFinished.subset List.mem_cons_self)
  exact (sound.numbered.completed _).mpr (.inr ⟨item, List.mem_of_mem_filter member, isItem⟩)

theorem sublist_insertBehind (earlier sequence : ℕ) (sequences : List ℕ) :
    sequences.Sublist (insertBehind earlier sequence sequences) := by
  induction sequences with
  | nil => exact .slnil
  | cons first rest ih =>
    rw [insertBehind]
    split
    · exact .cons_cons _ (List.sublist_cons_self _ _)
    · exact .cons_cons _ ih

/-- What the guest work leaves to the presentations: the program orders and the
completed numbers only grow. -/
structure Extends (presenter after : Presenter Name) : Prop where
  programOrder : ∀ queue,
    (presenter.programOrder queue).Sublist (after.programOrder queue)
  completed : ∀ sequence, presenter.completedGuestWork.Holds sequence →
    after.completedGuestWork.Holds sequence
  latest : after.latestPresentation = presenter.latestPresentation
  flips : after.pendingGuestImagePresentations =
    presenter.pendingGuestImagePresentations

theorem sublist_update {order : Name → List ℕ} {sequences : List ℕ}
    (extended : (order queue).Sublist sequences) (other : Name) :
    (order other).Sublist (Function.update order queue sequences other) := by
  by_cases same : other = queue
  · rw [same, Function.update_self]
    exact extended
  · rw [Function.update_of_ne same]

theorem Step.extends {maxItems : ℕ} {maxBytes : UInt64} {action : Action Name}
    (sound : Sound presenter)
    (taken : Step maxItems maxBytes presenter action after) :
    Extends presenter after := by
  cases taken with
  | submit queue work _ _ =>
    obtain ⟨uploads, sequences, isNoted, _, _⟩ := noteSubmitted_spec
      (enqueueGuestWorkLocked presenter queue work)
      (presenter.enqueuedGuestWorkSequence + 1) work
    rw [VideoOut.submit, isNoted]
    exact ⟨sublist_update (List.sublist_append_left _ _), fun _ => id, rfl, rfl⟩
  | followUp execution work _ _ =>
    obtain ⟨uploads, sequences, isNoted, _, _⟩ := noteSubmitted_spec
      (enqueueImmediateFollowup presenter execution work)
      (presenter.enqueuedGuestWorkSequence + 1) work
    rw [submitFollowup, isNoted]
    exact ⟨sublist_update (sublist_insertBehind _ _ _), fun _ => id, rfl, rfl⟩
  | take excluded _ =>
    have probed : Probed excluded presenter (tryTakeGuestWork presenter excluded) :=
      probeQueues_spec presenter sound.scheduled _ _
    rw [VideoOut.take]
    generalize tryTakeGuestWork presenter excluded = result at probed
    cases probed with
    | nothing cursor => exact ⟨fun _ => .refl _, fun _ => id, rfl, rfl⟩
    | found cursor queue first rest _ _ _ _ =>
      obtain ⟨_, _, _, isRemoved⟩ :=
        removeFirst_eq presenter cursor queue rest
      simp only [isRemoved]
      exact ⟨fun _ => .refl _, fun _ => id, rfl, rfl⟩
  | requeue execution _ _ _ => exact ⟨fun _ => .refl _, fun _ => id, rfl, rfl⟩
  | complete execution _ =>
    exact ⟨fun _ => .refl _,
      fun _ holds => (Watermark.holds_complete _ _ _).mpr (.inl holds), rfl, rfl⟩

end Ordering

section Covering

/-- An item that is complete, or runs no later than the required one: it is that
item or stands before it on one queue. -/
def RunsBy (presenter : Presenter Name) (sequence required : ℕ) : Prop :=
  sequence = required ∨ ∃ queue, [sequence, required].Sublist (presenter.programOrder queue)

def Covered (presenter : Presenter Name) (presentation : Presentation) : Prop :=
  ∀ sequence ∈ presentation.dependsOn, presenter.completedGuestWork.Holds sequence ∨
      RunsBy presenter sequence presentation.requiredGuestWorkSequence

/-- The presentations that can still be handed out. -/
def recorded (presenter : Presenter Name) : List Presentation :=
  presenter.pendingGuestImagePresentations ++ presenter.latestPresentation.toList

variable {presentation : Presentation}

omit [DecidableEq Name] in
theorem Covered.extends (covered : Covered presenter presentation)
    (extended : Extends presenter after) : Covered after presentation := by
  intro sequence member
  rcases covered sequence member with holds | same | ⟨queue, inOrder⟩
  · exact .inl (extended.completed sequence holds)
  · exact .inr (.inl same)
  · exact .inr (.inr ⟨queue, inOrder.trans (extended.programOrder queue)⟩)

theorem Covered.complete (covered : Covered presenter presentation) (sound : Sound presenter)
    (isComplete : presenter.completedGuestWork.Holds presentation.requiredGuestWorkSequence)
    (sequence : ℕ) (member : sequence ∈ presentation.dependsOn) :
    presenter.completedGuestWork.Holds sequence := by
  rcases covered sequence member with holds | same | ⟨queue, inOrder⟩
  · exact holds
  · rw [same]
    exact isComplete
  · exact sound.holds_of_sublist inOrder isComplete

def RequiresLast (default : Name) (presenter : Presenter Name) : PresentationAction Name → Prop
  | .submitImage address _ _ =>
      ∀ item ∈ presenter.unfinished, address ∈ item.work.writes →
        RunsBy presenter item.sequence (requiredForImage presenter address)
  | .submitDraw submitting _ _ _ | .submitTranslatedDraw submitting _ _ _ =>
      ∀ item ∈ onQueue (submitting.getD default) presenter.unfinished,
        RunsBy presenter item.sequence (currentSubmittingQueueTailLocked presenter submitting)
  | _ => True

structure Prepared (presenter : Presenter Name) : Prop where
  sound : Sound presenter
  covered : ∀ presentation ∈ recorded presenter, Covered presenter presentation

theorem Prepared.new : Prepared (Presenter.new : Presenter Name) where
  sound := ⟨.new, .new, .new⟩
  covered := by
    intro presentation member
    cases member

theorem Sound.present (sound : Sound presenter) (available : UInt64 → Bool)
    (latest : Option Presentation) (flips : List Presentation) :
    Sound { presenter with
      availableGuestImages := available
      latestPresentation := latest
      pendingGuestImagePresentations := flips } where
  scheduled := sound.scheduled.same rfl rfl rfl
  numbered := sound.numbered.moved rfl rfl (.refl _) rfl rfl rfl rfl
    fun _ member => sound.numbered.ready _ (List.mem_append_right _ member)
  inLine := ⟨sound.inLine.inOrder, sound.inLine.rising, sound.inLine.tail⟩

variable {maxItems : ℕ} {maxBytes : UInt64}

theorem Prepared.work {action : Action Name} (prepared : Prepared presenter)
    (taken : Step maxItems maxBytes presenter action after) :
    Prepared after := by
  have extended := taken.extends prepared.sound
  refine ⟨prepared.sound.step taken, ?_⟩
  intro presentation member
  rw [recorded, extended.latest, extended.flips] at member
  exact (prepared.covered presentation member).extends extended

theorem Prepared.present (prepared : Prepared presenter)
    (available : UInt64 → Bool) {latest : Option Presentation}
    {flips : List Presentation}
    (covered : ∀ presentation ∈ flips ++ latest.toList,
      presentation ∈ recorded presenter ∨ Covered presenter presentation) :
    Prepared { presenter with
      availableGuestImages := available
      latestPresentation := latest
      pendingGuestImagePresentations := flips } where
  sound := prepared.sound.present available latest flips
  covered := by
    intro presentation member
    rcases covered presentation member with isOld | isNew
    · exact prepared.covered presentation isOld
    · exact isNew

theorem Prepared.enqueueFlip (prepared : Prepared presenter)
    {flip : Presentation} (covered : Covered presenter flip) :
    Prepared (enqueueFlip presenter flip) := by
  apply prepared.present presenter.availableGuestImages
  intro presentation member
  rcases List.mem_append.mp member with isFlip | isLatest
  · rcases List.mem_append.mp (List.mem_of_mem_drop isFlip) with isOld | isNew
    · exact .inl (List.mem_append_left _ isOld)
    · rw [List.mem_singleton.mp isNew]
      exact .inr covered
  · rw [List.mem_singleton.mp isLatest]
    exact .inr covered

theorem Prepared.replaceLatest (prepared : Prepared presenter)
    {latest : Presentation} (covered : Covered presenter latest) :
    Prepared { presenter with latestPresentation := some latest } := by
  apply prepared.present presenter.availableGuestImages
  intro presentation member
  rcases List.mem_append.mp member with isFlip | isLatest
  · exact .inl (List.mem_append_left _ isFlip)
  · rw [List.mem_singleton.mp isLatest]
    exact .inr covered

theorem Prepared.covered_map (prepared : Prepared presenter) {items : List (PendingGuestWork Name)}
    (dependsOn : presentation.dependsOn = items.map PendingGuestWork.sequence)
    (accepted : ∀ item ∈ items, item ∈ presenter.accepted)
    (runsBy : ∀ item ∈ items, item ∈ presenter.unfinished →
      RunsBy presenter item.sequence presentation.requiredGuestWorkSequence) :
    Covered presenter presentation := by
  intro sequence member
  rw [dependsOn] at member
  obtain ⟨item, isItem, rfl⟩ := List.mem_map.mp member
  rcases List.mem_append.mp
      (prepared.sound.numbered.partition.mem_iff.mp (accepted item isItem)) with
    isDone | isLeft
  · exact .inl ((prepared.sound.numbered.completed _).mpr (.inr ⟨item, isDone, rfl⟩))
  · exact .inr (runsBy item isItem isLeft)

variable {default : Name}

theorem Prepared.presentDraw (prepared : Prepared presenter) {submitting : Option Name}
    (runsBy : ∀ item ∈ onQueue (submitting.getD default) presenter.unfinished,
      RunsBy presenter item.sequence (currentSubmittingQueueTailLocked presenter submitting))
    (drawKind : GuestDrawKind) (width height : UInt32) :
    Prepared (presentDraw presenter default submitting drawKind width height) := by
  apply prepared.replaceLatest
  apply prepared.covered_map rfl
  · intro item member
    exact List.mem_of_mem_filter member
  · intro item member isLeft
    exact runsBy item (List.mem_filter.mpr ⟨isLeft, (List.mem_filter.mp member).2⟩)

theorem Prepared.take (prepared : Prepared presenter) (presentedSequence : ℕ) :
    Prepared (tryTakePresentation presenter presentedSequence).2 := by
  have kept (flips : List Presentation)
      (subset : flips ⊆ presenter.pendingGuestImagePresentations) :
      Prepared { presenter with pendingGuestImagePresentations := flips } := by
    apply prepared.present presenter.availableGuestImages
    intro presentation member
    left
    rcases List.mem_append.mp member with isFlip | isLatest
    · exact List.mem_append_left _ (subset isFlip)
    · exact List.mem_append_right _ isLatest
  have dropped : presenter.pendingGuestImagePresentations.dropWhile
      (fun flip => flip.sequence ≤ presentedSequence) ⊆
        presenter.pendingGuestImagePresentations :=
    List.dropWhile_subset _
  rw [tryTakePresentation]
  generalize presenter.pendingGuestImagePresentations.dropWhile _ = flips at dropped
  cases flips with
  | nil =>
    simp only
    repeat' split
    all_goals exact kept [] dropped
  | cons flip rest =>
    simp only
    split
    · exact kept rest fun _ member =>
        dropped (List.mem_cons_of_mem _ member)
    · exact kept (flip :: rest) dropped

theorem Prepared.step {action : PresentationAction Name} (prepared : Prepared presenter)
    (requires : RequiresLast default presenter action)
    (taken : PresentationStep default maxItems maxBytes presenter action after) :
    Prepared after := by
  have coveredNone (presentation : Presentation) (isFree : presentation.dependsOn = []) :
      Covered presenter presentation := by
    intro sequence member
    rw [isFree] at member
    cases member
  cases taken with
  | work action _ taken => exact prepared.work taken
  | images available => exact prepared.present available fun _ => .inl
  | submitImage address width height =>
    rw [trySubmitGuestImage]
    split
    · apply prepared.enqueueFlip
      apply prepared.covered_map rfl
      · intro item member
        exact List.mem_of_mem_filter member
      · intro item member isLeft
        exact requires item isLeft (of_decide_eq_true (List.mem_filter.mp member).2)
    · exact prepared
  | submitDraw submitting drawKind width height =>
    rw [submitGuestDraw]
    split
    · exact prepared
    · split
      · exact prepared
      · exact prepared.presentDraw requires drawKind width height
  | submitTranslatedDraw submitting width height pixelSpirvLength =>
    rw [submitTranslatedDraw]
    split
    · exact prepared
    · exact prepared.presentDraw requires _ _ _
  | submitFrame width height => exact prepared.replaceLatest (coveredNone _ rfl)
  | executeFlip execution address width height _ _ =>
    exact prepared.enqueueFlip (coveredNone _ rfl)
  | take presentedSequence => exact prepared.take presentedSequence

omit [DecidableEq Name] in
theorem tryTakePresentation_some {presentedSequence : ℕ}
    (isTaken : tryTakePresentation presenter presentedSequence = (some presentation, after)) :
    presentation ∈ recorded presenter ∧ presenter.completedGuestWork.Holds
        presentation.requiredGuestWorkSequence := by
  have dropped : presenter.pendingGuestImagePresentations.dropWhile
      (fun flip => flip.sequence ≤ presentedSequence) ⊆
        presenter.pendingGuestImagePresentations :=
    List.dropWhile_subset _
  rw [tryTakePresentation] at isTaken
  generalize presenter.pendingGuestImagePresentations.dropWhile _ = flips at dropped isTaken
  cases flips with
  | nil =>
    simp only at isTaken
    split at isTaken
    · cases isTaken
    · rename_i latest isLatest
      split at isTaken
      · cases isTaken
      · split at isTaken
        · rename_i isComplete
          cases isTaken
          refine ⟨List.mem_append_right _ ?_, of_decide_eq_true isComplete⟩
          rw [isLatest]
          exact List.mem_singleton_self _
        · cases isTaken
  | cons flip rest =>
    simp only at isTaken
    split at isTaken
    · rename_i isComplete
      cases isTaken
      exact ⟨List.mem_append_left _ (dropped List.mem_cons_self), of_decide_eq_true isComplete⟩
    · cases isTaken

end Covering

section Results

/-- Whatever is handed out, all that it depends on is complete. -/
theorem presentations_complete (default : Name) (maxItems : ℕ)
    (maxBytes : UInt64) (presenter : Presenter Name)
    (reachable : Reachable (fun start => start = Presenter.new) (onlyWhen (RequiresLast default)
        (PresentationStep default maxItems maxBytes)) presenter) :
    (∀ presentation ∈ recorded presenter, presenter.isGuestWorkCompletedLocked
        presentation.requiredGuestWorkSequence = true →
      ∀ sequence ∈ presentation.dependsOn, presenter.isGuestWorkCompletedLocked sequence = true) ∧
    ∀ presentedSequence presentation after, tryTakePresentation presenter presentedSequence =
        (some presentation, after) →
      ∀ sequence ∈ presentation.dependsOn,
        presenter.isGuestWorkCompletedLocked sequence = true := by
  have prepared : Prepared presenter := by
    apply reachable.invariant_onlyWhen
    · rintro _ rfl
      exact .new
    · intro before action after prepared requires taken
      exact prepared.step requires taken
  constructor
  · intro presentation member isComplete sequence isNeeded
    exact decide_eq_true ((prepared.covered presentation member).complete
      prepared.sound (of_decide_eq_true isComplete) sequence isNeeded)
  · intro presentedSequence presentation after isTaken sequence isNeeded
    obtain ⟨member, isComplete⟩ := tryTakePresentation_some isTaken
    exact decide_eq_true ((prepared.covered presentation member).complete
      prepared.sound isComplete sequence isNeeded)

section Samples

def drawBehindItem : Presenter Bool :=
  submitTranslatedDraw (submit new true .orderedAction) false (some true) 64 64 4

def queuedItem : PendingGuestWork Bool := ⟨.orderedAction, 0, 1, 0, true⟩

/-- The item that the draw is behind has been taken and completed. -/
def drawReady : Presenter Bool :=
  completeGuestWork (take drawBehindItem fun _ => false) queuedItem

/-- The draw is handed out, and the item that it depends on is complete. -/
theorem presentations_complete_sample :
    ((tryTakePresentation drawReady 0).1.map Presentation.dependsOn) = some [1] ∧
      drawReady.isGuestWorkCompletedLocked 1 = true := by
  have item : onlyWhen (RequiresLast false) (PresentationStep false 8 0)
      (new : Presenter Bool) (.work (.submit true .orderedAction true)) _ :=
    ⟨trivial, .work _ _ (.submit _ true .orderedAction true fun _ => rfl)⟩
  have draw : PresentationStep false 8 0 _ _ drawBehindItem :=
    .submitTranslatedDraw (some true) 64 64 4
  have requires : RequiresLast false (submit (new : Presenter Bool) true
      .orderedAction) (.submitTranslatedDraw (some true) 64 64 4) := by
    intro item member
    rw [List.mem_singleton.mp member]
    exact .inl rfl
  have begun : onlyWhen (RequiresLast false) (PresentationStep false 8 0)
      drawBehindItem (.work (.take fun _ => false)) _ :=
    ⟨trivial, .work _ _ (.take _ _ rfl)⟩
  have done : onlyWhen (RequiresLast false) (PresentationStep false 8 0)
      _ (.work .complete) drawReady :=
    ⟨trivial, .work _ _ (.complete _ ⟨queuedItem, none, 1⟩ rfl)⟩
  have started : Reachable (fun start => start = Presenter.new)
      (onlyWhen (RequiresLast false) (PresentationStep false 8 0)) new :=
    .start rfl
  have isTaken : tryTakePresentation drawReady 0 =
      (some ⟨false, 64, 64, 1, .none, 1, 0, [1]⟩, drawReady) := rfl
  refine ⟨by rw [isTaken]; rfl, ?_⟩
  exact (presentations_complete false 8 0 drawReady
    ((((started.next item).next ⟨requires, draw⟩).next begun).next done)).2
      0 _ _ isTaken 1 List.mem_cons_self

def drawBehindAction : Presenter Unit :=
  take (submit (submit { new with availableGuestImages := fun _ => true } ()
      .orderedAction) () (.offscreenDraw [] [] [] none [0x1000] true))
    fun _ => false

def actionItem : PendingGuestWork Unit := ⟨.orderedAction, 0, 1, 0, ()⟩

def writeItem : PendingGuestWork Unit := ⟨.imageWrite 0x1000 none, 0, 3, 0, ()⟩

/-- The action has the image written, and the image is flipped. -/
def flipBehindWrite : Presenter Unit :=
  trySubmitGuestImage (submitFollowup drawBehindAction ⟨actionItem, none, 1⟩
      (.imageWrite 0x1000 none)) 0x1000 64 64

def writeComplete : Presenter Unit :=
  completeGuestWork (take (completeGuestWork flipBehindWrite actionItem) fun _ => false) writeItem

/-- The flip waits for the write, whose number is the last one, and is handed out
while the draw, which was accepted before it, is still queued. -/
theorem flip_before_draw : ¬ ∀ (default : Unit) (maxItems : ℕ) (maxBytes : UInt64)
      (presenter : Presenter Unit),
      Reachable (fun start => start = Presenter.new)
        (PresentationStep default maxItems maxBytes) presenter →
      ∀ presentedSequence presentation after, tryTakePresentation presenter presentedSequence =
          (some presentation, after) →
        ∀ sequence ∈ presentation.dependsOn,
          presenter.isGuestWorkCompletedLocked sequence = true := by
  intro complete
  have available : PresentationStep () 8 0 (new : Presenter Unit) _ _ :=
    .images fun _ => true
  have action : PresentationStep () 8 0 _ _ _ :=
    .work _ _ (.submit { (new : Presenter Unit) with
      availableGuestImages := fun _ => true } () .orderedAction true fun _ => rfl)
  have draw : PresentationStep () 8 0 _ _ _ :=
    .work _ _ (.submit (submit { (new : Presenter Unit) with
      availableGuestImages := fun _ => true } () .orderedAction) ()
        (.offscreenDraw [] [] [] none [0x1000] true) true fun _ => rfl)
  have begun : PresentationStep () 8 0 _ _ drawBehindAction :=
    .work _ _ (.take _ _ rfl)
  have write : PresentationStep () 8 0 drawBehindAction _ _ :=
    .work _ _ (.followUp _ ⟨actionItem, none, 1⟩ (.imageWrite 0x1000 none) rfl rfl)
  have flip : PresentationStep () 8 0 _ _ flipBehindWrite :=
    .submitImage 0x1000 64 64
  have actionDone : PresentationStep () 8 0 flipBehindWrite _ _ :=
    .work _ _ (.complete _ ⟨actionItem, some 0, 3⟩ rfl)
  have writeBegun : PresentationStep () 8 0 _ _
      (take (completeGuestWork flipBehindWrite actionItem) fun _ => false) :=
    .work _ _ (.take _ _ rfl)
  have writeDone : PresentationStep () 8 0 _ _ writeComplete :=
    .work _ _ (.complete _ ⟨writeItem, none, 3⟩ rfl)
  have started : Reachable (fun start => start = Presenter.new)
      (PresentationStep () 8 0) new := .start rfl
  have flipped := (((((started.next available).next action).next draw).next
    begun).next write).next flip
  have reachable := ((flipped.next actionDone).next writeBegun).next writeDone
  have isComplete := complete () 8 0 writeComplete reachable 0 _ _ rfl 2 (by decide)
  revert isComplete
  decide

end Samples

end Results

end SharpEmu.VideoOut
