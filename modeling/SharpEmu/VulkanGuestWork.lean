import SharpEmu.BucketDictionaries
import SharpEmu.Watermarks
import SharpEmu.MachineWords

/-!
# Guest work of the Vulkan presenter

Producers enqueue work on logical guest queues; the render thread takes an item
of a ready queue, round-robin, and completes it or puts it back in front.  While
an item is executed it can enqueue follow-ups, which go in front of its queue, and
the presenter can be asked for presentations that wait for a sequence number.

Everything happens under one lock, so a step is one locked section.  The last
fields of the state are history.
-/

namespace SharpEmu.VideoOut

/-- What the queues read of a texture; `guestFormat` is what its format and
number type amount to. -/
structure GuestDrawTexture where
  address : UInt64
  guestFormat : UInt32
  isStorage : Bool
  rgbaPixelsLength : UInt64
  deriving DecidableEq

structure GuestVertexBuffer where
  data : ℕ
  dataLength : UInt64
  deriving DecidableEq

inductive GuestWork
  | offscreenDraw (textures : List GuestDrawTexture)
      (globalMemoryBuffers : List UInt64) (vertexBuffers : List GuestVertexBuffer)
      (indexBuffer : Option UInt64) (targets : List UInt64)
      (publishTarget : Bool)
  | computeDispatch (textures : List GuestDrawTexture)
      (globalMemoryBuffers : List UInt64)
  | imageWrite (address : UInt64) (pixelsLength : Option UInt64)
  | orderedAction
  | orderedFlip (address : UInt64)
  | orderedFlipWait
  deriving DecidableEq

section Payloads

def saturatingAdd (left right : UInt64) : UInt64 :=
  if 0xffffffffffffffff - left < right then 0xffffffffffffffff
  else left + right

def sumPayload (lengths : List UInt64) : UInt64 :=
  lengths.foldl saturatingAdd 0

def texturePayloadBytes (textures : List GuestDrawTexture) : UInt64 :=
  sumPayload (textures.map GuestDrawTexture.rgbaPixelsLength)

def addVertexPayload (bytes : UInt64) (buffers : List GuestVertexBuffer) :
    UInt64 :=
  let step (state : UInt64 × List ℕ) (buffer : GuestVertexBuffer) :=
    if buffer.data ∈ state.2 then state
    else (saturatingAdd state.1 buffer.dataLength, buffer.data :: state.2)
  (buffers.foldl step (bytes, [])).1

def guestWorkPayloadBytes : GuestWork → UInt64
  | .computeDispatch textures buffers =>
      saturatingAdd (texturePayloadBytes textures) (sumPayload buffers)
  | .offscreenDraw textures buffers vertexBuffers indexBuffer _ _ =>
      let bytes := saturatingAdd (texturePayloadBytes textures) (sumPayload buffers)
      let bytes := addVertexPayload bytes vertexBuffers
      match indexBuffer with
      | some length => saturatingAdd bytes length
      | none => bytes
  | .imageWrite _ (some length) => length
  | .imageWrite _ none => 0
  | .orderedAction => 0
  | .orderedFlip _ => 0
  | .orderedFlipWait => 0

end Payloads

def GuestWork.textures : GuestWork → List GuestDrawTexture
  | .offscreenDraw textures _ _ _ _ _ => textures
  | .computeDispatch textures _ => textures
  | _ => []

def storageAddresses (textures : List GuestDrawTexture) : List UInt64 :=
  (textures.filter fun texture => texture.isStorage && texture.address ≠ 0).map
    GuestDrawTexture.address

def GuestWork.writes : GuestWork → List UInt64
  | .offscreenDraw textures _ _ _ targets publishTarget =>
      (if publishTarget then targets.filter fun address => address ≠ 0 else []) ++
        storageAddresses textures
  | .computeDispatch textures _ => storageAddresses textures
  | .imageWrite address _ => if address ≠ 0 then [address] else []
  | .orderedAction => []
  | .orderedFlip _ => []
  | .orderedFlipWait => []

structure PendingGuestWork (Name : Type) where
  work : GuestWork
  payloadBytes : UInt64
  sequence : ℕ
  requiredSequence : ℕ
  queue : Name
  deriving DecidableEq

structure PendingGuestImageUpload where
  count : ℕ
  ownerSequence : ℕ
  deriving DecidableEq

/-- The item being executed: where its last follow-up stands in its queue, and,
for specification only, the sequence of that follow-up or its own. -/
structure Execution (Name : Type) where
  item : PendingGuestWork Name
  followupTail : Option ℕ
  lastSequence : ℕ
  deriving DecidableEq

inductive GuestDrawKind
  | none
  | fullscreenBarycentric
  deriving DecidableEq

/-- A presentation that waits for a sequence number; for specification only, the
items that should be complete when it is handed out. -/
structure Presentation where
  hasPixels : Bool
  width : UInt32
  height : UInt32
  sequence : ℕ
  drawKind : GuestDrawKind
  requiredGuestWorkSequence : ℕ
  guestImageAddress : UInt64
  dependsOn : List ℕ
  deriving DecidableEq

structure Presenter (Name : Type) where
  pendingGuestWorkByQueue : Buckets.Dictionary Name (PendingGuestWork Name)
  pendingGuestQueueSchedule : List Name
  pendingGuestQueueCursor : ℕ
  pendingGuestWorkCount : Int32
  pendingGuestWorkBytes : UInt64
  enqueuedGuestWorkSequence : ℕ
  lastEnqueuedGuestWorkByQueue : Name → Option ℕ
  completedGuestWork : Watermark
  pendingGuestImageUploads : UInt64 × UInt32 → Option PendingGuestImageUpload
  guestImageWorkSequences : UInt64 → Option ℕ
  availableGuestImages : UInt64 → Bool
  latestPresentation : Option Presentation
  pendingGuestImagePresentations : List Presentation
  executing : Option (Execution Name)
  accepted : List (PendingGuestWork Name)
  finished : List (PendingGuestWork Name)
  programOrder : Name → List ℕ

variable {Name : Type} [DecidableEq Name]

namespace Presenter

def new : Presenter Name where
  pendingGuestWorkByQueue := ∅
  pendingGuestQueueSchedule := []
  pendingGuestQueueCursor := 0
  pendingGuestWorkCount := 0
  pendingGuestWorkBytes := 0
  enqueuedGuestWorkSequence := 0
  lastEnqueuedGuestWorkByQueue := fun _ => none
  completedGuestWork := ⟨0, ∅⟩
  pendingGuestImageUploads := fun _ => none
  guestImageWorkSequences := fun _ => none
  availableGuestImages := fun _ => false
  latestPresentation := none
  pendingGuestImagePresentations := []
  executing := none
  accepted := []
  finished := []
  programOrder := fun _ => []

def pendingQueue (presenter : Presenter Name) (queue : Name) : List (PendingGuestWork Name) :=
  Buckets.bucket presenter.pendingGuestWorkByQueue queue

def isGuestWorkCompletedLocked (presenter : Presenter Name) (sequence : ℕ) :
    Bool :=
  presenter.completedGuestWork.Holds sequence

end Presenter

open Presenter

def uploadOwner (presenter : Presenter Name) (texture : GuestDrawTexture) : ℕ :=
  if texture.isStorage = false ∨ texture.address = 0 ∨ texture.rgbaPixelsLength ≠ 0 then 0
  else
    match presenter.pendingGuestImageUploads
        (texture.address, texture.guestFormat) with
    | some upload => upload.ownerSequence
    | none => 0

def getGuestWorkDependencyLocked (presenter : Presenter Name) (work : GuestWork) : ℕ :=
  work.textures.foldl (fun required texture => max required (uploadOwner presenter texture)) 0

/-- Put a queue of the dictionary back, and schedule it when it is new. -/
def Presenter.setQueue (presenter : Presenter Name) (queue : Name)
    (items : List (PendingGuestWork Name)) : Presenter Name :=
  { presenter with
    pendingGuestWorkByQueue :=
      presenter.pendingGuestWorkByQueue.insert queue items
    pendingGuestQueueSchedule :=
      if queue ∈ presenter.pendingGuestWorkByQueue then
        presenter.pendingGuestQueueSchedule
      else presenter.pendingGuestQueueSchedule ++ [queue] }

def addAfter {Item : Type} (items : List Item) (index : ℕ) (item : Item) :
    List Item :=
  items.take (index + 1) ++ item :: items.drop (index + 1)

def insertBehind (earlier sequence : ℕ) : List ℕ → List ℕ
  | [] => []
  | first :: rest =>
      if first = earlier then first :: sequence :: rest
      else first :: insertBehind earlier sequence rest

/-- The producer has to wait for room: too many items are pending, or their
payload is over the budget. -/
def mustWait (maxItems : ℕ) (maxBytes : UInt64) (presenter : Presenter Name)
    (work : GuestWork) : Bool :=
  (maxItems : ℤ) ≤ presenter.pendingGuestWorkCount.toInt || presenter.pendingGuestWorkBytes ≠ 0 &&
      maxBytes - min presenter.pendingGuestWorkBytes maxBytes < guestWorkPayloadBytes work

def Presenter.nextItem (presenter : Presenter Name) (queue : Name)
    (work : GuestWork) : PendingGuestWork Name where
  work := work
  payloadBytes := guestWorkPayloadBytes work
  sequence := presenter.enqueuedGuestWorkSequence + 1
  requiredSequence := getGuestWorkDependencyLocked presenter work
  queue := queue

def recordGuestImageWritersLocked (presenter : Presenter Name)
    (addresses : List UInt64) (sequence : ℕ) : UInt64 → Option ℕ :=
  fun address =>
    if address ∈ addresses then some sequence
    else presenter.guestImageWorkSequences address

/-- The bookkeeping that is common to all ways of enqueueing an item. -/
def Presenter.accept (presenter : Presenter Name) (item : PendingGuestWork Name) : Presenter Name :=
  { presenter with
    enqueuedGuestWorkSequence := item.sequence
    lastEnqueuedGuestWorkByQueue :=
      Function.update presenter.lastEnqueuedGuestWorkByQueue item.queue (some item.sequence)
    guestImageWorkSequences :=
      recordGuestImageWritersLocked presenter item.work.writes item.sequence
    pendingGuestWorkCount := presenter.pendingGuestWorkCount + 1
    pendingGuestWorkBytes :=
      saturatingAdd presenter.pendingGuestWorkBytes item.payloadBytes
    accepted := presenter.accepted ++ [item] }

def enqueueGuestWorkLocked (presenter : Presenter Name) (queue : Name)
    (work : GuestWork) : Presenter Name :=
  let item := presenter.nextItem queue work
  let placed := presenter.setQueue queue (presenter.pendingQueue queue ++ [item])
  let accepted := placed.accept item
  { accepted with
    programOrder := Function.update accepted.programOrder queue
      (accepted.programOrder queue ++ [item.sequence]) }

/-- Enqueue a follow-up of the item that is being executed on `execution`'s
queue: behind its last follow-up, or in front. -/
def enqueueImmediateFollowup (presenter : Presenter Name)
    (execution : Execution Name) (work : GuestWork) : Presenter Name :=
  let queue := execution.item.queue
  let item := presenter.nextItem queue work
  let items := presenter.pendingQueue queue
  let tail := match execution.followupTail with
    | some index => index + 1
    | none => 0
  let placed := presenter.setQueue queue (match execution.followupTail with
    | some index => addAfter items index item
    | none => item :: items)
  let accepted := placed.accept item
  { accepted with
    executing := some
      { execution with
        followupTail := some tail
        lastSequence := item.sequence }
    programOrder := Function.update accepted.programOrder queue
      (insertBehind execution.lastSequence item.sequence (accepted.programOrder queue)) }

def storageImageUploadKeys (textures : List GuestDrawTexture) : List (UInt64 × UInt32) :=
  (textures.filter fun texture =>
    texture.isStorage && texture.address ≠ 0 && texture.guestFormat ≠ 0).map
      fun texture => (texture.address, texture.guestFormat)

def addPendingUpload (sequence : ℕ) (uploads : UInt64 × UInt32 → Option PendingGuestImageUpload)
    (key : UInt64 × UInt32) :
    UInt64 × UInt32 → Option PendingGuestImageUpload :=
  Function.update uploads key (match uploads key with
    | some upload => some { upload with count := upload.count + 1 }
    | none => some ⟨1, sequence⟩)

def releasePendingUpload (uploads : UInt64 × UInt32 → Option PendingGuestImageUpload)
    (key : UInt64 × UInt32) :
    UInt64 × UInt32 → Option PendingGuestImageUpload :=
  match uploads key with
  | none => uploads
  | some upload =>
      Function.update uploads key (if upload.count ≤ 1 then none
        else some { upload with count := upload.count - 1 })

/-- What the entry points add to the enqueueing: a dispatch reserves its storage
images, and the writers of images are recorded once more. -/
def noteSubmitted (presenter : Presenter Name) (sequence : ℕ) : GuestWork → Presenter Name
  | .computeDispatch textures _ =>
      { presenter with
        pendingGuestImageUploads :=
          (storageImageUploadKeys textures).dedup.foldl
            (addPendingUpload sequence) presenter.pendingGuestImageUploads
        guestImageWorkSequences :=
          recordGuestImageWritersLocked presenter (storageAddresses textures) sequence }
  | .offscreenDraw _ _ _ _ targets true =>
      { presenter with
        guestImageWorkSequences :=
          recordGuestImageWritersLocked presenter targets sequence }
  | .imageWrite address _ =>
      { presenter with
        guestImageWorkSequences :=
          recordGuestImageWritersLocked presenter [address] sequence }
  | _ => presenter

def submit (presenter : Presenter Name) (queue : Name) (work : GuestWork) :
    Presenter Name :=
  noteSubmitted (enqueueGuestWorkLocked presenter queue work)
    (presenter.enqueuedGuestWorkSequence + 1) work

def submitFollowup (presenter : Presenter Name) (execution : Execution Name)
    (work : GuestWork) : Presenter Name :=
  noteSubmitted (enqueueImmediateFollowup presenter execution work)
    (presenter.enqueuedGuestWorkSequence + 1) work

def Presenter.moveCursor (presenter : Presenter Name) (cursor : ℕ) :
    Presenter Name :=
  { presenter with pendingGuestQueueCursor := cursor }

def Presenter.removeFirst (presenter : Presenter Name) (cursor : ℕ)
    (queue : Name) (rest : List (PendingGuestWork Name)) : Presenter Name :=
  let schedule := presenter.pendingGuestQueueSchedule
  if rest = [] then
    { presenter with
      pendingGuestWorkCount := presenter.pendingGuestWorkCount - 1
      pendingGuestWorkByQueue := presenter.pendingGuestWorkByQueue.erase queue
      pendingGuestQueueSchedule := schedule.eraseIdx cursor
      pendingGuestQueueCursor := cursor }
  else
    { presenter with
      pendingGuestWorkCount := presenter.pendingGuestWorkCount - 1
      pendingGuestWorkByQueue :=
        presenter.pendingGuestWorkByQueue.insert queue rest
      pendingGuestQueueCursor := (cursor + 1) % schedule.length }

/-- Where probing begins: at the cursor, or at the front when it is past the
end. -/
def Presenter.firstProbe (presenter : Presenter Name) : ℕ :=
  if presenter.pendingGuestQueueSchedule.length ≤ presenter.pendingGuestQueueCursor then 0
  else presenter.pendingGuestQueueCursor

def probeQueues (excluded : Name → Bool) :
    ℕ → ℕ → Presenter Name → Option (PendingGuestWork Name) × Presenter Name
  | 0, _, presenter => (none, presenter)
  | fuel + 1, queuesToProbe, presenter =>
      let schedule := presenter.pendingGuestQueueSchedule
      let cursor := presenter.firstProbe
      let skipped := presenter.moveCursor ((cursor + 1) % schedule.length)
      if queuesToProbe = 0 then (none, presenter)
      else
        match schedule[cursor]? with
        | none => (none, presenter)
        | some queue =>
            if excluded queue then
              probeQueues excluded fuel (queuesToProbe - 1) skipped
            else
              match presenter.pendingQueue queue with
              | [] =>
                  let removed := { presenter with
                    pendingGuestWorkByQueue :=
                      presenter.pendingGuestWorkByQueue.erase queue
                    pendingGuestQueueSchedule := schedule.eraseIdx cursor
                    pendingGuestQueueCursor := cursor }
                  probeQueues excluded fuel (min queuesToProbe (schedule.eraseIdx cursor).length)
                    removed
              | first :: rest =>
                  if presenter.isGuestWorkCompletedLocked
                      first.requiredSequence then
                    (some first, presenter.removeFirst cursor queue rest)
                  else probeQueues excluded fuel (queuesToProbe - 1) skipped

def tryTakeGuestWork (presenter : Presenter Name) (excluded : Name → Bool) :
    Option (PendingGuestWork Name) × Presenter Name :=
  probeQueues excluded (2 * presenter.pendingGuestQueueSchedule.length)
    presenter.pendingGuestQueueSchedule.length presenter

def take (presenter : Presenter Name) (excluded : Name → Bool) :
    Presenter Name :=
  match tryTakeGuestWork presenter excluded with
  | (none, after) => after
  | (some item, after) =>
      { after with executing := some ⟨item, none, item.sequence⟩ }

def requeueGuestWorkFront (presenter : Presenter Name)
    (item : PendingGuestWork Name) : Presenter Name :=
  let placed := presenter.setQueue item.queue (item :: presenter.pendingQueue item.queue)
  { placed with
    pendingGuestWorkCount := placed.pendingGuestWorkCount + 1
    executing := none }

def completeGuestWork (presenter : Presenter Name)
    (item : PendingGuestWork Name) : Presenter Name :=
  { presenter with
    pendingGuestWorkBytes :=
      if presenter.pendingGuestWorkBytes ≤ item.payloadBytes then 0
      else presenter.pendingGuestWorkBytes - item.payloadBytes
    pendingGuestImageUploads :=
      match item.work with
      | .computeDispatch textures _ =>
          (storageImageUploadKeys textures).dedup.foldl releasePendingUpload
            presenter.pendingGuestImageUploads
      | _ => presenter.pendingGuestImageUploads
    completedGuestWork := presenter.completedGuestWork.complete item.sequence
    executing := none
    finished := presenter.finished ++ [item] }

end SharpEmu.VideoOut
