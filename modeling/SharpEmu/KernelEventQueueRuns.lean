import SharpEmu.KernelEventQueueWaits

/-!
# The pending events of a queue as a list

The ring buffer of a queue stands for the list of its events: adding an event appends
it, taking events removes them from the front, and updating an event changes it where
it is.
-/

namespace SharpEmu.KernelEventQueues

inductive Operation
  | enqueue (queuedEvent : KernelQueuedEvent)
  | queueOrUpdate (queuedEvent : KernelQueuedEvent)
  | triggerDisplay (ident : UInt64) (filter : Int16) (eventHint userData tickCount : UInt64)
  | dequeue (eventCapacity : ℕ)

namespace KernelEventDeque

def perform (deque : KernelEventDeque) :
    Operation → Option (KernelEventDeque × List KernelQueuedEvent)
  | .enqueue queuedEvent => (deque.addLast queuedEvent).map (·, [])
  | .queueOrUpdate queuedEvent => (deque.queueOrUpdateEvent queuedEvent).map (·, [])
  | .triggerDisplay ident filter eventHint userData tickCount =>
      (deque.triggerDisplayEvent ident filter eventHint userData tickCount).map (·, [])
  | .dequeue eventCapacity =>
      let (events, rest) := removeFirsts deque (min eventCapacity deque.count)
      some (rest, events)

def run (deque : KernelEventDeque) :
    List Operation → Option (KernelEventDeque × List (List KernelQueuedEvent))
  | [] => some (deque, [])
  | operation :: rest =>
      (perform deque operation).bind fun (after, events) =>
        (run after rest).map fun (last, answers) => (last, events :: answers)

end KernelEventDeque

/-! ## A plain list -/

/-- A pending event; whether it was queued or updated by `queueOrUpdateEvent`. -/
structure Pending where
  event : KernelQueuedEvent
  throughUpdate : Bool

def updateOrAppend (ident : UInt64) (filter : Int16) (update : Pending → Pending)
    (appended : Pending) : List Pending → List Pending
  | [] => [appended]
  | pending :: rest =>
      if pending.event.hasKey ident filter then update pending :: rest
      else pending :: updateOrAppend ident filter update appended rest

namespace Fifo

def perform (pending : List Pending) : Operation → List Pending × List KernelQueuedEvent
  | .enqueue queuedEvent => (pending ++ [⟨queuedEvent, false⟩], [])
  | .queueOrUpdate queuedEvent =>
      (updateOrAppend queuedEvent.ident queuedEvent.filter (fun old =>
          ⟨{ queuedEvent with fflags := max (old.event.fflags + 1) queuedEvent.fflags }, true⟩)
        ⟨queuedEvent, true⟩ pending, [])
  | .triggerDisplay ident filter eventHint userData tickCount =>
      (updateOrAppend ident filter (fun old =>
          ⟨KernelEventDeque.displayEvent ident filter eventHint userData tickCount
            (min (((old.event.data >>> 12) &&& 0xF) + 1) 0xF), old.throughUpdate⟩)
        ⟨KernelEventDeque.displayEvent ident filter eventHint userData tickCount 1, false⟩
        pending, [])
  | .dequeue eventCapacity =>
      (pending.drop eventCapacity, (pending.take eventCapacity).map Pending.event)

def run (pending : List Pending) : List Operation → List Pending × List (List KernelQueuedEvent)
  | [] => (pending, [])
  | operation :: rest =>
      let (after, events) := perform pending operation
      let (last, answers) := run after rest
      (last, events :: answers)

end Fifo

/-! ## The ring buffer does what the list does -/

namespace KernelEventDeque

variable {index : ℕ}

theorem getElem_contents {deque : KernelEventDeque} (inside : index < deque.contents.length) :
    deque.contents[index] = deque.get index := by
  have item := deque.getElem?_contents index
  rw [RingBuffer.length_contents] at inside
  rw [if_pos inside, List.getElem?_eq_some_iff] at item
  exact item.2

theorem findIndex_eq (deque : KernelEventDeque) (ident : UInt64) (filter : Int16) :
    deque.findIndex ident filter =
      deque.contents.findIdx? fun event => event.hasKey ident filter := by
  unfold findIndex
  symm
  cases found : (List.range deque.count).find? _ with
  | none =>
    rw [List.find?_eq_none] at found
    rw [List.findIdx?_eq_none_iff]
    intro event isEvent
    obtain ⟨index, inside, rfl⟩ := List.mem_iff_getElem.mp isEvent
    rw [getElem_contents]
    rw [RingBuffer.length_contents] at inside
    simpa using found index (List.mem_range.mpr inside)
  | some index =>
    rw [List.find?_range_eq_some] at found
    obtain ⟨hasKey, inside, earlier⟩ := found
    rw [List.mem_range] at inside
    rw [List.findIdx?_eq_some_iff_getElem]
    refine ⟨by rwa [RingBuffer.length_contents], ?_, fun other before => ?_⟩
    · rw [getElem_contents]
      exact hasKey
    · rw [getElem_contents]
      simpa using earlier other before

/-- What an operation does to the contents; it throws only if there are too many. -/
structure AppendsTo (deque : KernelEventDeque) (list : List KernelQueuedEvent)
    (result : Option KernelEventDeque) : Prop where
  contents : ∀ after, result = some after → after.contents = list
  throws : result = none → 2 ^ 30 ≤ deque.count

theorem appendsTo_addLast (deque : KernelEventDeque) (item : KernelQueuedEvent) :
    AppendsTo deque (deque.contents ++ [item]) (deque.addLast item) := by
  unfold addLast
  split
  · next full => exact ⟨nofun, fun _ => by omega⟩
  · refine ⟨fun after isAfter => ?_, nofun⟩
    rw [← Option.some.inj isAfter]
    exact RingBuffer.contents_addLast _ _ _

theorem set_found {deque : KernelEventDeque} {ident : UInt64} {filter : Int16}
    (found : deque.findIndex ident filter = some index) (update : KernelQueuedEvent → KernelQueuedEvent) :
    AppendsTo deque (deque.contents.modify index update)
      (some (deque.set index (update (deque.get index)))) := by
  refine ⟨fun after isAfter => ?_, nofun⟩
  rw [findIndex_eq, List.findIdx?_eq_some_iff_getElem] at found
  obtain ⟨inside, -⟩ := found
  rw [← Option.some.inj isAfter, List.modify_eq_set_getElem?, List.getElem?_eq_getElem inside,
    getElem_contents, RingBuffer.contents_set _ _ (by rwa [RingBuffer.length_contents] at inside)]
  rfl

end KernelEventDeque

variable {ident : UInt64} {filter : Int16} {update : Pending → Pending} {appended : Pending}

theorem map_updateOrAppend (change : KernelQueuedEvent → KernelQueuedEvent)
    (changes : ∀ pending, (update pending).event = change pending.event)
    (list : List Pending) :
    (updateOrAppend ident filter update appended list).map Pending.event =
      match (list.map Pending.event).findIdx? fun event => event.hasKey ident filter with
      | none => list.map Pending.event ++ [appended.event]
      | some index => (list.map Pending.event).modify index change := by
  induction list with
  | nil => rfl
  | cons pending rest ih =>
    rw [updateOrAppend, List.map_cons, List.findIdx?_cons]
    split
    · rw [List.map_cons, changes]
      rfl
    · rw [List.map_cons, ih]
      cases (rest.map Pending.event).findIdx? fun event => event.hasKey ident filter <;> rfl

namespace KernelEventDeque

variable {deque : KernelEventDeque} {list : List Pending}

theorem appendsTo_queueOrUpdateEvent (same : deque.contents = list.map Pending.event)
    (queuedEvent : KernelQueuedEvent) :
    AppendsTo deque ((Fifo.perform list (.queueOrUpdate queuedEvent)).1.map Pending.event)
      (deque.queueOrUpdateEvent queuedEvent) := by
  unfold Fifo.perform queueOrUpdateEvent
  dsimp only
  rw [map_updateOrAppend (fun old =>
    { queuedEvent with fflags := max (old.fflags + 1) queuedEvent.fflags }) fun _ => rfl,
    ← same, ← findIndex_eq]
  cases found : deque.findIndex queuedEvent.ident queuedEvent.filter with
  | none => exact appendsTo_addLast deque queuedEvent
  | some position => exact set_found found _

theorem appendsTo_triggerDisplayEvent (same : deque.contents = list.map Pending.event)
    (ident : UInt64) (filter : Int16) (eventHint userData tickCount : UInt64) :
    AppendsTo deque ((Fifo.perform list
        (.triggerDisplay ident filter eventHint userData tickCount)).1.map Pending.event)
      (deque.triggerDisplayEvent ident filter eventHint userData tickCount) := by
  unfold Fifo.perform triggerDisplayEvent
  dsimp only
  rw [map_updateOrAppend (fun old =>
    displayEvent ident filter eventHint userData tickCount
      (min (((old.data >>> 12) &&& 0xF) + 1) 0xF)) fun _ => rfl, ← same, ← findIndex_eq]
  cases found : deque.findIndex ident filter with
  | none => exact appendsTo_addLast deque _
  | some position => exact set_found found _

theorem perform_refines (same : deque.contents = list.map Pending.event) (operation : Operation) :
    (∀ after events, perform deque operation = some (after, events) →
      after.contents = (Fifo.perform list operation).1.map Pending.event ∧
        events = (Fifo.perform list operation).2) ∧
    (perform deque operation = none → 2 ^ 30 ≤ list.length) := by
  have sameCount : deque.count = list.length := by
    rw [← RingBuffer.length_contents, same, List.length_map]
  have ofAppends {result : Option KernelEventDeque}
      (appends : AppendsTo deque ((Fifo.perform list operation).1.map Pending.event) result)
      (noEvents : (Fifo.perform list operation).2 = []) :
      (∀ after events, result.map (·, ([] : List KernelQueuedEvent)) = some (after, events) →
        after.contents = (Fifo.perform list operation).1.map Pending.event ∧
          events = (Fifo.perform list operation).2) ∧
      (result.map (·, ([] : List KernelQueuedEvent)) = none → 2 ^ 30 ≤ list.length) := by
    constructor
    · intro after events performed
      obtain ⟨last, isLast, isPair⟩ := Option.map_eq_some_iff.mp performed
      cases isPair
      exact ⟨appends.contents _ isLast, noEvents.symm⟩
    · intro threw
      rw [← sameCount]
      exact appends.throws (Option.map_eq_none_iff.mp threw)
  cases operation with
  | enqueue queuedEvent =>
    apply ofAppends _ rfl
    have appends := appendsTo_addLast deque queuedEvent
    rw [same] at appends
    simpa [Fifo.perform] using appends
  | queueOrUpdate queuedEvent =>
    exact ofAppends (appendsTo_queueOrUpdateEvent same queuedEvent) rfl
  | triggerDisplay ident filter eventHint userData tickCount =>
    exact ofAppends
      (appendsTo_triggerDisplayEvent same ident filter eventHint userData tickCount) rfl
  | dequeue eventCapacity =>
    refine ⟨fun after events performed => ?_, nofun⟩
    obtain ⟨taken, left⟩ := contents_removeFirsts deque (min_le_right eventCapacity deque.count)
    cases performed
    rw [taken, left, same, sameCount, ← List.map_drop, ← List.map_take]
    constructor
    · change _ = (list.drop eventCapacity).map Pending.event
      rcases Nat.le_total eventCapacity list.length with fewer | more
      · rw [min_eq_left fewer]
      · rw [min_eq_right more, List.drop_length, List.drop_eq_nil_of_le more]
    · change _ = (list.take eventCapacity).map Pending.event
      rw [← List.take_eq_take_min]

theorem run_refines (same : deque.contents = list.map Pending.event) (operations : List Operation) :
    (∀ last answers, run deque operations = some (last, answers) →
      last.contents = (Fifo.run list operations).1.map Pending.event ∧
        answers = (Fifo.run list operations).2) ∧
    (run deque operations = none →
      ∃ done rest, operations = done ++ rest ∧ 2 ^ 30 ≤ (Fifo.run list done).1.length) := by
  induction operations generalizing deque list with
  | nil =>
    refine ⟨fun last answers ran => ?_, nofun⟩
    cases ran
    exact ⟨same, rfl⟩
  | cons operation rest ih =>
    obtain ⟨performs, throws⟩ := perform_refines same operation
    rw [run]
    cases performed : perform deque operation with
    | none =>
      exact ⟨nofun, fun _ => ⟨[], operation :: rest, rfl, throws performed⟩⟩
    | some result =>
      obtain ⟨after, events⟩ := result
      obtain ⟨sameAfter, sameEvents⟩ := performs after events performed
      obtain ⟨runs, restThrows⟩ := ih sameAfter
      constructor
      · intro last answers ran
        obtain ⟨⟨itsLast, itsAnswers⟩, ranRest, isPair⟩ := Option.map_eq_some_iff.mp ran
        cases isPair
        obtain ⟨sameLast, sameAnswers⟩ := runs _ _ ranRest
        exact ⟨sameLast, by rw [sameEvents, sameAnswers]; rfl⟩
      · intro threw
        obtain ⟨done, later, isSplit, many⟩ :=
          restThrows (Option.map_eq_none_iff.mp threw)
        exact ⟨operation :: done, later, by rw [isSplit]; rfl, many⟩

end KernelEventDeque

/-! ## Events that were queued through `queueOrUpdateEvent` -/

def FirstOfKey (list : List Pending) : Prop :=
  list.Pairwise fun earlier later =>
    later.throughUpdate = true → later.event.hasKey earlier.event.ident earlier.event.filter = false

theorem hasKey_iff {event : KernelQueuedEvent} :
    event.hasKey ident filter = true ↔ event.ident = ident ∧ event.filter = filter :=
  decide_eq_true_iff

theorem mem_updateOrAppend {list : List Pending} {member : Pending}
    (updateKey : ∀ pending, (update pending).event.hasKey ident filter = true)
    (appendedKey : appended.event.hasKey ident filter = true)
    (isMember : member ∈ updateOrAppend ident filter update appended list) :
    member ∈ list ∨ member.event.hasKey ident filter = true := by
  induction list with
  | nil =>
    obtain rfl := List.mem_singleton.mp isMember
    exact .inr appendedKey
  | cons pending rest ih =>
    rw [updateOrAppend] at isMember
    split at isMember
    · rcases List.mem_cons.mp isMember with rfl | isOld
      · exact .inr (updateKey pending)
      · exact .inl (List.mem_cons_of_mem _ isOld)
    · rcases List.mem_cons.mp isMember with rfl | isRest
      · exact .inl (List.mem_cons_self ..)
      · exact (ih isRest).imp_left (List.mem_cons_of_mem _)

theorem firstOfKey_updateOrAppend {list : List Pending} (firsts : FirstOfKey list)
    (updateKey : ∀ pending, (update pending).event.hasKey ident filter = true)
    (appendedKey : appended.event.hasKey ident filter = true) :
    FirstOfKey (updateOrAppend ident filter update appended list) := by
  unfold FirstOfKey at firsts ⊢
  induction list with
  | nil => exact List.pairwise_singleton _ _
  | cons pending rest ih =>
    obtain ⟨before, restFirsts⟩ := List.pairwise_cons.mp firsts
    rw [updateOrAppend]
    split
    · next sameKey =>
      obtain ⟨sameIdent, sameFilter⟩ := hasKey_iff.mp sameKey
      obtain ⟨updateIdent, updateFilter⟩ := hasKey_iff.mp (updateKey pending)
      refine List.pairwise_cons.mpr ⟨fun later isLater throughUpdate => ?_, restFirsts⟩
      rw [updateIdent, updateFilter, ← sameIdent, ← sameFilter]
      exact before later isLater throughUpdate
    · next otherKey =>
      refine List.pairwise_cons.mpr ⟨fun later isLater throughUpdate => ?_, ih restFirsts⟩
      rcases mem_updateOrAppend updateKey appendedKey isLater with isOld | isKey
      · exact before later isOld throughUpdate
      · obtain ⟨laterIdent, laterFilter⟩ := hasKey_iff.mp isKey
        rw [← Bool.not_eq_true, hasKey_iff, laterIdent, laterFilter]
        rintro ⟨sameIdent, sameFilter⟩
        exact otherKey (hasKey_iff.mpr ⟨sameIdent.symm, sameFilter.symm⟩)

theorem firstOfKey_perform {list : List Pending} (firsts : FirstOfKey list)
    (operation : Operation) : FirstOfKey (Fifo.perform list operation).1 := by
  cases operation with
  | enqueue queuedEvent =>
    refine List.pairwise_append.mpr ⟨firsts, List.pairwise_singleton _ _, ?_⟩
    rintro earlier - later isLast throughUpdate
    obtain rfl := List.mem_singleton.mp isLast
    cases throughUpdate
  | queueOrUpdate queuedEvent =>
    exact firstOfKey_updateOrAppend firsts (fun _ => hasKey_iff.mpr ⟨rfl, rfl⟩)
      (hasKey_iff.mpr ⟨rfl, rfl⟩)
  | triggerDisplay ident filter eventHint userData tickCount =>
    exact firstOfKey_updateOrAppend firsts (fun _ => hasKey_iff.mpr ⟨rfl, rfl⟩)
      (hasKey_iff.mpr ⟨rfl, rfl⟩)
  | dequeue eventCapacity => exact firsts.sublist (List.drop_sublist _ _)

theorem firstOfKey_run {list : List Pending} (firsts : FirstOfKey list)
    (operations : List Operation) : FirstOfKey (Fifo.run list operations).1 := by
  induction operations generalizing list with
  | nil => exact firsts
  | cons operation rest ih => exact ih (firstOfKey_perform firsts operation)

/-- Of the events that were queued through an update, no two have the same key. -/
def OnePerKey (list : List Pending) : Prop :=
  ∀ (first second : ℕ) (earlier later : Pending),
    list[first]? = some earlier → list[second]? = some later →
      earlier.throughUpdate = true → later.throughUpdate = true →
        earlier.event.ident = later.event.ident → earlier.event.filter = later.event.filter →
          first = second

theorem FirstOfKey.onePerKey {list : List Pending} (firsts : FirstOfKey list) :
    OnePerKey list := by
  have distinct {first second : ℕ} {earlier later : Pending} (ordered : first < second)
      (isEarlier : list[first]? = some earlier) (isLater : list[second]? = some later)
      (throughUpdate : later.throughUpdate = true)
      (sameIdent : earlier.event.ident = later.event.ident)
      (sameFilter : earlier.event.filter = later.event.filter) : False := by
    obtain ⟨firstInside, rfl⟩ := List.getElem?_eq_some_iff.mp isEarlier
    obtain ⟨secondInside, rfl⟩ := List.getElem?_eq_some_iff.mp isLater
    have different := List.pairwise_iff_getElem.mp firsts first second firstInside secondInside
      ordered throughUpdate
    rw [hasKey_iff.mpr ⟨sameIdent.symm, sameFilter.symm⟩] at different
    cases different
  intro first second earlier later isEarlier isLater earlierUpdate laterUpdate sameIdent sameFilter
  rcases Nat.lt_trichotomy first second with before | same | after
  · exact (distinct before isEarlier isLater laterUpdate sameIdent sameFilter).elim
  · exact same
  · exact (distinct after isLater isEarlier earlierUpdate sameIdent.symm sameFilter.symm).elim

/-- From an empty queue on, the ring buffer holds and gives out the events of a
list, up to 2^30 of them. An event that is queued again is changed where it is. -/
theorem kernelEventDeque_refines_fifo (operations : List Operation) :
    (∀ deque answers, KernelEventDeque.run .new operations = some (deque, answers) →
      deque.contents = (Fifo.run [] operations).1.map Pending.event ∧
      answers = (Fifo.run [] operations).2 ∧
      ∀ queuedEvent index, deque.findIndex queuedEvent.ident queuedEvent.filter = some index →
          (deque.queueOrUpdateEvent queuedEvent).map RingBuffer.contents =
            some (deque.contents.set index { queuedEvent with
              fflags := max ((deque.get index).fflags + 1) queuedEvent.fflags })) ∧
    (KernelEventDeque.run .new operations = none →
      ∃ done rest, operations = done ++ rest ∧ 2 ^ 30 ≤ (Fifo.run [] done).1.length) ∧
    OnePerKey (Fifo.run [] operations).1 := by
  have isEmpty : KernelEventDeque.new.contents = ([] : List Pending).map Pending.event := rfl
  obtain ⟨runs, throws⟩ := KernelEventDeque.run_refines isEmpty operations
  refine ⟨fun deque answers ran => ?_, throws, (firstOfKey_run .nil operations).onePerKey⟩
  obtain ⟨sameContents, sameAnswers⟩ := runs deque answers ran
  refine ⟨sameContents, sameAnswers, fun queuedEvent index found => ?_⟩
  have isFound := found
  rw [KernelEventDeque.findIndex_eq, List.findIdx?_eq_some_iff_getElem] at isFound
  obtain ⟨inside, -⟩ := isFound
  rw [RingBuffer.length_contents] at inside
  unfold KernelEventDeque.queueOrUpdateEvent
  rw [found]
  exact congrArg some (RingBuffer.contents_set deque _ inside)

end SharpEmu.KernelEventQueues
