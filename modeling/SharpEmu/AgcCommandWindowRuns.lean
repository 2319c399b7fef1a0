import SharpEmu.AgcCommandWindow
import SharpEmu.StoredRanges

/-!
# When the parser reads what its queue has written

The parser's own run is compared with the queue that executes each packet before
the next one is read.  The memory of that queue is the guest memory once the
deferred effects have been applied as well.  An effect changes no byte outside the
ranges that it writes, so a read finds the same word when the deferred effects write
nowhere into it, and the window stays fresh when what is applied behind its back
writes nowhere into the window.
-/

namespace SharpEmu.Agc.CommandWindow

open Addressed LabelSignals

/-! ## The bytes that an effect writes -/

def actTouches (address : UInt64) : Act → Bool
  | .write destination data => inRange destination data.length address
  | .copy _ destination count => inRange destination count address
  | .fill _ destination count => inRange destination count address
  | .record _ _ => false
  | .latch _ _ => false

/-- The effect writes the byte at an address, unless it fails before. -/
def PacketEffect.Touches (address : UInt64) : PacketEffect → Prop
  | .ordered packet => ∃ act ∈ packet.acts, actTouches address act = true
  | .shaders writes => ∃ write ∈ writes, inRange write.1 write.2.length address = true

/-- The effect writes none of the bytes from an address on. -/
def PacketEffect.Misses (address : UInt64) (count : ℕ) (effect : PacketEffect) : Prop :=
  ∀ index < count, ¬ effect.Touches (address + .ofNat index)

section Frames

variable {memory after : Memory} {address other : UInt64} {count : ℕ}

theorem tryWrite_unchanged {data : List UInt8} (written : tryWrite memory address data = some after)
    (outside : inRange address data.length other = false) : after other = memory other := by
  apply tryWrite_frame written outside
  unfold inRange at outside
  have beyond := of_decide_eq_false outside
  have bound := (other - address).toNat_lt
  omega

theorem inRange_chunk {offset part : ℕ} (inside : offset + part ≤ count)
    (touched : inRange (address + .ofNat offset) part other = true) :
    inRange address count other = true := by
  unfold inRange at *
  rw [decide_eq_true_eq, UInt64.toNat_sub, UInt64.toNat_add, UInt64.toNat_ofNat'] at touched
  rw [decide_eq_true_eq, UInt64.toNat_sub]
  have bound := other.toNat_lt
  have addressBound := address.toNat_lt
  omega

theorem chunk_le {part : ℕ × ℕ} (isChunk : part ∈ chunks count) : part.1 + part.2 ≤ count := by
  unfold chunks at isChunk
  obtain ⟨index, isIndex, rfl⟩ := List.mem_map.mp isChunk
  have below := List.mem_range.mp isIndex
  unfold chunkLength at *
  omega

variable {act : Act}

theorem touches_of_fill {value : UInt32} (isAct : act ∈ tryFillGuestMemory value address count)
    (touched : actTouches other act = true) : inRange address count other = true := by
  unfold tryFillGuestMemory at isAct
  obtain ⟨part, isChunk, rfl⟩ := List.mem_map.mp isAct
  have isLength : ((List.range part.2).map fun index =>
      (bytesOf 4 value.toNat).getD (index % 4) 0).length = part.2 := by
    rw [List.length_map, List.length_range]
  apply inRange_chunk (chunk_le isChunk)
  rw [← isLength]
  exact touched

theorem touches_of_copy {source : UInt64} (isAct : act ∈ tryCopyGuestMemory source address count)
    (touched : actTouches other act = true) : inRange address count other = true := by
  unfold tryCopyGuestMemory at isAct
  split at isAct
  · cases isAct
  · obtain ⟨part, isChunk, rfl⟩ := List.mem_map.mp isAct
    exact inRange_chunk (chunk_le isChunk) touched

variable {acts : List Act}

theorem runWrites_frame (outside : ∀ act ∈ acts, actTouches other act = false) :
    runWrites acts memory other = memory other := by
  induction acts generalizing memory with
  | nil => rfl
  | cons act rest ih =>
    obtain ⟨first, later⟩ := List.forall_mem_cons.mp outside
    cases act with
    | write destination data =>
      rw [runWrites]
      cases isWritten : tryWrite memory destination data with
      | none => rfl
      | some written => exact (ih later).trans (tryWrite_unchanged isWritten first)
    | _ => rfl

theorem runActs_frame (outside : ∀ act ∈ acts, actTouches other act = false) :
    runActs acts memory other = memory other := by
  induction acts generalizing memory with
  | nil => rfl
  | cons act rest ih =>
    obtain ⟨first, later⟩ := List.forall_mem_cons.mp outside
    cases act with
    | write destination data =>
      rw [runActs]
      cases isWritten : tryWrite memory destination data with
      | none => rfl
      | some written => exact (ih later).trans (tryWrite_unchanged isWritten first)
    | copy source destination count =>
      rw [runActs]
      cases isCopied : (readBytes memory source count).bind (tryWrite memory destination) with
      | none => rfl
      | some written =>
        obtain ⟨data, isRead, isWritten⟩ := Option.bind_eq_some_iff.mp isCopied
        refine (ih later).trans (tryWrite_unchanged isWritten ?_)
        rw [length_of_readBytes isRead]
        exact first
    | fill source destination count =>
      rw [runActs]
      cases readWord memory source 4 with
      | none => rfl
      | some value =>
        refine (ih later).trans (runWrites_frame fun act isAct => ?_)
        apply Bool.eq_false_of_not_eq_true
        intro touched
        exact Bool.false_ne_true (first.symm.trans (touches_of_fill isAct touched))
    | record address value => exact ih later
    | latch address value => exact ih later

theorem apply_frame {effect : PacketEffect} (outside : ¬ effect.Touches other) :
    effect.apply memory other = memory other := by
  cases effect with
  | ordered packet =>
    exact runActs_frame fun act isAct =>
      Bool.eq_false_of_not_eq_true fun touched => outside ⟨act, isAct, touched⟩
  | shaders writes =>
    change ¬ ∃ write ∈ writes, _ at outside
    rw [PacketEffect.apply]
    induction writes generalizing memory with
    | nil => rfl
    | cons write rest ih =>
      rw [List.foldl_cons, ih (fun ⟨later, isLater, touched⟩ =>
        outside ⟨later, List.mem_cons_of_mem _ isLater, touched⟩)]
      cases isWritten : tryWrite memory write.1 write.2 with
      | none => rfl
      | some written =>
        exact tryWrite_unchanged isWritten (Bool.eq_false_of_not_eq_true
          fun touched => outside ⟨write, List.mem_cons_self, touched⟩)

theorem applyAll_frame {effects : List PacketEffect}
    (outside : ∀ effect ∈ effects, ¬ effect.Touches other) :
    applyAll effects memory other = memory other := by
  induction effects generalizing memory with
  | nil => rfl
  | cons effect rest ih =>
    obtain ⟨first, later⟩ := List.forall_mem_cons.mp outside
    exact (ih later).trans (apply_frame first)

end Frames

/-! ## Windows -/

/-- The bytes are those of the memory. -/
def Window.IsFresh (window : Window) (memory : Memory) : Prop :=
  readBytes memory window.start window.bytes.length = some window.bytes

variable {window : Window}

theorem Window.IsFresh.kept {effect : PacketEffect}
    {memory : Memory} (fresh : window.IsFresh memory)
    (misses : effect.Misses window.start window.bytes.length) :
    window.IsFresh (effect.apply memory) :=
  (readBytes_congr fun index inside => apply_frame (misses index inside)).trans fresh

/-- The packet has no more values than its header can say. -/
def IsSized : ProducerPacket → Prop
  | .writeData _ _ _ values => values.length < 0x4000
  | _ => True

theorem touches_of_produce {dataSelection : UInt32}
    {destination data timestamp address : UInt64} {act : Act}
    (isAct : act ∈ produce dataSelection destination data timestamp)
    (touched : actTouches address act = true) :
    inRange destination (if dataSelection = 1 then 4 else 8) address = true := by
  unfold produce writeUInt32 writeUInt64 at isAct
  split at isAct
  · rename_i isOne
    simp only [List.mem_cons, List.not_mem_nil, or_false] at isAct
    rw [if_pos isOne]
    rcases isAct with rfl | rfl | rfl
    · exact touched
    · cases touched
    · cases touched
  · rename_i notOne
    rw [if_neg notOne]
    split at isAct
    · simp only [List.mem_cons, List.not_mem_nil, or_false] at isAct
      rcases isAct with rfl | rfl | rfl
      · exact touched
      · cases touched
      · cases touched
    · rw [List.mem_singleton.mp isAct] at touched
      exact touched

theorem two_le_of_ne_one {selection : UInt32} (positive : 1 ≤ selection)
    (notOne : selection ≠ 1) : 2 ≤ selection := by
  rw [UInt32.le_iff_toNat_le] at *
  have different : selection.toNat ≠ 1 := fun isOne => notOne (UInt32.toNat_inj.mp isOne)
  have one : (1 : UInt32).toNat = 1 := rfl
  have two : (2 : UInt32).toNat = 2 := rfl
  omega

/-- A packet writes only into the range that it invalidates. -/
theorem inRange_of_touches {packet : ProducerPacket} (sized : IsSized packet)
    {address : UInt64} (touched : (PacketEffect.ordered packet).Touches address) :
    inRange (invalidatedRange packet).1 (invalidatedRange packet).2.toNat address =
      true := by
  obtain ⟨act, isAct, touched⟩ := touched
  cases packet with
  | releaseMemStandard control destination data timestamp =>
    simp only [ProducerPacket.acts, invalidatedRange] at *
    split at isAct
    · rename_i releases
      obtain ⟨isMemory, notNull, positive, few⟩ := releases
      have isRange := touches_of_produce isAct touched
      rw [if_pos ⟨isMemory, notNull⟩]
      by_cases isOne : (decodeStandardReleaseMemControl control).2 = 1
      · rw [if_pos isOne] at isRange ⊢
        exact isRange
      · rw [if_neg isOne] at isRange ⊢
        rw [if_pos ⟨two_le_of_ne_one positive isOne, few⟩]
        exact isRange
    · cases isAct
  | releaseMem control destination data timestamp =>
    simp only [ProducerPacket.acts, invalidatedRange] at *
    split at isAct
    · rename_i selects
      have isRange := touches_of_produce isAct touched
      by_cases isOne : control >>> 16 &&& 0xff = 1
      · rw [if_pos isOne] at isRange ⊢
        exact isRange
      · rw [if_neg isOne] at isRange ⊢
        have isWide : control >>> 16 &&& 0xff = 2 ∨ control >>> 16 &&& 0xff = 3 := by
          have two := two_le_of_ne_one selects.1 isOne
          have few := selects.2
          rw [UInt32.le_iff_toNat_le] at two few
          have isTwo : (2 : UInt32).toNat = 2 := rfl
          have isThree : (3 : UInt32).toNat = 3 := rfl
          rw [← UInt32.toNat_inj, ← UInt32.toNat_inj]
          omega
        rw [if_pos isWide]
        exact isRange
    · cases isAct
  | writeData standardPacket control destination values =>
    simp only [ProducerPacket.acts, invalidatedRange] at *
    generalize (if standardPacket = true then decodeStandardWriteDataControl control
      else decodeAgcWriteDataControl control) = decoded at *
    split at isAct
    · obtain ⟨⟨value, index⟩, isValue, rfl⟩ := List.mem_map.mp isAct
      obtain ⟨-, below, -⟩ := List.mem_zipIdx isValue
      change values.length < 0x4000 at sized
      dsimp only at touched
      split at touched
      · rename_i increments
        rw [if_pos increments, UInt64.toNat_ofNat', Nat.mod_eq_of_lt (by omega)]
        exact @inRange_chunk _ _ _ _ 4 (by omega) touched
      · rename_i stays
        rw [if_neg stays]
        exact touched
    · cases isAct
  | dmaData compactLayout byteCount destination source =>
    simp only [ProducerPacket.acts, invalidatedRange] at *
    rw [UInt32.toNat_toUInt64]
    split at isAct
    · cases isAct
    · split at isAct
      · exact touches_of_fill isAct touched
      · split at isAct
        · cases isAct
        · exact touches_of_copy isAct touched
  | standardDmaData control sourceLow sourceHigh destinationLow destinationHigh command =>
    simp only [ProducerPacket.acts, applySubmittedStandardDmaDataSnapshot, invalidatedRange] at *
    split at isAct
    · cases isAct
    · rename_i accepted
      rw [if_neg fun refused => accepted (.inr refused), UInt32.toNat_toUInt64]
      split at isAct
      · split at isAct
        · rw [List.mem_singleton.mp isAct] at touched
          exact touched
        · exact touches_of_copy isAct touched
      · split at isAct
        · exact touches_of_fill isAct touched
        · cases isAct

def NoWrap (range : UInt64 × UInt64) : Prop := range.1.toNat + range.2.toNat < 2 ^ 64

/-- A packet whose range does not overlap the window writes nothing into it. -/
theorem misses_of_apart {packet : ProducerPacket}
    (sized : IsSized packet) (bound : window.bytes.length ≤ 4000000)
    (fits : ¬ (PacketEffect.ordered packet).Misses window.start window.bytes.length →
      NoWrap (invalidatedRange packet) ∧ NoWrap (window.start, window.length))
    (apart : ParserState.overlapsWindow window (invalidatedRange packet).1
      (invalidatedRange packet).2 = false) :
    (PacketEffect.ordered packet).Misses window.start window.bytes.length := by
  by_contra meets
  obtain ⟨rangeFits, windowFits⟩ := fits meets
  unfold PacketEffect.Misses at meets
  push Not at meets
  obtain ⟨index, inside, touched⟩ := meets
  have isRange := inRange_of_touches sized touched
  unfold inRange at isRange
  have isRange := of_decide_eq_true isRange
  have isLength : window.length.toNat = window.bytes.length := by
    rw [Window.length, UInt64.toNat_ofNat']
    omega
  unfold NoWrap at rangeFits windowFits
  dsimp only at windowFits
  rw [isLength] at windowFits
  rw [UInt64.toNat_sub, UInt64.toNat_add, UInt64.toNat_ofNat'] at isRange
  unfold ParserState.overlapsWindow at apart
  have startBound := window.start.toNat_lt
  have rangeBound := (invalidatedRange packet).1.toNat_lt
  have overlapping : (invalidatedRange packet).2 ≠ 0 ∧
      (invalidatedRange packet).1 < window.start + window.length ∧
      window.start < (invalidatedRange packet).1 + (invalidatedRange packet).2 := by
    refine ⟨?_, ?_, ?_⟩
    · intro isEmpty
      rw [isEmpty] at isRange
      exact absurd isRange (Nat.not_lt_zero _)
    · rw [UInt64.lt_iff_toNat_lt, UInt64.toNat_add, isLength]
      omega
    · rw [UInt64.lt_iff_toNat_lt, UInt64.toNat_add]
      omega
  simp [overlapping] at apart

theorem applyAll_append (effects : List PacketEffect) (effect : PacketEffect) (memory : Memory) :
    applyAll (effects ++ [effect]) memory = effect.apply (applyAll effects memory) := by
  rw [applyAll, List.foldl_append]
  rfl

namespace ParserState

variable (state : ParserState)

/-- What a read needs: no effect that is still deferred writes into it, and the check
against the window does not wrap around. -/
structure ReadMeets (address : UInt64) (count : ℕ) : Prop where
  settled : ∀ effect ∈ state.deferred, effect.Misses address count
  noWrap : ∀ window, state.window = some window → window.start ≤ address →
    (address - window.start).toNat + count < 2 ^ 64

/-- What keeps the parser on its queue in one step: nothing is written into the window
behind its back, and no range that is compared with it wraps around. -/
def Meets : Action → Prop
  | .request (.readUInt32 address) => state.ReadMeets address 4
  | .request (.readUInt64 address) => state.ReadMeets address 8
  | .request (.packet (.ordered packet)) =>
      state.presenterRunning = false → IsSized packet ∧ ∀ window, state.window = some window →
          ¬ (PacketEffect.ordered packet).Misses window.start window.bytes.length →
            NoWrap (invalidatedRange packet) ∧ NoWrap (window.start, window.length)
  | .request (.packet (.shaders writes)) =>
      state.presenterRunning = false → ∀ window, state.window = some window →
          (PacketEffect.shaders writes).Misses window.start window.bytes.length
  | .applyDeferred =>
      ∀ effect rest, state.deferred = effect :: rest → ∀ window, state.window = some window →
          effect.Misses window.start window.bytes.length
  | _ => True

/-- The parser has been answered as on its queue, and the window is fresh. -/
structure AsIfSequential (parser : Parser) (memory : Memory) : Prop where
  sequential : sequentialRun parser memory state.answers.length =
    ⟨applyAll state.deferred state.memory, state.answers⟩
  fresh : ∀ window, state.window = some window →
    window.IsFresh state.memory ∧ window.bytes.length ≤ 4000000
  immediate : state.presenterRunning = false → state.deferred = []

variable {state} {parser : Parser} {memory : Memory}

theorem served_inside {window : Window} {address : UInt64} {count : ℕ}
    (bound : window.bytes.length ≤ 4000000)
    (noWrap : window.start ≤ address → (address - window.start).toNat + count < 2 ^ 64)
    (served : isServed window address (UInt64.ofNat count) = true) :
    (address - window.start).toNat + count ≤ window.bytes.length := by
  obtain ⟨above, fits⟩ := Bool.and_eq_true_iff.mp served
  have noWrap := noWrap (of_decide_eq_true above)
  have fits := UInt64.le_iff_toNat_le.mp (of_decide_eq_true fits)
  rw [UInt64.toNat_add, Window.length, UInt64.toNat_ofNat', UInt64.toNat_ofNat'] at fits
  omega

theorem tryRead_eq {address : UInt64} {count : ℕ} (positive : 0 < count)
    (fresh : ∀ window, state.window = some window →
      window.IsFresh state.memory ∧ window.bytes.length ≤ 4000000)
    (meets : state.ReadMeets address count) :
    state.tryRead address count = answerOf (readWord state.memory address count) := by
  rw [tryRead]
  split
  · rename_i window isServing
    obtain ⟨isWindow, served⟩ := Option.filter_eq_some_iff.mp isServing
    obtain ⟨isFresh, bound⟩ := fresh window isWindow
    have total := served_inside bound (meets.noWrap window isWindow) served
    have inside : (address - window.start).toNat < window.bytes.length := by omega
    have isPlace : address = window.start + UInt64.ofNat (address - window.start).toNat := by
      rw [UInt64.ofNat_toNat, UInt64.add_comm, UInt64.sub_add_cancel]
    have isRead := readBytes_drop_take isFresh total
    rw [← isPlace] at isRead
    dsimp only
    rw [if_pos inside, readWord, isRead]
    rfl
  · rfl

variable {request : Request}

theorem AsIfSequential.answered {answer : Answer} {after : ParserState}
    (holds : state.AsIfSequential parser memory)
    (isNext : parser state.answers = some request)
    (performed : SequentialQueue.perform
        ⟨applyAll state.deferred state.memory, state.answers⟩ request =
      ⟨applyAll after.deferred after.memory, state.answers ++ [answer]⟩)
    (fresh : ∀ window, after.window = some window →
      window.IsFresh after.memory ∧ window.bytes.length ≤ 4000000)
    (immediate : after.presenterRunning = false → after.deferred = [])
    (sameAnswers : after.answers = state.answers) :
    (after.answered answer).AsIfSequential parser memory := by
  constructor
  · have longer : (state.answers ++ [answer]).length = state.answers.length + 1 :=
      List.length_append
    rw [ParserState.answered, sameAnswers, longer, sequentialRun, holds.sequential]
    simp only [isNext]
    exact performed
  · exact fresh
  · exact immediate

theorem AsIfSequential.read {address : UInt64} {count : ℕ}
    (holds : state.AsIfSequential parser memory) (positive : 0 < count)
    (isNext : parser state.answers = some request)
    (isRead : ∀ queue : SequentialQueue, queue.perform request = ⟨queue.memory,
        queue.answers ++ [answerOf (readWord queue.memory address count)]⟩)
    (meets : state.ReadMeets address count) :
    (state.answered (state.tryRead address count)).AsIfSequential parser
      memory := by
  apply holds.answered isNext
  · have settled : readWord (applyAll state.deferred state.memory) address count =
        readWord state.memory address count := by
      rw [readWord, readWord, readBytes_congr fun index inside =>
        applyAll_frame fun effect isDeferred => meets.settled effect isDeferred index inside]
    rw [isRead, tryRead_eq positive holds.fresh meets, settled]
  · exact holds.fresh
  · exact holds.immediate
  · rfl

theorem AsIfSequential.packet {effect : PacketEffect} (holds : state.AsIfSequential parser memory)
    (isNext : parser state.answers = some (.packet effect))
    (meets : state.Meets (.request (.packet effect))) :
    ((state.submitOrderedGpuSideEffect effect).answered .done).AsIfSequential
      parser memory := by
  rw [submitOrderedGpuSideEffect]
  cases running : state.presenterRunning with
  | true =>
    rw [if_pos rfl]
    apply holds.answered isNext
    · rw [applyAll_append]
      rfl
    · exact holds.fresh
    · intro notRunning
      cases notRunning
    · rfl
  | false =>
    rw [if_neg Bool.false_ne_true]
    have none_deferred := holds.immediate running
    cases effect with
    | ordered packet =>
      apply holds.answered isNext
      · rw [none_deferred]
        change _ = SequentialQueue.mk (applyAll state.deferred _) _
        rw [none_deferred]
        rfl
      · intro window isWindow
        obtain ⟨isWindow, apart⟩ := Option.filter_eq_some_iff.mp isWindow
        obtain ⟨isFresh, bound⟩ := holds.fresh window isWindow
        rw [Bool.not_eq_true'] at apart
        obtain ⟨sized, fits⟩ := meets running
        exact ⟨isFresh.kept (misses_of_apart sized bound (fits window isWindow) apart), bound⟩
      · exact fun _ => none_deferred
      · rfl
    | shaders writes =>
      apply holds.answered isNext
      · rw [none_deferred]
        change _ = SequentialQueue.mk (applyAll state.deferred _) _
        rw [none_deferred]
        rfl
      · intro window isWindow
        obtain ⟨isFresh, bound⟩ := holds.fresh window isWindow
        exact ⟨isFresh.kept (meets running window isWindow), bound⟩
      · exact fun _ => none_deferred
      · rfl

theorem fresh_beginParse {commandAddress : UInt64} {dwordCount : UInt32}
    (fresh : ∀ window, state.window = some window →
      window.IsFresh state.memory ∧ window.bytes.length ≤ 4000000) :
    ∀ window, (state.beginParse commandAddress dwordCount).window = some window →
        window.IsFresh state.memory ∧ window.bytes.length ≤ 4000000 := by
  intro window isWindow
  rw [beginParse] at isWindow
  split at isWindow
  · exact fresh window isWindow
  · rename_i accepted
    split at isWindow
    · exact fresh window isWindow
    · rename_i bytes isRead
      obtain rfl := Option.some.inj isWindow
      have isLength := length_of_readBytes isRead
      rw [not_or, not_or] at accepted
      have bound := UInt32.le_iff_toNat_le.mp (UInt32.not_lt.mp accepted.2.2)
      have million : (1000000 : UInt32).toNat = 1000000 := rfl
      constructor
      · change readBytes state.memory commandAddress bytes.length = some bytes
        rw [isLength]
        exact isRead
      · change bytes.length ≤ 4000000
        omega

theorem beginParse_fields (state : ParserState) (commandAddress : UInt64) (dwordCount : UInt32) :
    (state.beginParse commandAddress dwordCount).memory = state.memory ∧
      (state.beginParse commandAddress dwordCount).deferred = state.deferred ∧
      (state.beginParse commandAddress dwordCount).presenterRunning = state.presenterRunning ∧
      (state.beginParse commandAddress dwordCount).answers =
        state.answers := by
  rw [beginParse]
  split
  · exact ⟨rfl, rfl, rfl, rfl⟩
  · split <;> exact ⟨rfl, rfl, rfl, rfl⟩

theorem AsIfSequential.perform (holds : state.AsIfSequential parser memory)
    (isNext : parser state.answers = some request)
    (meets : state.Meets (.request request)) :
    (state.perform request).AsIfSequential parser memory := by
  cases request with
  | readUInt32 address =>
    exact holds.read (by omega) isNext (fun _ => rfl) meets
  | readUInt64 address =>
    exact holds.read (by omega) isNext (fun _ => rfl) meets
  | packet effect => exact holds.packet isNext meets
  | beginParse commandAddress dwordCount =>
    obtain ⟨sameMemory, sameDeferred, sameRunning, sameAnswers⟩ :=
      beginParse_fields state commandAddress dwordCount
    apply holds.answered isNext
    · rw [sameMemory, sameDeferred]
      rfl
    · rw [sameMemory]
      exact fresh_beginParse holds.fresh
    · rw [sameRunning, sameDeferred]
      exact holds.immediate
    · exact sameAnswers
  | endParse =>
    apply holds.answered isNext
    · rfl
    · intro window isWindow
      cases isWindow
    · exact holds.immediate
    · rfl
  | acquireMem =>
    apply holds.answered isNext
    · rfl
    · intro window isWindow
      cases isWindow
    · exact holds.immediate
    · rfl

theorem AsIfSequential.applyDeferred (holds : state.AsIfSequential parser memory)
    (meets : state.Meets .applyDeferred) :
    state.applyDeferred.AsIfSequential parser memory := by
  rw [ParserState.applyDeferred]
  split
  · exact holds
  · rename_i effect rest isDeferred
    constructor
    · rw [holds.sequential, isDeferred]
      rfl
    · intro window isWindow
      obtain ⟨isFresh, bound⟩ := holds.fresh window isWindow
      exact ⟨isFresh.kept (meets effect rest isDeferred window isWindow), bound⟩
    · intro notRunning
      have none_deferred := holds.immediate notRunning
      rw [isDeferred] at none_deferred
      cases none_deferred

theorem AsIfSequential.step {action : Action} {after : ParserState}
    (holds : state.AsIfSequential parser memory) (meets : state.Meets action)
    (taken : Step parser state action after) :
    after.AsIfSequential parser memory := by
  cases taken with
  | request isNext => exact holds.perform isNext meets
  | applyDeferred => exact holds.applyDeferred meets
  | startPresenter =>
    exact ⟨holds.sequential, holds.fresh, fun notRunning => by
      cases notRunning⟩

theorem asIfSequential_start (isStart : IsStart memory state) :
    state.AsIfSequential parser memory := by
  rw [isStart]
  constructor
  · rfl
  · intro window isWindow
    cases isWindow
  · exact fun _ => rfl

/-- The parser is answered as on the queue that executes its packets one after
another; the window holds the bytes of guest memory, and serves no read that
leaves it. -/
theorem parser_as_if_sequential
    (reachable : Reachable (IsStart memory) (onlyWhen Meets (Step parser)) state) :
    state.answers = (sequentialRun parser memory state.answers.length).answers ∧
      ∀ window, state.window = some window → window.IsFresh state.memory ∧ ∀ address count,
            (window.start ≤ address → (address - window.start).toNat + count < 2 ^ 64) →
            isServed window address (UInt64.ofNat count) = true →
              (address - window.start).toNat + count ≤ window.bytes.length := by
  have holds : state.AsIfSequential parser memory := by
    apply reachable.invariant
    · exact fun _ isStart => asIfSequential_start isStart
    · exact fun _ _ _ holds taken => holds.step taken.1 taken.2
  constructor
  · rw [holds.sequential]
  · intro window isWindow
    obtain ⟨fresh, bound⟩ := holds.fresh window isWindow
    exact ⟨fresh, fun address count noWrap served =>
      served_inside bound noWrap served⟩

end ParserState

section Sample

open ParserState

/-- A command buffer of two dwords, and a label. -/
def sampleMemory : Memory := fun address =>
  if inRange 0x1000 8 address || inRange 0x2000 4 address then some 0 else none

/-- A release writes five over the command buffer. -/
def samplePatch : PacketEffect := .ordered (.releaseMem 0x10000 0x1000 5 0)

def sampleParser : Parser := fun answers =>
  [Request.beginParse 0x1000 2, .packet samplePatch, .readUInt32 0x1000][answers.length]?

def sampleStart : ParserState := ⟨sampleMemory, none, false, [], []⟩

def sampleParsing (start : ParserState) : ParserState :=
  (start.perform (.beginParse 0x1000 2)).perform (.packet samplePatch)

def sampleSignal : PacketEffect := .ordered (.releaseMem 0x10000 0x2000 7 0)

/-- The patched buffer is parsed again, and a label is signalled and read. -/
def signalParser : Parser := fun answers =>
  [Request.beginParse 0x1000 2, .packet samplePatch, .beginParse 0x1000 2,
    .packet sampleSignal, .readUInt32 0x1000, .readUInt32 0x2000][answers.length]?

def signalRunning : ParserState :=
  { (sampleParsing sampleStart).perform (.beginParse 0x1000 2) with
    presenterRunning := true }

def signalDeferred : ParserState :=
  (signalRunning.perform (.packet sampleSignal)).perform (.readUInt32 0x1000)

theorem touches_sampleSignal {address : UInt64} (touched : sampleSignal.Touches address) :
    inRange 0x2000 4 address = true :=
  @inRange_of_touches (.releaseMem 0x10000 0x2000 7 0) trivial _ touched

theorem sampleSignal_misses (count : ℕ) (few : count ≤ 8) : sampleSignal.Misses 0x1000 count := by
  intro index inside touched
  have isRange := of_decide_eq_true (touches_sampleSignal touched)
  rw [UInt64.toNat_sub, UInt64.toNat_add, UInt64.toNat_ofNat'] at isRange
  have first : (0x1000 : UInt64).toNat = 0x1000 := rfl
  have second : (0x2000 : UInt64).toNat = 0x2000 := rfl
  omega

/-- Without a presenter the patch drops the window; with one, the label is read once
the render thread has written it. -/
theorem parser_as_if_sequential_sample :
    (signalDeferred.applyDeferred.perform (.readUInt32 0x2000)).answers =
      (sequentialRun signalParser sampleMemory 6).answers := by
  let step := onlyWhen Meets (Step signalParser)
  have begins : step sampleStart (.request (.beginParse 0x1000 2))
      (sampleStart.perform (.beginParse 0x1000 2)) :=
    ⟨trivial, .request rfl⟩
  have patches : step (sampleStart.perform (.beginParse 0x1000 2))
      (.request (.packet samplePatch)) (sampleParsing sampleStart) := by
    refine ⟨fun _ => ⟨trivial, ?_⟩, .request rfl⟩
    intro window isWindow _
    obtain rfl := Option.some.inj isWindow
    exact ⟨by unfold NoWrap; decide, by unfold NoWrap; decide⟩
  have beginsAgain : step (sampleParsing sampleStart) (.request (.beginParse 0x1000 2))
      ((sampleParsing sampleStart).perform (.beginParse 0x1000 2)) :=
    ⟨trivial, .request rfl⟩
  have starts : step ((sampleParsing sampleStart).perform (.beginParse 0x1000 2))
      .startPresenter signalRunning :=
    ⟨trivial, .startPresenter⟩
  have signals : step signalRunning (.request (.packet sampleSignal))
      (signalRunning.perform (.packet sampleSignal)) :=
    ⟨nofun, .request rfl⟩
  have reads : step (signalRunning.perform (.packet sampleSignal))
      (.request (.readUInt32 0x1000)) signalDeferred := by
    refine ⟨⟨?_, ?_⟩, .request rfl⟩
    · intro effect isDeferred
      obtain rfl := List.mem_singleton.mp isDeferred
      exact sampleSignal_misses 4 (by omega)
    · intro window isWindow _
      obtain rfl := Option.some.inj isWindow
      decide
  have applies : step signalDeferred .applyDeferred signalDeferred.applyDeferred := by
    refine ⟨?_, .applyDeferred⟩
    intro effect rest isDeferred window isWindow
    obtain rfl := (List.cons.inj isDeferred).1
    obtain rfl := Option.some.inj isWindow
    exact sampleSignal_misses 8 (by omega)
  have readsLabel : step signalDeferred.applyDeferred (.request (.readUInt32 0x2000))
      (signalDeferred.applyDeferred.perform (.readUInt32 0x2000)) := by
    refine ⟨⟨nofun, ?_⟩, .request rfl⟩
    intro window isWindow _
    obtain rfl := Option.some.inj isWindow
    decide
  have reachable := ((((((((Reachable.start rfl :
    Reachable (IsStart sampleMemory) step sampleStart).next begins).next
      patches).next beginsAgain).next starts).next signals).next reads).next
        applies).next readsLabel
  exact (parser_as_if_sequential reachable).1

/-- The render thread applies the patch before the patched dword is read, but
does not drop the window of the thread that parses. -/
theorem patched_window_stale :
    ¬∀ state, Reachable (IsStart sampleMemory) (Step sampleParser) state → state.answers =
          (sequentialRun sampleParser sampleMemory state.answers.length).answers ∧
        ∀ window, state.window = some window → window.IsFresh state.memory := by
  let running : ParserState := { sampleStart with presenterRunning := true }
  have starts : Step sampleParser sampleStart .startPresenter running :=
    .startPresenter
  have begins : Step sampleParser running (.request (.beginParse 0x1000 2))
      (running.perform (.beginParse 0x1000 2)) :=
    .request rfl
  have patches : Step sampleParser (running.perform (.beginParse 0x1000 2))
      (.request (.packet samplePatch)) (sampleParsing running) :=
    .request rfl
  have applies : Step sampleParser (sampleParsing running) .applyDeferred
      (sampleParsing running).applyDeferred :=
    .applyDeferred
  have reads : Step sampleParser (sampleParsing running).applyDeferred
      (.request (.readUInt32 0x1000))
      ((sampleParsing running).applyDeferred.perform (.readUInt32 0x1000)) :=
    .request rfl
  have reachable := (((((Reachable.start rfl :
    Reachable (IsStart sampleMemory) (Step sampleParser) sampleStart).next
      starts).next begins).next patches).next applies).next reads
  intro always
  exact absurd (always _ reachable).1 (by decide)

end Sample

end SharpEmu.Agc.CommandWindow
