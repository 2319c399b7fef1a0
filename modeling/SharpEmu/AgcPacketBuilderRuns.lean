import SharpEmu.AgcPacketBuilders

/-!
# Where a packet builder leaves the cursor

Nothing in a builder undoes a reservation.  A call that ends before its first
reservation has succeeded leaves guest memory as it was; every reservation that
has succeeded has moved the cursor by the dwords of its packet for good, whether
the call goes on to finish its packets or returns null.  Only the guest's own
callback for a full buffer may change memory beyond that.
-/

namespace SharpEmu.Agc.PacketBuilders

open Addressed

def cursor (commandBuffer : UInt64) (memory : GuardedMemory) : Option UInt64 :=
  memory.tryReadUInt64 (commandBuffer + commandBufferCursorUpOffset)

/-- How far reservations move the cursor. -/
def advance : List UInt32 → UInt64
  | [] => 0
  | sizeDwords :: rest => sizeDwords.toUInt64 * 4 + advance rest

def PacketBuilder.ReadsFirst : PacketBuilder → Prop
  | .returnPointer _ => True
  | .readUInt32 _ next => ∀ value, (next value).ReadsFirst
  | .readUInt64 _ next => ∀ value, (next value).ReadsFirst
  | .allocate _ _ => True
  | .writeUInt32 _ _ _ => False

variable {tryCallGuestFunction : GuestCallback} {commandBuffer : UInt64}

/-! ### One reservation -/

variable {memory : GuardedMemory} {header : CommandBufferHeader}

theorem cursor_of_readHeader (read : readHeader memory commandBuffer = some header) :
    cursor commandBuffer memory = some header.cursorUp := by
  simp only [readHeader, Option.bind_eq_bind, Option.pure_def,
    Option.bind_eq_some_iff, Option.some.injEq] at read
  obtain ⟨cursorUp, isCursor, _, -, _, -, _, -, _, -, rfl⟩ := read
  exact isCursor

theorem storeCursor_cases (memory : GuardedMemory) (sizeDwords : UInt32)
    (cursorUp : UInt64) (called : Bool) :
    let allocation :=
      storeCursor memory commandBuffer sizeDwords cursorUp called
    (allocation.address = none ∧ allocation.memory = memory) ∨ (allocation.address = some cursorUp ∧
        cursor commandBuffer allocation.memory = some (cursorUp + sizeDwords.toUInt64 * 4)) := by
  simp only [storeCursor]
  cases written : memory.tryWriteUInt64 (commandBuffer + commandBufferCursorUpOffset)
      (cursorUp + sizeDwords.toUInt64 * 4) with
  | none => exact Or.inl ⟨rfl, rfl⟩
  | some after =>
    exact Or.inr ⟨rfl, tryReadUInt64_of_tryWriteUInt64 written⟩

variable {sizeDwords : UInt32}

theorem allocateAfterCallback_quiet
    (quiet : (allocateAfterCallback tryCallGuestFunction memory commandBuffer
      sizeDwords header).called = false) :
    allocateAfterCallback tryCallGuestFunction memory commandBuffer sizeDwords
      header = ⟨memory, false, none⟩ := by
  by_cases absent : header.callback = 0
  · rw [allocateAfterCallback, if_pos absent]
  · exfalso
    rw [allocateAfterCallback, if_neg absent] at quiet
    simp only [storeCursor] at quiet
    split at quiet
    next =>
      split at quiet
      next => simp at quiet
      next =>
        split at quiet
        next => simp at quiet
        next => split at quiet <;> simp at quiet
    next => simp at quiet

/-- Without the callback, a reservation either fails and leaves memory alone or
moves the cursor behind its packet. -/
theorem tryAllocateCommandDwords_cases
    (quiet : (tryAllocateCommandDwords tryCallGuestFunction memory
      commandBuffer sizeDwords).called = false) :
    let allocation := tryAllocateCommandDwords tryCallGuestFunction memory commandBuffer sizeDwords
    (allocation.address = none ∧ allocation.memory = memory) ∨
      ∃ cursorUp, allocation.address = some cursorUp ∧ cursor commandBuffer memory = some cursorUp ∧
        cursor commandBuffer allocation.memory = some (cursorUp + sizeDwords.toUInt64 * 4) := by
  dsimp only
  by_cases empty : sizeDwords = 0
  · rw [tryAllocateCommandDwords, if_pos empty]
    exact Or.inl ⟨rfl, rfl⟩
  · rw [tryAllocateCommandDwords, if_neg empty] at quiet ⊢
    cases read : readHeader memory commandBuffer with
    | none => exact Or.inl ⟨rfl, rfl⟩
    | some header =>
      simp only [read] at quiet ⊢
      by_cases full : getRemainingCommandDwords header.cursorUp
          header.cursorDown header.reservedDwords < sizeDwords
      · rw [if_pos full] at quiet ⊢
        rw [allocateAfterCallback_quiet quiet]
        exact Or.inl ⟨rfl, rfl⟩
      · rw [if_neg full]
        rcases storeCursor_cases memory sizeDwords header.cursorUp false with
          failed | ⟨address, moved⟩
        · exact Or.inl failed
        · exact Or.inr ⟨_, address, cursor_of_readHeader read, moved⟩

theorem cursor_of_tryWriteUInt32 {after : GuardedMemory} {address : UInt64} {value : UInt32}
    (written : memory.tryWriteUInt32 address value = some after)
    (apart : Apart address 4 (commandBuffer + commandBufferCursorUpOffset) 8) :
    cursor commandBuffer after = cursor commandBuffer memory := by
  refine GuardedMemory.tryReadUInt64_of_tryWrite_apart written ?_ ?_
  · rw [length_bytesOf]
    decide
  · rw [length_bytesOf]
    exact apart

/-! ### A whole call -/

theorem cursor_run (builder : PacketBuilder)
    (quiet : (run tryCallGuestFunction commandBuffer builder memory).called = false)
    (apart : ∀ address ∈ (run tryCallGuestFunction commandBuffer builder memory).written,
      Apart address 4 (commandBuffer + commandBufferCursorUpOffset) 8) :
    cursor commandBuffer (run tryCallGuestFunction commandBuffer builder memory).memory =
      (cursor commandBuffer memory).map (· + advance
          (run tryCallGuestFunction commandBuffer builder memory).reserved) := by
  have unmoved (value : Option UInt64) : value = value.map (· + advance []) := by
    cases value with
    | none => rfl
    | some value => exact congrArg some (UInt64.add_zero value).symm
  induction builder generalizing memory with
  | returnPointer pointer => exact unmoved _
  | readUInt32 address next ih =>
    rw [run] at quiet apart ⊢
    cases read : tryReadUInt32 memory address with
    | none => exact unmoved _
    | some value =>
      simp only [read] at quiet apart ⊢
      exact ih value quiet apart
  | readUInt64 address next ih =>
    rw [run] at quiet apart ⊢
    cases read : memory.tryReadUInt64 address with
    | none => exact unmoved _
    | some value =>
      simp only [read] at quiet apart ⊢
      exact ih value quiet apart
  | allocate sizeDwords next ih =>
    rw [run] at quiet apart ⊢
    cases allocated : (tryAllocateCommandDwords tryCallGuestFunction memory
        commandBuffer sizeDwords).address with
    | none =>
      simp only [allocated] at quiet ⊢
      rcases tryAllocateCommandDwords_cases quiet with ⟨-, same⟩ | ⟨_, address, -⟩
      · rw [same]
        exact unmoved _
      · rw [allocated] at address
        cases address
    | some address =>
      simp only [allocated, Bool.or_eq_false_iff] at quiet apart ⊢
      rcases tryAllocateCommandDwords_cases quiet.1 with
        ⟨none, -⟩ | ⟨cursorUp, -, before, moved⟩
      · rw [allocated] at none
        cases none
      · rw [ih address quiet.2 apart, moved, before, Option.map_some,
          Option.map_some, advance, UInt64.add_assoc]
  | writeUInt32 address value next ih =>
    rw [run] at quiet apart ⊢
    cases written : memory.tryWriteUInt32 address value with
    | none => exact unmoved _
    | some after =>
      simp only [written] at quiet apart ⊢
      rw [ih quiet (List.forall_mem_cons.mp apart).2,
        cursor_of_tryWriteUInt32 written (apart address List.mem_cons_self)]

theorem memory_run_of_nothing_reserved {builder : PacketBuilder} (readsFirst : builder.ReadsFirst)
    (quiet : (run tryCallGuestFunction commandBuffer builder memory).called = false)
    (nothing : (run tryCallGuestFunction commandBuffer builder memory).reserved = []) :
    (run tryCallGuestFunction commandBuffer builder memory).memory = memory := by
  induction builder generalizing memory with
  | returnPointer pointer => rfl
  | readUInt32 address next ih =>
    rw [run] at quiet nothing ⊢
    cases read : tryReadUInt32 memory address with
    | none => rfl
    | some value =>
      simp only [read] at quiet nothing ⊢
      exact ih value (readsFirst value) quiet nothing
  | readUInt64 address next ih =>
    rw [run] at quiet nothing ⊢
    cases read : memory.tryReadUInt64 address with
    | none => rfl
    | some value =>
      simp only [read] at quiet nothing ⊢
      exact ih value (readsFirst value) quiet nothing
  | allocate sizeDwords next ih =>
    rw [run] at quiet nothing ⊢
    cases allocated : (tryAllocateCommandDwords tryCallGuestFunction memory
        commandBuffer sizeDwords).address with
    | none =>
      simp only [allocated] at quiet ⊢
      rcases tryAllocateCommandDwords_cases quiet with ⟨-, same⟩ | ⟨_, address, -⟩
      · exact same
      · rw [allocated] at address
        cases address
    | some address =>
      simp only [allocated] at nothing
      cases nothing
  | writeUInt32 address value next ih => exact readsFirst.elim

/-! ### The exported builders -/

inductive BuilderCall
  | cbNop (dwordCount : UInt32)
  | cbSetShRegistersDirect
      (sort : List RegisterDefaultValue → List RegisterDefaultValue)
      (registersAddress : UInt64) (registerCount : UInt32)
  | dcbDrawIndex (indexCount : UInt32) (indexAddress : UInt64)
      (modifier : UInt32)
  | dcbWriteData (destination cachePolicy destinationAddress dataAddress : UInt64)
      (dwordCount : UInt32) (stackAddress : UInt64)

def BuilderCall.builder (commandBuffer : UInt64) : BuilderCall → PacketBuilder
  | .cbNop dwordCount => PacketBuilders.cbNop commandBuffer dwordCount
  | .cbSetShRegistersDirect sort registersAddress registerCount =>
      PacketBuilders.cbSetShRegistersDirect commandBuffer sort registersAddress registerCount
  | .dcbDrawIndex indexCount indexAddress modifier =>
      PacketBuilders.dcbDrawIndex commandBuffer indexCount indexAddress modifier
  | .dcbWriteData destination cachePolicy destinationAddress dataAddress
      dwordCount stackAddress =>
      PacketBuilders.dcbWriteData commandBuffer destination cachePolicy
        destinationAddress dataAddress dwordCount stackAddress

theorem emitRuns_readsFirst (turns : ℕ) (registers : List RegisterDefaultValue)
    (firstCommandAddress : UInt64) :
    (emitRuns turns registers firstCommandAddress).ReadsFirst := by
  cases turns with
  | zero => trivial
  | succ turns =>
    cases registers with
    | nil => trivial
    | cons head rest => trivial

theorem readRegisters_readsFirst {registersAddress : UInt64} {count index : ℕ}
    {next : List RegisterDefaultValue → PacketBuilder}
    (readsFirst : ∀ registers, (next registers).ReadsFirst) :
    (readRegisters registersAddress count index next).ReadsFirst := by
  induction count generalizing index next with
  | zero => exact readsFirst []
  | succ count ih =>
    intro offset value
    exact ih fun rest => readsFirst (⟨offset, value⟩ :: rest)

theorem BuilderCall.readsFirst (call : BuilderCall) (commandBuffer : UInt64) :
    (call.builder commandBuffer).ReadsFirst := by
  cases call with
  | cbNop dwordCount =>
    simp only [builder, PacketBuilders.cbNop]
    split <;> trivial
  | cbSetShRegistersDirect sort registersAddress registerCount =>
    simp only [builder, PacketBuilders.cbSetShRegistersDirect]
    split
    · trivial
    · split
      · trivial
      · exact readRegisters_readsFirst fun registers =>
          emitRuns_readsFirst _ _ _
  | dcbDrawIndex indexCount indexAddress modifier =>
    simp only [builder, PacketBuilders.dcbDrawIndex]
    split <;> trivial
  | dcbWriteData destination cachePolicy destinationAddress dataAddress
      dwordCount stackAddress =>
      intro incrementRaw writeConfirmRaw
      simp only
      split <;> trivial

/-- A call keeps exactly what it has reserved, on success and on failure alike.
The guest's callback for a full buffer and a packet that lies over the cursor
itself are set apart. -/
theorem builder_call_keeps_reservations
    (tryCallGuestFunction : GuestCallback) (commandBuffer : UInt64) :
    (∀ call : BuilderCall, (call.builder commandBuffer).ReadsFirst) ∧
      ∀ (builder : PacketBuilder) (memory : GuardedMemory), builder.ReadsFirst →
        let ended := run tryCallGuestFunction commandBuffer builder memory
        ended.called = false →
        (ended.reserved = [] → ended.memory = memory) ∧ ((∀ address ∈ ended.written,
              Apart address 4 (commandBuffer + commandBufferCursorUpOffset) 8) →
            cursor commandBuffer ended.memory = (cursor commandBuffer memory).map
                (· + advance ended.reserved)) := by
  refine ⟨fun call => call.readsFirst commandBuffer, ?_⟩
  intro builder memory readsFirst ended quiet
  exact ⟨memory_run_of_nothing_reserved readsFirst quiet, cursor_run builder quiet⟩

def LeavesCursor (tryCallGuestFunction : GuestCallback)
    (commandBuffer : UInt64) (call : BuilderCall) (memory : GuardedMemory) :
    Prop :=
  let ended := run tryCallGuestFunction commandBuffer (call.builder commandBuffer) memory
  ended.pointer = 0 → cursor commandBuffer ended.memory = cursor commandBuffer memory

/-- Bytes below 0x2000, all writable: a command buffer at 0x100 whose cursors
are 0x1000 and 0x1800, and zeros. -/
def sampleMemory : GuardedMemory where
  bytes := fun address =>
    if address < 0x2000 then
      some (if address = 0x111 then 0x10 else if address = 0x119 then 0x18
        else 0)
    else none
  writable := fun _ => true

/-- Two data dwords of which only the first can be read. -/
def sampleWriteData : BuilderCall :=
  .dcbWriteData 0 0 0x800 0x1FFC 2 0x200

def noCallback : GuestCallback := fun memory _ _ _ _ => (false, memory)

/-- The packet of the second dword's failed read stays reserved. -/
theorem sampleWriteData_moves_cursor :
    ¬LeavesCursor noCallback 0x100 sampleWriteData sampleMemory := by
  intro leaves
  have null : (run noCallback 0x100 (sampleWriteData.builder 0x100)
      sampleMemory).pointer = 0 := by decide +kernel
  have before : cursor 0x100 sampleMemory = some 0x1000 := by decide +kernel
  have after : cursor 0x100 (run noCallback 0x100
      (sampleWriteData.builder 0x100) sampleMemory).memory = some 0x1018 := by
    decide +kernel
  have same := leaves null
  rw [before, after] at same
  exact absurd same (by decide)

theorem builder_call_keeps_reservations_sample :
    let ended := run noCallback 0x100 (sampleWriteData.builder 0x100) sampleMemory
    cursor 0x100 ended.memory = (cursor 0x100 sampleMemory).map (· + advance ended.reserved) := by
  refine ((builder_call_keeps_reservations noCallback 0x100).2 (sampleWriteData.builder 0x100)
    sampleMemory (sampleWriteData.readsFirst 0x100) (by decide +kernel)).2 ?_
  have apart : (run noCallback 0x100 (sampleWriteData.builder 0x100) sampleMemory).written.all
      (fun address => (List.range 8).all fun index =>
        !inRange address 4 (0x100 + commandBufferCursorUpOffset + .ofNat index)) = true := by
    decide +kernel
  intro address member index inside
  have here := List.all_eq_true.mp (List.all_eq_true.mp apart address member) index
    (List.mem_range.mpr inside)
  simpa using here

end SharpEmu.Agc.PacketBuilders
