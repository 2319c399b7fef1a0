import SharpEmu.AgcPacketBuilders
import SharpEmu.KeyedAssignments

/-!
# Register packets and their execution

The parser of a command buffer walks its packets and applies the ones that set
registers: a direct packet sets consecutive registers from a start register on,
and an indirect packet sets the registers of a list in guest memory, in the
order of the list.
-/

namespace SharpEmu.Agc.PacketBuilders

open Addressed KeyedAssignments

abbrev RegisterFile := UInt32 → Option UInt32

structure SubmittedRegisters where
  shRegisters : RegisterFile
  cxRegisters : RegisterFile
  ucRegisters : RegisterFile

def itSetContextReg : UInt32 := 0x69
def itSetUconfigReg : UInt32 := 0x79
def rShRegsIndirect : UInt32 := 0x11
def rCxRegsIndirect : UInt32 := 0x12
def rUcRegsIndirect : UInt32 := 0x13

def setRegisters (memory : GuardedMemory) : UInt64 → RegisterFile → UInt32 → ℕ → RegisterFile
  | _, file, _, 0 => file
  | address, file, register, count + 1 =>
      match tryReadUInt32 memory address with
      | none => file
      | some value =>
          setRegisters memory (address + 4)
            (Function.update file register (some value)) (register + 1) count

def setListedRegisters (memory : GuardedMemory) : UInt64 → RegisterFile → ℕ → RegisterFile
  | _, file, 0 => file
  | address, file, count + 1 =>
      match tryReadUInt32 memory address, tryReadUInt32 memory (address + 4) with
      | some offset, some value =>
          setListedRegisters memory (address + 8) (Function.update file offset (some value)) count
      | _, _ => file

def pm4Length (header : UInt32) : UInt32 := ((header >>> 16) &&& 0x3FFF) + 2

def applySubmittedRegisters (memory : GuardedMemory)
    (state : SubmittedRegisters) (packetAddress : UInt64)
    (packetLength op register : UInt32) : SubmittedRegisters :=
  if op = itSetShReg ∨ op = itSetContextReg ∨ op = itSetUconfigReg then
    match tryReadUInt32 memory (packetAddress + 4) with
    | none => state
    | some startRegister =>
        if packetLength < 3 then state
        else
          let set (file : RegisterFile) := setRegisters memory
            (packetAddress + 8) file startRegister (packetLength - 2).toNat
          if op = itSetShReg then
            { state with shRegisters := set state.shRegisters }
          else if op = itSetContextReg then
            { state with cxRegisters := set state.cxRegisters }
          else { state with ucRegisters := set state.ucRegisters }
  else if op ≠ itNop ∨ packetLength < 4 then state
  else
    match tryReadUInt32 memory (packetAddress + 4),
      memory.tryReadUInt64 (packetAddress + 8) with
    | some registerCount, some registersAddress =>
        let set (file : RegisterFile) := setListedRegisters memory
          registersAddress file registerCount.toNat
        if register = rCxRegsIndirect then
          { state with cxRegisters := set state.cxRegisters }
        else if register = rShRegsIndirect then
          { state with shRegisters := set state.shRegisters }
        else if register = rUcRegsIndirect then
          { state with ucRegisters := set state.ucRegisters }
        else state
    | _, _ => state

/-- The effect of a range of packets on the registers.  Each turn passes at
least one dword; a packet that cannot be read or does not fit ends the walk. -/
def parseSubmittedDcb (memory : GuardedMemory) (commandAddress : UInt64) (dwordCount : UInt32) :
    ℕ → UInt32 → SubmittedRegisters → SubmittedRegisters
  | 0, _, state => state
  | turns + 1, offset, state =>
      if offset < dwordCount then
        let currentAddress := commandAddress + offset.toUInt64 * 4
        match tryReadUInt32 memory currentAddress with
        | none => state
        | some header =>
            let packetType := header >>> 30
            if packetType = 2 then
              parseSubmittedDcb memory commandAddress dwordCount turns (offset + 1) state
            else if packetType ≠ 3 then state
            else
              let length := pm4Length header
              if length = 0 ∨ dwordCount < offset + length then state
              else
                parseSubmittedDcb memory commandAddress dwordCount turns (offset + length)
                  (applySubmittedRegisters memory state currentAddress length
                    ((header >>> 8) &&& 0xFF) ((header >>> 2) &&& 0x3F))
      else state

/-! ### Dwords in memory -/

def Holds (memory : GuardedMemory) : UInt64 → List UInt32 → Prop
  | _, [] => True
  | address, value :: rest =>
      tryReadUInt32 memory address = some value ∧ Holds memory (address + 4) rest

theorem holds_append {memory : GuardedMemory} {address : UInt64} {front back : List UInt32} :
    Holds memory address (front ++ back) ↔ Holds memory address front ∧
        Holds memory (address + UInt64.ofNat (4 * front.length)) back := by
  induction front generalizing address with
  | nil => simp [Holds]
  | cons value rest ih =>
    have behind : address + 4 + UInt64.ofNat (4 * rest.length) =
        address + UInt64.ofNat (4 * (rest.length + 1)) := by
      rw [UInt64.add_assoc, Nat.mul_add, Nat.mul_one,
        Nat.add_comm (4 * rest.length), UInt64.ofNat_add]
      rfl
    rw [List.cons_append, Holds, Holds, ih, List.length_cons, behind, and_assoc]

theorem tryReadUInt32_congr {memory other : GuardedMemory} {address : UInt64}
    (same : readBytes memory.bytes address 4 = readBytes other.bytes address 4) :
    tryReadUInt32 memory address = tryReadUInt32 other address := by
  rw [tryReadUInt32, tryReadUInt32, readWord, readWord, same]

theorem Holds.congr {memory other : GuardedMemory} {address : UInt64}
    {values : List UInt32} (holds : Holds memory address values)
    (same : ∀ index < 4 * values.length, other.bytes (address + .ofNat index) =
        memory.bytes (address + .ofNat index)) :
    Holds other address values := by
  induction values generalizing address with
  | nil => trivial
  | cons value rest ih =>
    rw [List.length_cons] at same
    refine ⟨?_, ih holds.2 fun index inside => ?_⟩
    · rw [← holds.1]
      exact tryReadUInt32_congr (readBytes_congr fun index inside => same index (by omega))
    · have behind : address + 4 + UInt64.ofNat index = address + UInt64.ofNat (index + 4) := by
        rw [UInt64.add_assoc, Nat.add_comm, UInt64.ofNat_add]
        rfl
      rw [behind]
      exact same (index + 4) (by omega)

theorem tryReadUInt32_of_tryWriteUInt32 {memory after : GuardedMemory}
    {address : UInt64} {value : UInt32}
    (written : memory.tryWriteUInt32 address value = some after) :
    tryReadUInt32 after address = some value := by
  have stored := GuardedMemory.readBytes_of_tryWrite written (by rw [length_bytesOf]; decide)
  rw [length_bytesOf] at stored
  have wordSize : value.toNat < 256 ^ 4 := value.toNat_lt
  rw [tryReadUInt32, readWord, stored, Option.map_some, wordOf_bytesOf,
    Nat.mod_eq_of_lt wordSize, Option.map_some, UInt64.toUInt32_ofNat',
    UInt32.ofNat_toNat]

def Writes : GuardedMemory → UInt64 → List UInt32 → GuardedMemory → Prop
  | memory, _, [], after => after = memory
  | memory, address, value :: rest, after =>
      ∃ between, memory.tryWriteUInt32 address value = some between ∧
        Writes between (address + 4) rest after

theorem inRange_of_behind {address other : UInt64} {count : ℕ}
    (outside : inRange address (count + 4) other = false) :
    inRange address 4 other = false ∧ inRange (address + 4) count other = false := by
  simp only [inRange, decide_eq_false_iff_not, Nat.not_lt] at outside ⊢
  refine ⟨by omega, ?_⟩
  have four : (4 : UInt64).toNat = 4 := rfl
  have addressLt := address.toNat_lt
  have otherLt := other.toNat_lt
  rw [UInt64.toNat_sub] at outside ⊢
  rw [UInt64.toNat_add, four]
  omega

namespace Writes

variable {memory after : GuardedMemory} {address : UInt64}
  {values : List UInt32}

theorem sameAccess (writes : Writes memory address values after) :
    GuardedMemory.SameAccess memory after := by
  induction values generalizing memory address with
  | nil =>
    cases writes
    exact .refl _
  | cons value rest ih =>
    obtain ⟨between, written, more⟩ := writes
    exact (GuardedMemory.sameAccess_of_tryWrite written).trans (ih more)

theorem outside (writes : Writes memory address values after) {other : UInt64}
    (isOutside : inRange address (4 * values.length) other = false) :
    after.bytes other = memory.bytes other := by
  induction values generalizing memory address with
  | nil =>
    cases writes
    rfl
  | cons value rest ih =>
    obtain ⟨between, written, more⟩ := writes
    rw [List.length_cons, Nat.mul_add, Nat.mul_one] at isOutside
    obtain ⟨here, behind⟩ := inRange_of_behind isOutside
    rw [ih more behind]
    refine GuardedMemory.tryWrite_outside written ?_ ?_
    · rw [length_bytesOf]
      decide
    · rw [length_bytesOf]
      exact here

theorem holds (writes : Writes memory address values after)
    (fits : 4 * values.length ≤ 2 ^ 32) : Holds after address values := by
  induction values generalizing memory address with
  | nil => trivial
  | cons value rest ih =>
    obtain ⟨between, written, more⟩ := writes
    rw [List.length_cons] at fits
    refine ⟨?_, ih more (by omega)⟩
    rw [← tryReadUInt32_of_tryWriteUInt32 written]
    apply tryReadUInt32_congr
    apply readBytes_congr
    intro index inside
    apply more.outside
    have apart : Apart (address + 4) (4 * rest.length) (address + 0) 4 :=
      apart_of_offsets_lt_half address (Or.inr (Nat.le_refl 4))
        (by have : (4 : UInt64).toNat = 4 := rfl; omega) (by decide)
    rw [UInt64.add_zero] at apart
    exact apart index inside

end Writes

theorem canWrite_behind {memory : GuardedMemory} {address : UInt64}
    {count : ℕ} (canWrite : memory.CanWrite address (count + 4)) :
    memory.CanWrite address 4 ∧ memory.CanWrite (address + 4) count := by
  refine ⟨fun index inside => canWrite index (by omega), ?_⟩
  intro index inside
  have behind : address + 4 + UInt64.ofNat index = address + UInt64.ofNat (index + 4) := by
    rw [UInt64.add_assoc, Nat.add_comm, UInt64.ofNat_add]
    rfl
  rw [behind]
  exact canWrite (index + 4) (by omega)

theorem exists_writes {memory : GuardedMemory} {address : UInt64} (values : List UInt32)
    (canWrite : memory.CanWrite address (4 * values.length)) :
    ∃ after, Writes memory address values after := by
  induction values generalizing memory address with
  | nil => exact ⟨memory, rfl⟩
  | cons value rest ih =>
    rw [List.length_cons, Nat.mul_add, Nat.mul_one] at canWrite
    obtain ⟨here, behind⟩ := canWrite_behind canWrite
    have succeeds : (memory.tryWriteUInt32 address value).isSome := by
      rw [GuardedMemory.tryWriteUInt32, GuardedMemory.isSome_tryWrite, length_bytesOf]
      exact here
    obtain ⟨between, written⟩ := Option.isSome_iff_exists.mp succeeds
    have same := GuardedMemory.sameAccess_of_tryWrite written
    obtain ⟨after, more⟩ := ih (same.canWrite_iff.mpr behind)
    exact ⟨after, between, written, more⟩

end SharpEmu.Agc.PacketBuilders
