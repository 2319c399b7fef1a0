import SharpEmu.DataShares

/-!
# Forms of data share instructions

The words that each form is meant to access, numbered modulo the size of the share.
Both backends access them, as long as a single address has no high offset byte.
-/

namespace SharpEmu.Gen5Spirv.DataShare

open Spirv

/-! ## Prescribed accesses -/

/-- How the elements of an instruction are addressed: a number of them in a row, or
two of them with offsets of their own. -/
inductive AddressForm where
  | single (count : ℕ)
  | pair (scale : ℕ)
deriving DecidableEq

/-- Elements have four bytes; the wide pairs count in groups of 64 of them. -/
def DsOpcode.form : DsOpcode → AddressForm
  | .readB32 | .writeB32 | .atomic _ | .atomicRtn _ => .single 1
  | .writeB64 => .single 2
  | .readB96 | .writeB96 => .single 3
  | .readB128 | .writeB128 => .single 4
  | .read2B32 | .write2B32 => .pair 4
  | .read2St64B32 | .write2St64B32 => .pair (64 * 4)
  | .swizzleB32 => .single 0

def Gen5DataShareControl.offset16 (control : Gen5DataShareControl) : ℕ :=
  control.offset1.toNat * 256 + control.offset0.toNat

def elementOffsets (control : Gen5DataShareControl) : AddressForm → List ℕ
  | .single count =>
      (List.range count).map fun element => control.offset16 + 4 * element
  | .pair scale => [control.offset0.toNat * scale, control.offset1.toNat * scale]

/-- The number of the word with a byte, from the start of the share again beyond its
end. -/
def wordIndex (stage : Stage) (address : Word) (offset : ℕ) : ℕ :=
  (address.toNat + offset) % 2 ^ 32 / 4 % ldsDwordCount stage

namespace LaneState

variable (state : LaneState)

def loads (registers indices : List ℕ) : LaneState :=
  { state with
    vector := (registers.zip indices).foldl (fun vector (register, index) =>
        Function.update vector register (state.lds index))
      state.vector }

def stores (indices : List ℕ) (values : List Word) : LaneState :=
  { state with
    lds := (indices.zip values).foldl (fun lds (index, value) => Function.update lds index value)
      state.lds }

end LaneState

def DataShareInstruction.indices (instruction : DataShareInstruction)
    (stage : Stage) (state : LaneState) : List ℕ :=
  (elementOffsets instruction.control instruction.opcode.form).map
    (wordIndex stage (state.vector (instruction.sources.headD 0)))

/-- An atomic instruction, with its two sources in their order; comparing takes the
comparator first. -/
def prescribedAtomic (operation : DsAtomic) (registers indices : List ℕ)
    (sources : List Word) (state : LaneState) : LaneState :=
  let index := indices.headD 0
  let value := if operation = .cmpstB32 then sources.getD 1 0 else sources.headD 0
  let result := atomicResult (state.lds index) value (sources.headD 0) operation
  { state.loads registers indices with
    lds := Function.update state.lds index result }

def prescribedState (stage : Stage) (instruction : DataShareInstruction)
    (state : LaneState) : LaneState :=
  let indices := instruction.indices stage state
  let sources := instruction.sources.tail.map state.vector
  if state.exec then
    match instruction.opcode with
    | .readB32 | .readB96 | .readB128 | .read2B32 | .read2St64B32 =>
        state.loads instruction.destinations indices
    | .writeB32 | .writeB64 | .writeB96 | .writeB128 | .write2B32
    | .write2St64B32 => state.stores indices sources
    | .atomic operation | .atomicRtn operation =>
        prescribedAtomic operation instruction.destinations indices sources state
    | .swizzleB32 => state
  else state

/-! ## Emitted addresses -/

theorem maskedIndex (stage : Stage) (address offset : Word) : (((address + offset) >>> 2) &&&
        (.ofNat 32 (ldsDwordCount stage - 1) : Word)).toNat =
      wordIndex stage address offset.toNat := by
  unfold wordIndex
  cases stage with
  | compute =>
    rw [toNat_and_low _ _ 13 rfl, toNat_shiftRight, BitVec.toNat_add]
    rfl
  | graphics =>
    rw [toNat_and_low _ _ 11 rfl, toNat_shiftRight, BitVec.toNat_add]
    rfl

theorem addressWithOffset (address offset : Word) :
    (if offset = 0 then address else address + offset) = address + offset := by
  split_ifs with isZero
  · rw [isZero]
    exact (BitVec.add_zero address).symm
  · rfl

theorem ldsPointer_eq (stage : Stage) (address offset : Word) : ldsPointer stage address offset =
      some (wordIndex stage address offset.toNat) := by
  have isShift : shiftRightLogical (address + offset) 2 =
      some ((address + offset) >>> 2) := shiftRightLogical_of_amount rfl (by decide)
  unfold ldsPointer
  rw [addressWithOffset]
  simp only [isShift, Option.bind_eq_bind, Option.bind_some, maskedIndex]
  rfl

theorem ldsIndex_eq (stage : Stage) (address offset : Word) : Metal.ldsIndex stage address offset =
      wordIndex stage address offset.toNat := by
  rw [Metal.ldsIndex, addressWithOffset, maskedIndex]

section Offsets

variable {offset : Word} (isByte : offset.toNat < 256)

include isByte

theorem toNat_add_dword (dword : ℕ) (few : dword < 4) :
    (offset + .ofNat 32 (dword * 4)).toNat = offset.toNat + 4 * dword := by
  rw [BitVec.toNat_add, BitVec.toNat_ofNat]
  omega

theorem toNat_pairOffset (st64 : Bool) : (effectiveDsPairOffsetBytes offset st64).toNat =
      offset.toNat * if st64 then 64 * 4 else 4 := by
  unfold effectiveDsPairOffsetBytes
  rw [BitVec.toNat_mul]
  cases st64
  · change offset.toNat * 4 % 2 ^ 32 = offset.toNat * 4
    omega
  · change offset.toNat * 256 % 2 ^ 32 = offset.toNat * 256
    omega

end Offsets

/-! ## Emitted accesses -/

namespace LaneState

variable (state : LaneState)

theorem storeV_of_not_exec {state : LaneState} (idle : state.exec = false)
    (register : ℕ) (value : Word) : state.storeV register value = state := by
  rw [storeV, idle, select_false, Function.update_eq_self, ← idle]

theorem storeLds_of_not_exec {state : LaneState} (idle : state.exec = false)
    (pointer : ℕ) (value : Word) : state.storeLds pointer value = state := by
  rw [storeLds, idle, select_false, Function.update_eq_self, ← idle]

/-- Writes that an idle lane leaves out, one after the other. -/
theorem foldl_storeLds (indices : List ℕ) (values : List Word) : (indices.zip values).foldl
        (fun state (index, value) => state.storeLds index value) state =
      if state.exec then state.stores indices values else state := by
  induction indices generalizing state values with
  | nil => cases state.exec <;> rfl
  | cons index indices ih =>
    cases values with
    | nil => cases state.exec <;> rfl
    | cons value values =>
      rw [List.zip_cons_cons, List.foldl_cons, ih]
      cases executes : state.exec
      · simp [storeLds_of_not_exec executes, executes]
      · simp [storeLds, stores, executes]

/-- Reads of words that stay the same. -/
theorem foldl_storeV (registers indices : List ℕ) : (registers.zip indices).foldl
        (fun result (register, index) =>
          LaneState.storeV result register (state.lds index)) state =
      if state.exec then state.loads registers indices else state := by
  suffices agree : ∀ result : LaneState, result.exec = state.exec → result.lds = state.lds →
      (registers.zip indices).foldl (fun result (register, index) =>
            LaneState.storeV result register (state.lds index)) result =
        if state.exec then result.loads registers indices else result from
    agree state rfl rfl
  induction registers generalizing indices with
  | nil => intro result _ _; cases state.exec <;> rfl
  | cons register registers ih =>
    intro result sameExec sameLds
    cases indices with
    | nil => cases state.exec <;> rfl
    | cons index indices =>
      rw [List.zip_cons_cons, List.foldl_cons,
        ih indices (result.storeV register _) sameExec sameLds]
      cases executes : state.exec
      · simp [storeV_of_not_exec (sameExec.trans executes)]
      · simp [storeV, loads, sameExec, sameLds, executes]

@[simp]
theorem storeLds_vector (pointer : ℕ) (value : Word) :
    (state.storeLds pointer value).vector = state.vector := rfl

@[simp]
theorem storeV_lds (register : ℕ) (value : Word) :
    (state.storeV register value).lds = state.lds := rfl

@[simp]
theorem foldl_storeLds_vector (writes : List (ℕ × Word)) :
    (writes.foldl (fun state (index, value) => state.storeLds index value)
      state).vector = state.vector := by
  induction writes generalizing state with
  | nil => rfl
  | cons write writes ih =>
    rw [List.foldl_cons, ih]
    rfl

@[simp]
theorem foldl_storeV_lds (source : LaneState) (reads : List (ℕ × ℕ)) :
    (reads.foldl (fun result (register, index) =>
      LaneState.storeV result register (source.lds index)) state).lds =
      state.lds := by
  induction reads generalizing state with
  | nil => rfl
  | cons read reads ih =>
    rw [List.foldl_cons, ih]
    rfl

end LaneState

theorem emitLdsWrite_eq (stage : Stage) (instruction : DataShareInstruction)
    (address offset : Word) (source : ℕ) (state : LaneState) :
    emitLdsWrite stage instruction address offset source state =
      (getRawSource instruction state source).map
        (state.storeLds (wordIndex stage address offset.toNat)) := by
  unfold emitLdsWrite
  rw [ldsPointer_eq]
  cases getRawSource instruction state source <;> rfl

theorem emitLdsRead_eq (stage : Stage) (instruction : DataShareInstruction)
    (address offset : Word) (destination : ℕ) (state : LaneState) :
    emitLdsRead stage instruction address offset destination state =
      instruction.destinations[destination]?.map fun register =>
        state.storeV register (state.lds (wordIndex stage address offset.toNat)) := by
  unfold emitLdsRead
  rw [ldsPointer_eq]
  cases instruction.destinations[destination]? <;> rfl

section Writes

variable (stage : Stage) {instruction : DataShareInstruction}
  {address : ℕ} {registers : List ℕ}
  (isSources : instruction.sources = address :: registers) (state : LaneState)

include isSources

theorem getRawSource_address : getRawSource instruction state 0 = some (state.vector address) := by
  rw [getRawSource, isSources]
  rfl

theorem getRawSource_register {index : ℕ} (inside : index < registers.length) :
    getRawSource instruction state (1 + index) = some (state.vector registers[index]) := by
  rw [getRawSource, isSources, Nat.add_comm, List.getElem?_cons_succ,
    List.getElem?_eq_getElem inside]
  rfl

theorem foldlM_emitLdsWrite {offset : Word} (isByte : offset.toNat < 256)
    (count : ℕ) (few : count ≤ 4) (isCount : count ≤ registers.length) :
    (List.range count).foldlM (fun current dword =>
        emitLdsWrite stage instruction (state.vector address)
          (offset + .ofNat 32 (dword * 4)) (1 + dword) current) state =
      some ((((List.range count).map fun element =>
          wordIndex stage (state.vector address) (offset.toNat + 4 * element)).zip
        ((registers.take count).map state.vector)).foldl
          (fun state (index, value) => state.storeLds index value) state) := by
  induction count with
  | zero => rfl
  | succ count ih =>
    have isOffset := toNat_add_dword isByte count (by omega)
    rw [List.range_succ, List.foldlM_append, ih (by omega) (by omega), List.map_append,
      List.take_succ_eq_append_getElem isCount, List.map_append,
      List.zip_append (by simp; omega), List.foldl_append]
    simp only [List.foldlM_cons, List.foldlM_nil, Option.bind_eq_bind,
      Option.bind_some, emitLdsWrite_eq, isOffset,
      getRawSource_register isSources _ isCount]
    simp

end Writes

theorem foldlM_emitLdsRead (stage : Stage) (instruction : DataShareInstruction)
    (address : Word) (state : LaneState) {offset : Word}
    (isByte : offset.toNat < 256) (count : ℕ) (few : count ≤ 4)
    (isCount : count ≤ instruction.destinations.length) :
    (List.range count).foldlM (fun current dword =>
        emitLdsRead stage instruction address
          (offset + .ofNat 32 (dword * 4)) dword current) state =
      some (((instruction.destinations.take count).zip ((List.range count).map fun element =>
            wordIndex stage address (offset.toNat + 4 * element))).foldl
        (fun result (register, index) =>
          LaneState.storeV result register (state.lds index)) state) := by
  induction count with
  | zero => rfl
  | succ count ih =>
    have isOffset := toNat_add_dword isByte count (by omega)
    rw [List.range_succ, List.foldlM_append, ih (by omega) (by omega), List.map_append,
      List.take_succ_eq_append_getElem isCount,
      List.zip_append (by simp; omega), List.foldl_append]
    simp only [List.foldlM_cons, List.foldlM_nil, Option.bind_eq_bind,
      Option.bind_some, emitLdsRead_eq, isOffset,
      List.getElem?_eq_getElem (Nat.lt_of_succ_le isCount)]
    simp

section Forms

variable (stage : Stage) {instruction : DataShareInstruction} {address : ℕ}
  (state : LaneState)

theorem elementOffsets_single {control : Gen5DataShareControl}
    (noHigh : control.offset1 = 0) (count : ℕ) :
    elementOffsets control (.single count) =
      (List.range count).map fun element => control.offset0.toNat + 4 * element := by
  simp [elementOffsets, Gen5DataShareControl.offset16, noHigh]

theorem foldlM_range_one (access : LaneState → ℕ → Option LaneState) :
    (List.range 1).foldlM access state = access state 0 := by
  simp [List.range_succ]

theorem foldlM_range_two (access : LaneState → ℕ → Option LaneState) :
    (List.range 2).foldlM access state = (access state 0).bind fun state => access state 1 := by
  simp [List.range_succ]

theorem add_first_dword (offset : Word) : offset + .ofNat 32 (0 * 4) = offset :=
  BitVec.add_zero offset

theorem add_second_dword (offset : Word) : offset + .ofNat 32 (1 * 4) = offset + 4 := rfl

theorem emit_single_write (isByte : instruction.control.offset0.toNat < 256)
    (noHigh : instruction.control.offset1 = 0) {registers : List ℕ}
    (isSources : instruction.sources = address :: registers)
    (few : registers.length ≤ 4) :
    (List.range registers.length).foldlM (fun current dword =>
        emitLdsWrite stage instruction (state.vector address)
          (instruction.control.offset0 + .ofNat 32 (dword * 4)) (1 + dword)
          current) state =
      some (if state.exec then
        state.stores ((elementOffsets instruction.control (.single registers.length)).map
            (wordIndex stage (state.vector address)))
          (registers.map state.vector)
        else state) := by
  rw [foldlM_emitLdsWrite stage isSources state isByte registers.length few
    (Nat.le_refl _), List.take_length, LaneState.foldl_storeLds,
    elementOffsets_single noHigh, List.map_map]
  rfl

variable (address) in
theorem emit_single_read (isByte : instruction.control.offset0.toNat < 256)
    (noHigh : instruction.control.offset1 = 0)
    (few : instruction.destinations.length ≤ 4) :
    (List.range instruction.destinations.length).foldlM (fun current dword =>
        emitLdsRead stage instruction (state.vector address)
          (instruction.control.offset0 + .ofNat 32 (dword * 4)) dword current)
        state =
      some (if state.exec then
        state.loads instruction.destinations ((elementOffsets instruction.control
            (.single instruction.destinations.length)).map
            (wordIndex stage (state.vector address)))
        else state) := by
  rw [foldlM_emitLdsRead stage instruction _ state isByte _ few (Nat.le_refl _),
    List.take_length, LaneState.foldl_storeV, elementOffsets_single noHigh,
    List.map_map]
  rfl

section Pairs

variable (firstByte : instruction.control.offset0.toNat < 256)
  (secondByte : instruction.control.offset1.toNat < 256) (st64 : Bool)

include firstByte secondByte

variable {first second : ℕ}

theorem emit_pair_write (isSources : instruction.sources = [address, first, second]) :
    (emitLdsWrite stage instruction (state.vector address)
        (effectiveDsPairOffsetBytes instruction.control.offset0 st64) 1
        state).bind
      (emitLdsWrite stage instruction (state.vector address)
        (effectiveDsPairOffsetBytes instruction.control.offset1 st64) 2) =
      some (if state.exec then
        state.stores ((elementOffsets instruction.control (.pair (if st64 then 64 * 4 else 4))).map
            (wordIndex stage (state.vector address)))
          ([first, second].map state.vector)
        else state) := by
  have firstSource := getRawSource_register isSources state
    (Nat.zero_lt_two : 0 < [first, second].length)
  have secondSource := fun state => getRawSource_register isSources state
    (Nat.one_lt_two : 1 < [first, second].length)
  rw [← LaneState.foldl_storeLds, emitLdsWrite_eq, firstSource, Option.map_some,
    Option.bind_some, emitLdsWrite_eq, secondSource, Option.map_some,
    toNat_pairOffset firstByte, toNat_pairOffset secondByte]
  rfl

variable (address) in
theorem emit_pair_read (isDestinations : instruction.destinations = [first, second]) :
    emitLdsReadPair stage instruction (state.vector address)
        (effectiveDsPairOffsetBytes instruction.control.offset0 st64)
        (effectiveDsPairOffsetBytes instruction.control.offset1 st64) state =
      some (if state.exec then
        state.loads [first, second] ((elementOffsets instruction.control
            (.pair (if st64 then 64 * 4 else 4))).map
            (wordIndex stage (state.vector address)))
        else state) := by
  unfold emitLdsReadPair
  rw [← LaneState.foldl_storeV, ldsPointer_eq, ldsPointer_eq, isDestinations,
    toNat_pairOffset firstByte, toNat_pairOffset secondByte]
  rfl

end Pairs

theorem emit_atomic (noHigh : instruction.control.offset1 = 0)
    (operation : DsAtomic) {registers : List ℕ}
    (isSources : instruction.sources = address :: registers)
    (isCount : registers.length = if operation = .cmpstB32 then 2 else 1)
    (few : instruction.destinations.length ≤ 1) :
    tryEmitDataShareAtomic stage instruction operation state = some (if state.exec then
        prescribedAtomic operation instruction.destinations
          ((elementOffsets instruction.control (.single 1)).map
            (wordIndex stage (state.vector address)))
          (registers.map state.vector) state
        else state) := by
  have isOffsets : elementOffsets instruction.control (.single 1) =
      [instruction.control.offset0.toNat] := elementOffsets_single noHigh 1
  have isValue : getRawSource instruction state (if operation = .cmpstB32 then 2 else 1) =
        some (if operation = .cmpstB32 then
          (registers.map state.vector).getD 1 0
          else (registers.map state.vector).headD 0) := by
    rw [getRawSource, isSources]
    split_ifs at isCount ⊢ with compares
    · match registers, isCount with
      | [_, _], _ => rfl
    · match registers, isCount with
      | [_], _ => rfl
  have isComparator : getRawSource instruction state 1 =
      some ((registers.map state.vector).headD 0) := by
    rw [getRawSource, isSources]
    cases registers with
    | nil => split_ifs at isCount
    | cons first others => rfl
  unfold tryEmitDataShareAtomic prescribedAtomic
  rw [getRawSource_address isSources, isComparator, isOffsets]
  simp only [Option.bind_eq_bind, Option.bind_some, ldsPointer_eq, isValue]
  cases executes : state.exec with
  | false => rfl
  | true =>
    match isDestinations : instruction.destinations with
    | [] => simp [LaneState.storeLds, LaneState.loads, executes]
    | [register] =>
      simp [LaneState.storeLds, LaneState.storeV, LaneState.loads, executes]
    | _ :: _ :: _ => rw [isDestinations] at few; exact absurd few (by simp)

end Forms

section Instructions

variable (stage : Stage) (opcode : DsOpcode) (word extra : Word)
  (state : LaneState)

theorem offset0_lt : (createInstruction opcode word extra).control.offset0.toNat < 256 := by
  change (word &&& 0xFF).toNat < 256
  rw [toNat_and_low _ _ 8 rfl]
  exact Nat.mod_lt _ (by decide)

theorem offset1_lt : (createInstruction opcode word extra).control.offset1.toNat < 256 := by
  change ((word >>> 8) &&& 0xFF).toNat < 256
  rw [toNat_and_low _ _ 8 rfl]
  exact Nat.mod_lt _ (by decide)

/-- The address comes first. -/
theorem exists_sources (accesses : opcode ≠ .swizzleB32) :
    ∃ registers, (createInstruction opcode word extra).sources =
      (extra &&& 0xFF).toNat :: registers := by
  cases opcode with
  | swizzleB32 => exact absurd rfl accesses
  | atomic operation => cases operation <;> exact ⟨_, rfl⟩
  | atomicRtn operation => cases operation <;> exact ⟨_, rfl⟩
  | _ => exact ⟨_, rfl⟩

theorem tryEmitDataShare_createInstruction
    (isLds : (createInstruction opcode word extra).control.gds = false)
    (noHigh : ∀ count, opcode.form = .single count →
      (createInstruction opcode word extra).control.offset1 = 0)
    (accesses : opcode ≠ .swizzleB32) :
    tryEmitDataShare stage (createInstruction opcode word extra) state =
      some (prescribedState stage (createInstruction opcode word extra) state) := by
  have first := offset0_lt opcode word extra
  have second := offset1_lt opcode word extra
  obtain ⟨registers, isSources⟩ := exists_sources opcode word extra accesses
  unfold tryEmitDataShare
  rw [isLds, if_neg (by decide), getRawSource_address isSources, Option.bind_some]
  clear isSources registers
  cases opcode with
  | readB32 =>
    have access := emit_single_read stage (extra &&& 0xFF).toNat state first (noHigh 1 rfl)
      (show 1 ≤ 4 by decide)
    rw [show (createInstruction .readB32 word extra).destinations.length = 1
      from rfl, foldlM_range_one, add_first_dword] at access
    exact access
  | readB96 =>
    exact emit_single_read stage _ state first (noHigh 3 rfl) (show 3 ≤ 4 by decide)
  | readB128 =>
    exact emit_single_read stage _ state first (noHigh 4 rfl) (show 4 ≤ 4 by decide)
  | read2B32 =>
    have access := emit_pair_read stage (extra &&& 0xFF).toNat state first second false rfl
    rw [if_neg Bool.false_ne_true] at access
    exact access
  | read2St64B32 =>
    have access := emit_pair_read stage (extra &&& 0xFF).toNat state first second true rfl
    rw [if_pos rfl] at access
    exact access
  | writeB32 =>
    have access := emit_single_write stage state first (noHigh 1 rfl)
      (show (createInstruction .writeB32 word extra).sources = _ :: [_] from rfl)
      (show 1 ≤ 4 by decide)
    rw [List.length_singleton, foldlM_range_one, add_first_dword] at access
    exact access
  | writeB64 =>
    have access := emit_single_write stage state first (noHigh 2 rfl)
      (show (createInstruction .writeB64 word extra).sources = _ :: [_, _]
        from rfl) (show 2 ≤ 4 by decide)
    rw [show [_, _].length = 2 from rfl, foldlM_range_two, add_first_dword] at access
    simp only [add_second_dword] at access
    exact access
  | writeB96 =>
    exact emit_single_write stage state first (noHigh 3 rfl) rfl (show 3 ≤ 4 by decide)
  | writeB128 =>
    exact emit_single_write stage state first (noHigh 4 rfl) rfl (show 4 ≤ 4 by decide)
  | write2B32 =>
    have access := emit_pair_write stage state first second false
      (show (createInstruction .write2B32 word extra).sources = [_, _, _] from rfl)
    rw [if_neg Bool.false_ne_true] at access
    exact access
  | write2St64B32 =>
    have access := emit_pair_write stage state first second true
      (show (createInstruction .write2St64B32 word extra).sources = [_, _, _] from rfl)
    rw [if_pos rfl] at access
    exact access
  | swizzleB32 => exact absurd rfl accesses
  | atomic operation =>
    cases operation <;>
      exact emit_atomic stage state (noHigh 1 rfl) _ rfl rfl (Nat.zero_le 1)
  | atomicRtn operation =>
    cases operation <;>
      exact emit_atomic stage state (noHigh 1 rfl) _ rfl rfl (Nat.le_refl 1)

end Instructions

end SharpEmu.Gen5Spirv.DataShare
