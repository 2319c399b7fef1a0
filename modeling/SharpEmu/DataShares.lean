import SharpEmu.Gen5SpirvWords
import Mathlib.Logic.Function.Basic

/-!
# Accesses to the local data share

What both backends emit for the instructions on the memory that a work group
shares: for each form, which words are read or written, as one lane does it.
-/

namespace SharpEmu.Gen5Spirv.DataShare

open Spirv

/-! ## Instructions -/

inductive DsAtomic where
  | addU32 | subU32 | incU32 | decU32
  | minI32 | maxI32 | minU32 | maxU32
  | andB32 | orB32 | xorB32 | wrxchgB32 | cmpstB32
deriving DecidableEq

inductive DsOpcode where
  | readB32 | readB96 | readB128 | read2B32 | read2St64B32
  | writeB32 | writeB64 | writeB96 | writeB128 | write2B32 | write2St64B32
  | swizzleB32
  | atomic (operation : DsAtomic)
  | atomicRtn (operation : DsAtomic)
deriving DecidableEq

def decodeDs (word : Word) : Option DsOpcode :=
  match ((word >>> 18) &&& 0xFF).toNat with
  | 0x00 => some (.atomic .addU32)
  | 0x01 => some (.atomic .subU32)
  | 0x03 => some (.atomic .incU32)
  | 0x04 => some (.atomic .decU32)
  | 0x05 => some (.atomic .minI32)
  | 0x06 => some (.atomic .maxI32)
  | 0x07 => some (.atomic .minU32)
  | 0x08 => some (.atomic .maxU32)
  | 0x09 => some (.atomic .andB32)
  | 0x0A => some (.atomic .orB32)
  | 0x0B => some (.atomic .xorB32)
  | 0x0D => some .writeB32
  | 0x0E => some .write2B32
  | 0x0F => some .write2St64B32
  | 0x10 => some (.atomic .cmpstB32)
  | 0x20 => some (.atomicRtn .addU32)
  | 0x21 => some (.atomicRtn .subU32)
  | 0x23 => some (.atomicRtn .incU32)
  | 0x24 => some (.atomicRtn .decU32)
  | 0x25 => some (.atomicRtn .minI32)
  | 0x26 => some (.atomicRtn .maxI32)
  | 0x27 => some (.atomicRtn .minU32)
  | 0x28 => some (.atomicRtn .maxU32)
  | 0x29 => some (.atomicRtn .andB32)
  | 0x2A => some (.atomicRtn .orB32)
  | 0x2B => some (.atomicRtn .xorB32)
  | 0x2D => some (.atomicRtn .wrxchgB32)
  | 0x30 => some (.atomicRtn .cmpstB32)
  | 0x35 => some .swizzleB32
  | 0x36 => some .readB32
  | 0x37 => some .read2B32
  | 0x38 => some .read2St64B32
  | 0x4D => some .writeB64
  | 0xDE => some .writeB96
  | 0xDF => some .writeB128
  | 0xFE => some .readB96
  | 0xFF => some .readB128
  | _ => none

structure Gen5DataShareControl where
  offset0 : Word
  offset1 : Word
  gds : Bool
deriving DecidableEq

structure DataShareInstruction where
  opcode : DsOpcode
  control : Gen5DataShareControl
  sources : List ℕ
  destinations : List ℕ
deriving DecidableEq

def createInstruction (opcode : DsOpcode) (word extra : Word) :
    DataShareInstruction :=
  let vectorAddress := (extra &&& 0xFF).toNat
  let vectorData0 := ((extra >>> 8) &&& 0xFF).toNat
  let vectorData1 := ((extra >>> 16) &&& 0xFF).toNat
  let vectorDestination := ((extra >>> 24) &&& 0xFF).toNat
  { opcode := opcode
    control :=
      { offset0 := word &&& 0xFF
        offset1 := (word >>> 8) &&& 0xFF
        gds := (word >>> 17) &&& 1 ≠ 0 }
    sources :=
      match opcode with
      | .writeB32 => [vectorAddress, vectorData0]
      | .writeB64 => [vectorAddress, vectorData0, vectorData0 + 1]
      | .writeB96 =>
          [vectorAddress, vectorData0, vectorData0 + 1, vectorData0 + 2]
      | .writeB128 =>
          [vectorAddress, vectorData0, vectorData0 + 1, vectorData0 + 2, vectorData0 + 3]
      | .write2B32 | .write2St64B32 => [vectorAddress, vectorData0, vectorData1]
      | .swizzleB32 => [vectorData0]
      | .atomic .cmpstB32 | .atomicRtn .cmpstB32 =>
          [vectorAddress, vectorData0, vectorData1]
      | .atomic _ | .atomicRtn _ => [vectorAddress, vectorData0]
      | .readB32 | .readB96 | .readB128 | .read2B32 | .read2St64B32 =>
          [vectorAddress]
    destinations :=
      match opcode with
      | .readB32 | .swizzleB32 => [vectorDestination]
      | .read2B32 | .read2St64B32 => [vectorDestination, vectorDestination + 1]
      | .readB96 =>
          [vectorDestination, vectorDestination + 1, vectorDestination + 2]
      | .readB128 =>
          [vectorDestination, vectorDestination + 1, vectorDestination + 2, vectorDestination + 3]
      | .atomicRtn _ => [vectorDestination]
      | .atomic _ | .writeB32 | .writeB64 | .writeB96 | .writeB128 | .write2B32
      | .write2St64B32 => [] }

/-! ## Emitted accesses -/

inductive Stage where
  | compute | graphics
deriving DecidableEq

/-- The size of the share; a lane of a graphics stage has its own. -/
def ldsDwordCount : Stage → ℕ
  | .compute => 8192
  | .graphics => 2048

structure LaneState where
  exec : Bool
  vector : ℕ → Word
  lds : ℕ → Word

namespace LaneState

variable (state : LaneState)

def storeV (register : ℕ) (value : Word) : LaneState :=
  { state with
    vector := Function.update state.vector register
      (select state.exec value (state.vector register)) }

def storeLds (pointer : ℕ) (value : Word) : LaneState :=
  { state with
    lds := Function.update state.lds pointer (select state.exec value (state.lds pointer)) }

end LaneState

def getRawSource (instruction : DataShareInstruction) (state : LaneState)
    (index : ℕ) : Option Word :=
  instruction.sources[index]?.map state.vector

def effectiveDsPairOffsetBytes (offset : Word) (st64 : Bool) : Word :=
  offset * if st64 then 256 else 4

def ldsPointer (stage : Stage) (address offsetBytes : Word) : Option ℕ := do
  let addressWithOffset :=
    if offsetBytes = 0 then address else address + offsetBytes
  let shifted ← shiftRightLogical addressWithOffset 2
  return (shifted &&& .ofNat 32 (ldsDwordCount stage - 1)).toNat

def emitLdsWrite (stage : Stage) (instruction : DataShareInstruction)
    (address offsetBytes : Word) (source : ℕ) (state : LaneState) :
    Option LaneState := do
  let pointer ← ldsPointer stage address offsetBytes
  let value ← getRawSource instruction state source
  return state.storeLds pointer value

def emitLdsRead (stage : Stage) (instruction : DataShareInstruction)
    (address offsetBytes : Word) (destination : ℕ) (state : LaneState) :
    Option LaneState := do
  let pointer ← ldsPointer stage address offsetBytes
  let register ← instruction.destinations[destination]?
  return state.storeV register (state.lds pointer)

def atomicResult (original value comparator : Word) : DsAtomic → Word
  | .addU32 => original + value
  | .subU32 => original - value
  | .incU32 => original + 1
  | .decU32 => original - 1
  | .minI32 => if original.sle value then original else value
  | .maxI32 => if original.sle value then value else original
  | .minU32 => if original ≤ value then original else value
  | .maxU32 => if original ≤ value then value else original
  | .andB32 => original &&& value
  | .orB32 => original ||| value
  | .xorB32 => original ^^^ value
  | .wrxchgB32 => value
  | .cmpstB32 => if original = comparator then value else original

def tryEmitDataShareAtomic (stage : Stage) (instruction : DataShareInstruction)
    (operation : DsAtomic) (state : LaneState) : Option LaneState := do
  let address ← getRawSource instruction state 0
  let pointer ← ldsPointer stage address instruction.control.offset0
  let value ← getRawSource instruction state (if operation = .cmpstB32 then 2 else 1)
  let comparator ← getRawSource instruction state 1
  if state.exec then
    let original := state.lds pointer
    let written := state.storeLds pointer (atomicResult original value comparator operation)
    return match instruction.destinations.head? with
      | some register => written.storeV register original
      | none => written
  else return state

def emitLdsReadPair (stage : Stage) (instruction : DataShareInstruction)
    (address firstOffset secondOffset : Word) (state : LaneState) :
    Option LaneState := do
  let first ← ldsPointer stage address firstOffset
  let second ← ldsPointer stage address secondOffset
  let firstRegister ← instruction.destinations[0]?
  let secondRegister ← instruction.destinations[1]?
  return (state.storeV firstRegister (state.lds first)).storeV secondRegister (state.lds second)

def emitForms (control : Gen5DataShareControl)
    (write read : Word → ℕ → LaneState → Option LaneState)
    (readPair : Word → Word → LaneState → Option LaneState)
    (atomic : DsAtomic → LaneState → Option LaneState) (state : LaneState) :
    DsOpcode → Option LaneState
  | .writeB32 => write control.offset0 1 state
  | .writeB64 =>
      (write control.offset0 1 state).bind (write (control.offset0 + 4) 2)
  | .writeB96 =>
      (List.range 3).foldlM (fun state dword =>
        write (control.offset0 + .ofNat 32 (dword * 4)) (1 + dword) state) state
  | .writeB128 =>
      (List.range 4).foldlM (fun state dword =>
        write (control.offset0 + .ofNat 32 (dword * 4)) (1 + dword) state) state
  | .write2B32 =>
      (write (effectiveDsPairOffsetBytes control.offset0 false) 1 state).bind
        (write (effectiveDsPairOffsetBytes control.offset1 false) 2)
  | .write2St64B32 =>
      (write (effectiveDsPairOffsetBytes control.offset0 true) 1 state).bind
        (write (effectiveDsPairOffsetBytes control.offset1 true) 2)
  | .readB32 => read control.offset0 0 state
  | .readB96 =>
      (List.range 3).foldlM (fun state dword =>
        read (control.offset0 + .ofNat 32 (dword * 4)) dword state) state
  | .readB128 =>
      (List.range 4).foldlM (fun state dword =>
        read (control.offset0 + .ofNat 32 (dword * 4)) dword state) state
  | .read2B32 =>
      readPair (effectiveDsPairOffsetBytes control.offset0 false)
        (effectiveDsPairOffsetBytes control.offset1 false) state
  | .read2St64B32 =>
      readPair (effectiveDsPairOffsetBytes control.offset0 true)
        (effectiveDsPairOffsetBytes control.offset1 true) state
  | .swizzleB32 => none
  | .atomic operation | .atomicRtn operation => atomic operation state

def tryEmitDataShare (stage : Stage) (instruction : DataShareInstruction)
    (state : LaneState) : Option LaneState :=
  if instruction.control.gds then none
  else
    (getRawSource instruction state 0).bind fun address =>
      emitForms instruction.control (emitLdsWrite stage instruction address)
        (emitLdsRead stage instruction address)
        (emitLdsReadPair stage instruction address)
        (tryEmitDataShareAtomic stage instruction) state instruction.opcode

/-! ## The second backend -/

namespace Metal

def vectorRegisterFileCount : ℕ := 256

def ldsIndex (stage : Stage) (address offsetBytes : Word) : ℕ :=
  (((if offsetBytes = 0 then address else address + offsetBytes) >>> 2) &&&
    .ofNat 32 (ldsDwordCount stage - 1)).toNat

def storeLds (state : LaneState) (index : ℕ) (value : Word) : LaneState :=
  if state.exec then
    { state with lds := Function.update state.lds index value }
  else state

/-- Registers beyond the file are not written. -/
def storeVector (state : LaneState) (register : ℕ) (value : Word) : LaneState :=
  if vectorRegisterFileCount ≤ register then state
  else if state.exec then
    { state with vector := Function.update state.vector register value }
  else state

def emitLdsWrite (stage : Stage) (instruction : DataShareInstruction)
    (address offsetBytes : Word) (source : ℕ) (state : LaneState) :
    Option LaneState :=
  (getRawSource instruction state source).map (storeLds state (ldsIndex stage address offsetBytes))

def emitLdsRead (stage : Stage) (instruction : DataShareInstruction)
    (address offsetBytes : Word) (destination : ℕ) (state : LaneState) :
    Option LaneState :=
  instruction.destinations[destination]?.map fun register =>
    storeVector state register (state.lds (ldsIndex stage address offsetBytes))

def emitLdsReadPair (stage : Stage) (instruction : DataShareInstruction)
    (address firstOffset secondOffset : Word) (state : LaneState) :
    Option LaneState :=
  (emitLdsRead stage instruction address firstOffset 0 state).bind
    (emitLdsRead stage instruction address secondOffset 1)

/-- Only additions without a result are emitted. -/
def emitDataShareAtomic (stage : Stage) (instruction : DataShareInstruction)
    (operation : DsAtomic) (state : LaneState) : Option LaneState :=
  if instruction.opcode ≠ .atomic .addU32 then none
  else do
    let address ← getRawSource instruction state 0
    let value ← getRawSource instruction state 1
    let index := ldsIndex stage address instruction.control.offset0
    return storeLds state index (atomicResult (state.lds index) value value operation)

def tryEmitDataShare (stage : Stage) (instruction : DataShareInstruction)
    (state : LaneState) : Option LaneState :=
  if instruction.control.gds then none
  else
    (getRawSource instruction state 0).bind fun address =>
      emitForms instruction.control (emitLdsWrite stage instruction address)
        (emitLdsRead stage instruction address)
        (emitLdsReadPair stage instruction address)
        (emitDataShareAtomic stage instruction) state instruction.opcode

end Metal

end SharpEmu.Gen5Spirv.DataShare
