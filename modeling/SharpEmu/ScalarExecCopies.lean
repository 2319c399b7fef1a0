import SharpEmu.ScalarEvaluation

/-!
# The two copies of the execution mask

Writing a pair at register 126, and the instructions that save the mask, write
both copies.  A result of one register that goes to 126 or 127 and a pair that
reaches into them write the registers only.
-/

namespace SharpEmu.Gen5Scalars

open Gen5Shader Gen5Lanes

theorem wideValue_words (value : UInt64) :
    wideValue value.toUInt32 (value >>> 32).toUInt32 = value := by
  have small := value.toNat_lt
  have upper : value.toNat / 2 ^ 32 < 2 ^ 32 := by omega
  have low : value.toUInt32.toUInt64.toNat = value.toNat % 2 ^ 32 := by
    rw [UInt32.toNat_toUInt64, UInt64.toNat_toUInt32]
  have high : ((value >>> 32).toUInt32.toUInt64 <<< 32).toNat = (value.toNat / 2 ^ 32) <<< 32 := by
    rw [UInt64.toNat_shiftLeft, UInt32.toNat_toUInt64, UInt64.toNat_toUInt32,
      UInt64.toNat_shiftRight]
    change ((value.toNat >>> 32) % 2 ^ 32) <<< 32 % 2 ^ 64 = _
    rw [Nat.shiftRight_eq_div_pow, Nat.mod_eq_of_lt upper, Nat.shiftLeft_eq]
    exact Nat.mod_eq_of_lt (by omega)
  rw [wideValue, ← UInt64.toNat_inj, UInt64.toNat_or, low, high, Nat.or_comm,
    ← Nat.shiftLeft_add_eq_or_of_lt (Nat.mod_lt _ (by decide)), Nat.shiftLeft_eq]
  exact Nat.div_add_mod' _ _

theorem wideValue_zero (low : UInt32) : wideValue low 0 = low.toUInt64 := by
  rw [wideValue]
  simp

namespace ScalarState

variable {state : ScalarState} {destination register : UInt32}

def ExecInStep (state : ScalarState) : Prop := state.execMask = state.pair 126

theorem ExecInStep.write (inStep : state.ExecInStep) (notLow : register ≠ 126)
    (notHigh : register ≠ 127) (value : UInt32) :
    (state.write register value).ExecInStep := by
  have low : (state.write register value).registers 126 = state.registers 126 :=
    Function.update_of_ne (Ne.symm notLow) _ _
  have high : (state.write register value).registers 127 = state.registers 127 :=
    Function.update_of_ne (Ne.symm notHigh) _ _
  exact inStep.trans (congrArg₂ wideValue low high).symm

variable (state) in
theorem pair_writeWords (value : UInt64) : (state.writeWords 126 value).pair 126 = value := by
  have low : (state.writeWords 126 value).registers 126 = value.toUInt32 := by
    simp [writeWords, ScalarState.write, Function.update]
  have high : (state.writeWords 126 value).registers (126 + 1) = (value >>> 32).toUInt32 := by
    simp [writeWords, ScalarState.write, Function.update]
  rw [pair, low, high, wideValue_words]

variable (state) in
theorem execInStep_writeScalarPair (value : UInt64) :
    (state.writeScalarPair 126 value).ExecInStep := by
  rw [writeScalarPair, if_neg (by decide), if_pos rfl]
  exact (pair_writeWords state (value &&& rdnaWaveMask)).symm

theorem ExecInStep.writeScalarPair (inStep : state.ExecInStep)
    (notBelow : destination ≠ 125) (notHigh : destination ≠ 127)
    (value : UInt64) : (state.writeScalarPair destination value).ExecInStep := by
  by_cases isExec : destination = 126
  · rw [isExec]
    exact execInStep_writeScalarPair state value
  · rw [ScalarState.writeScalarPair, if_neg isExec]
    split
    next => exact inStep
    next =>
      refine (inStep.write isExec notHigh _).write ?_ ?_ _
      · exact fun isLow => notBelow ((UInt32.add_left_inj 1).mp (isLow : destination + 1 = 125 + 1))
      · exact fun isHigh => isExec ((UInt32.add_left_inj 1).mp (isHigh : destination + 1 = 126 + 1))

end ScalarState

/-! ### One instruction -/

open ScalarState

variable {state next : ScalarState} {instruction : Gen5ScalarInstruction}

theorem tryExecuteSaveExec_inStep {destination : UInt32}
    (executed : tryExecuteSaveExec instruction state destination = some next) :
    next.ExecInStep := by
  unfold tryExecuteSaveExec at executed
  dsimp only at executed
  split at executed
  next operation _ =>
    obtain ⟨source, -, rfl⟩ := Option.map_eq_some_iff.mp executed
    exact (wideValue_zero _).symm
  next =>
    split at executed
    next operation source _ _ =>
      split at executed
      next => cases executed
      next =>
        cases executed
        exact execInStep_writeScalarPair (state.writeScalarPair destination state.execMask) _
    next => cases executed

theorem tryExecutePair_inStep {destination : UInt32}
    (inStep : state.ExecInStep) (notBelow : destination ≠ 125)
    (notHigh : destination ≠ 127)
    (executed : tryExecutePair instruction state destination = some next) :
    next.ExecInStep := by
  rw [tryExecutePair] at executed
  split at executed
  next => cases executed
  next =>
    obtain ⟨value, -, rfl⟩ := Option.map_eq_some_iff.mp executed
    exact inStep.writeScalarPair notBelow notHigh value

theorem loadComponents_inStep {component : ℕ → Option UInt32} {index : ℕ}
    {destinations : List Gen5Operand} (inStep : state.ExecInStep)
    (apart : ∀ destination ∈ destinations, destination.value ≠ 126 ∧ destination.value ≠ 127)
    (loaded : loadComponents component index destinations state = some next) :
    next.ExecInStep := by
  induction destinations generalizing index state with
  | nil =>
    cases loaded
    exact inStep
  | cons destination rest ih =>
    rw [List.forall_mem_cons] at apart
    rw [loadComponents] at loaded
    split at loaded
    next => cases loaded
    next =>
      split at loaded
      next => cases loaded
      next value _ =>
        exact ih (inStep.write apart.1.1 apart.1.2 value) apart.2 loaded

variable {context : LoadContext}

theorem tryExecuteScalarLoad_inStep {control : Gen5ScalarMemoryControl} (inStep : state.ExecInStep)
    (apart : ∀ destination ∈ instruction.destinations,
      destination.value ≠ 126 ∧ destination.value ≠ 127)
    (loaded : tryExecuteScalarLoad context instruction control state = some next) :
    next.ExecInStep := by
  unfold tryExecuteScalarLoad at loaded
  split at loaded
  next => cases loaded
  next =>
    simp only [Option.ite_none_left_eq_some] at loaded
    exact loadComponents_inStep inStep apart loaded.2.2

namespace Gen5ScalarInstruction

variable (instruction : Gen5ScalarInstruction)

def isCompareK : Bool :=
  instruction.encoding = .sopk && instruction.opcode.startsWith "SCmpk"

def isAlu : Bool :=
  instruction.encoding = .sop1 || instruction.encoding = .sop2 ||
    (instruction.encoding = .sopk && !instruction.isCompareK)

def writesPair : Bool :=
  instruction.isAlu && (instruction.opcode = "SGetpcB64" || isPairOpcode instruction.opcode)

/-- An instruction that saves the mask may have any destination.  Otherwise no pair
goes to 125 or 127, and no single register is 126 or 127. -/
def KeepsExec : Prop :=
  (instruction.isAlu ∧ ¬isSaveExec instruction.opcode) ∨
      (¬instruction.isAlu ∧ instruction.scalarMemory.isSome) →
    ∀ destination ∈ instruction.destinations, destination.value ≠ 127 ∧
      destination.value ≠ if instruction.writesPair then 125 else 126

end Gen5ScalarInstruction

variable {programAddress : UInt64}

theorem tryExecuteScalarAlu_inStep (isAlu : instruction.isAlu) (keeps : instruction.KeepsExec)
    (inStep : state.ExecInStep)
    (executed : tryExecuteScalarAlu programAddress instruction state = some next) :
    next.ExecInStep := by
  unfold tryExecuteScalarAlu at executed
  cases isDestination : scalarDestination instruction with
  | none => simp [isDestination] at executed
  | some destination =>
    have member : ∃ operand ∈ instruction.destinations, operand.value = destination := by
      unfold scalarDestination at isDestination
      split at isDestination
      next operand single =>
        split at isDestination
        next =>
          exact ⟨operand, by rw [single]; exact List.mem_cons_self, Option.some.inj isDestination⟩
        next => cases isDestination
      next => cases isDestination
    obtain ⟨operand, isMember, isValue⟩ := member
    have apart (notSave : ¬isSaveExec instruction.opcode) :=
      isValue ▸ keeps (.inl ⟨isAlu, notSave⟩) operand isMember
    simp only [isDestination] at executed
    split at executed
    next isGetpc =>
      have apart := apart (by rw [isGetpc]; decide +kernel)
      simp only [Gen5ScalarInstruction.writesPair, isAlu, isGetpc, decide_true,
        Bool.true_or, Bool.and_self, if_true] at apart
      cases executed
      exact inStep.writeScalarPair apart.2 apart.1 _
    next notGetpc =>
      split at executed
      next => exact tryExecuteSaveExec_inStep executed
      next notSave =>
        have apart := apart notSave
        split at executed
        next isPair =>
          simp only [Gen5ScalarInstruction.writesPair, isAlu, isPair,
            Bool.or_true, Bool.and_self, if_true] at apart
          exact tryExecutePair_inStep inStep apart.2 apart.1 executed
        next notPair =>
          simp only [Gen5ScalarInstruction.writesPair, notGetpc, notPair,
            decide_false, Bool.or_self, Bool.and_false, Bool.false_eq_true,
            if_false] at apart
          obtain ⟨result, -, rfl⟩ := Option.map_eq_some_iff.mp executed
          exact inStep.write apart.2 apart.1 result.1

theorem execute_inStep (keeps : instruction.KeepsExec) (inStep : state.ExecInStep)
    (executed : execute programAddress context instruction state = some next) :
    next.ExecInStep := by
  unfold execute at executed
  dsimp only at executed
  split at executed
  next =>
    obtain ⟨code, -, rfl⟩ := Option.map_eq_some_iff.mp executed
    exact inStep
  next =>
    split at executed
    next =>
      obtain ⟨code, -, rfl⟩ := Option.map_eq_some_iff.mp executed
      exact inStep
    next notCompare =>
      have alu : instruction.isAlu ↔ instruction.encoding = .sop1 ∨
          instruction.encoding = .sop2 ∨ instruction.encoding = .sopk := by
        simp only [Gen5ScalarInstruction.isAlu,
          Gen5ScalarInstruction.isCompareK, Bool.or_eq_true, decide_eq_true_eq,
          Bool.and_eq_true, Bool.not_eq_true']
        grind
      split at executed
      next isAlu =>
        split at executed
        next => cases executed
        next =>
          exact tryExecuteScalarAlu_inStep (alu.mpr isAlu) keeps inStep executed
      next notAlu =>
        split at executed
        next control isLoad =>
          have notAlu := mt alu.mp notAlu
          refine tryExecuteScalarLoad_inStep inStep ?_ executed
          intro destination isMember
          have apart := keeps (.inr ⟨notAlu, by rw [isLoad]; rfl⟩) destination isMember
          simp only [Gen5ScalarInstruction.writesPair, notAlu, Bool.false_and,
            Bool.false_eq_true, if_false] at apart
          exact ⟨apart.2, apart.1⟩
        next =>
          cases executed
          exact inStep

/-! ### Runs -/

theorem statesAfter_inStep {executed : List (LoadContext × Gen5ScalarInstruction)}
    (keeps : ∀ step ∈ executed, step.2.KeepsExec) (inStep : state.ExecInStep) :
    ∀ reached ∈ statesAfter programAddress executed state, reached.ExecInStep := by
  induction executed generalizing state with
  | nil => intro reached isReached; cases isReached
  | cons step rest ih =>
    obtain ⟨context, instruction⟩ := step
    rw [List.forall_mem_cons] at keeps
    rw [statesAfter]
    split
    next => intro reached isReached; cases isReached
    next next isNext =>
      have inStep := execute_inStep keeps.1 inStep isNext
      exact List.forall_mem_cons.mpr ⟨inStep, ih keeps.2 inStep⟩

/-- As long as no instruction writes to the registers of the mask without writing
the mask, they hold it after every instruction. -/
theorem execMask_in_registers {userData : List UInt32} {base : UInt32}
    {systemRegisters : List UInt32} {programAddress : UInt64}
    {executed : List (LoadContext × Gen5ScalarInstruction)}
    (keeps : ∀ step ∈ executed, step.2.KeepsExec) :
    ∀ reached ∈ initialState userData base systemRegisters :: statesAfter programAddress executed
          (initialState userData base systemRegisters),
      reached.ExecInStep := by
  have start : (initialState userData base systemRegisters).ExecInStep :=
    execInStep_writeScalarPair _ _
  exact List.forall_mem_cons.mpr ⟨start, statesAfter_inStep keeps start⟩

/-! ### A move to the low half of EXEC -/

def looseContext : LoadContext := ⟨fun _ => none, true, false⟩

/-- `s_mov_b32 exec_lo, 0` -/
def moveToExecLow : Gen5ScalarInstruction where
  pc := 0
  encoding := .sop1
  opcode := "SMovB32"
  words := [0xBEFE0380]
  sources := [⟨.encodedConstant, 128⟩]
  destinations := [.scalar 126]
  control := none
  scalarMemory := none

/-- `s_mov_b64 exec, 0` -/
def moveToExec : Gen5ScalarInstruction :=
  { moveToExecLow with opcode := "SMovB64", words := [0xBEFE0480] }

theorem execMask_apart_from_registers :
    ¬∀ (userData : List UInt32) (base : UInt32) (systemRegisters : List UInt32)
      (programAddress : UInt64)
      (executed : List (LoadContext × Gen5ScalarInstruction)),
      ∀ reached ∈ statesAfter programAddress executed (initialState userData base systemRegisters),
        reached.ExecInStep := by
  intro always
  have moved := always [] 0 [] 0 [(looseContext, moveToExecLow)] _ List.mem_cons_self
  exact absurd moved (by unfold ExecInStep; decide +kernel)

theorem execMask_in_registers_moved : ∃ reached ∈ statesAfter 0 [(looseContext, moveToExec)]
        (initialState [] 0 []), reached.ExecInStep := by
  obtain ⟨reached, isReached⟩ := List.exists_mem_of_length_pos
    (show 0 < (statesAfter 0 [(looseContext, moveToExec)]
      (initialState [] 0 [])).length by decide +kernel)
  refine ⟨reached, isReached, execMask_in_registers ?_ _ (List.mem_cons_of_mem _ isReached)⟩
  intro step isStep
  obtain rfl := List.mem_singleton.mp isStep
  intro _ destination isDestination
  obtain rfl := List.mem_singleton.mp isDestination
  exact ⟨by decide, by decide +kernel⟩

end SharpEmu.Gen5Scalars
