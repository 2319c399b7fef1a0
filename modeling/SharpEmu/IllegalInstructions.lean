import SharpEmu.BmiInstructionResults

/-!
# Recovering from an illegal bit-manipulation instruction

The fault handler decodes the instruction at the faulting address, reads its
operands from the saved context or from memory, lets the emulator compute the
result and writes the destination, the flags word and the instruction pointer
back.  Every recovered fault leaves the context the architecture prescribes.
-/

namespace SharpEmu.IllegalInstruction

open GprOperandSize BmiInstructionEmulator

inductive Mnemonic
  | andn | blsi | blsmsk | blsr | bextr | bzhi | tzcnt | lzcnt
  | rorx | sarx | shlx | shrx | pdep | pext | other
  deriving DecidableEq, Repr

inductive Register
  | gpr32 (slot : Fin 16)
  | gpr64 (slot : Fin 16)
  | other
  deriving DecidableEq, Repr

structure MemoryOperand where
  segmentPrefix : Bool
  ipRelativeAddress : Option (BitVec 64)
  displacement : BitVec 64
  base : Option Register
  index : Option Register
  indexScale : BitVec 64

inductive Operand
  | register (name : Register)
  | memory (operand : MemoryOperand)
  | immediate8 (value : BitVec 8)
  | other

/-- A decoded instruction: its first operand is the destination. -/
structure Instruction where
  mnemonic : Mnemonic
  op0 : Operand
  op1 : Operand
  op2 : Operand
  length : ℕ

/-- The part of the saved context the handler reads and writes. -/
structure Context where
  gpr : Fin 16 → BitVec 64
  rip : BitVec 64
  eflags : BitVec 32

/-- The bytes of the process, where they are readable. -/
abbrev HostMemory := BitVec 64 → Option (BitVec 8)

def tryReadHostBytes (memory : HostMemory) (address : BitVec 64)
    (count : ℕ) : Option (List (BitVec 8)) :=
  if address.toNat < 65536 then none
  else (List.range count).mapM fun i => memory (address + BitVec.ofNat 64 i)

def littleEndian : List (BitVec 8) → ℕ
  | [] => 0
  | byte :: bytes => byte.toNat + 2 ^ 8 * littleEndian bytes

def tryGetGpr64Offset : Register → Option (Fin 16)
  | .gpr64 slot => some slot
  | _ => none

def tryGetGprSlot : Register → Option (Fin 16 × GprOperandSize)
  | .gpr32 slot => some (slot, bits32)
  | .gpr64 slot => some (slot, bits64)
  | .other => none

variable (memory : HostMemory) (context : Context)

def componentValue : Option Register → Option (BitVec 64)
  | none => some 0#64
  | some register => (tryGetGpr64Offset register).map context.gpr

def tryComputeMemoryAddress (operand : MemoryOperand) : Option (BitVec 64) :=
  if operand.segmentPrefix then none
  else
    match operand.ipRelativeAddress with
    | some address => some address
    | none => do
        let base ← componentValue context operand.base
        let index ← componentValue context operand.index
        return operand.displacement + base + index * operand.indexScale

def registerValue (raw : BitVec 64) : GprOperandSize → BitVec 64
  | bits64 => raw
  | bits32 => raw &&& 0xFFFFFFFF#64

def tryReadOperand (size : GprOperandSize) : Operand → Option (BitVec 64)
  | .register name => do
      let (slot, _) ← tryGetGprSlot name
      return registerValue (context.gpr slot) size
  | .memory operand => do
      let address ← tryComputeMemoryAddress context operand
      let bytes ← tryReadHostBytes memory address (size.widthBits / 8)
      return BitVec.ofNat 64 (littleEndian bytes)
  | _ => none

/-- The result, whether the flags changed, and the flags word. -/
structure Evaluation where
  result : BitVec 64
  flagsChanged : Bool
  eflags : BitVec 32

def withFlags (emulated : BitVec 64 × BitVec 32) : Evaluation :=
  ⟨emulated.1, true, emulated.2⟩

def withoutFlags (result : BitVec 64) : Evaluation :=
  ⟨result, false, context.eflags⟩

def tryEvaluate (instruction : Instruction) (size : GprOperandSize) :
    Option Evaluation :=
  let read := tryReadOperand memory context size
  let eflags := context.eflags
  match instruction.mnemonic with
  | .andn => do
      let src1 ← read instruction.op1
      let src2 ← read instruction.op2
      return withFlags (andn src1 src2 size eflags)
  | .blsi => do
      let src ← read instruction.op1
      return withFlags (blsi src size eflags)
  | .blsmsk => do
      let src ← read instruction.op1
      return withFlags (blsmsk src size eflags)
  | .blsr => do
      let src ← read instruction.op1
      return withFlags (blsr src size eflags)
  | .bextr => do
      let src ← read instruction.op1
      let control ← read instruction.op2
      return withFlags (bextr src control size eflags)
  | .bzhi => do
      let src ← read instruction.op1
      let index ← read instruction.op2
      return withFlags (bzhi src index size eflags)
  | .tzcnt => do
      let src ← read instruction.op1
      return withFlags (tzcnt src size eflags)
  | .lzcnt => do
      let src ← read instruction.op1
      return withFlags (lzcnt src size eflags)
  | .rorx =>
      match instruction.op2 with
      | .immediate8 count => do
          let src ← read instruction.op1
          return withoutFlags context (rorx src (count.setWidth 32) size)
      | _ => none
  | .sarx => do
      let src ← read instruction.op1
      let count ← read instruction.op2
      return withoutFlags context (sarx src (count.setWidth 32) size)
  | .shlx => do
      let src ← read instruction.op1
      let count ← read instruction.op2
      return withoutFlags context (shlx src (count.setWidth 32) size)
  | .shrx => do
      let src ← read instruction.op1
      let count ← read instruction.op2
      return withoutFlags context (shrx src (count.setWidth 32) size)
  | .pdep => do
      let src ← read instruction.op1
      let mask ← read instruction.op2
      return withoutFlags context (pdep src mask size)
  | .pext => do
      let src ← read instruction.op1
      let mask ← read instruction.op2
      return withoutFlags context (pext src mask size)
  | .other => none

def destination : Operand → Option (Fin 16 × GprOperandSize)
  | .register name => tryGetGprSlot name
  | _ => none

def tryRecoverIllegalInstruction (instruction : Instruction) :
    Option Context := do
  let (slot, size) ← destination instruction.op0
  let evaluation ← tryEvaluate memory context instruction size
  return {
    gpr := Function.update context.gpr slot evaluation.result
    rip := context.rip + BitVec.ofNat 64 instruction.length
    eflags :=
      if evaluation.flagsChanged then evaluation.eflags else context.eflags }

/-! ### What the architecture prescribes -/

def operandValue (size : GprOperandSize) : Operand → Option (BitVec size.widthBits)
  | .register (.gpr32 slot) => some ((context.gpr slot).setWidth _)
  | .register (.gpr64 slot) => some ((context.gpr slot).setWidth _)
  | .memory operand => do
      let address ← tryComputeMemoryAddress context operand
      let bytes ← tryReadHostBytes memory address (size.widthBits / 8)
      return BitVec.ofNat _ (littleEndian bytes)
  | _ => none

def prescribed (instruction : Instruction) (size : GprOperandSize) :
    Option (Intel.Outcome size.widthBits) :=
  let first := operandValue memory context size instruction.op1
  let second := operandValue memory context size instruction.op2
  match instruction.mnemonic with
  | .andn => Intel.andn <$> first <*> second
  | .blsi => Intel.blsi <$> first
  | .blsmsk => Intel.blsmsk <$> first
  | .blsr => Intel.blsr <$> first
  | .bextr => Intel.bextr <$> first <*> second
  | .bzhi => Intel.bzhi <$> first <*> second
  | .tzcnt => Intel.tzcnt <$> first
  | .lzcnt => Intel.lzcnt <$> first
  | .rorx =>
      match instruction.op2 with
      | .immediate8 count => (Intel.rorx · count.toNat) <$> first
      | _ => none
  | .sarx => (fun source count => Intel.sarx source count.toNat) <$> first <*> second
  | .shlx => (fun source count => Intel.shlx source count.toNat) <$> first <*> second
  | .shrx => (fun source count => Intel.shrx source count.toNat) <$> first <*> second
  | .pdep => Intel.pdep <$> first <*> second
  | .pext => Intel.pext <$> first <*> second
  | .other => none

/-- The context after the instruction: the destination register holds the
zero-extended result, every other register is as before, the flags follow from
those before, and the instruction is passed. -/
def Executed (instruction : Instruction) (after : Context) : Prop :=
  ∃ slot size outcome, destination instruction.op0 = some (slot, size) ∧
      prescribed memory context instruction size = some outcome ∧
      after.gpr = Function.update context.gpr slot (size.widen outcome.result) ∧
      outcome.flags.Permit context.eflags after.eflags ∧
      after.rip = context.rip + BitVec.ofNat 64 instruction.length

section

variable {memory context}

theorem narrow_registerValue (raw : BitVec 64) (size : GprOperandSize) :
    size.narrow (registerValue raw size) = raw.setWidth size.widthBits := by
  cases size with
  | bits64 => rfl
  | bits32 =>
    exact (congrArg (narrow bits32) (and_widthMask raw bits32)).trans (narrow_widen bits32 _)

variable {size : GprOperandSize} {operand : Operand}

theorem operandValue_of_tryReadOperand {value : BitVec 64}
    (read : tryReadOperand memory context size operand = some value) :
    operandValue memory context size operand = some (size.narrow value) := by
  cases operand with
  | register name =>
    cases name with
    | gpr32 slot =>
      obtain rfl := Option.some.inj read
      exact congrArg some (narrow_registerValue _ size).symm
    | gpr64 slot =>
      obtain rfl := Option.some.inj read
      exact congrArg some (narrow_registerValue _ size).symm
    | other => simp [tryReadOperand, tryGetGprSlot] at read
  | memory operand =>
    simp only [tryReadOperand, operandValue, Option.bind_eq_bind,
      Option.pure_def, Option.bind_eq_some_iff, Option.some.injEq] at read ⊢
    obtain ⟨address, computed, bytes, fetched, rfl⟩ := read
    refine ⟨address, computed, bytes, fetched, ?_⟩
    simp only [narrow]
    rw [BitVec.setWidth_ofNat_of_le size.widthBits_le]
  | immediate8 value => simp [tryReadOperand] at read
  | other => simp [tryReadOperand] at read

/-- An evaluation agrees with an outcome when its result is the outcome's and
the flags word the handler writes back follows from the outcome's effects. -/
def Agrees (context : Context) (evaluation : Evaluation)
    {size : GprOperandSize} (outcome : Intel.Outcome size.widthBits) : Prop :=
  evaluation.result = size.widen outcome.result ∧ outcome.flags.Permit context.eflags
      (if evaluation.flagsChanged then evaluation.eflags else context.eflags)

theorem agrees_withFlags {emulated : BitVec 64 × BitVec 32} {outcome : Intel.Outcome size.widthBits}
    (meets : Meets emulated context.eflags outcome) :
    Agrees context (withFlags emulated) outcome :=
  meets

theorem agrees_withoutFlags {result : BitVec 64} {outcome : Intel.Outcome size.widthBits}
    (meets : Meets (result, context.eflags) context.eflags outcome) :
    Agrees context (withoutFlags context result) outcome :=
  meets

variable {evaluation : Evaluation}

theorem unary_agrees {evaluate : BitVec 64 → Evaluation}
    {denote : BitVec size.widthBits → Intel.Outcome size.widthBits}
    (agrees : ∀ src, Agrees context (evaluate src) (denote (size.narrow src)))
    (evaluated : (tryReadOperand memory context size operand).bind
      (fun src => some (evaluate src)) = some evaluation) :
    ∃ outcome, denote <$> operandValue memory context size operand =
      some outcome ∧ Agrees context evaluation outcome := by
  obtain ⟨src, read, returned⟩ := Option.bind_eq_some_iff.mp evaluated
  obtain rfl := Option.some.inj returned
  rw [operandValue_of_tryReadOperand read]
  exact ⟨_, rfl, agrees src⟩

theorem binary_agrees {first second : Operand} {evaluate : BitVec 64 → BitVec 64 → Evaluation}
    {denote : BitVec size.widthBits → BitVec size.widthBits → Intel.Outcome size.widthBits}
    (agrees : ∀ src other, Agrees context (evaluate src other)
      (denote (size.narrow src) (size.narrow other)))
    (evaluated : (tryReadOperand memory context size first).bind
      (fun src => (tryReadOperand memory context size second).bind
        fun other => some (evaluate src other)) = some evaluation) :
    ∃ outcome, denote <$> operandValue memory context size first <*>
        operandValue memory context size second = some outcome ∧
      Agrees context evaluation outcome := by
  obtain ⟨src, read, rest⟩ := Option.bind_eq_some_iff.mp evaluated
  obtain ⟨other, readOther, returned⟩ := Option.bind_eq_some_iff.mp rest
  obtain rfl := Option.some.inj returned
  rw [operandValue_of_tryReadOperand read, operandValue_of_tryReadOperand readOther]
  exact ⟨_, rfl, agrees src other⟩

variable {instruction : Instruction}

theorem tryEvaluate_agrees
    (evaluated : tryEvaluate memory context instruction size = some evaluation) :
    ∃ outcome, prescribed memory context instruction size = some outcome ∧
      Agrees context evaluation outcome := by
  obtain ⟨mnemonic, op0, op1, op2, length⟩ := instruction
  cases mnemonic with
  | andn =>
    exact binary_agrees (fun _ _ => agrees_withFlags (andn_meets _ _ _)) evaluated
  | blsi =>
    exact unary_agrees (fun _ => agrees_withFlags (blsi_meets _ _)) evaluated
  | blsmsk =>
    exact unary_agrees (fun _ => agrees_withFlags (blsmsk_meets _ _)) evaluated
  | blsr =>
    exact unary_agrees (fun _ => agrees_withFlags (blsr_meets _ _)) evaluated
  | bextr =>
    exact binary_agrees (fun _ _ => agrees_withFlags (bextr_meets _ _ _)) evaluated
  | bzhi =>
    exact binary_agrees (fun _ _ => agrees_withFlags (bzhi_meets _ _ _)) evaluated
  | tzcnt =>
    exact unary_agrees (fun _ => agrees_withFlags (tzcnt_meets _ _)) evaluated
  | lzcnt =>
    exact unary_agrees (fun _ => agrees_withFlags (lzcnt_meets _ _)) evaluated
  | rorx =>
    cases op2 with
    | immediate8 count =>
      exact unary_agrees (fun _ => agrees_withoutFlags (rorx_meets _ _ _)) evaluated
    | _ => exact absurd evaluated (by simp [tryEvaluate])
  | sarx =>
    exact binary_agrees (fun _ _ => agrees_withoutFlags (sarx_meets _ _ _)) evaluated
  | shlx =>
    exact binary_agrees (fun _ _ => agrees_withoutFlags (shlx_meets _ _ _)) evaluated
  | shrx =>
    exact binary_agrees (fun _ _ => agrees_withoutFlags (shrx_meets _ _ _)) evaluated
  | pdep =>
    exact binary_agrees (fun _ _ => agrees_withoutFlags (pdep_meets _ _ _)) evaluated
  | pext =>
    exact binary_agrees (fun _ _ => agrees_withoutFlags (pext_meets _ _ _)) evaluated
  | other => exact absurd evaluated (by simp [tryEvaluate])

theorem executed_of_tryRecover {after : Context}
    (recovered : tryRecoverIllegalInstruction memory context instruction = some after) :
    Executed memory context instruction after := by
  simp only [tryRecoverIllegalInstruction, Option.bind_eq_bind,
    Option.pure_def, Option.bind_eq_some_iff, Option.some.injEq] at recovered
  obtain ⟨⟨slot, size⟩, target, evaluation, evaluated, rfl⟩ := recovered
  obtain ⟨outcome, prescribes, result, flags⟩ := tryEvaluate_agrees evaluated
  refine ⟨slot, size, outcome, target, prescribes, ?_, flags, rfl⟩
  rw [result]

end

/-- The emulated bit-manipulation instructions are the architecture's, each
recovered fault leaves the context the instruction prescribes, and the deposit
and extract functions undo each other under a mask. -/
theorem bmi_emulation_is_architectural :
    (∀ (size : GprOperandSize) (src1 src2 : BitVec 64) (imm : BitVec 8) (eflags : BitVec 32),
      let first := size.narrow src1
      let second := size.narrow src2
      Meets (andn src1 src2 size eflags) eflags (Intel.andn first second) ∧
      Meets (blsi src1 size eflags) eflags (Intel.blsi first) ∧
      Meets (blsmsk src1 size eflags) eflags (Intel.blsmsk first) ∧
      Meets (blsr src1 size eflags) eflags (Intel.blsr first) ∧
      Meets (bextr src1 src2 size eflags) eflags (Intel.bextr first second) ∧
      Meets (bzhi src1 src2 size eflags) eflags (Intel.bzhi first second) ∧
      Meets (tzcnt src1 size eflags) eflags (Intel.tzcnt first) ∧
      Meets (lzcnt src1 size eflags) eflags (Intel.lzcnt first) ∧
      Meets (rorx src1 (imm.setWidth 32) size, eflags) eflags (Intel.rorx first imm.toNat) ∧
      Meets (sarx src1 (src2.setWidth 32) size, eflags) eflags (Intel.sarx first second.toNat) ∧
      Meets (shlx src1 (src2.setWidth 32) size, eflags) eflags (Intel.shlx first second.toNat) ∧
      Meets (shrx src1 (src2.setWidth 32) size, eflags) eflags (Intel.shrx first second.toNat) ∧
      Meets (pdep src1 src2 size, eflags) eflags (Intel.pdep first second) ∧
      Meets (pext src1 src2 size, eflags) eflags (Intel.pext first second)) ∧
    (∀ (memory : HostMemory) (context : Context) (instruction : Instruction),
      ∀ after ∈ tryRecoverIllegalInstruction memory context instruction,
        Executed memory context instruction after) ∧
    (∀ (size : GprOperandSize) (x m : BitVec 64), (pext (pdep x m size) m size).toNat =
          (size.narrow x).toNat % 2 ^ (size.narrow m).cpop.toNat ∧
        pdep (pext x m size) m size = size.widen (size.narrow (x &&& m))) := by
  refine ⟨?_, ?_, ?_⟩
  · intro size src1 src2 imm eflags
    exact ⟨andn_meets src1 src2 eflags, blsi_meets src1 eflags,
      blsmsk_meets src1 eflags, blsr_meets src1 eflags,
      bextr_meets src1 src2 eflags, bzhi_meets src1 src2 eflags,
      tzcnt_meets src1 eflags, lzcnt_meets src1 eflags,
      rorx_meets src1 imm eflags, sarx_meets src1 src2 eflags,
      shlx_meets src1 src2 eflags, shrx_meets src1 src2 eflags,
      pdep_meets src1 src2 eflags, pext_meets src1 src2 eflags⟩
  · intro memory context instruction after recovered
    exact executed_of_tryRecover recovered
  · intro size x m
    exact ⟨toNat_pext_pdep x m, pdep_pext x m⟩

local instance neZeroSixteen : NeZero 16 :=
  ⟨by decide⟩

/-- A context whose first registers hold an operand and a mask. -/
def sampleContext : Context where
  gpr := fun slot => if slot = 0 then 0x2D#64 else 0xFFFFFFFF0000F0F0#64
  rip := 0x1000#64
  eflags := 0x8D5#32

/-- `pdep r8d, eax, ecx` -/
def samplePdep : Instruction :=
  ⟨.pdep, .register (.gpr32 8), .register (.gpr32 0), .register (.gpr32 1), 5⟩

theorem bmi_emulation_is_architectural_sample : Executed (fun _ => none) sampleContext samplePdep
      ⟨Function.update sampleContext.gpr 8 0x20D0#64, 0x1005#64, 0x8D5#32⟩ :=
  bmi_emulation_is_architectural.2.1 _ _ _ _ rfl

end SharpEmu.IllegalInstruction
