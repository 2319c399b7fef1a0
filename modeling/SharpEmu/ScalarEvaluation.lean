import SharpEmu.LanePrograms

/-!
# Scalar evaluation of shaders

Before a shader is translated, its scalar instructions are evaluated for one
wave.  The execution mask is held twice, as a value of its own and in the scalar
registers 126 and 127; VCC is only the registers 106 and 107.
-/

namespace SharpEmu.Gen5Scalars

open Gen5Shader Gen5Lanes

def scalarRegisterCount : UInt32 := 256
def rdnaWaveMask : UInt64 := 0xFFFFFFFF

def wideValue (low high : UInt32) : UInt64 :=
  low.toUInt64 ||| (high.toUInt64 <<< 32)

structure Gen5ScalarMemoryControl where
  immediateOffsetBytes : Int32
  dynamicOffsetRegister : Option UInt32

structure Gen5ScalarInstruction extends Gen5OperandInstruction where
  scalarMemory : Option Gen5ScalarMemoryControl

structure ScalarState where
  registers : UInt32 → UInt32
  execMask : UInt64
  scalarConditionCode : Bool

namespace ScalarState

variable (state : ScalarState)

def pair (register : UInt32) : UInt64 :=
  wideValue (state.registers register) (state.registers (register + 1))

def write (register value : UInt32) : ScalarState :=
  { state with registers := Function.update state.registers register value }

def writeWords (destination : UInt32) (value : UInt64) : ScalarState :=
  (state.write destination value.toUInt32).write (destination + 1) (value >>> 32).toUInt32

def writeScalarPair (destination : UInt32) (value : UInt64) : ScalarState :=
  if scalarRegisterCount - 1 ≤ destination then state
  else if destination = 126 then
    let masked := value &&& rdnaWaveMask
    { state.writeWords destination masked with execMask := masked }
  else state.writeWords destination value

def tryEvaluateScalarOperand (operand : Gen5Operand) : Option UInt32 :=
  if operand.kind = .scalarRegister then
    if operand.value < scalarRegisterCount then
      some (state.registers operand.value)
    else none
  else tryResolveConstantOperand operand

/-- With the constants that stand for VCCZ, EXECZ and SCC. -/
def tryEvaluateSpecialOperand (operand : Gen5Operand) : Option UInt32 :=
  let flag (test : Bool) : Option UInt32 := some (if test then 1 else 0)
  if operand = ⟨.encodedConstant, 251⟩ then
    flag (state.registers 106 ||| state.registers 107 = 0)
  else if operand = ⟨.encodedConstant, 252⟩ then flag (state.execMask = 0)
  else if operand = ⟨.encodedConstant, 253⟩ then flag state.scalarConditionCode
  else state.tryEvaluateScalarOperand operand

def tryEvaluateScalarOperand64 (operand : Gen5Operand) : Option UInt64 :=
  if operand.kind = .scalarRegister ∧ operand.value = 126 then
    some state.execMask
  else if operand.kind = .scalarRegister ∧ operand.value < scalarRegisterCount - 1 then
    some (state.pair operand.value)
  else
    (state.tryEvaluateScalarOperand operand).map fun low =>
      if operand.kind = .encodedConstant ∧ 193 ≤ operand.value ∧
        operand.value ≤ 208 then 0xFFFFFFFF00000000 ||| low.toUInt64
      else low.toUInt64

end ScalarState

/-! ### Results -/

inductive MaskOperation
  | and | or | xor | andn2 | orn2 | nand | nor | xnor | andn1 | orn1

def MaskOperation.apply {α : Type} [AndOp α] [OrOp α] [XorOp α] [Complement α]
    (left right : α) : MaskOperation → α
  | .and => left &&& right
  | .or => left ||| right
  | .xor => left ^^^ right
  | .andn2 => left &&& ~~~right
  | .orn2 => left ||| ~~~right
  | .nand => ~~~(left &&& right)
  | .nor => ~~~(left ||| right)
  | .xnor => ~~~(left ^^^ right)
  | .andn1 => ~~~left &&& right
  | .orn1 => ~~~left ||| right

def logicOperations : List (String × MaskOperation) := [
  ("And", .and), ("Or", .or), ("Xor", .xor), ("Andn2", .andn2), ("Orn2", .orn2),
  ("Nand", .nand), ("Nor", .nor), ("Xnor", .xnor)]

def saveExecOperations : List (String × MaskOperation) :=
  logicOperations ++ [("Andn1", .andn1), ("Orn1", .orn1)]

def entryOf {α : Type} (entries : List (String × α)) (front back opcode : String) :
    Option α :=
  (entries.find? fun entry => front ++ entry.1 ++ back = opcode).map (·.2)

def logicOf (back opcode : String) : Option MaskOperation :=
  entryOf logicOperations "S" back opcode

def saveExecOf (back opcode : String) : Option MaskOperation :=
  entryOf saveExecOperations "S" back opcode

/-- `BitOperations.PopCount`. -/
def popCount (value : UInt32) : UInt32 :=
  .ofNat ((List.range 32).countP value.toNat.testBit)

def firstBit (value : UInt32) : UInt32 :=
  match (List.range 32).find? (value.toNat.testBit ·) with
  | some bit => .ofNat bit
  | none => 0xFFFFFFFF

def reverseBits (value : UInt32) : UInt32 :=
  let swap (value mask shift : UInt32) : UInt32 :=
    (value >>> shift &&& mask) ||| ((value &&& mask) <<< shift)
  let value := swap value 0x55555555 1
  let value := swap value 0x33333333 2
  let value := swap value 0x0F0F0F0F 4
  let value := swap value 0x00FF00FF 8
  value >>> 16 ||| value <<< 16

def unaryResult (opcode : String) (before left : UInt32) (code : Bool) : Option (UInt32 × Bool) :=
  let coded (result : UInt32) : Option (UInt32 × Bool) :=
    some (result, result ≠ 0)
  match opcode with
  | "SMovB32" => some (left, code)
  | "SNotB32" => coded (~~~left)
  | "SBrevB32" => coded (reverseBits left)
  | "SBcnt1I32B32" => coded (popCount left)
  | "SFF1I32B32" => coded (firstBit left)
  | "SBitset1B32" => some (before ||| (1 <<< (left &&& 31)), code)
  | _ => none

def sumWithCode (left right : UInt64) : Option (UInt32 × Bool) :=
  some ((left + right).toUInt32, 0xFFFFFFFF < left + right)

def fieldWidth (control limit : UInt32) : UInt32 :=
  min ((control >>> 16) &&& 0x7F) limit

def binaryResult (opcode : String) (left right : UInt32) (code : Bool) : Option (UInt32 × Bool) :=
  let coded (result : UInt32) : Option (UInt32 × Bool) :=
    some (result, result ≠ 0)
  let kept (result : UInt32) : Option (UInt32 × Bool) := some (result, code)
  let overflows (sign other result : UInt32) : Bool :=
    (sign &&& (other ^^^ result)) &&& 0x80000000 ≠ 0
  let wideLeft := left.toUInt64
  let carry : UInt64 := if code then 1 else 0
  let offset : UInt32 := right &&& 31
  let width := fieldWidth right (32 - offset)
  match opcode with
  | "SAddU32" => sumWithCode wideLeft right.toUInt64
  | "SSubU32" => some (left - right, left < right)
  | "SAddI32" =>
      some (left + right, overflows (left ^^^ (left + right)) right (left + right))
  | "SSubI32" =>
      some (left - right, overflows (left ^^^ right) left (left - right))
  | "SAddcU32" => sumWithCode wideLeft (right.toUInt64 + carry)
  | "SSubbU32" =>
      let subtrahend := right.toUInt64 + carry
      some (left - subtrahend.toUInt32, wideLeft < subtrahend)
  | "SMinI32" =>
      let less := left.toInt32 < right.toInt32
      some (if less then left else right, less)
  | "SMinU32" => some (min left right, left < right)
  | "SMaxI32" =>
      let more := right.toInt32 < left.toInt32
      some (if more then left else right, more)
  | "SMaxU32" => some (max left right, right < left)
  | "SCselectB32" => kept (if code then left else right)
  | "SLshlB32" => coded (left <<< offset)
  | "SLshrB32" => coded (left >>> offset)
  | "SAshrI32" => coded (left.toInt32 >>> offset.toInt32).toUInt32
  | "SBfmB32" =>
      let ones : UInt32 := left &&& 31
      kept (if ones = 0 then 0 else ((1 <<< ones) - 1) <<< offset)
  | "SMulI32" => kept (left * right)
  | "SBfeU32" =>
      coded (if width = 0 then 0
        else (left >>> offset) &&& ((0xFFFFFFFF : UInt32) >>> (32 - width)))
  | "SBfeI32" =>
      coded (if width = 0 then 0
        else ((left <<< (32 - width - offset)).toInt32 >>> (32 - width).toInt32).toUInt32)
  | "SAbsdiffI32" =>
      coded (.ofNat (left.toInt32.toInt - right.toInt32.toInt).natAbs)
  | "SLshl1AddU32" => sumWithCode (wideLeft <<< 1) right.toUInt64
  | "SLshl2AddU32" => sumWithCode (wideLeft <<< 2) right.toUInt64
  | "SLshl3AddU32" => sumWithCode (wideLeft <<< 3) right.toUInt64
  | "SLshl4AddU32" => sumWithCode (wideLeft <<< 4) right.toUInt64
  | "SPackLlB32B16" => kept ((left &&& (0xFFFF : UInt32)) ||| (right <<< 16))
  | "SPackLhB32B16" => kept ((left &&& (0xFFFF : UInt32)) ||| (right &&& 0xFFFF0000))
  | "SPackHhB32B16" => kept ((left >>> 16) ||| (right &&& 0xFFFF0000))
  | "SMulHiU32" => kept ((wideLeft * right.toUInt64) >>> 32).toUInt32
  | "SMulHiI32" =>
      kept ((left.toInt32.toInt64 * right.toInt32.toInt64) >>> 32).toUInt64.toUInt32
  | _ =>
      match logicOf "B32" opcode with
      | some operation => coded (operation.apply left right)
      | none => none

/-! ### Instructions -/

def scalarDestination (instruction : Gen5ScalarInstruction) : Option UInt32 :=
  match instruction.destinations with
  | [destination] =>
      if destination.kind = .scalarRegister ∧
        destination.value < scalarRegisterCount then some destination.value
      else none
  | _ => none

def pairOpcodes : List String := [
  "SMovB64", "SWqmB64", "SNotB64", "SLshlB64", "SLshrB64", "SBfeU64", "SBfeI64",
  "SBfmB64", "SCselectB64"]

def isLogicPair (opcode : String) : Bool :=
  opcode = "SCselectB64" || (logicOf "B64" opcode).isSome

def isPairOpcode (opcode : String) : Bool :=
  opcode ∈ pairOpcodes || (logicOf "B64" opcode).isSome

def bitField64 (source : UInt64) (control : UInt32) (signed : Bool) : UInt64 :=
  let offset : UInt64 := (control &&& 63).toUInt64
  let width := (fieldWidth control (64 - (control &&& 63))).toUInt64
  let field := (source >>> offset) &&& ((0xFFFFFFFFFFFFFFFF : UInt64) >>> (64 - width))
  if width = 0 then 0
  else if width < 64 then
    if signed then
      ((field <<< (64 - width)).toInt64 >>> (64 - width).toInt64).toUInt64
    else field
  else source >>> offset

def pairResult (instruction : Gen5ScalarInstruction) (state : ScalarState) :
    Option UInt64 := do
  let source (index : ℕ) := instruction.sources[index]?
  let word (index : ℕ) := (source index).bind state.tryEvaluateScalarOperand
  let wide (index : ℕ) := (source index).bind state.tryEvaluateScalarOperand64
  match instruction.opcode with
  | "SMovB64" => wide 0
  | "SNotB64" => return ~~~(← wide 0)
  | "SWqmB64" =>
      let value ← wide 0
      return ((value ||| (value >>> 1) ||| (value >>> 2) ||| (value >>> 3)) &&&
        0x1111111111111111) * 0xF
  | "SLshlB64" => return (← wide 0) <<< ((← word 1) &&& 63).toUInt64
  | "SLshrB64" => return (← wide 0) >>> ((← word 1) &&& 63).toUInt64
  | "SBfeU64" => return bitField64 (← wide 0) (← word 1) false
  | "SBfeI64" => return bitField64 (← wide 0) (← word 1) true
  | "SBfmB64" =>
      let width := ((← word 0) &&& 63).toUInt64
      let offset := ((← word 1) &&& 63).toUInt64
      return if width = 0 then 0
        else ((0xFFFFFFFFFFFFFFFF : UInt64) >>> (64 - width)) <<< offset
  | "SCselectB64" =>
      let left ← wide 0
      let right ← wide 1
      return if state.scalarConditionCode then left else right
  | opcode =>
      let operation ← logicOf "B64" opcode
      return operation.apply (← wide 0) (← wide 1)

def tryExecutePair (instruction : Gen5ScalarInstruction) (state : ScalarState)
    (destination : UInt32) : Option ScalarState :=
  if scalarRegisterCount - 1 ≤ destination ∧ ¬isLogicPair instruction.opcode then none
  else
    (pairResult instruction state).map fun value =>
      { state.writeScalarPair destination value with
        scalarConditionCode :=
          if instruction.opcode = "SMovB64" then state.scalarConditionCode
          else value ≠ 0 }

def shortImmediate (value : UInt32) : UInt32 :=
  value.toUInt16.toInt16.toInt32.toUInt32

def wordResult (instruction : Gen5ScalarInstruction) (state : ScalarState)
    (destination : UInt32) : Option (UInt32 × Bool) := do
  let opcode := instruction.opcode
  let before := state.registers destination
  let code := state.scalarConditionCode
  let first ← instruction.sources.head?
  match opcode with
  | "SMovkI32" => return (shortImmediate first.value, code)
  | "SAddkI32" => return (before + shortImmediate first.value, code)
  | "SMulkI32" => return (before * shortImmediate first.value, code)
  | _ =>
      let left ← state.tryEvaluateSpecialOperand first
      match unaryResult opcode before left code with
      | some result => some result
      | none =>
          let right ← instruction.sources[1]?.bind state.tryEvaluateSpecialOperand
          binaryResult opcode left right code

def isSaveExec (opcode : String) : Bool :=
  (saveExecOf "SaveexecB32" opcode).isSome || (saveExecOf "SaveexecB64" opcode).isSome

def tryExecuteSaveExec (instruction : Gen5ScalarInstruction) (state : ScalarState)
    (destination : UInt32) : Option ScalarState :=
  let operand := instruction.sources.head?
  match saveExecOf "SaveexecB32" instruction.opcode with
  | some operation =>
      (operand.bind state.tryEvaluateScalarOperand).map fun source =>
        let oldExec := state.execMask.toUInt32
        let newExec := operation.apply source oldExec
        { ((state.write destination oldExec).write 126 newExec).write 127 0 with
          execMask := newExec.toUInt64
          scalarConditionCode := newExec ≠ 0 }
  | none =>
      match saveExecOf "SaveexecB64" instruction.opcode,
        operand.bind state.tryEvaluateScalarOperand64 with
      | some operation, some source =>
          let newExec := operation.apply source state.execMask &&& rdnaWaveMask
          if scalarRegisterCount - 1 ≤ destination then none
          else some
            { (state.writeScalarPair destination state.execMask).writeScalarPair
                126 newExec with
              scalarConditionCode := newExec ≠ 0 }
      | _, _ => none

def tryExecuteScalarAlu (programAddress : UInt64)
    (instruction : Gen5ScalarInstruction) (state : ScalarState) :
    Option ScalarState :=
  match scalarDestination instruction with
  | none => none
  | some destination =>
      if instruction.opcode = "SGetpcB64" then
        some (state.writeScalarPair destination (programAddress + instruction.pc.toUInt64 +
            .ofNat (4 * instruction.words.length)))
      else if isSaveExec instruction.opcode then
        tryExecuteSaveExec instruction state destination
      else if isPairOpcode instruction.opcode then
        tryExecutePair instruction state destination
      else
        (wordResult instruction state destination).map fun result =>
          { state.write destination result.1 with scalarConditionCode := result.2 }

def relations : List (String × (UInt32 → UInt32 → Bool)) := [
  ("EqI32", fun left right => left = right),
  ("LgI32", fun left right => left ≠ right),
  ("GtI32", fun left right => right.toInt32 < left.toInt32),
  ("GeI32", fun left right => right.toInt32 ≤ left.toInt32),
  ("LtI32", fun left right => left.toInt32 < right.toInt32),
  ("LeI32", fun left right => left.toInt32 ≤ right.toInt32),
  ("EqU32", fun left right => left = right),
  ("LgU32", fun left right => left ≠ right),
  ("GtU32", fun left right => right < left),
  ("GeU32", fun left right => right ≤ left),
  ("LtU32", fun left right => left < right),
  ("LeU32", fun left right => left ≤ right)]

def compareWords (front opcode : String) (left right : UInt32) : Option Bool :=
  if opcode.startsWith front then
    some (((entryOf relations front "" opcode).map (· left right)).getD false)
  else none

def tryExecuteScalarCompare (instruction : Gen5ScalarInstruction)
    (state : ScalarState) : Option Bool :=
  match instruction.sources with
  | [first, second] => do
      let left ← state.tryEvaluateScalarOperand first
      let right ← state.tryEvaluateScalarOperand second
      let unmasked := { state with execMask := 0xFFFFFFFFFFFFFFFF }
      let bit := left.toNat.testBit (right &&& 31).toNat
      let wideBit (wide : UInt64) := wide.toNat.testBit (right &&& 63).toNat
      match instruction.opcode with
      | "SBitcmp0B32" => some !bit
      | "SBitcmp1B32" => some bit
      | "SBitcmp0B64" =>
          (unmasked.tryEvaluateScalarOperand64 first).map fun wide => !wideBit wide
      | "SBitcmp1B64" => (unmasked.tryEvaluateScalarOperand64 first).map wideBit
      | opcode => compareWords "SCmp" opcode left right
  | _ => none

def tryExecuteScalarCompareK (instruction : Gen5ScalarInstruction)
    (state : ScalarState) : Option Bool := do
  let register ← scalarDestination instruction
  let immediate ← instruction.sources.head?
  compareWords "SCmpk" instruction.opcode (state.registers register)
    (shortImmediate immediate.value)

/-! ### Scalar loads -/

/-- The formats of seven bits that `Gfx10UnifiedFormat.TryDecode` knows. -/
def isUnifiedFormat (format : UInt32) : Bool :=
  format ≤ 29 || format = 36 || (43 ≤ format && format ≤ 45) || (48 ≤ format && format ≤ 77)

structure BufferDescriptor where
  baseAddress : UInt64
  sizeBytes : UInt64

def tryDecodeBufferDescriptor (state : ScalarState) (scalarBase : UInt32) :
    Option BufferDescriptor :=
  let word (index : UInt32) := state.registers (scalarBase + index)
  let stride := (word 1 >>> 16) &&& 0x3FFF
  if scalarRegisterCount ≤ scalarBase + 3 then none
  else if (word 0 = 0 ∧ word 1 = 0 ∧ word 2 = 0 ∧ word 3 = 0) ∨ word 3 >>> 30 ≠ 0 then some ⟨0, 0⟩
  else if isUnifiedFormat ((word 3 >>> 12) &&& 0x7F) then
    some ⟨wideValue (word 0) (word 1 &&& 0xFFFF),
      if stride = 0 then (word 2).toUInt64
      else stride.toUInt64 * (word 2).toUInt64⟩
  else none

def loadComponents (component : ℕ → Option UInt32) :
    ℕ → List Gen5Operand → ScalarState → Option ScalarState
  | _, [], state => some state
  | index, destination :: rest, state =>
      if destination.kind ≠ .scalarRegister ∨ scalarRegisterCount ≤ destination.value then none
      else
        match component index with
        | none => none
        | some value =>
            loadComponents component (index + 1) rest (state.write destination.value value)

/-- What surrounds an execution: guest memory, whether a load makes a binding of
its buffer, and whether loads are strict. -/
structure LoadContext where
  memory : UInt64 → Option UInt32
  recordBinding : Bool
  strictScalarLoad : Bool

def tryExecuteScalarLoad (context : LoadContext)
    (instruction : Gen5ScalarInstruction) (control : Gen5ScalarMemoryControl)
    (state : ScalarState) : Option ScalarState :=
  match instruction.sources with
  | [] => none
  | source :: _ =>
      let isBufferLoad := instruction.opcode.startsWith "SBufferLoad"
      let descriptor :=
        if isBufferLoad then tryDecodeBufferDescriptor state source.value else none
      let baseAddress := match descriptor with
        | some descriptor => descriptor.baseAddress
        | none => state.pair source.value
      let dynamicOffset := match control.dynamicOffsetRegister with
        | some register =>
            if register < scalarRegisterCount then state.registers register else 0
        | none => 0
      let byteOffset := control.immediateOffsetBytes.toInt64.toUInt64 + dynamicOffset.toUInt64
      let address := (baseAddress + byteOffset) &&& 0xFFFFFFFFFFFFFFFC
      -- a descriptor of zeros has size zero
      let bufferUnbound :=
        isBufferLoad && descriptor.all fun descriptor => descriptor.sizeBytes = 0
      let pointerUnbound :=
        !isBufferLoad && address = 0 && !context.strictScalarLoad
      let bufferSize := match context.recordBinding, descriptor with
        | true, some descriptor => descriptor.sizeBytes
        | _, _ => 0xFFFFFFFFFFFFFFFF
      let component (index : ℕ) : Option UInt32 :=
        let offset := byteOffset + .ofNat (4 * index)
        if bufferUnbound || pointerUnbound || isBufferLoad &&
          (bufferSize ≤ offset || bufferSize - offset < 4) then some 0
        else
          match context.memory (address + .ofNat (4 * index)) with
          | some value => some value
          | none =>
              if isBufferLoad || !context.strictScalarLoad then some 0 else none
      if source.kind ≠ .scalarRegister ∨ scalarRegisterCount - 1 ≤ source.value then none
      else if !bufferUnbound && !pointerUnbound && address = 0 then none
      else loadComponents component 0 instruction.destinations state

/-! ### Runs -/

/-- An instruction that binds a resource, branches or works on vectors leaves the
scalar state.  A jump to a register ends the path. -/
def execute (programAddress : UInt64) (context : LoadContext)
    (instruction : Gen5ScalarInstruction) (state : ScalarState) :
    Option ScalarState :=
  let withCode (code : Bool) := { state with scalarConditionCode := code }
  if instruction.encoding = .sopc then
    (tryExecuteScalarCompare instruction state).map withCode
  else if instruction.encoding = .sopk ∧ instruction.opcode.startsWith "SCmpk" then
    (tryExecuteScalarCompareK instruction state).map withCode
  else if instruction.encoding = .sop1 ∨ instruction.encoding = .sop2 ∨
    instruction.encoding = .sopk then
    if instruction.opcode = "SSetpcB64" ∨ instruction.opcode = "SSwappcB64" then
      none
    else tryExecuteScalarAlu programAddress instruction state
  else
    match instruction.scalarMemory with
    | some control => tryExecuteScalarLoad context instruction control state
    | none => some state

/-- The state of an evaluation: user data from a base register on, except for the
registers that the system fills, with VCC and EXEC set. -/
def initialState (userData : List UInt32) (base : UInt32)
    (systemRegisters : List UInt32) : ScalarState :=
  let start : ScalarState :=
    { registers := fun register =>
        if register ∈ systemRegisters ∨ register < base then 0
        else userData.getD (register - base).toNat 0
      execMask := rdnaWaveMask
      scalarConditionCode := false }
  (start.writeScalarPair 106 0).writeScalarPair 126 rdnaWaveMask

/-- Paths go on from states that other paths have reached, so each state of an
evaluation is reached from the first one by executing some instructions one after
another. -/
def statesAfter (programAddress : UInt64) :
    List (LoadContext × Gen5ScalarInstruction) → ScalarState → List ScalarState
  | [], _ => []
  | (context, instruction) :: rest, state =>
      match execute programAddress context instruction state with
      | none => []
      | some next => next :: statesAfter programAddress rest next

end SharpEmu.Gen5Scalars
