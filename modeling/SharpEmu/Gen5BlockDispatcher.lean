import SharpEmu.Gen5ShaderPrograms
import SharpEmu.ListCuts
import SharpEmu.RoundSimulation
import Mathlib.Data.Finset.Sort

/-!
# The basic-block dispatcher

The translated shader is one loop around a switch over the number of the current
basic block.  Each case runs the instructions of its block and leaves the number
of the next one.  The dispatcher is compared with the control flow of the decoded
program, instruction by instruction, for any meaning of the instructions.
-/

namespace SharpEmu
namespace Gen5Shader

/-! ## Basic blocks in the source -/

structure ShaderBlock where
  startPc : UInt32
  startIndex : ℕ
  endIndex : ℕ
deriving DecidableEq, Repr

def endsBlock (opcode : String) : Bool :=
  isBranch opcode || opcode == "SEndpgm"

def leadersFrom : List Gen5ShaderInstruction → List UInt32
  | [] => []
  | instruction :: rest =>
      (if isBranch instruction.opcode then
        (tryGetBranchTargetPc instruction).toList else []) ++
      (if endsBlock instruction.opcode then (rest.head?.map (·.pc)).toList
        else []) ++
      leadersFrom rest

def leaders : List Gen5ShaderInstruction → Finset UInt32
  | [] => ∅
  | first :: rest => insert first.pc (leadersFrom (first :: rest)).toFinset

def findInstructionIndex (instructions : List Gen5ShaderInstruction) (pc : UInt32) : Option ℕ :=
  instructions.findIdx? (·.pc == pc)

def endIndexOf (instructions : List Gen5ShaderInstruction) : List UInt32 → Option ℕ
  | [] => some instructions.length
  | next :: _ => findInstructionIndex instructions next

def blocksFrom (instructions : List Gen5ShaderInstruction) : List UInt32 → List ShaderBlock
  | [] => []
  | start :: rest =>
      match findInstructionIndex instructions start,
        endIndexOf instructions rest with
      | some startIndex, some endIndex =>
          if startIndex < endIndex then
            ⟨start, startIndex, endIndex⟩ :: blocksFrom instructions rest
          else blocksFrom instructions rest
      | _, _ => blocksFrom instructions rest

def buildBasicBlocks (instructions : List Gen5ShaderInstruction) :
    List ShaderBlock :=
  blocksFrom instructions
    ((leaders instructions).sort.filter fun pc => instructions.any (·.pc == pc))

def tryFindBlock (blocks : List ShaderBlock) (pc : UInt32) : Option ℕ :=
  blocks.findIdx? (·.startPc == pc)

/-! ## The emitted dispatcher -/

structure BranchFlags where
  scc : Bool
  anyVcc : Bool
  anyExec : Bool
deriving DecidableEq, Repr

inductive BranchCondition
  | scc (expected : Bool)
  | anyVcc (expected : Bool)
  | anyExec (expected : Bool)
deriving DecidableEq, Repr

def BranchCondition.holds (flags : BranchFlags) : BranchCondition → Bool
  | .scc expected => flags.scc == expected
  | .anyVcc expected => flags.anyVcc == expected
  | .anyExec expected => flags.anyExec == expected

def tryGetBranchCondition (opcode : String) : Option BranchCondition :=
  if opcode = "SCbranchScc0" then some (.scc false)
  else if opcode = "SCbranchScc1" then some (.scc true)
  else if opcode = "SCbranchVccz" then some (.anyVcc false)
  else if opcode = "SCbranchVccnz" then some (.anyVcc true)
  else if opcode = "SCbranchExecz" then some (.anyExec false)
  else if opcode = "SCbranchExecnz" then some (.anyExec true)
  else none

/-- What a case does with the program counter and the active flag. -/
inductive BlockExit
  | deactivate
  | goTo (block : UInt32)
  | select (condition : BranchCondition) (taken fallthrough : UInt32)
deriving DecidableEq, Repr

structure EmittedBlock where
  body : List Gen5ShaderInstruction
  exit : BlockExit
deriving DecidableEq, Repr

inductive EmitError
  | noBlocks
  | unsupportedInstruction (instruction : Gen5ShaderInstruction)
  | invalidBranch (instruction : Gen5ShaderInstruction)
  | indexOutOfRange
deriving DecidableEq, Repr

def noBlock : UInt32 := 0xFFFFFFFF

def fallthroughOf (blockCount blockIndex : ℕ) : UInt32 :=
  if blockIndex + 1 < blockCount then .ofNat (blockIndex + 1) else noBlock

def emitExit (instructions : List Gen5ShaderInstruction)
    (blocks : List ShaderBlock) (blockIndex : ℕ)
    (terminator : Gen5ShaderInstruction) : Except EmitError BlockExit :=
  let fallthrough := fallthroughOf blocks.length blockIndex
  if terminator.opcode = "SEndpgm" then .ok .deactivate
  else if terminator.opcode = "SBranch" then
    match tryGetBranchTargetPc terminator with
    | none => .error (.invalidBranch terminator)
    | some targetPc =>
        if isExitBranchTarget instructions targetPc then .ok .deactivate
        else
          match tryFindBlock blocks targetPc with
          | none => .error (.invalidBranch terminator)
          | some target => .ok (.goTo (.ofNat target))
  else if startsWith terminator.opcode "SCbranch" then
    match tryGetBranchTargetPc terminator,
      tryGetBranchCondition terminator.opcode with
    | some targetPc, some condition =>
        if isExitBranchTarget instructions targetPc then
          .ok (.select condition noBlock fallthrough)
        else
          match tryFindBlock blocks targetPc with
          | none => .error (.invalidBranch terminator)
          | some target => .ok (.select condition (.ofNat target) fallthrough)
    | _, _ => .error (.invalidBranch terminator)
  else if fallthrough = noBlock then .ok .deactivate
  else .ok (.goTo fallthrough)

def ShaderBlock.slice (instructions : List Gen5ShaderInstruction)
    (block : ShaderBlock) : List Gen5ShaderInstruction :=
  (instructions.drop block.startIndex).take (block.endIndex - block.startIndex)

def tryEmitBlock (canEmit : Gen5ShaderInstruction → Bool)
    (instructions : List Gen5ShaderInstruction) (blocks : List ShaderBlock)
    (blockIndex : ℕ) (block : ShaderBlock) : Except EmitError EmittedBlock :=
  let body := (block.slice instructions).filter fun instruction =>
    !endsBlock instruction.opcode
  match body.find? fun instruction => !canEmit instruction with
  | some instruction => .error (.unsupportedInstruction instruction)
  | none =>
      match instructions[block.endIndex - 1]? with
      | none => .error .indexOutOfRange
      | some terminator => do
          let exit ← emitExit instructions blocks blockIndex terminator
          return ⟨body, exit⟩

def emitFrom (canEmit : Gen5ShaderInstruction → Bool)
    (instructions : List Gen5ShaderInstruction) (blocks : List ShaderBlock) :
    ℕ → List ShaderBlock → Except EmitError (List EmittedBlock)
  | _, [] => .ok []
  | blockIndex, block :: rest => do
      let emitted ← tryEmitBlock canEmit instructions blocks blockIndex block
      return emitted :: (← emitFrom canEmit instructions blocks (blockIndex + 1) rest)

def tryEmitDispatcher (canEmit : Gen5ShaderInstruction → Bool)
    (instructions : List Gen5ShaderInstruction) :
    Except EmitError (List EmittedBlock) :=
  let blocks := buildBasicBlocks instructions
  if blocks = [] then .error .noBlocks
  else emitFrom canEmit instructions blocks 0 blocks

/-! ## Running the dispatcher -/

section Runs

variable {State : Type*} (effect : Gen5ShaderInstruction → State → State)
variable (flags : State → BranchFlags)

structure DispatcherState (State : Type*) where
  programCounter : UInt32
  programActive : Bool
  iterationGuard : UInt32
  looping : Bool
  state : State
  executed : List Gen5ShaderInstruction

def DispatcherState.start (state : State) : DispatcherState State :=
  ⟨0, true, 0, true, state, []⟩

def runBody (body : List Gen5ShaderInstruction) (run : DispatcherState State) :
    DispatcherState State :=
  { run with
    state := body.foldl (fun state instruction => effect instruction state) run.state
    executed := run.executed ++ body }

def BlockExit.apply (exit : BlockExit) (run : DispatcherState State) :
    DispatcherState State :=
  match exit with
  | .deactivate => { run with programActive := false }
  | .goTo block => { run with programCounter := block }
  | .select condition taken fallthrough =>
      { run with
        programCounter :=
          if condition.holds (flags run.state) then taken else fallthrough }

def runSwitch (emitted : List EmittedBlock) (run : DispatcherState State) :
    DispatcherState State :=
  match emitted[run.programCounter.toNat]? with
  | some block => block.exit.apply flags (runBody effect block.body run)
  | none => { run with programActive := false }

/-- One turn of the loop: the switch, then the test at the loop's end. -/
def turn (emitted : List EmittedBlock) (maxDispatcherSteps : UInt32)
    (run : DispatcherState State) : DispatcherState State :=
  if run.looping then
    let after := runSwitch effect flags emitted run
    if maxDispatcherSteps = 0 then { after with looping := after.programActive }
    else
      let steps := after.iterationGuard + 1
      { after with
        iterationGuard := steps
        looping := after.programActive && decide (steps < maxDispatcherSteps) }
  else run

/-! ## The control flow of the program -/

/-- What the instruction set says about a branch. -/
def takesBranch (opcode : String) (flags : BranchFlags) : Bool :=
  match opcode with
  | "SBranch" => true
  | "SCbranchScc0" => !flags.scc
  | "SCbranchScc1" => flags.scc
  | "SCbranchVccz" => !flags.anyVcc
  | "SCbranchVccnz" => flags.anyVcc
  | "SCbranchExecz" => !flags.anyExec
  | "SCbranchExecnz" => flags.anyExec
  | _ => false

structure SourceRun (State : Type*) where
  position : Option UInt32
  state : State
  executed : List Gen5ShaderInstruction

def SourceRun.start (state : State) : SourceRun State := ⟨some 0, state, []⟩

def executeAt (instruction : Gen5ShaderInstruction) (run : SourceRun State) :
    SourceRun State :=
  if instruction.opcode = "SEndpgm" then { run with position := none }
  else if isBranch instruction.opcode then
    { run with
      position :=
        if takesBranch instruction.opcode (flags run.state) then
          tryGetBranchTargetPc instruction
        else some instruction.endPc }
  else
    { position := some instruction.endPc
      state := effect instruction run.state
      executed := run.executed ++ [instruction] }

/-- One instruction; a program counter without one ends the program. -/
def sourceStep (instructions : List Gen5ShaderInstruction) (run : SourceRun State) :
    SourceRun State :=
  match run.position with
  | none => run
  | some pc =>
      match instructions.find? (·.pc == pc) with
      | none => { run with position := none }
      | some instruction => executeAt effect flags instruction run

end Runs

end Gen5Shader
end SharpEmu
