import SharpEmu.Gen5ShaderPrograms
import SharpEmu.TransitionRuns

/-!
# Programs in one lane

Decoded instructions with their operands, and what one lane of a wave does along a
path through a program: which registers it writes, and when it executes.  A window of
a program is what lies between a write of a register and a later use of it; a rule
says what holds at the use, when paths keep to the window.
-/

namespace SharpEmu.Gen5Lanes

open Gen5Shader

/-! ## Instructions with operands -/

inductive Gen5OperandKind where
  | scalarRegister | vectorRegister | encodedConstant | literalConstant
deriving DecidableEq

structure Gen5Operand where
  kind : Gen5OperandKind
  value : UInt32
deriving DecidableEq

namespace Gen5Operand

def vector (index : UInt32) : Gen5Operand := ⟨.vectorRegister, index⟩

def scalar (index : UInt32) : Gen5Operand := ⟨.scalarRegister, index⟩

end Gen5Operand

structure Gen5ImageControl where
  vectorAddress : UInt32
  addressRegisters : List UInt32
  dimension : UInt32
  a16 : Bool
deriving DecidableEq

inductive Gen5InstructionControl where
  | image (control : Gen5ImageControl)
  | export (compressed : Bool)
  | vop3 | sdwa | dpp | dpp8 | other
deriving DecidableEq

structure Gen5OperandInstruction extends Gen5ShaderInstruction where
  sources : List Gen5Operand
  destinations : List Gen5Operand
  control : Option Gen5InstructionControl
deriving DecidableEq

namespace Gen5OperandInstruction

def listsDestination (instruction : Gen5OperandInstruction) (register : UInt32) :
    Bool :=
  instruction.destinations.any fun destination =>
    destination.kind = .vectorRegister && destination.value = register

def isPack (instruction : Gen5OperandInstruction) : Bool :=
  instruction.opcode = "VCvtPkrtzF16F32"

def keepsParts (instruction : Gen5OperandInstruction) : Prop :=
  instruction.control = some .sdwa ∨ instruction.control = some .dpp

def successors (instruction : Gen5OperandInstruction) : List (Option UInt32) :=
  if instruction.opcode = "SEndpgm" then [none]
  else if instruction.opcode = "SBranch" then
    [tryGetBranchTargetPc instruction.toGen5ShaderInstruction]
  else if isBranch instruction.opcode then
    [tryGetBranchTargetPc instruction.toGen5ShaderInstruction, some instruction.endPc]
  else [some instruction.endPc]

end Gen5OperandInstruction

/-- A program as it is decoded: the instructions are in order, and a pack has one
destination. -/
structure Gen5OperandProgram where
  instructions : List Gen5OperandInstruction
  sorted : instructions.Pairwise (·.pc < ·.pc)
  pack_destination : ∀ instruction ∈ instructions, instruction.isPack →
    ∃ register, instruction.destinations = [.vector register]

/-! ## One lane along a path -/

structure LaneWrite where
  register : UInt32
  value : UInt32
  whole : Bool

structure LastWrite where
  step : ℕ
  whole : Bool
deriving DecidableEq

/-- What one lane holds.  Beside each register stands the pair that was remembered
for it last, by the step that stored it. -/
structure Lane where
  exec : Bool
  values : UInt32 → UInt32
  lastWrite : UInt32 → Option LastWrite
  pairs : UInt32 → Option ℕ

/-- A position in a program, what the lane holds there and the number of steps. -/
structure LanePath where
  position : Option UInt32
  step : ℕ
  lane : Lane

structure LaneAction where
  next : Option UInt32
  execAfter : Bool
  writes : List LaneWrite

def IsStart (path : LanePath) : Prop :=
  path.position = some 0 ∧ (∀ register, path.lane.lastWrite register = none) ∧
    ∀ register, path.lane.pairs register = none

namespace Lane

def write (lane : Lane) (step : ℕ) (write : LaneWrite) : Lane :=
  { lane with
    values := Function.update lane.values write.register write.value
    lastWrite :=
      Function.update lane.lastWrite write.register (some ⟨step, write.whole⟩) }

def storePackedHalf (lane : Lane) (step : ℕ) (instruction : Gen5OperandInstruction) : Lane :=
  match instruction.isPack && lane.exec, instruction.destinations with
  | true, destination :: _ =>
      { lane with
        pairs := Function.update lane.pairs destination.value (some step) }
  | _, _ => lane

def perform (lane : Lane) (step : ℕ) (instruction : Gen5OperandInstruction)
    (action : LaneAction) : Lane :=
  let stored := lane.storePackedHalf step instruction
  { action.writes.foldl (fun lane write => lane.write step write) stored with
    exec := action.execAfter }

end Lane

/-! ## Constants -/

def tryDecodeInlineConstant (encoded : UInt32) : Option UInt32 :=
  if encoded = 125 then some 0
  else if 128 ≤ encoded ∧ encoded ≤ 192 then some (encoded - 128)
  else if 193 ≤ encoded ∧ encoded ≤ 208 then some (0 - (encoded - 192))
  else if encoded = 240 then some 0x3F000000
  else if encoded = 241 then some 0xBF000000
  else if encoded = 242 then some 0x3F800000
  else if encoded = 243 then some 0xBF800000
  else if encoded = 244 then some 0x40000000
  else if encoded = 245 then some 0xC0000000
  else if encoded = 246 then some 0x40800000
  else if encoded = 247 then some 0xC0800000
  else if encoded = 248 then some 0x3E22F983
  else none

def tryResolveConstantOperand (operand : Gen5Operand) : Option UInt32 :=
  match operand.kind with
  | .literalConstant => some operand.value
  | .encodedConstant => tryDecodeInlineConstant operand.value
  | _ => none

/-! ## Paths -/

/-- What an instruction can write in the lane: registers that its code stores, and
the whole destination of a pack or of a move of a constant. -/
structure Effects (stores : Gen5OperandInstruction → List UInt32)
    (instruction : Gen5OperandInstruction) (lane : Lane)
    (writes : List LaneWrite) : Prop where
  stored : ∀ write ∈ writes, write.register ∈ stores instruction
  packed : lane.exec → instruction.isPack → ¬ instruction.keepsParts →
    ∀ register, instruction.destinations = [.vector register] →
      ∃ value, writes = [⟨register, value, true⟩]
  moved : lane.exec → instruction.opcode = "VMovB32" → ¬ instruction.keepsParts →
    ∀ register source value, instruction.destinations = [.vector register] →
      instruction.sources = [source] →
        tryResolveConstantOperand source = some value →
          writes = [⟨register, value, true⟩]

section Paths

variable (program : Gen5OperandProgram)
variable (stores : Gen5OperandInstruction → List UInt32)

def takesStep (before : LanePath) (action : LaneAction) (after : LanePath) : Prop :=
  ∃ instruction ∈ program.instructions, before.position = some instruction.pc ∧
      action.next ∈ instruction.successors ∧ Effects stores instruction before.lane action.writes ∧
          after = ⟨action.next, before.step + 1, before.lane.perform before.step instruction action⟩

end Paths

/-! ## Windows -/

/-- A write of a register and a later use of it. -/
structure Window where
  start : UInt32
  stop : UInt32
  register : UInt32

namespace Window

variable (window : Window)

/-- Behind the write, up to the use. -/
def Contains (pc : UInt32) : Prop := window.start < pc ∧ pc ≤ window.stop

/-- From the write on, up to what stands before the use. -/
def Spans (pc : UInt32) : Prop := window.start ≤ pc ∧ pc < window.stop

/-- A step keeps to the window: it enters the window only through the write, the lane
does not begin to execute on the way, and nothing between the two writes the
register. -/
structure IsKept (before : LanePath) (action : LaneAction) : Prop where
  entered : ∀ next, action.next = some next → window.Contains next →
    ∃ pc, before.position = some pc ∧ window.Spans pc
  executing : ∀ pc, before.position = some pc → window.Spans pc →
    action.execAfter → before.lane.exec
  apart : ∀ pc, before.position = some pc → window.Spans pc →
    pc ≠ window.start → ∀ write ∈ action.writes, write.register ≠ window.register

def HoldsInside (property : Lane → Prop) (path : LanePath) : Prop :=
  ∀ pc, path.position = some pc → window.Contains pc → path.lane.exec → property path.lane

variable {window}

theorem rule {program : Gen5OperandProgram} {stores : Gen5OperandInstruction → List UInt32}
    {condition : LanePath → LaneAction → Prop} {property : Lane → Prop}
    {path : LanePath}
    (kept : ∀ before action, condition before action → window.IsKept before action)
    (established : ∀ before action after, takesStep program stores before action after →
      condition before action → before.position = some window.start →
        before.lane.exec → property after.lane)
    (preserved : ∀ before action after, takesStep program stores before action after →
      condition before action → ∀ pc, before.position = some pc →
        window.Contains pc → pc < window.stop → property before.lane → property after.lane)
    (reachable : Reachable IsStart (onlyWhen condition (takesStep program stores)) path) :
    window.HoldsInside property path := by
  apply reachable.invariant_onlyWhen
  · rintro start ⟨isZero, -⟩ pc isPosition inside
    obtain rfl := Option.some.inj (isZero.symm.trans isPosition)
    exact absurd inside.1 (UInt32.not_lt_zero)
  · intro before action after holds meets taken next isNext inside executes
    have isStep := taken
    obtain ⟨instruction, -, isPosition, -, -, rfl⟩ := taken
    obtain ⟨pc, isPc, spans⟩ := (kept _ _ meets).entered next isNext inside
    have wasExecuting := (kept _ _ meets).executing pc isPc spans executes
    rcases eq_or_ne pc window.start with isStart | behind
    · exact established _ _ _ isStep meets (isPc.trans (congrArg some isStart)) wasExecuting
    · have contains : window.Contains pc :=
        ⟨lt_of_le_of_ne spans.1 behind.symm, le_of_lt spans.2⟩
      exact preserved _ _ _ isStep meets pc isPc contains spans.2
        (holds pc isPc contains wasExecuting)

end Window

variable {first second : Gen5OperandInstruction}

theorem Gen5OperandProgram.eq_of_pc {program : Gen5OperandProgram}
    (isFirst : first ∈ program.instructions)
    (isSecond : second ∈ program.instructions) (samePc : first.pc = second.pc) :
    first = second := by
  have sorted := program.sorted
  generalize program.instructions = instructions at *
  induction instructions with
  | nil => cases isFirst
  | cons head rest ih =>
    rw [List.pairwise_cons] at sorted
    rcases List.mem_cons.mp isFirst with rfl | firstInRest <;>
      rcases List.mem_cons.mp isSecond with rfl | secondInRest
    · rfl
    · exact absurd samePc (ne_of_lt (sorted.1 _ secondInRest))
    · exact absurd samePc.symm (ne_of_lt (sorted.1 _ firstInRest))
    · exact ih firstInRest secondInRest sorted.2

/-! ## The nearest writer -/

/-- The last instruction before a position that is a writer; the search ends without
one at an instruction that is too far away. -/
def nearestBefore (isWriter isFar : Gen5OperandInstruction → Bool) (pc : UInt32) :
    List Gen5OperandInstruction → Option Gen5OperandInstruction
  | [] => none
  | candidate :: rest =>
      if pc ≤ candidate.pc then nearestBefore isWriter isFar pc rest
      else if isFar candidate then none
      else if isWriter candidate then some candidate
      else nearestBefore isWriter isFar pc rest

variable {isWriter isFar : Gen5OperandInstruction → Bool} {pc : UInt32}
  {writer : Gen5OperandInstruction}

theorem nearestBefore_spec {instructions : List Gen5OperandInstruction}
    (sorted : instructions.Pairwise (fun later earlier => earlier.pc < later.pc))
    (isNearest : nearestBefore isWriter isFar pc instructions = some writer) :
    writer ∈ instructions ∧ isWriter writer ∧ writer.pc < pc ∧
      ∀ other ∈ instructions, writer.pc < other.pc → other.pc < pc → isWriter other = false := by
  induction instructions with
  | nil => cases isNearest
  | cons candidate rest ih =>
    rw [List.pairwise_cons] at sorted
    rw [nearestBefore] at isNearest
    split at isNearest
    next behind =>
      obtain ⟨member, writes, before, others⟩ :=
        ih sorted.2 isNearest
      refine ⟨List.mem_cons_of_mem _ member, writes, before, ?_⟩
      rintro other isOther above below
      rcases List.mem_cons.mp isOther with rfl | inRest
      · exact absurd below (not_lt_of_ge behind)
      · exact others other inRest above below
    next ahead =>
      split at isNearest
      · cases isNearest
      split at isNearest
      next writes =>
        obtain rfl := Option.some.inj isNearest
        refine ⟨List.mem_cons_self, writes, lt_of_not_ge ahead, ?_⟩
        rintro other isOther above -
        rcases List.mem_cons.mp isOther with rfl | inRest
        · exact absurd above (lt_irrefl _)
        · exact absurd above (not_lt_of_gt (sorted.1 other inRest))
      next silent =>
        obtain ⟨member, writes, before, others⟩ :=
          ih sorted.2 isNearest
        refine ⟨List.mem_cons_of_mem _ member, writes, before, ?_⟩
        rintro other isOther above below
        rcases List.mem_cons.mp isOther with rfl | inRest
        · exact Bool.eq_false_iff.mpr silent
        · exact others other inRest above below

theorem Gen5OperandProgram.nearestBefore_spec {program : Gen5OperandProgram}
    (isNearest : nearestBefore isWriter isFar pc program.instructions.reverse = some writer) :
    writer ∈ program.instructions ∧ isWriter writer ∧ writer.pc < pc ∧
      ∀ other ∈ program.instructions, writer.pc < other.pc → other.pc < pc →
        isWriter other = false := by
  have sorted := List.pairwise_reverse.mpr program.sorted
  have found := Gen5Lanes.nearestBefore_spec sorted isNearest
  simp only [List.mem_reverse] at found
  exact found

/-! ## Registers that are not written -/

variable {register : UInt32}

theorem Lane.write_other (lane : Lane) (step : ℕ) {write : LaneWrite}
    (other : write.register ≠ register) :
    (lane.write step write).values register = lane.values register ∧
      (lane.write step write).lastWrite register = lane.lastWrite register :=
  ⟨Function.update_of_ne other.symm _ _, Function.update_of_ne other.symm _ _⟩

theorem Lane.writes_other (lane : Lane) (step : ℕ) {writes : List LaneWrite}
    (others : ∀ write ∈ writes, write.register ≠ register) :
    let after := writes.foldl (fun lane write => lane.write step write) lane
    after.values register = lane.values register ∧
      after.lastWrite register = lane.lastWrite register := by
  induction writes generalizing lane with
  | nil => exact ⟨rfl, rfl⟩
  | cons write rest ih =>
    rw [List.forall_mem_cons] at others
    obtain ⟨sameValue, sameWrite⟩ :=
      ih (lane.write step write) others.2
    obtain ⟨firstValue, firstWrite⟩ := lane.write_other step others.1
    exact ⟨sameValue.trans firstValue, sameWrite.trans firstWrite⟩

theorem Lane.writes_pairs (lane : Lane) (step : ℕ) (writes : List LaneWrite) :
    (writes.foldl (fun lane write => lane.write step write) lane).pairs =
      lane.pairs := by
  induction writes generalizing lane with
  | nil => rfl
  | cons write rest ih =>
    exact ih (lane.write step write)

theorem Lane.storePackedHalf_values (lane : Lane) (step : ℕ)
    (instruction : Gen5OperandInstruction) :
    (lane.storePackedHalf step instruction).values = lane.values ∧
      (lane.storePackedHalf step instruction).lastWrite = lane.lastWrite := by
  unfold storePackedHalf
  split <;> exact ⟨rfl, rfl⟩

variable {action : LaneAction}

theorem Lane.perform_other (lane : Lane) (step : ℕ) (instruction : Gen5OperandInstruction)
    (others : ∀ write ∈ action.writes, write.register ≠ register) :
    (lane.perform step instruction action).values register = lane.values register ∧
      (lane.perform step instruction action).lastWrite register = lane.lastWrite register := by
  obtain ⟨sameValue, sameWrite⟩ :=
    (lane.storePackedHalf step instruction).writes_other step others
  obtain ⟨storedValues, storedWrites⟩ := lane.storePackedHalf_values step instruction
  exact ⟨sameValue.trans (congrFun storedValues register),
    sameWrite.trans (congrFun storedWrites register)⟩

theorem Lane.perform_pairs (lane : Lane) (step : ℕ)
    (instruction : Gen5OperandInstruction) (action : LaneAction) :
    (lane.perform step instruction action).pairs = (lane.storePackedHalf step instruction).pairs :=
  writes_pairs _ _ _

theorem Lane.perform_whole (lane : Lane) (step : ℕ) (instruction : Gen5OperandInstruction)
    {value : UInt32} (isWrite : action.writes = [⟨register, value, true⟩]) :
    (lane.perform step instruction action).values register = value ∧
      (lane.perform step instruction action).lastWrite register = some ⟨step, true⟩ := by
  unfold perform
  rw [isWrite]
  exact ⟨Function.update_self _ _ _, Function.update_self _ _ _⟩

/-! ## Small programs -/

def skipOneWord (pc : UInt32) : Gen5OperandInstruction :=
  { pc, encoding := .sopp, opcode := "SCbranchScc0", words := [0xBF840001]
    sources := [], destinations := [], control := none }

def storesListed (instruction : Gen5OperandInstruction) : List UInt32 :=
  instruction.destinations.map (·.value)

variable {instruction : Gen5OperandInstruction}

theorem mem_two : instruction ∈ [first, second] ↔ instruction = first ∨ instruction = second := by
  simp

/-- A lane that executes and has written nothing, at the start. -/
def idlePath : LanePath := ⟨some 0, 0, ⟨true, fun _ => 0, fun _ => none, fun _ => none⟩⟩

theorem isStart_idlePath : IsStart idlePath := ⟨rfl, fun _ => rfl, fun _ => rfl⟩

theorem effects_nil {stores : Gen5OperandInstruction → List UInt32} {lane : Lane}
    (packs : instruction.isPack = false) (moves : instruction.opcode ≠ "VMovB32") :
    Effects stores instruction lane [] := by
  refine ⟨fun _ member => ?_, fun _ isPack => ?_, fun _ isMove => ?_⟩
  · cases member
  · exact absurd isPack (Bool.eq_false_iff.mp packs)
  · exact absurd isMove moves

end SharpEmu.Gen5Lanes
