import SharpEmu.Gen5BlockDispatcher

/-!
# The dispatcher runs the program

The basic blocks are the pieces of the program between its leaders.  A dispatcher
at a block and a program at the block's first instruction stay together: a turn
of the loop is a run through the block and over its last instruction.
-/

namespace SharpEmu
namespace Gen5Shader

open ListCuts

/-! ## Blocks as pieces of the program -/

def isLeader (program : List Gen5ShaderInstruction) (instruction : Gen5ShaderInstruction) : Bool :=
  decide (instruction.pc ∈ leaders program)

/-- The program cut in front of its leaders. -/
def groups (program : List Gen5ShaderInstruction) : List (List Gen5ShaderInstruction) :=
  pieces (isLeader program) program

def blocksOf : ℕ → List (List Gen5ShaderInstruction) → List ShaderBlock
  | _, [] => []
  | _, [] :: _ => []
  | index, (head :: tail) :: rest =>
      ⟨head.pc, index, index + (tail.length + 1)⟩ :: blocksOf (index + (tail.length + 1)) rest

section Sweeps

variable {words : GuestWords} {address : UInt64}
variable {program : List Gen5ShaderInstruction}

theorem groups_headed (swept : Swept words address 0 program) :
    ∀ group ∈ groups program, Headed (isLeader program) group := by
  obtain ⟨first, rest, rfl, _⟩ := swept.eq_cons
  apply pieces_headed
  exact decide_eq_true (Finset.mem_insert_self _ _)

theorem groups_nonempty (swept : Swept words address 0 program) :
    ∀ group ∈ groups program, group ≠ [] := by
  intro group member
  obtain ⟨head, tail, rfl, _⟩ := groups_headed swept group member
  exact List.cons_ne_nil _ _

theorem flatten_groups (program : List Gen5ShaderInstruction) :
    (groups program).flatten = program :=
  flatten_pieces _ program

theorem leader_of_target {branch : Gen5ShaderInstruction}
    {instructions : List Gen5ShaderInstruction} (member : branch ∈ instructions)
    (branches : isBranch branch.opcode = true) {target : UInt32}
    (hasTarget : tryGetBranchTargetPc branch = some target) :
    target ∈ leadersFrom instructions := by
  induction instructions with
  | nil => cases member
  | cons first rest ih =>
    unfold leadersFrom
    rw [List.mem_append, List.mem_append]
    rcases List.mem_cons.mp member with rfl | later
    · exact .inl (.inl (by simp [branches, hasTarget]))
    · exact .inr (ih later)

theorem leader_behind {before after : Gen5ShaderInstruction}
    {front rest : List Gen5ShaderInstruction}
    (ends : endsBlock before.opcode = true) :
    after.pc ∈ leadersFrom (front ++ before :: after :: rest) := by
  induction front with
  | nil =>
    rw [List.nil_append, leadersFrom, List.mem_append, List.mem_append]
    exact .inl (.inr (by simp [ends]))
  | cons first others ih =>
    rw [List.cons_append, leadersFrom, List.mem_append]
    exact .inr ih

theorem mem_leaders_of_leadersFrom {pc : UInt32}
    (member : pc ∈ leadersFrom program) : pc ∈ leaders program := by
  cases program with
  | nil => cases member
  | cons first rest =>
    exact Finset.mem_insert_of_mem (List.mem_toFinset.mpr member)

theorem plain_before_last {group front : List Gen5ShaderInstruction}
    {last : Gen5ShaderInstruction} (swept : Swept words address 0 program)
    (member : group ∈ groups program) (isGroup : group = front ++ [last]) :
    ∀ instruction ∈ front, endsBlock instruction.opcode = false := by
  intro instruction inFront
  by_contra ends
  rw [Bool.not_eq_false] at ends
  obtain ⟨before, behind, rfl⟩ := List.append_of_mem inFront
  obtain ⟨next, others, isRest⟩ : ∃ next others, behind ++ [last] = next :: others := by
    cases behind with
    | nil => exact ⟨last, [], rfl⟩
    | cons next others => exact ⟨next, others ++ [last], rfl⟩
  rw [List.append_assoc, List.cons_append, isRest] at isGroup
  obtain ⟨groupsBefore, groupsAfter, isSplit⟩ := List.append_of_mem member
  have isProgram : program = (groupsBefore.flatten ++ before) ++
      instruction :: next :: (others ++ groupsAfter.flatten) := by
    conv_lhs => rw [← flatten_groups program, isSplit]
    simp [isGroup]
  have isLead : next.pc ∈ leaders program := by
    apply mem_leaders_of_leadersFrom
    rw [isProgram]
    exact leader_behind ends
  obtain ⟨head, tail, isHeaded, _, unmarked⟩ := groups_headed swept group member
  have inTail : next ∈ tail := by
    rw [isGroup] at isHeaded
    cases before with
    | nil =>
      rw [List.nil_append, List.cons.injEq] at isHeaded
      rw [← isHeaded.2]
      exact List.mem_cons_self
    | cons first beforeRest =>
      rw [List.cons_append, List.cons.injEq] at isHeaded
      rw [← isHeaded.2]
      simp
  have notLead := unmarked next inTail
  rw [isLeader, decide_eq_false_iff_not] at notLead
  exact notLead isLead

/-! ## The blocks that the translator builds -/

theorem findIndex_eq {front rest : List Gen5ShaderInstruction} {instruction : Gen5ShaderInstruction}
    (sorted : (front ++ instruction :: rest).Pairwise
      fun before after => before.pc < after.pc) :
    findInstructionIndex (front ++ instruction :: rest) instruction.pc = some front.length := by
  unfold findInstructionIndex
  have noneBefore : front.findIdx? (·.pc == instruction.pc) = none := by
    rw [List.findIdx?_eq_none_iff]
    intro earlier member
    have below := (List.pairwise_append.mp sorted).2.2 earlier member instruction List.mem_cons_self
    simpa using ne_of_lt below
  rw [List.findIdx?_append, noneBefore, List.findIdx?_cons]
  simp

theorem blocksFrom_heads {front : List Gen5ShaderInstruction}
    {rest : List (List Gen5ShaderInstruction)}
    (nonempty : ∀ group ∈ rest, group ≠ [])
    (isProgram : program = front ++ rest.flatten)
    (sorted : program.Pairwise fun before after => before.pc < after.pc) :
    blocksFrom program ((rest.filterMap List.head?).map (·.pc)) = blocksOf front.length rest := by
  induction rest generalizing front with
  | nil => rfl
  | cons group rest ih =>
    cases group with
    | nil => exact absurd rfl (nonempty [] List.mem_cons_self)
    | cons head tail =>
      have nonemptyRest := (List.forall_mem_cons.mp nonempty).2
      have isStart : findInstructionIndex program head.pc = some front.length := by
        rw [isProgram] at sorted ⊢
        exact findIndex_eq sorted
      have restProgram : program = (front ++ head :: tail) ++ rest.flatten := by
        rw [isProgram]
        simp
      have isEnd : endIndexOf program ((rest.filterMap List.head?).map (·.pc)) =
            some (front.length + (tail.length + 1)) := by
        cases rest with
        | nil => simp [endIndexOf, isProgram]
        | cons next others =>
          cases next with
          | nil => exact absurd rfl (nonemptyRest [] List.mem_cons_self)
          | cons nextHead nextTail =>
            rw [restProgram, List.flatten_cons, List.cons_append] at sorted ⊢
            have found := findIndex_eq sorted
            rw [List.length_append, List.length_cons] at found
            exact found
      have recursive := ih nonemptyRest restProgram
      rw [List.length_append, List.length_cons] at recursive
      simp only [List.filterMap_cons, List.head?_cons, List.map_cons]
      rw [blocksFrom, isStart, isEnd]
      simp only
      rw [if_pos (by omega), recursive, blocksOf]

theorem starts_eq (swept : Swept words address 0 program) :
    ((leaders program).sort.filter fun pc => program.any (·.pc == pc)) =
      (program.filter (isLeader program)).map (·.pc) := by
  apply eq_of_strictly_sorted
  · exact (Finset.sortedLT_sort _).pairwise.sublist List.filter_sublist
  · rw [List.pairwise_map]
    exact swept.sorted.sublist List.filter_sublist
  · intro pc
    simp only [List.mem_filter, Finset.mem_sort, List.any_eq_true, beq_iff_eq,
      List.mem_map, isLeader, decide_eq_true_eq]
    constructor
    · rintro ⟨isLead, instruction, member, rfl⟩
      exact ⟨instruction, ⟨member, isLead⟩, rfl⟩
    · rintro ⟨instruction, ⟨member, isLead⟩, rfl⟩
      exact ⟨isLead, instruction, member, rfl⟩

theorem buildBasicBlocks_eq (swept : Swept words address 0 program) :
    buildBasicBlocks program = blocksOf 0 (groups program) := by
  have heads := filter_flatten (groups_headed swept)
  rw [flatten_groups] at heads
  have isProgram : program = [] ++ (groups program).flatten :=
    (flatten_groups program).symm
  rw [buildBasicBlocks, starts_eq swept, heads]
  exact blocksFrom_heads (groups_nonempty swept) isProgram swept.sorted

theorem blocksOf_getElem {front : List Gen5ShaderInstruction}
    {rest : List (List Gen5ShaderInstruction)}
    (nonempty : ∀ group ∈ rest, group ≠ [])
    (isProgram : program = front ++ rest.flatten) {index : ℕ} {block : ShaderBlock}
    (isBlock : (blocksOf front.length rest)[index]? = some block) :
    ∃ head tail, rest[index]? = some (head :: tail) ∧
      block.startPc = head.pc ∧ block.slice program = head :: tail ∧
      program[block.endIndex - 1]? = (head :: tail).getLast? := by
  induction rest generalizing front index with
  | nil => cases isBlock
  | cons group rest ih =>
    cases group with
    | nil => exact absurd rfl (nonempty [] List.mem_cons_self)
    | cons head tail =>
      cases index with
      | zero =>
        rw [blocksOf, List.getElem?_cons_zero, Option.some.injEq] at isBlock
        subst isBlock
        refine ⟨head, tail, rfl, rfl, ?_, ?_⟩
        · rw [ShaderBlock.slice, isProgram, List.drop_left,
            Nat.add_sub_cancel_left, List.flatten_cons]
          exact List.take_left' (by simp)
        · rw [isProgram, List.flatten_cons, List.getElem?_append_right (by simp only; omega),
            List.getLast?_eq_getElem?, List.getElem?_append_left
              (by simp only [List.length_cons]; omega)]
          congr 1
          simp only [List.length_cons]
          omega
      | succ index =>
        rw [blocksOf, List.getElem?_cons_succ] at isBlock
        have restProgram : program = (front ++ head :: tail) ++ rest.flatten := by
          rw [isProgram]
          simp
        have sameLength : (front ++ head :: tail).length =
            front.length + (tail.length + 1) := by simp
        rw [← sameLength] at isBlock
        rw [List.getElem?_cons_succ]
        exact ih (List.forall_mem_cons.mp nonempty).2 restProgram isBlock

theorem length_blocksOf {rest : List (List Gen5ShaderInstruction)}
    (nonempty : ∀ group ∈ rest, group ≠ []) (index : ℕ) :
    (blocksOf index rest).length = rest.length := by
  induction rest generalizing index with
  | nil => rfl
  | cons group rest ih =>
    cases group with
    | nil => exact absurd rfl (nonempty [] List.mem_cons_self)
    | cons head tail =>
      rw [blocksOf, List.length_cons, List.length_cons, ih (List.forall_mem_cons.mp nonempty).2]

/-! ## The emitted cases -/

theorem tryFindBlock_eq_some (swept : Swept words address 0 program) {pc : UInt32}
    {index : ℕ} (found : tryFindBlock (buildBasicBlocks program) pc = some index) :
    ∃ head tail, (groups program)[index]? = some (head :: tail) ∧ head.pc = pc := by
  have isProgram : program = [] ++ (groups program).flatten :=
    (flatten_groups program).symm
  rw [buildBasicBlocks_eq swept, tryFindBlock, List.findIdx?_eq_some_iff_getElem] at found
  obtain ⟨inRange, isPc, _⟩ := found
  obtain ⟨head, tail, isGroup, startPc, _⟩ := blocksOf_getElem
    (groups_nonempty swept) isProgram (List.getElem?_eq_getElem inRange)
  exact ⟨head, tail, isGroup, by rw [← startPc]; simpa using isPc⟩

theorem emitFrom_getElem {canEmit : Gen5ShaderInstruction → Bool}
    {blocks rest : List ShaderBlock} {first : ℕ} {emitted : List EmittedBlock}
    (emits : emitFrom canEmit program blocks first rest = .ok emitted) :
    emitted.length = rest.length ∧ ∀ index block, rest[index]? = some block →
        ∃ case, emitted[index]? = some case ∧
          tryEmitBlock canEmit program blocks (first + index) block = .ok case := by
  induction rest generalizing first emitted with
  | nil =>
    cases emits
    exact ⟨rfl, by simp⟩
  | cons block rest ih =>
    rw [emitFrom, except_bind_eq_ok] at emits
    obtain ⟨case, isCase, emits⟩ := emits
    obtain ⟨cases, areCases, emits⟩ := except_bind_eq_ok.mp emits
    cases emits
    obtain ⟨sameLength, each⟩ := ih areCases
    refine ⟨by simp [sameLength], ?_⟩
    rintro (_ | index) found isFound
    · rw [List.getElem?_cons_zero, Option.some.injEq] at isFound
      subst isFound
      exact ⟨case, rfl, isCase⟩
    · obtain ⟨later, isLater, emitsLater⟩ := each index found isFound
      refine ⟨later, isLater, ?_⟩
      rw [Nat.add_right_comm, Nat.add_assoc] at emitsLater
      exact emitsLater

theorem tryEmitBlock_eq_ok {canEmit : Gen5ShaderInstruction → Bool}
    {blocks : List ShaderBlock} {index : ℕ} {block : ShaderBlock}
    {case : EmittedBlock}
    (emits : tryEmitBlock canEmit program blocks index block = .ok case) :
    case.body = (block.slice program).filter (fun instruction =>
        !endsBlock instruction.opcode) ∧
      ∃ terminator, program[block.endIndex - 1]? = some terminator ∧
        emitExit program blocks index terminator = .ok case.exit := by
  unfold tryEmitBlock at emits
  simp only at emits
  split at emits
  · cases emits
  · split at emits
    · cases emits
    · rename_i terminator isTerminator
      obtain ⟨exit, isExit, emits⟩ := except_bind_eq_ok.mp emits
      cases emits
      exact ⟨rfl, terminator, isTerminator, isExit⟩

variable {canEmit : Gen5ShaderInstruction → Bool} {emitted : List EmittedBlock}

theorem case_of_group (swept : Swept words address 0 program)
    (translated : tryEmitDispatcher canEmit program = .ok emitted) {index : ℕ}
    {front : List Gen5ShaderInstruction} {last : Gen5ShaderInstruction}
    (isGroup : (groups program)[index]? = some (front ++ [last])) :
    ∃ case, emitted[index]? = some case ∧
      case.body = (front ++ [last]).filter (fun instruction =>
        !endsBlock instruction.opcode) ∧
      emitExit program (buildBasicBlocks program) index last = .ok case.exit := by
  unfold tryEmitDispatcher at translated
  simp only at translated
  split at translated
  · cases translated
  · obtain ⟨_, each⟩ := emitFrom_getElem translated
    have inRange : index < (buildBasicBlocks program).length := by
      rw [buildBasicBlocks_eq swept, length_blocksOf (groups_nonempty swept)]
      exact (List.getElem?_eq_some_iff.mp isGroup).1
    have isBlock := List.getElem?_eq_getElem inRange
    obtain ⟨case, isCase, emits⟩ := each index _ isBlock
    obtain ⟨isBody, terminator, isTerminator, isExit⟩ := tryEmitBlock_eq_ok emits
    have isProgram : program = [] ++ (groups program).flatten :=
      (flatten_groups program).symm
    simp only [buildBasicBlocks_eq swept] at isBlock
    obtain ⟨head, tail, sameGroup, _, isSlice, isLast⟩ := blocksOf_getElem
      (groups_nonempty swept) isProgram isBlock
    rw [isGroup, Option.some.injEq] at sameGroup
    simp only [buildBasicBlocks_eq swept] at isBody isTerminator isExit
    rw [isSlice, ← sameGroup] at isBody
    rw [isLast, ← sameGroup, List.getLast?_concat, Option.some.injEq] at isTerminator
    rw [buildBasicBlocks_eq swept]
    refine ⟨case, isCase, isBody, ?_⟩
    rw [isTerminator]
    simpa using isExit

/-! ## The program's own steps -/

section Steps

variable {State : Type*} {effect : Gen5ShaderInstruction → State → State}
variable {flags : State → BranchFlags}

theorem find_pc {front rest : List Gen5ShaderInstruction} {instruction : Gen5ShaderInstruction}
    (swept : Swept words address 0 program)
    (isProgram : program = front ++ instruction :: rest) :
    program.find? (·.pc == instruction.pc) = some instruction := by
  have sorted := swept.sorted
  rw [isProgram] at sorted ⊢
  have noneBefore : front.find? (·.pc == instruction.pc) = none := by
    rw [List.find?_eq_none]
    intro earlier member
    have below := (List.pairwise_append.mp sorted).2.2 earlier member instruction List.mem_cons_self
    simpa using ne_of_lt below
  rw [List.find?_append, noneBefore, Option.none_or]
  simp

theorem pc_behind {front rest : List Gen5ShaderInstruction} {before after : Gen5ShaderInstruction}
    (swept : Swept words address 0 program)
    (isProgram : program = front ++ before :: after :: rest) :
    after.pc = before.endPc := by
  have chain := swept.chain
  rw [isProgram, List.isChain_append] at chain
  exact (List.isChain_cons_cons.mp chain.2.1).1

theorem sourceStep_at {front rest : List Gen5ShaderInstruction}
    {instruction : Gen5ShaderInstruction} {run : SourceRun State}
    (swept : Swept words address 0 program)
    (isProgram : program = front ++ instruction :: rest)
    (isHere : run.position = some instruction.pc) :
    sourceStep effect flags program run =
      executeAt effect flags instruction run := by
  simp only [sourceStep, isHere, find_pc swept isProgram]

theorem executeAt_plain {instruction : Gen5ShaderInstruction}
    (plain : endsBlock instruction.opcode = false) (run : SourceRun State) :
    executeAt effect flags instruction run = ⟨some instruction.endPc, effect instruction run.state,
        run.executed ++ [instruction]⟩ := by
  rw [endsBlock, Bool.or_eq_false_iff, beq_eq_false_iff_ne] at plain
  rw [executeAt, if_neg plain.2, if_neg (by simp [plain.1])]

theorem source_runs_front {before front rest : List Gen5ShaderInstruction}
    {last : Gen5ShaderInstruction} (swept : Swept words address 0 program)
    (isProgram : program = before ++ (front ++ last :: rest))
    (plain : ∀ instruction ∈ front, endsBlock instruction.opcode = false)
    {run : SourceRun State}
    (isHere : run.position = ((front ++ [last]).head?).map (·.pc)) :
    (sourceStep effect flags program)^[front.length] run =
      ⟨some last.pc, front.foldl (fun state instruction =>
        effect instruction state) run.state, run.executed ++ front⟩ := by
  induction front generalizing before run with
  | nil =>
    rw [List.length_nil, Function.iterate_zero_apply]
    cases run
    simp only [List.nil_append, List.head?_cons, Option.map_some] at isHere
    simp [isHere]
  | cons first others ih =>
    rw [List.length_cons, Function.iterate_succ_apply, sourceStep_at swept isProgram isHere,
      executeAt_plain (plain first List.mem_cons_self)]
    have isNext : some first.endPc = ((others ++ [last]).head?).map (·.pc) := by
      cases others with
      | nil =>
        simp only [List.nil_append, List.head?_cons, Option.map_some]
        exact congrArg some (pc_behind swept isProgram).symm
      | cons next others =>
        simp only [List.cons_append, List.head?_cons, Option.map_some]
        exact congrArg some (pc_behind swept isProgram).symm
    have restProgram : program = (before ++ [first]) ++ (others ++ last :: rest) := by
      rw [isProgram]
      simp
    rw [ih restProgram (List.forall_mem_cons.mp plain).2 isNext]
    simp

end Steps

/-! ## Blocks against the program -/

theorem groups_length (swept : Swept words address 0 program) :
    (groups program).length < 2 ^ 30 := by
  have flatLength : ∀ rest : List (List Gen5ShaderInstruction),
      (∀ group ∈ rest, group ≠ []) → rest.length ≤ rest.flatten.length := by
    intro rest nonempty
    induction rest with
    | nil => exact Nat.le_refl 0
    | cons group rest ih =>
      have positive := List.length_pos_of_ne_nil (nonempty group List.mem_cons_self)
      have below := ih (List.forall_mem_cons.mp nonempty).2
      rw [List.flatten_cons, List.length_append, List.length_cons]
      omega
  have fewer := flatLength (groups program) (groups_nonempty swept)
  rw [flatten_groups] at fewer
  obtain ⟨last, _, bound, _⟩ := swept.bounded
  have small := last.endPc.toNat_lt
  omega

theorem group_in_program {index : ℕ} {group : List Gen5ShaderInstruction}
    (isGroup : (groups program)[index]? = some group) :
    ∃ before rest, program = before ++ (group ++ rest) ∧
      (∀ head tail, (groups program)[index + 1]? = some (head :: tail) →
        ∃ others, rest = head :: others) ∧
      ((groups program)[index + 1]? = none → rest = []) := by
  obtain ⟨inRange, isAt⟩ := List.getElem?_eq_some_iff.mp isGroup
  have isSplit : groups program = (groups program).take index ++
      group :: (groups program).drop (index + 1) := by
    rw [← isAt, List.getElem_cons_drop, List.take_append_drop]
  have isBehind : (groups program)[index + 1]? = ((groups program).drop (index + 1)).head? := by
    rw [List.head?_drop]
  have isProgram := congrArg List.flatten isSplit
  rw [flatten_groups, List.flatten_append, List.flatten_cons] at isProgram
  refine ⟨_, _, isProgram, ?_, ?_⟩
  · intro head tail isNext
    rw [isBehind, List.head?_eq_some_iff] at isNext
    obtain ⟨others, isDrop⟩ := isNext
    exact ⟨tail ++ others.flatten, by rw [isDrop]; rfl⟩
  · intro isNone
    rw [isBehind, List.head?_eq_none_iff] at isNone
    rw [isNone]
    rfl

theorem condition_holds {opcode : String} {condition : BranchCondition}
    (hasCondition : tryGetBranchCondition opcode = some condition)
    (values : BranchFlags) :
    condition.holds values = takesBranch opcode values := by
  unfold tryGetBranchCondition at hasCondition
  obtain ⟨scc, anyVcc, anyExec⟩ := values
  split_ifs at hasCondition with first second third fourth fifth sixth
  all_goals
    subst opcode
    cases hasCondition
    simp [BranchCondition.holds, takesBranch]

/-- A program counter of the dispatcher and a position of the program: a block and
its first instruction, or no block and an exit. -/
def AtPlace (program : List Gen5ShaderInstruction) (counter : UInt32)
    (position : Option UInt32) : Prop :=
  (∃ head tail, (groups program)[counter.toNat]? = some (head :: tail) ∧ position = some head.pc) ∨
  (counter = noBlock ∧ ∃ target, position = some target ∧ isExitBranchTarget program target = true)

/-- What a turn leaves: an inactive dispatcher and a program that has stopped, or
the two at one place. -/
def Placed (program : List Gen5ShaderInstruction) (active : Bool)
    (counter : UInt32) (position : Option UInt32) : Prop :=
  if active then AtPlace program counter position else position = none

theorem toNat_ofNat_index (swept : Swept words address 0 program) {index : ℕ}
    {group : List Gen5ShaderInstruction}
    (isGroup : (groups program)[index]? = some group) :
    (UInt32.ofNat index).toNat = index := by
  have inRange := (List.getElem?_eq_some_iff.mp isGroup).1
  have small := groups_length swept
  rw [UInt32.toNat_ofNat']
  exact Nat.mod_eq_of_lt (by omega)

theorem atPlace_of_group (swept : Swept words address 0 program) {index : ℕ}
    {head : Gen5ShaderInstruction} {tail : List Gen5ShaderInstruction}
    (isGroup : (groups program)[index]? = some (head :: tail)) :
    AtPlace program (.ofNat index) (some head.pc) := by
  left
  rw [toNat_ofNat_index swept isGroup]
  exact ⟨head, tail, isGroup, rfl⟩

theorem fallthrough_place (swept : Swept words address 0 program) {index : ℕ}
    {front : List Gen5ShaderInstruction} {last : Gen5ShaderInstruction}
    (isGroup : (groups program)[index]? = some (front ++ [last]))
    (isOther : last.opcode ≠ "SEndpgm") :
    fallthroughOf (buildBasicBlocks program).length index ≠ noBlock ∧
      AtPlace program (fallthroughOf (buildBasicBlocks program).length index)
        (some last.endPc) := by
  have isCount : (buildBasicBlocks program).length = (groups program).length := by
    rw [buildBasicBlocks_eq swept, length_blocksOf (groups_nonempty swept)]
  obtain ⟨before, rest, isProgram, behind, atEnd⟩ := group_in_program isGroup
  rw [List.append_assoc] at isProgram
  cases isNext : (groups program)[index + 1]? with
  | none =>
    obtain ⟨others, final, isFinal, isEndpgm, _⟩ := swept.eq_append
    rw [atEnd isNext, List.append_nil, ← List.append_assoc] at isProgram
    have sameLast := isProgram.symm.trans isFinal
    rw [List.append_inj_right' sameLast rfl |> List.singleton_inj.mp] at isOther
    exact absurd isEndpgm isOther
  | some next =>
    have inRange := (List.getElem?_eq_some_iff.mp isNext).1
    have isCounter : fallthroughOf (buildBasicBlocks program).length index =
        .ofNat (index + 1) := by
      rw [fallthroughOf, isCount, if_pos inRange]
    have nonempty := groups_nonempty swept next (List.mem_of_getElem? isNext)
    obtain ⟨head, tail, rfl⟩ := List.exists_cons_of_ne_nil nonempty
    obtain ⟨others, isRest⟩ := behind head tail isNext
    rw [isRest, List.singleton_append, ← List.append_assoc] at isProgram
    rw [isCounter, ← pc_behind swept isProgram]
    refine ⟨?_, atPlace_of_group swept isNext⟩
    intro isNoBlock
    have number := toNat_ofNat_index swept isNext
    have small := groups_length swept
    rw [isNoBlock] at number
    have top : noBlock.toNat = 2 ^ 32 - 1 := rfl
    omega

/-! ## One turn of the loop -/

section Turns

variable {State : Type*} {effect : Gen5ShaderInstruction → State → State}
variable {flags : State → BranchFlags}

theorem sourceStep_exit (swept : Swept words address 0 program) {target : UInt32}
    (isExit : isExitBranchTarget program target = true) {run : SourceRun State}
    (isHere : run.position = some target) :
    sourceStep effect flags program run = { run with position := none } := by
  have notFound : program.find? (·.pc == target) = none := by
    rw [List.find?_eq_none]
    intro instruction member
    simpa using swept.not_start_of_exit isExit instruction member
  simp only [sourceStep, isHere, notFound]

structure Reached (program : List Gen5ShaderInstruction)
    (run : DispatcherState State) (before after : SourceRun State) : Prop where
  state : after.state = before.state
  executed : after.executed = before.executed
  placed : Placed program run.programActive run.programCounter after.position

theorem branch_position {last : Gen5ShaderInstruction}
    (isOther : last.opcode ≠ "SEndpgm") (branches : isBranch last.opcode = true)
    (source : SourceRun State) :
    executeAt effect flags last source =
      { source with
        position :=
          if takesBranch last.opcode (flags source.state) then
            tryGetBranchTargetPc last
          else some last.endPc } := by
  rw [executeAt, if_neg isOther, if_pos branches]

theorem exit_reached (swept : Swept words address 0 program) {index : ℕ}
    {front : List Gen5ShaderInstruction} {last : Gen5ShaderInstruction}
    (isGroup : (groups program)[index]? = some (front ++ [last]))
    (ends : endsBlock last.opcode = true) {exit : BlockExit}
    (emits : emitExit program (buildBasicBlocks program) index last = .ok exit)
    {run : DispatcherState State} (active : run.programActive = true)
    {source : SourceRun State} (sameState : run.state = source.state) :
    ∃ count, Reached program (exit.apply flags run) source
      ((sourceStep effect flags program)^[count] (executeAt effect flags last source)) := by
  by_cases isEndpgm : last.opcode = "SEndpgm"
  · rw [emitExit, if_pos isEndpgm, Except.ok.injEq] at emits
    subst emits
    refine ⟨0, ?_⟩
    rw [Function.iterate_zero_apply, executeAt, if_pos isEndpgm]
    exact ⟨rfl, rfl, rfl⟩
  · have branches : isBranch last.opcode = true := by
      simpa [endsBlock, isEndpgm] using ends
    have stays : executeAt effect flags last source = _ :=
      branch_position isEndpgm branches source
    rw [emitExit, if_neg isEndpgm] at emits
    by_cases isJump : last.opcode = "SBranch"
    · rw [if_pos isJump] at emits
      have takes : takesBranch last.opcode (flags source.state) = true := by
        rw [isJump]
        rfl
      rw [if_pos takes] at stays
      cases hasTarget : tryGetBranchTargetPc last with
      | none =>
        rw [hasTarget] at emits
        cases emits
      | some target =>
        rw [hasTarget] at stays
        simp only [hasTarget] at emits
        cases isExit : isExitBranchTarget program target with
        | true =>
          rw [isExit, if_pos rfl, Except.ok.injEq] at emits
          subst emits
          refine ⟨1, ?_⟩
          rw [Function.iterate_one, stays, sourceStep_exit swept isExit rfl]
          exact ⟨rfl, rfl, rfl⟩
        | false =>
          rw [isExit, if_neg Bool.false_ne_true] at emits
          cases found : tryFindBlock (buildBasicBlocks program) target with
          | none =>
            rw [found] at emits
            cases emits
          | some block =>
            simp only [found, Except.ok.injEq] at emits
            subst emits
            obtain ⟨head, tail, isTarget, rfl⟩ :=
              tryFindBlock_eq_some swept found
            refine ⟨0, ?_⟩
            rw [Function.iterate_zero_apply, stays]
            refine ⟨rfl, rfl, ?_⟩
            simp only [BlockExit.apply, Placed, active, if_true]
            exact atPlace_of_group swept isTarget
    · have isConditional : startsWith last.opcode "SCbranch" = true := by
        simpa [isBranch, isJump] using branches
      rw [if_neg isJump, if_pos isConditional] at emits
      obtain ⟨_, fallsTo⟩ := fallthrough_place swept isGroup isEndpgm
      refine ⟨0, ?_⟩
      rw [Function.iterate_zero_apply, stays]
      split at emits
      · rename_i target condition hasTarget hasCondition
        have sameTest : condition.holds (flags run.state) =
            takesBranch last.opcode (flags source.state) := by
          rw [condition_holds hasCondition, sameState]
        rw [hasTarget]
        cases isExit : isExitBranchTarget program target with
        | true =>
          rw [isExit, if_pos rfl, Except.ok.injEq] at emits
          subst emits
          refine ⟨rfl, rfl, ?_⟩
          simp only [BlockExit.apply, Placed, active, if_true, sameTest]
          split
          · exact .inr ⟨rfl, target, rfl, isExit⟩
          · exact fallsTo
        | false =>
          rw [isExit, if_neg Bool.false_ne_true] at emits
          cases found : tryFindBlock (buildBasicBlocks program) target with
          | none =>
            rw [found] at emits
            cases emits
          | some block =>
            simp only [found, Except.ok.injEq] at emits
            subst emits
            obtain ⟨head, tail, isTarget, rfl⟩ :=
              tryFindBlock_eq_some swept found
            refine ⟨rfl, rfl, ?_⟩
            simp only [BlockExit.apply, Placed, active, if_true, sameTest]
            split
            · exact atPlace_of_group swept isTarget
            · exact fallsTo
      · cases emits

theorem exit_of_plain (swept : Swept words address 0 program) {index : ℕ}
    {front : List Gen5ShaderInstruction} {last : Gen5ShaderInstruction}
    (isGroup : (groups program)[index]? = some (front ++ [last]))
    (plain : endsBlock last.opcode = false) {exit : BlockExit}
    (emits : emitExit program (buildBasicBlocks program) index last = .ok exit)
    {run : DispatcherState State} (active : run.programActive = true) :
    Placed program (exit.apply flags run).programActive
      (exit.apply flags run).programCounter (some last.endPc) := by
  simp only [endsBlock, isBranch, Bool.or_eq_false_iff, beq_eq_false_iff_ne] at plain
  obtain ⟨isFall, fallsTo⟩ := fallthrough_place swept isGroup plain.2
  rw [emitExit, if_neg plain.2, if_neg plain.1.1,
    if_neg (by simp [plain.1.2]), if_neg isFall, Except.ok.injEq] at emits
  subst emits
  simp only [BlockExit.apply, Placed, active, if_true]
  exact fallsTo

end Turns

/-! ## Dispatcher and program together -/

section Together

variable {State : Type} {effect : Gen5ShaderInstruction → State → State}
variable {flags : State → BranchFlags}

structure Together (program : List Gen5ShaderInstruction)
    (run : DispatcherState State) (source : SourceRun State) : Prop where
  state : run.state = source.state
  executed : run.executed = source.executed
  looping : run.looping = run.programActive
  placed : Placed program run.programActive run.programCounter source.position

theorem Together.start (swept : Swept words address 0 program) (state : State) :
    Together program (.start state) (.start state) where
  state := rfl
  executed := rfl
  looping := rfl
  placed := by
    obtain ⟨first, rest, isProgram, isStart⟩ := swept.eq_cons
    have isFirst : first.pc = 0 := UInt32.toNat_inj.mp isStart
    have nonempty : groups program ≠ [] := by
      intro isEmpty
      have isFlat := flatten_groups program
      rw [isEmpty, isProgram] at isFlat
      cases isFlat
    obtain ⟨group, rest, areGroups⟩ := List.exists_cons_of_ne_nil nonempty
    have groupNonempty := groups_nonempty swept group (by simp [areGroups])
    obtain ⟨head, tail, rfl⟩ := List.exists_cons_of_ne_nil groupNonempty
    have isFlat := flatten_groups program
    rw [areGroups, isProgram, List.flatten_cons, List.cons_append, List.cons.injEq] at isFlat
    left
    exact ⟨head, tail, by rw [areGroups]; rfl, by rw [isFlat.1, isFirst]; rfl⟩

theorem emitted_length (swept : Swept words address 0 program)
    (translated : tryEmitDispatcher canEmit program = .ok emitted) :
    emitted.length = (groups program).length := by
  unfold tryEmitDispatcher at translated
  simp only at translated
  split at translated
  · cases translated
  · rw [(emitFrom_getElem translated).1, buildBasicBlocks_eq swept,
      length_blocksOf (groups_nonempty swept)]

theorem turn_unlimited {emitted : List EmittedBlock} {run : DispatcherState State}
    (isLooping : run.looping = true) :
    turn effect flags emitted 0 run =
      { runSwitch effect flags emitted run with
        looping := (runSwitch effect flags emitted run).programActive } := by
  rw [turn, if_pos isLooping]
  rfl

theorem Together.turn (swept : Swept words address 0 program)
    (translated : tryEmitDispatcher canEmit program = .ok emitted)
    {run : DispatcherState State} {source : SourceRun State}
    (together : Together program run source) (isLooping : run.looping = true) :
    ∃ count, 1 ≤ count ∧ Together program (turn effect flags emitted 0 run)
        ((sourceStep effect flags program)^[count] source) := by
  have active : run.programActive = true := by
    rw [← together.looping]
    exact isLooping
  have placed := together.placed
  rw [active] at placed
  rw [turn_unlimited isLooping]
  rcases placed with ⟨head, tail, isGroup, isHere⟩ | ⟨isNone, target, isHere, isExit⟩
  · obtain ⟨front, last, isConcat⟩ : ∃ front last, head :: tail = front ++ [last] :=
      ⟨_, _, (List.dropLast_append_getLast (List.cons_ne_nil head tail)).symm⟩
    have isHead : source.position = ((front ++ [last]).head?).map (·.pc) := by
      rw [← isConcat, isHere]
      rfl
    rw [isConcat] at isGroup
    have plainFront := plain_before_last swept (List.mem_of_getElem? isGroup) rfl
    obtain ⟨case, isCase, isBody, emits⟩ := case_of_group swept translated isGroup
    obtain ⟨before, rest, isProgram, _, _⟩ := group_in_program isGroup
    rw [List.append_assoc] at isProgram
    have throughFront : (sourceStep effect flags program)^[front.length] source =
        _ := source_runs_front swept isProgram plainFront isHead
    have keptFront : front.filter (fun instruction =>
        !endsBlock instruction.opcode) = front := by
      rw [List.filter_eq_self]
      intro instruction member
      simp [plainFront instruction member]
    have lastProgram : program = (before ++ front) ++ last :: rest := by
      rw [isProgram]
      simp
    have switched : runSwitch effect flags emitted run =
        case.exit.apply flags (runBody effect case.body run) := by
      simp only [runSwitch, isCase]
    rw [switched]
    cases ends : endsBlock last.opcode with
    | true =>
      have bodyFront : case.body = front := by
        rw [isBody, List.filter_append, keptFront]
        simp [ends]
      have leaves : ∃ count, Reached program (case.exit.apply flags (runBody effect case.body run))
          ⟨some last.pc, front.foldl (fun state instruction =>
            effect instruction state) source.state, source.executed ++ front⟩
          ((sourceStep effect flags program)^[count] (executeAt effect flags last
            ⟨some last.pc, front.foldl (fun state instruction =>
              effect instruction state) source.state,
              source.executed ++ front⟩)) := by
        have bodyActive : (runBody effect case.body run).programActive = true :=
          active
        apply exit_reached swept isGroup ends emits bodyActive
        rw [bodyFront, runBody, together.state]
      obtain ⟨count, reached⟩ := leaves
      refine ⟨count + (1 + front.length), by omega, ?_⟩
      rw [Function.iterate_add_apply, Function.iterate_add_apply, throughFront,
        Function.iterate_one, sourceStep_at swept lastProgram rfl]
      refine ⟨?_, ?_, rfl, reached.placed⟩
      · rw [reached.state]
        cases case.exit <;> simp [BlockExit.apply, runBody, bodyFront, together.state]
      · rw [reached.executed]
        cases case.exit <;>
          simp [BlockExit.apply, runBody, bodyFront, together.executed]
    | false =>
      have bodyAll : case.body = front ++ [last] := by
        rw [isBody, List.filter_append, keptFront]
        simp [ends]
      refine ⟨1 + front.length, by omega, ?_⟩
      rw [Function.iterate_add_apply, throughFront, Function.iterate_one,
        sourceStep_at swept lastProgram rfl, executeAt_plain ends]
      refine ⟨?_, ?_, rfl, exit_of_plain swept isGroup ends emits active⟩
      · cases case.exit <;>
          simp [BlockExit.apply, runBody, bodyAll, together.state]
      · cases case.exit <;>
          simp [BlockExit.apply, runBody, bodyAll, together.executed]
  · have noCase : emitted[run.programCounter.toNat]? = none := by
      rw [isNone, List.getElem?_eq_none_iff, emitted_length swept translated]
      have small := groups_length swept
      have top : noBlock.toNat = 2 ^ 32 - 1 := rfl
      omega
    refine ⟨1, Nat.le_refl 1, ?_⟩
    rw [Function.iterate_one, sourceStep_exit swept isExit isHere]
    simp only [runSwitch, noCase]
    exact ⟨together.state, together.executed, rfl, rfl⟩

theorem simulates (swept : Swept words address 0 program)
    (translated : tryEmitDispatcher canEmit program = .ok emitted) :
    RoundSimulation (Gen5Shader.turn effect flags emitted 0)
      (sourceStep effect flags program) (fun run => run.looping = false)
      (fun source => source.position = none) (Together program) where
  round_finished run ended := by
    rw [Gen5Shader.turn, if_neg (by simp [ended])]
  step_stopped source stopped := by
    simp only [sourceStep, stopped]
  end_together run source together := by
    have placed := together.placed
    rw [together.looping]
    cases active : run.programActive with
    | true =>
      rw [active] at placed
      refine iff_of_false (by simp) ?_
      rcases placed with ⟨_, _, _, isHere⟩ | ⟨_, _, isHere, _⟩
      · simp [isHere]
      · simp [isHere]
    | false =>
      rw [active] at placed
      exact iff_of_true rfl placed
  advances run source together going :=
    together.turn swept translated (by simpa using going)

end Together

/-! ## The step limit -/

section Limits

variable {State : Type} {effect : Gen5ShaderInstruction → State → State}
variable {flags : State → BranchFlags}

def BelowLimit (maxDispatcherSteps : UInt32) (rounds : ℕ) : Prop :=
  maxDispatcherSteps = 0 ∨ rounds < maxDispatcherSteps.toNat

def DispatcherState.withGuard (run : DispatcherState State) (guard : UInt32) :
    DispatcherState State :=
  { run with iterationGuard := guard }

theorem runSwitch_withGuard (run : DispatcherState State) (guard : UInt32) :
    runSwitch effect flags emitted (run.withGuard guard) =
      (runSwitch effect flags emitted run).withGuard guard := by
  unfold runSwitch DispatcherState.withGuard
  simp only
  split
  · rename_i block _
    cases block.exit <;> rfl
  · rfl

theorem turns_below_limit {maxDispatcherSteps : UInt32}
    (run : DispatcherState State) (startsAtZero : run.iterationGuard = 0)
    (rounds : ℕ) (below : BelowLimit maxDispatcherSteps rounds) :
    ∃ guard, (turn effect flags emitted maxDispatcherSteps)^[rounds] run =
        ((turn effect flags emitted 0)^[rounds] run).withGuard guard ∧
      (((turn effect flags emitted 0)^[rounds] run).looping = true →
        maxDispatcherSteps ≠ 0 → guard.toNat = rounds) := by
  induction rounds with
  | zero =>
    refine ⟨run.iterationGuard, rfl, ?_⟩
    intro _ _
    rw [startsAtZero]
    rfl
  | succ rounds ih =>
    obtain ⟨guard, same, counts⟩ := ih (below.imp_right fun fewer => by omega)
    rw [Function.iterate_succ_apply', Function.iterate_succ_apply', same]
    generalize (turn effect flags emitted 0)^[rounds] run = current at counts
    cases isLooping : current.looping with
    | false =>
      refine ⟨guard, ?_, ?_⟩
      · have stays : ∀ limit, turn effect flags emitted limit
            (current.withGuard guard) = current.withGuard guard := by
          intro limit
          rw [turn, if_neg (by simp [DispatcherState.withGuard, isLooping])]
        rw [stays, turn, if_neg (by simp [isLooping])]
      · intro looping
        rw [turn, if_neg (by simp [isLooping]), isLooping] at looping
        cases looping
    | true =>
      rw [turn_unlimited isLooping]
      have guardLooping : (current.withGuard guard).looping = true := isLooping
      rw [turn, if_pos guardLooping, runSwitch_withGuard]
      by_cases unlimited : maxDispatcherSteps = 0
      · refine ⟨guard, ?_, fun _ limited => absurd unlimited limited⟩
        simp only [if_pos unlimited]
        rfl
      · have number := counts isLooping unlimited
        have fewer := below.resolve_left unlimited
        have limitBound := maxDispatcherSteps.toNat_lt
        have next : (guard + 1).toNat = rounds + 1 := by
          rw [UInt32.toNat_add, number]
          exact Nat.mod_eq_of_lt (by
            have one : (1 : UInt32).toNat = 1 := rfl
            omega)
        have inLimit : guard + 1 < maxDispatcherSteps := by
          rw [UInt32.lt_iff_toNat_lt, next]
          exact fewer
        refine ⟨guard + 1, ?_, fun _ _ => next⟩
        simp only [if_neg unlimited, DispatcherState.withGuard, inLimit, decide_true, Bool.and_true]

end Limits

/-! ## The translated shader -/

theorem slices_eq_groups (swept : Swept words address 0 program) :
    (buildBasicBlocks program).map (·.slice program) = groups program := by
  have isProgram : program = [] ++ (groups program).flatten :=
    (flatten_groups program).symm
  have sameLength := length_blocksOf (groups_nonempty swept) 0
  rw [buildBasicBlocks_eq swept]
  apply List.ext_getElem?
  intro index
  rw [List.getElem?_map]
  cases isBlock : (blocksOf 0 (groups program))[index]? with
  | none =>
    rw [List.getElem?_eq_none_iff, sameLength] at isBlock
    rw [Option.map_none, List.getElem?_eq_none isBlock]
  | some block =>
    obtain ⟨head, tail, isGroup, _, isSlice, _⟩ :=
      blocksOf_getElem (groups_nonempty swept) isProgram isBlock
    rw [Option.map_some, isSlice, isGroup]

theorem target_of_emitExit {blocks : List ShaderBlock} {index : ℕ}
    {branch : Gen5ShaderInstruction} {exit : BlockExit}
    (branches : isBranch branch.opcode = true)
    (emits : emitExit program blocks index branch = .ok exit) :
    ∃ target, tryGetBranchTargetPc branch = some target ∧
      (isExitBranchTarget program target = true ∨
        ∃ block, tryFindBlock blocks target = some block) := by
  have isOther : branch.opcode ≠ "SEndpgm" := by
    intro isEndpgm
    rw [isEndpgm] at branches
    exact absurd branches (by decide)
  rw [emitExit, if_neg isOther] at emits
  by_cases isJump : branch.opcode = "SBranch"
  · rw [if_pos isJump] at emits
    split at emits
    · cases emits
    · rename_i target hasTarget
      refine ⟨target, hasTarget, ?_⟩
      split at emits
      · exact .inl ‹_›
      · split at emits
        · cases emits
        · exact .inr ⟨_, ‹_›⟩
  · have isConditional : startsWith branch.opcode "SCbranch" = true := by
      simpa [isBranch, isJump] using branches
    rw [if_neg isJump, if_pos isConditional] at emits
    split at emits
    · rename_i target condition hasTarget _
      refine ⟨target, hasTarget, ?_⟩
      split at emits
      · exact .inl ‹_›
      · split at emits
        · cases emits
        · exact .inr ⟨_, ‹_›⟩
    · cases emits

theorem target_of_translated (swept : Swept words address 0 program)
    (translated : tryEmitDispatcher canEmit program = .ok emitted)
    {branch : Gen5ShaderInstruction} (member : branch ∈ program)
    (branches : isBranch branch.opcode = true) :
    ∃ target, tryGetBranchTargetPc branch = some target ∧
      (IsStart program target ∨ isExitBranchTarget program target = true) := by
  rw [← flatten_groups program, List.mem_flatten] at member
  obtain ⟨group, inGroups, inGroup⟩ := member
  obtain ⟨front, last, rfl⟩ : ∃ front last, group = front ++ [last] :=
    ⟨_, _, (List.dropLast_append_getLast (groups_nonempty swept group inGroups)).symm⟩
  have plain := plain_before_last swept inGroups rfl
  have isLast : branch = last := by
    rcases List.mem_append.mp inGroup with inFront | isLast
    · have notBranch := plain branch inFront
      simp [endsBlock, branches] at notBranch
    · exact List.mem_singleton.mp isLast
  subst isLast
  obtain ⟨index, isGroup⟩ := List.getElem?_of_mem inGroups
  obtain ⟨case, _, _, emits⟩ := case_of_group swept translated isGroup
  obtain ⟨target, hasTarget, isExit | ⟨block, isFound⟩⟩ :=
    target_of_emitExit branches emits
  · exact ⟨target, hasTarget, .inr isExit⟩
  · obtain ⟨head, tail, isTarget, isPc⟩ := tryFindBlock_eq_some swept isFound
    refine ⟨target, hasTarget, .inl ⟨head, ?_, isPc⟩⟩
    rw [← flatten_groups program, List.mem_flatten]
    exact ⟨_, List.mem_of_getElem? isTarget, List.mem_cons_self⟩

theorem position_of_translated (swept : Swept words address 0 program)
    (translated : tryEmitDispatcher canEmit program = .ok emitted)
    {State : Type} (effect : Gen5ShaderInstruction → State → State)
    (flags : State → BranchFlags) (state : State) (steps : ℕ) :
    ∀ pc, ((sourceStep effect flags program)^[steps] (.start state)).position = some pc →
      IsStart program pc ∨ isExitBranchTarget program pc = true := by
  induction steps with
  | zero =>
    intro pc isHere
    obtain ⟨first, member, isFirst⟩ := swept.head
    rw [Function.iterate_zero_apply, SourceRun.start, Option.some.injEq] at isHere
    exact .inl ⟨first, member, by rw [← isHere]; exact UInt32.toNat_inj.mp isFirst⟩
  | succ steps ih =>
    intro pc isHere
    rw [Function.iterate_succ_apply'] at isHere
    generalize (sourceStep effect flags program)^[steps] (.start state) = run at ih isHere
    unfold sourceStep at isHere
    split at isHere
    · exact ih pc isHere
    · split at isHere
      · cases isHere
      · rename_i instruction isFound
        have member := List.mem_of_find?_eq_some isFound
        unfold executeAt at isHere
        split at isHere
        · cases isHere
        · rename_i isOther
          have follows : some instruction.endPc = some pc →
              IsStart program pc ∨ isExitBranchTarget program pc = true := by
            intro isEnd
            cases isEnd
            exact .inl (swept.next instruction member isOther)
          split at isHere
          · rename_i branches
            obtain ⟨target, hasTarget, lands⟩ :=
              target_of_translated swept translated member branches
            simp only at isHere
            split at isHere
            · rw [hasTarget, Option.some.injEq] at isHere
              rw [← isHere]
              exact lands
            · exact follows isHere
          · exact follows isHere

end Sweeps

def branchToEnd : List Gen5ShaderInstruction :=
  [⟨0, .sopp, "SCbranchScc0", [0xBF840001]⟩, ⟨4, .sopp, "SEndpgm", [0xBF810000]⟩]

def branchToEndBlocks : List EmittedBlock :=
  [⟨[], .select (.scc false) noBlock 1⟩, ⟨[], .deactivate⟩]

theorem branchToEnd_translates :
    tryEmitDispatcher (fun _ => true) branchToEnd = .ok branchToEndBlocks := by
  have swept : Swept outOfLineEnd 0x1000 0 branchToEnd := swept_of_accepted outOfLineEnd_decodes
  unfold tryEmitDispatcher
  rw [buildBasicBlocks_eq swept]
  rfl

end Gen5Shader
end SharpEmu
