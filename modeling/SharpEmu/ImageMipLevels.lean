import SharpEmu.LanePrograms

/-!
# Mip levels of image instructions

The level of an image instruction is taken to be a constant when the nearest
instruction before it whose only destination is the register of the level moves a
constant into it.  On a path that keeps to the stretch between the two, the register
holds the constant in each lane that executes.
-/

namespace SharpEmu.Gen5Lanes

open Gen5Shader

/-! ## The level in the source -/

namespace Gen5ImageControl

def getAddressRegister (image : Gen5ImageControl) (component : ℕ) : UInt32 :=
  image.addressRegisters.getD component (image.vectorAddress + .ofNat component)

end Gen5ImageControl

def movedConstant (instruction : Gen5OperandInstruction) : Option UInt32 :=
  match decide (instruction.opcode = "VMovB32"), instruction.sources with
  | true, [source] => tryResolveConstantOperand source
  | _, _ => none

def isOnlyDestination (register : UInt32) (instruction : Gen5OperandInstruction) :
    Bool :=
  instruction.destinations = [.vector register]

def tryResolveVectorConstantBefore (program : Gen5OperandProgram)
    (pc vectorRegister : UInt32) : Option UInt32 :=
  (nearestBefore (isOnlyDestination vectorRegister) (fun _ => false) pc
    program.instructions.reverse).bind movedConstant

def levelRegister (image : Gen5ImageControl) : UInt32 :=
  image.getAddressRegister (if image.a16 then 1 else 2)

def tryResolveImageMipLevel (program : Gen5OperandProgram) (pc : UInt32)
    (image : Gen5ImageControl) : Option UInt32 :=
  (tryResolveVectorConstantBefore program pc (levelRegister image)).map fun raw =>
    if image.a16 then raw &&& 0xFFFF else raw

/-! ## The level of the instruction -/

def coordinateCount (dimension : UInt32) : ℕ :=
  if dimension = 0 then 1
  else if dimension = 1 ∨ dimension = 4 ∨ dimension = 6 then 2
  else 3

def addressedLevel (image : Gen5ImageControl) (lane : Lane) : UInt32 :=
  let component := coordinateCount image.dimension
  if image.a16 then
    (lane.values (image.getAddressRegister (component / 2)) >>>
      (.ofNat (16 * (component % 2)))) &&& 0xFFFF
  else lane.values (image.getAddressRegister component)

structure ResolvesLevel (program : Gen5OperandProgram)
    (instruction move : Gen5OperandInstruction) (image : Gen5ImageControl)
    (raw : UInt32) : Prop where
  member : instruction ∈ program.instructions
  explicit : instruction.opcode = "ImageLoadMip" ∨ instruction.opcode = "ImageStoreMip"
  control : instruction.control = some (.image image)
  nearest : nearestBefore (isOnlyDestination (levelRegister image)) (fun _ => false)
    instruction.pc program.instructions.reverse = some move
  constant : movedConstant move = some raw

def LevelsMatch (program : Gen5OperandProgram) (path : LanePath) : Prop :=
  ∀ instruction ∈ program.instructions, ∀ image level,
    instruction.opcode = "ImageLoadMip" ∨ instruction.opcode = "ImageStoreMip" →
      instruction.control = some (.image image) →
        tryResolveImageMipLevel program instruction.pc image = some level →
          path.position = some instruction.pc → path.lane.exec →
            addressedLevel image path.lane = level

def levelWindow (instruction move : Gen5OperandInstruction) (image : Gen5ImageControl) : Window :=
  ⟨move.pc, instruction.pc, levelRegister image⟩

/-- The step keeps to the stretches between moves and image instructions, the moves
write whole registers, and the images have two coordinates. -/
def KeepsLevels (program : Gen5OperandProgram) (before : LanePath) (action : LaneAction) : Prop :=
  ∀ instruction move image raw, ResolvesLevel program instruction move image raw →
    (levelWindow instruction move image).IsKept before action ∧
      (before.position = some move.pc → ¬ move.keepsParts) ∧ coordinateCount image.dimension = 2

/-! ## Paths -/

variable {instruction : Gen5OperandInstruction} {image : Gen5ImageControl}

theorem resolves_of_tryResolve {program : Gen5OperandProgram} {level : UInt32}
    (member : instruction ∈ program.instructions)
    (explicit : instruction.opcode = "ImageLoadMip" ∨ instruction.opcode = "ImageStoreMip")
    (control : instruction.control = some (.image image))
    (isResolved : tryResolveImageMipLevel program instruction.pc image = some level) :
    ∃ move raw, ResolvesLevel program instruction move image raw ∧
      level = if image.a16 then raw &&& 0xFFFF else raw := by
  obtain ⟨raw, isRaw, isLevel⟩ := Option.map_eq_some_iff.mp isResolved
  obtain ⟨move, isNearest, isConstant⟩ := Option.bind_eq_some_iff.mp isRaw
  exact ⟨move, raw, ⟨member, explicit, control, isNearest, isConstant⟩, isLevel.symm⟩

variable {raw : UInt32}

theorem move_of_movedConstant (isConstant : movedConstant instruction = some raw) :
    instruction.opcode = "VMovB32" ∧ ∃ source, instruction.sources = [source] ∧
      tryResolveConstantOperand source = some raw := by
  unfold movedConstant at isConstant
  split at isConstant
  next isMove isSource =>
    exact ⟨of_decide_eq_true isMove, _, isSource, isConstant⟩
  · cases isConstant

theorem addressedLevel_of_two {lane : Lane} (isTwo : coordinateCount image.dimension = 2)
    (isHeld : lane.values (levelRegister image) = raw) :
    addressedLevel image lane = if image.a16 then raw &&& 0xFFFF else raw := by
  unfold levelRegister at isHeld
  unfold addressedLevel
  rw [isTwo]
  split
  next packed =>
    rw [if_pos packed] at isHeld
    dsimp only
    rw [isHeld]
    have unshifted : raw >>> UInt32.ofNat (16 * (2 % 2)) = raw := UInt32.shiftRight_zero
    rw [unshifted]
  next separate =>
    rw [if_neg separate] at isHeld
    exact isHeld

/-- On a path whose steps all keep to the stretches between moves and image
instructions, the level that was resolved is the one that each lane addresses. -/
theorem levels_match {program : Gen5OperandProgram}
    {stores : Gen5OperandInstruction → List UInt32} {path : LanePath}
    (reachable : Reachable IsStart
      (onlyWhen (KeepsLevels program) (takesStep program stores)) path) :
    LevelsMatch program path := by
  intro instruction member image level explicit control isResolved isPosition executes
  obtain ⟨move, raw, resolves, rfl⟩ :=
    resolves_of_tryResolve member explicit control isResolved
  obtain ⟨isMember, isOnly, isBefore, -⟩ :=
    Gen5OperandProgram.nearestBefore_spec resolves.nearest
  obtain ⟨isMove, source, isSource, isConstant⟩ :=
    move_of_movedConstant resolves.constant
  have inside : (levelWindow instruction move image).HoldsInside
      (fun lane => coordinateCount image.dimension = 2 ∧
        lane.values (levelRegister image) = raw) path := by
    refine Window.rule (fun before action keeps => (keeps _ _ _ _ resolves).1) ?_ ?_ reachable
    · rintro before action after ⟨current, isCurrent, isHere, -, effects, rfl⟩
        keeps isStart wasExecuting
      obtain ⟨-, whole, isTwo⟩ := keeps _ _ _ _ resolves
      obtain rfl : current = move :=
        program.eq_of_pc isCurrent isMember (Option.some.inj (isHere.symm.trans isStart))
      have isWrite := effects.moved wasExecuting isMove (whole isStart) _ _ _
        (of_decide_eq_true isOnly) isSource isConstant
      exact ⟨isTwo, (Lane.perform_whole _ _ _ isWrite).1⟩
    · rintro before action after ⟨current, -, isHere, -, -, rfl⟩
        keeps pc isPc contains below ⟨isTwo, isHeld⟩
      have unwritten := (keeps _ _ _ _ resolves).1.apart _ isPc
        ⟨le_of_lt contains.1, below⟩ (ne_of_gt contains.1)
      exact ⟨isTwo, (Lane.perform_other _ _ _ unwritten).1.trans isHeld⟩
  obtain ⟨isTwo, isHeld⟩ := inside _ isPosition ⟨isBefore, le_refl _⟩ executes
  exact addressedLevel_of_two isTwo isHeld

/-! ## Two programs -/

def moveInto2 (pc encoded : UInt32) : Gen5OperandInstruction :=
  { pc, encoding := .vop1, opcode := "VMovB32", words := [0x7E040200 + encoded]
    sources := [⟨.encodedConstant, encoded⟩], destinations := [.vector 2]
    control := none }

def twoDimensional : Gen5ImageControl := ⟨0, [0], 1, false⟩

def imageLoadMip (pc : UInt32) : Gen5OperandInstruction :=
  { pc, encoding := .mimg, opcode := "ImageLoadMip", words := [0xF0040108, 0x00000300]
    sources := [.vector 0, .scalar 0, .scalar 0], destinations := [.vector 3]
    control := some (.image twoDimensional) }

def moveAndLoad : Gen5OperandProgram where
  instructions := [moveInto2 0 133, imageLoadMip 4]
  sorted := by decide
  pack_destination := by
    intro instruction member isPack
    rcases mem_two.mp member with rfl | rfl <;> cases isPack

def moveFive : LaneAction := ⟨some 4, true, [⟨2, 5, true⟩]⟩

def movedFive : LanePath :=
  ⟨some 4, 1, idlePath.lane.perform 0 (moveInto2 0 133) moveFive⟩

theorem effects_moveFive :
    Effects storesListed (moveInto2 0 133) idlePath.lane moveFive.writes := by
  refine ⟨by decide, fun _ isPack => ?_,
    fun _ _ _ register source value isSingle isSource isConstant => ?_⟩
  · cases isPack
  · obtain rfl := congrArg Gen5Operand.value (List.cons.inj isSingle).1
    obtain rfl := (List.cons.inj isSource).1
    have isFive : tryResolveConstantOperand ⟨.encodedConstant, 133⟩ = some 5 := by
      decide +kernel
    obtain rfl := Option.some.inj (isFive.symm.trans isConstant)
    rfl

theorem keepsLevels_moveFive : KeepsLevels moveAndLoad idlePath moveFive := by
  intro instruction move image raw resolves
  obtain ⟨member, isOnly, -, -⟩ :=
    Gen5OperandProgram.nearestBefore_spec resolves.nearest
  have isFirst : move = moveInto2 0 133 := by
    rcases mem_two.mp member with rfl | rfl
    · rfl
    · cases resolves.constant
  have isLast : instruction = imageLoadMip 4 := by
    rcases mem_two.mp resolves.member with rfl | rfl
    · cases resolves.control
    · rfl
  subst isFirst isLast
  obtain rfl : twoDimensional = image := by
    injection resolves.control with sameControl
    injection sameControl
  refine ⟨⟨fun next isNext contains => ⟨0, rfl, le_refl _, (by decide : (0 : UInt32) < 4)⟩,
    fun _ _ _ _ => rfl, fun pc isPc _ behind => ?_⟩, fun _ parts => ?_, rfl⟩
  · exact absurd (Option.some.inj isPc).symm behind
  · rcases parts with parts | parts <;> cases parts

/-- A load right behind its move addresses the level that is moved. -/
theorem levels_match_at_load : LevelsMatch moveAndLoad movedFive ∧
      tryResolveImageMipLevel moveAndLoad 4 twoDimensional = some 5 :=
  ⟨levels_match (.next (.start isStart_idlePath)
    ⟨keepsLevels_moveFive, moveInto2 0 133, List.mem_cons_self, rfl, by decide +kernel,
      effects_moveFive, rfl⟩), by decide +kernel⟩

def moveBehindBranch : Gen5OperandProgram where
  instructions := [moveInto2 0 133, skipOneWord 4, moveInto2 8 128, imageLoadMip 12]
  sorted := by decide
  pack_destination := by
    intro instruction member isPack
    simp only [List.mem_cons, List.not_mem_nil, or_false] at member
    rcases member with rfl | rfl | rfl | rfl <;> cases isPack

def skipMove : LaneAction := ⟨some 12, true, []⟩

def skippedMove : LanePath :=
  ⟨some 12, 2, movedFive.lane.perform 1 (skipOneWord 4) skipMove⟩

theorem takesStep_skipMove :
    takesStep moveBehindBranch storesListed movedFive skipMove skippedMove :=
  ⟨skipOneWord 4, by decide, rfl, by decide +kernel, effects_nil rfl (by decide), rfl⟩

/-- On the path around the second move the register holds the first constant. -/
theorem level_of_skipped_move_resolved : ∃ program stores path,
      Reachable IsStart (takesStep program stores) path ∧ ¬ LevelsMatch program path := by
  refine ⟨moveBehindBranch, storesListed, skippedMove, ?_, fun levelsMatch => ?_⟩
  · have started : Reachable IsStart (takesStep moveBehindBranch storesListed)
        idlePath := .start isStart_idlePath
    have moved : Reachable IsStart (takesStep moveBehindBranch storesListed)
        movedFive :=
      started.next ⟨moveInto2 0 133, List.mem_cons_self, rfl, by decide +kernel,
        effects_moveFive, rfl⟩
    exact moved.next takesStep_skipMove
  · have isZero := levelsMatch (imageLoadMip 12) (by decide) twoDimensional 0
      (.inl rfl) rfl (by decide +kernel) rfl rfl
    revert isZero
    decide +kernel

end SharpEmu.Gen5Lanes
