import SharpEmu.LanePrograms

/-!
# Packed exports

A compressed export takes the pair of numbers that is remembered beside a register,
when the nearest instruction before it that lists the register packs a pair into it.
On a path that keeps to the stretch between the two, the register still holds the
pair that is taken.
-/

namespace SharpEmu.Gen5Lanes

open Gen5Shader

/-! ## Taken pairs -/

def packedSource (exportInstruction : Gen5OperandInstruction) (component : ℕ) :
    Option UInt32 :=
  match exportInstruction.sources[component / 2]? with
  | some ⟨.vectorRegister, register⟩ => some register
  | _ => none

/-- The register whose pair is taken, with the instruction that is found to pack it;
without one the register itself is unpacked. -/
def tryLoadPackedHalfExportComponent (program : Gen5OperandProgram)
    (exportInstruction : Gen5OperandInstruction) (component : ℕ) :
    Option (UInt32 × Gen5OperandInstruction) :=
  (packedSource exportInstruction component).bind fun register =>
    ((nearestBefore (·.listsDestination register)
      (fun candidate => 128 < exportInstruction.pc - candidate.pc)
      exportInstruction.pc program.instructions.reverse).filter fun candidate =>
        candidate.isPack && 2 ≤ candidate.sources.length).map fun candidate =>
          (register, candidate)

def IsCompressedExport (instruction : Gen5OperandInstruction) : Prop :=
  instruction.control = some (.export true)

structure TakesPair (program : Gen5OperandProgram)
    (exportInstruction pack : Gen5OperandInstruction) (register : UInt32) : Prop where
  member : exportInstruction ∈ program.instructions
  compressed : IsCompressedExport exportInstruction
  taken : ∃ component < 4,
    tryLoadPackedHalfExportComponent program exportInstruction component =
      some (register, pack)

def HoldsPair (register : UInt32) (lane : Lane) : Prop :=
  ∃ step, lane.lastWrite register = some ⟨step, true⟩ ∧ lane.pairs register = some step

def PairsMatch (program : Gen5OperandProgram) (path : LanePath) : Prop :=
  ∀ exportInstruction pack register, TakesPair program exportInstruction pack register →
      path.position = some exportInstruction.pc → path.lane.exec → HoldsPair register path.lane

def pairWindow (exportInstruction pack : Gen5OperandInstruction) (register : UInt32) : Window :=
  ⟨pack.pc, exportInstruction.pc, register⟩

/-- The step keeps to the stretches between packs and exports, and the packs write
their whole destinations. -/
def KeepsPairs (program : Gen5OperandProgram) (before : LanePath) (action : LaneAction) : Prop :=
  ∀ exportInstruction pack register, TakesPair program exportInstruction pack register →
      (pairWindow exportInstruction pack register).IsKept before action ∧
        (before.position = some pack.pc → ¬ pack.keepsParts)

/-! ## What the search finds -/

variable {instruction : Gen5OperandInstruction} {register : UInt32}

theorem eq_of_listsDestination
    {other : UInt32} (isSingle : instruction.destinations = [.vector other]) :
    instruction.listsDestination register ↔ other = register := by
  unfold Gen5OperandInstruction.listsDestination
  rw [isSingle]
  simp [Gen5Operand.vector]

variable {program : Gen5OperandProgram}

theorem TakesPair.spec {exportInstruction pack : Gen5OperandInstruction}
    (takes : TakesPair program exportInstruction pack register) :
    pack ∈ program.instructions ∧ pack.isPack ∧
      pack.destinations = [.vector register] ∧ pack.pc < exportInstruction.pc ∧
        ∀ other ∈ program.instructions, pack.pc < other.pc → other.pc < exportInstruction.pc →
            other.listsDestination register = false := by
  obtain ⟨component, -, isTaken⟩ := takes.taken
  obtain ⟨source, -, isFound⟩ := Option.bind_eq_some_iff.mp isTaken
  obtain ⟨candidate, isFiltered, isPair⟩ := Option.map_eq_some_iff.mp isFound
  obtain ⟨isNearest, isChosen⟩ := Option.filter_eq_some_iff.mp isFiltered
  obtain ⟨rfl, rfl⟩ := Prod.mk.inj isPair
  obtain ⟨member, lists, before, others⟩ :=
    Gen5OperandProgram.nearestBefore_spec isNearest
  have isPack := (Bool.and_eq_true _ _ ▸ isChosen).1
  obtain ⟨destination, isSingle⟩ := program.pack_destination _ member isPack
  obtain rfl := (eq_of_listsDestination isSingle).mp lists
  exact ⟨member, isPack, isSingle, before, others⟩

/-! ## Paths -/

theorem storePackedHalf_other {lane : Lane} {step : ℕ} (member : instruction ∈ program.instructions)
    (unlisted : instruction.listsDestination register = false) :
    (lane.storePackedHalf step instruction).pairs register = lane.pairs register := by
  unfold Lane.storePackedHalf
  split
  next packs isDestination =>
    rw [Bool.and_eq_true] at packs
    obtain ⟨other, isSingle⟩ := program.pack_destination _ member packs.1
    obtain rfl := (List.cons.inj (isDestination.symm.trans isSingle)).1
    apply Function.update_of_ne
    rintro rfl
    rw [Bool.eq_false_iff] at unlisted
    exact unlisted ((eq_of_listsDestination isSingle).mpr rfl)
  · rfl

def movInto5 (pc : UInt32) : Gen5OperandInstruction :=
  { pc, encoding := .vop1, opcode := "VMovB32", words := [0x7E0A0200]
    sources := [.scalar 0], destinations := [.vector 5], control := none }

def packInto5 (pc : UInt32) : Gen5OperandInstruction :=
  { pc, encoding := .vop2, opcode := "VCvtPkrtzF16F32", words := [0x5E0A0501]
    sources := [.vector 1, .vector 2], destinations := [.vector 5], control := none }

def exportOf5 (pc : UInt32) : Gen5OperandInstruction :=
  { pc, encoding := .exp, opcode := "Exp", words := [0xF8001C0F, 0x00000505]
    sources := List.replicate 4 (.vector 5), destinations := []
    control := some (.export true) }

def packAndExport : Gen5OperandProgram where
  instructions := [packInto5 0, exportOf5 4]
  sorted := by decide
  pack_destination := by
    intro instruction member isPack
    rcases mem_two.mp member with rfl | rfl
    · exact ⟨5, rfl⟩
    · cases isPack

def storePair : LaneAction := ⟨some 4, true, [⟨5, 0x3C00, true⟩]⟩

theorem takesStep_storePair : takesStep packAndExport storesListed idlePath storePair
      ⟨some 4, 1, idlePath.lane.perform 0 (packInto5 0) storePair⟩ := by
  refine ⟨packInto5 0, List.mem_cons_self, rfl, by decide +kernel, ?_, rfl⟩
  refine ⟨by decide, fun _ _ _ register isSingle => ?_, fun _ isMove => ?_⟩
  · obtain rfl := congrArg Gen5Operand.value (List.cons.inj isSingle).1
    exact ⟨_, rfl⟩
  · exact absurd isMove (by decide)

theorem keepsPairs_storePair : KeepsPairs packAndExport idlePath storePair := by
  intro exportInstruction pack register takes
  obtain ⟨member, isPack, isSingle, -, -⟩ := takes.spec
  have isFirst : pack = packInto5 0 := by
    rcases mem_two.mp member with rfl | rfl
    · rfl
    · cases isPack
  have isLast : exportInstruction = exportOf5 4 := by
    rcases mem_two.mp takes.member with rfl | rfl
    · cases takes.compressed
    · rfl
  subst isFirst isLast
  refine ⟨⟨fun next isNext contains => ⟨0, rfl, le_refl _, (by decide : (0 : UInt32) < 4)⟩,
    fun _ _ _ _ => rfl, fun pc isPc _ behind => ?_⟩, fun _ parts => ?_⟩
  · exact absurd (Option.some.inj isPc).symm behind
  · rcases parts with parts | parts <;> cases parts

def packBehindBranch : Gen5OperandProgram where
  instructions := [movInto5 0, skipOneWord 4, packInto5 8, exportOf5 12]
  sorted := by decide
  pack_destination := by
    intro instruction member isPack
    simp only [List.mem_cons, List.not_mem_nil, or_false] at member
    rcases member with rfl | rfl | rfl | rfl
    · cases isPack
    · cases isPack
    · exact ⟨5, rfl⟩
    · cases isPack

def moveValue : LaneAction := ⟨some 4, true, [⟨5, 7, true⟩]⟩

def skipPack : LaneAction := ⟨some 12, true, []⟩

def movedPath : LanePath :=
  ⟨some 4, 1, idlePath.lane.perform 0 (movInto5 0) moveValue⟩

def skippedPath : LanePath :=
  ⟨some 12, 2, movedPath.lane.perform 1 (skipOneWord 4) skipPack⟩

theorem takesStep_moveValue :
    takesStep packBehindBranch storesListed idlePath moveValue movedPath := by
  refine ⟨movInto5 0, by decide, rfl, by decide +kernel, ?_, rfl⟩
  refine ⟨by decide, fun _ isPack => ?_,
    fun _ _ _ register source value _ isSource isConstant => ?_⟩
  · cases isPack
  · obtain rfl := (List.cons.inj isSource).1
    cases isConstant

theorem takesStep_skipPack :
    takesStep packBehindBranch storesListed movedPath skipPack skippedPath := by
  exact ⟨skipOneWord 4, by decide, rfl, by decide +kernel, effects_nil rfl (by decide), rfl⟩

end SharpEmu.Gen5Lanes
