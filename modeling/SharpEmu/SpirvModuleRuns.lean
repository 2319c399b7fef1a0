import SharpEmu.SpirvModuleInvariant
import SharpEmu.TransitionRuns
import Mathlib.Data.List.Pairwise

/-!
# Runs of the SPIR-V module builder

A run is any sequence of calls.  A call is permitted when the ids, the 16-bit
word counts and the shared dictionary of constants leave room for what it asks,
and every run of permitted calls makes a module that parses back.
-/

namespace SharpEmu.Spirv

open SpirvModuleBuilder

/-! ## Calls -/

inductive Call
  | allocateId
  | addCapability (capability : UInt32)
  | addExtension (extension : String)
  | importExtInst (name : String)
  | setLogicalGlsl450MemoryModel
  | addEntryPoint (model function : UInt32) (name : String)
      (interfaces : List UInt32)
  | addExecutionMode (function mode : UInt32) (operands : List UInt32)
  | addName (target : UInt32) (name : String)
  | addDecoration (target decoration : UInt32) (operands : List UInt32)
  | addMemberDecoration (target member decoration : UInt32)
      (operands : List UInt32)
  | typeVoid
  | typeBool
  | typeInt (width : UInt32) (signed : Bool)
  | typeFloat (width : UInt32)
  | typeVector (componentType count : UInt32)
  | typeImage (sampledType dimension : UInt32)
      (depth arrayed multisampled : Bool) (sampled format : UInt32)
  | typeSampledImage (imageType : UInt32)
  | typeArray (elementType count : UInt32)
  | typeRuntimeArray (elementType : UInt32)
  | typeStruct (memberTypes : List UInt32)
  | typePointer (storageClass type : UInt32)
  | typeFunction (returnType : UInt32) (parameterTypes : List UInt32)
  | constantBool (value : Bool)
  | constant (type value : UInt32)
  | constant64 (type : UInt32) (value : UInt64)
  | constantFloat (type bits : UInt32)
  | constantComposite (type : UInt32) (constituents : List UInt32)
  | constantNull (type : UInt32)
  | addGlobalVariable (pointerType storageClass : UInt32)
      (initializer : Option UInt32)
  | beginFunction (returnType functionType : UInt32)
  | addFunctionParameter (type : UInt32)
  | addLabel (id : Option UInt32)
  | addFunctionVariable (pointerType : UInt32) (initializer : Option UInt32)
  | addInstruction (opcode : SpirvOp) (resultType : UInt32)
      (operands : List Operand)
  | addStatement (opcode : SpirvOp) (operands : List Operand)
  | endFunction
  | build

def SpirvModuleBuilder.perform (builder : SpirvModuleBuilder) : Call → SpirvModuleBuilder
  | .allocateId => builder.allocateId.2
  | .addCapability capability => builder.addCapability capability
  | .addExtension extension => builder.addExtension extension
  | .importExtInst name => (builder.importExtInst name).2
  | .setLogicalGlsl450MemoryModel => builder.setLogicalGlsl450MemoryModel
  | .addEntryPoint model function name interfaces =>
      builder.addEntryPoint model function name interfaces
  | .addExecutionMode function mode operands =>
      builder.addExecutionMode function mode operands
  | .addName target name => builder.addName target name
  | .addDecoration target decoration operands =>
      builder.addDecoration target decoration operands
  | .addMemberDecoration target member decoration operands =>
      builder.addMemberDecoration target member decoration operands
  | .typeVoid => builder.typeVoid.2
  | .typeBool => builder.typeBool.2
  | .typeInt width signed => (builder.typeInt width signed).2
  | .typeFloat width => (builder.typeFloat width).2
  | .typeVector componentType count => (builder.typeVector componentType count).2
  | .typeImage sampledType dimension depth arrayed multisampled sampled format =>
      (builder.typeImage sampledType dimension depth arrayed multisampled sampled format).2
  | .typeSampledImage imageType => (builder.typeSampledImage imageType).2
  | .typeArray elementType count => (builder.typeArray elementType count).2
  | .typeRuntimeArray elementType => (builder.typeRuntimeArray elementType).2
  | .typeStruct memberTypes => (builder.typeStruct memberTypes).2
  | .typePointer storageClass type => (builder.typePointer storageClass type).2
  | .typeFunction returnType parameterTypes =>
      (builder.typeFunction returnType parameterTypes).2
  | .constantBool value => (builder.constantBool value).2
  | .constant type value => (builder.constant type value).2
  | .constant64 type value => (builder.constant64 type value).2
  | .constantFloat type bits => (builder.constantFloat type bits).2
  | .constantComposite type constituents =>
      (builder.constantComposite type constituents).2
  | .constantNull type => (builder.constantNull type).2
  | .addGlobalVariable pointerType storageClass initializer =>
      (builder.addGlobalVariable pointerType storageClass initializer).2
  | .beginFunction returnType functionType =>
      (builder.beginFunction returnType functionType).2
  | .addFunctionParameter type => (builder.addFunctionParameter type).2
  | .addLabel id => (builder.addLabel id).2
  | .addFunctionVariable pointerType initializer =>
      (builder.addFunctionVariable pointerType initializer).2
  | .addInstruction opcode resultType operands =>
      (builder.addInstruction opcode resultType operands).2
  | .addStatement opcode operands => builder.addStatement opcode operands
  | .endFunction => builder.endFunction
  | .build => builder.build.2

/-- When the builder can do what a call asks for: the ids do not run out, word
counts fit in 16 bits, no text has a zero byte, the ids in a call were handed out
and its results are not yet results, no other constant took the key of a constant,
and the bytes of a finished module can be counted. -/
def Permitted (builder : SpirvModuleBuilder) : Call → Prop
  | .allocateId => HasRoom builder 1
  | .addCapability _ => True
  | .addExtension extension => Emittable builder [.text extension]
  | .importExtInst name =>
      Requestable builder (.importExtInst name) [] ∧
        (encodeString name).length + 2 < 2 ^ 16 ∧ NulFree name
  | .setLogicalGlsl450MemoryModel => True
  | .addEntryPoint model function name interfaces =>
      Emittable builder (.literal model :: .reference function :: .text name ::
        interfaces.map .reference)
  | .addExecutionMode function mode operands =>
      Emittable builder (.reference function :: .literal mode :: operands.map .literal)
  | .addName target name => Emittable builder [.reference target, .text name]
  | .addDecoration target decoration operands =>
      Emittable builder (.reference target :: .literal decoration :: operands.map .literal)
  | .addMemberDecoration target member decoration operands =>
      Emittable builder (.reference target :: .literal member :: .literal decoration ::
          operands.map .literal)
  | .typeVoid => Requestable builder .typeVoid []
  | .typeBool => Requestable builder .typeBool []
  | .typeInt width signed => Requestable builder (.typeInt width signed) []
  | .typeFloat width => Requestable builder (.typeFloat width) []
  | .typeVector componentType count =>
      Requestable builder (.typeVector componentType count) [componentType]
  | .typeImage sampledType dimension depth arrayed multisampled sampled format =>
      Requestable builder (.typeImage sampledType dimension depth arrayed
        multisampled sampled format) [sampledType]
  | .typeSampledImage imageType =>
      Requestable builder (.typeSampledImage imageType) [imageType]
  | .typeArray elementType count =>
      builder.cache (.arrayTypes elementType count) = none → builder.Knows [elementType] ∧
          HasRoom builder (missing builder (.integerTypes 32 false) + missing builder
              (Request.constant (builder.typeInt 32 false).1 count).key + 1) ∧
          Unambiguous builder (.constant (builder.typeInt 32 false).1 count)
  | .typeRuntimeArray elementType =>
      Requestable builder (.typeRuntimeArray elementType) [elementType]
  | .typeStruct memberTypes =>
      EmittableNew builder (memberTypes.map .reference)
  | .typePointer storageClass type =>
      Requestable builder (.typePointer storageClass type) [type]
  | .typeFunction returnType parameterTypes =>
      Requestable builder (.typeFunction returnType parameterTypes) (returnType :: parameterTypes) ∧
        parameterTypes.length + 3 < 2 ^ 16
  | .constantBool value =>
      HasRoom builder (missing builder .boolType +
          missing builder (Request.constantBool builder.typeBool.1 value).key) ∧
        Unambiguous builder (.constantBool builder.typeBool.1 value)
  | .constant type value => Requestable builder (.constant type value) [type]
  | .constant64 type value =>
      Requestable builder (.constant64 type value) [type]
  | .constantFloat type bits => Requestable builder (.constant type bits) [type]
  | .constantComposite type constituents =>
      EmittableNew builder (.reference type :: constituents.map .reference)
  | .constantNull type => Requestable builder (.constantNull type) [type]
  | .addGlobalVariable pointerType storageClass initializer =>
      EmittableNew builder (.reference pointerType :: .literal storageClass ::
        (initializer.map Operand.reference).toList)
  | .beginFunction returnType functionType =>
      EmittableNew builder [.reference returnType, .literal 0, .reference functionType]
  | .addFunctionParameter type => EmittableNew builder [.reference type]
  | .addLabel none => EmittableNew builder []
  | .addLabel (some id) => Emittable builder [.result id]
  | .addFunctionVariable pointerType initializer =>
      EmittableNew builder (.reference pointerType :: .literal 7 ::
        (initializer.map Operand.reference).toList)
  | .addInstruction _ resultType operands =>
      EmittableNew builder (.reference resultType :: operands)
  | .addStatement _ operands => Emittable builder operands
  | .endFunction => True
  | .build =>
      5 + builder.body.length + (if builder.sections .memoryModel = [] then 3 else 0) < 2 ^ 29

section Operands

variable (ids words : List UInt32)

@[simp] theorem results_map_reference : results (ids.map Operand.reference) = [] := by
  simp [results, Operand.resultId]

@[simp] theorem references_map_reference : references (ids.map Operand.reference) = ids := by
  simp [references, List.filterMap_map, Function.comp_def, Operand.referenceId]

@[simp] theorem words_map_reference : (ids.map Operand.reference).flatMap Operand.words = ids := by
  simp [List.flatMap_map, Operand.words]

end Operands

section Calls

variable {builder : SpirvModuleBuilder}

/-- Of few operands without a text, the word count fits. -/
theorem Emittable.literals (builder : SpirvModuleBuilder) (words : List UInt32)
    (short : words.length + 1 < 2 ^ 16) :
    Emittable builder (words.map .literal) := by
  have noResults : results (words.map .literal) = [] := by
    simp [results, Operand.resultId]
  have noReferences : references (words.map .literal) = [] := by
    simp [references, Operand.referenceId]
  constructor
  · simpa [List.flatMap_map, Operand.words] using short
  · simp
  · simp [noResults]
  · simp [noResults, SpirvModuleBuilder.Knows]
  · simp [noReferences, SpirvModuleBuilder.Knows]

theorem Sound.setMemoryModel (sound : Sound builder) : Sound builder.setLogicalGlsl450MemoryModel :=
  sound.emit .memoryModel SpirvOp.memoryModel (Emittable.literals builder [0, 1] (by decide))

theorem Sound.addCapability (sound : Sound builder) (capability : UInt32) :
    Sound (builder.addCapability capability) := by
  rw [SpirvModuleBuilder.addCapability]
  split
  · exact sound
  · have noted : Sound { builder with
        declaredCapabilities := capability :: builder.declaredCapabilities } := by
      constructor
      · exact sound.written
      · exact sound.fit
      · exact sound.texts
      · exact sound.distinct
      · exact sound.resultsKnown
      · exact sound.referencesKnown
      · exact sound.remembered
      · intro request id member
        have before := sound.declared request id member
        exact ⟨before.1.mono ⟨fun _ isOld => isOld, UInt32.le_refl _⟩, before.2⟩
    exact noted.emit .capabilities SpirvOp.capability (Emittable.literals _ [capability] (by simp))

theorem Sound.typeInt (sound : Sound builder) {width : UInt32} {signed : Bool}
    (requestable : Requestable builder (.typeInt width signed) []) :
    Answers builder (.typeInt width signed) (builder.typeInt width signed) :=
  sound.request requestable (fun _ => by simp [Operand.words]) (fun _ => rfl)
    (fun _ => rfl) fun _ _ _ member => member

theorem Sound.typeBool (sound : Sound builder) (requestable : Requestable builder .typeBool []) :
    Answers builder .typeBool builder.typeBool :=
  sound.request requestable (fun _ => by simp [Operand.words]) (fun _ => rfl)
    (fun _ => rfl) fun _ _ _ member => member

theorem Sound.constant (sound : Sound builder) {type value : UInt32}
    (requestable : Requestable builder (.constant type value) [type]) :
    Answers builder (.constant type value) (builder.constant type value) :=
  sound.request requestable (fun _ => by simp [Operand.words]) (fun _ => rfl)
    (fun _ => rfl) fun _ _ _ member => member

variable {request next : Request} {ended : UInt32 × SpirvModuleBuilder}

theorem Unambiguous.after (unambiguous : Unambiguous builder next)
    (answers : Answers builder request ended)
    (otherKey : request.key ≠ next.key) : Unambiguous ended.2 next := by
  intro earlier id member sameKey
  rw [answers.answered] at member
  rcases List.mem_cons.mp member with isNew | old
  · cases isNew
    exact absurd sameKey otherKey
  · exact unambiguous earlier id old sameKey

theorem missing_after (answers : Answers builder request ended)
    (otherKey : next.key ≠ request.key) :
    missing ended.2 next.key = missing builder next.key := by
  rw [missing, missing, answers.kept _ otherKey]

theorem Sound.constantBool (sound : Sound builder) {value : Bool}
    (permitted : Permitted builder (.constantBool value)) :
    Answers builder.typeBool.2 (.constantBool builder.typeBool.1 value)
      (builder.constantBool value) := by
  obtain ⟨room, unambiguous⟩ := permitted
  rw [HasRoom] at room
  have typed := sound.typeBool
    ⟨by rw [HasRoom, Request.key]; omega, by simp [Knows], fun isConstant =>
      isConstant.elim⟩
  have otherKey : Request.typeBool.key ≠ (Request.constantBool builder.typeBool.1 value).key := by
    simp [Request.key]
  apply typed.sound.declareOnce
  · constructor
    · intro id
      simp [Operand.words]
    · intro id
      rfl
    · intro id other member
      rw [List.mem_singleton.mp member]
      exact typed.known
    · intro id after grown member
      exact ⟨grown.emitted _ typed.declared, member⟩
  · rw [HasRoom, typed.ids, missing_after typed otherKey.symm, Request.key]
    omega
  · intro _
    exact unambiguous.after typed otherKey

theorem Sound.typeArray (sound : Sound builder) {elementType count : UInt32}
    (permitted : Permitted builder (.typeArray elementType count)) :
    Sound (builder.typeArray elementType count).2 := by
  rw [SpirvModuleBuilder.typeArray]
  rcases cached : builder.cache (Request.typeArray elementType count).key with _ | existing
  · obtain ⟨known, room, unambiguous⟩ := permitted cached
    rw [HasRoom] at room
    have lengthType : Answers builder (.typeInt 32 false) (builder.typeInt 32 false) :=
      sound.typeInt ⟨by rw [HasRoom, Request.key]; omega, by simp [Knows],
        fun isConstant => isConstant.elim⟩
    have otherKey : (Request.typeInt 32 false).key ≠
        (Request.constant (builder.typeInt 32 false).1 count).key := by
      simp [Request.key]
    have stillMissing := missing_after lengthType otherKey.symm
    have counted := lengthType.ids
    rw [Request.key] at counted
    have length := lengthType.sound.constant
      ⟨by rw [HasRoom, stillMissing]; omega, by simpa [Knows] using lengthType.known,
        fun _ => unambiguous.after lengthType otherKey⟩
    have grown := lengthType.grown.trans length.grown
    have allCounted := length.ids
    refine (length.sound.declare ?_ ?_ ?_).sound
    · constructor
      · intro id
        simp [Operand.words]
      · intro id
        rfl
      · intro id other member
        change other ∈ [elementType, _] at member
        rcases List.mem_cons.mp member with rfl | isLength
        · exact Knows.mono known grown _ (List.mem_singleton_self _)
        · rw [List.mem_singleton.mp isLength]
          exact length.known
      · intro id after later member
        exact ⟨_, _, (length.grown.trans later).emitted _ lengthType.declared,
          later.emitted _ length.declared, member⟩
    · rw [length.kept _ (by simp [Request.key]), lengthType.kept _ (by simp [Request.key])]
      exact cached
    · rw [HasRoom, allCounted, stillMissing]
      omega
  · obtain ⟨earlier, member, sameKey⟩ := sound.remembered _ _ cached
    have same : earlier = .typeArray elementType count :=
      Request.eq_of_key (fun isConstant => isConstant) sameKey
    subst same
    have declared := sound.declared _ _ member
    exact sound.answer declared.1 declared.2

variable {moduleSection : ModuleSection}

theorem Sound.addVariable (sound : Sound builder) {pointerType storageClass : UInt32}
    {initializer : Option UInt32}
    (emittable : EmittableNew builder (.reference pointerType ::
      .literal storageClass :: (initializer.map Operand.reference).toList)) :
    Sound (builder.addVariable moduleSection pointerType storageClass initializer).2 :=
  sound.emitNew emittable moduleSection SpirvOp.variableOp
    (by simp [Operand.words]) (by simp) (by cases initializer <;> rfl)
    (by cases initializer <;> rfl)

theorem Sound.emitResult (sound : Sound builder) {opcode : SpirvOp} {resultType : UInt32}
    {operands : List Operand}
    (emittable : EmittableNew builder (.reference resultType :: operands)) :
    Sound (builder.emitResult moduleSection opcode resultType operands).2 :=
  sound.emitNew emittable moduleSection opcode (by simp [Operand.words]) (by simp) rfl rfl

theorem build_snd (builder : SpirvModuleBuilder) : builder.build.2 = builder.withMemoryModel := by
  rw [SpirvModuleBuilder.build]
  split <;> rfl

theorem Sound.build (sound : Sound builder) : Sound builder.build.2 := by
  rw [build_snd, withMemoryModel]
  split
  · exact sound.setMemoryModel
  · exact sound

theorem Sound.perform (sound : Sound builder) {call : Call}
    (permitted : Permitted builder call) : Sound (builder.perform call) := by
  cases call with
  | allocateId => exact sound.allocateId permitted
  | addCapability capability => exact sound.addCapability capability
  | addExtension extension =>
    exact sound.emit .extensions SpirvOp.extension permitted
  | importExtInst name =>
    obtain ⟨requestable, short, nulFree⟩ := permitted
    apply (sound.request requestable _ (fun _ => rfl) (fun _ => rfl)
      fun _ _ _ member => member).sound
    intro id
    constructor
    · simp only [List.flatMap_cons, Operand.words, List.flatMap_nil,
        List.length_append, List.length_cons, List.length_nil]
      omega
    · simpa using nulFree
  | setLogicalGlsl450MemoryModel => exact sound.setMemoryModel
  | addEntryPoint model function name interfaces =>
    exact sound.emit .entryPoints SpirvOp.entryPoint permitted
  | addExecutionMode function mode operands =>
    exact sound.emit .executionModes SpirvOp.executionMode permitted
  | addName target name => exact sound.emit .debug SpirvOp.name permitted
  | addDecoration target decoration operands =>
    exact sound.emit .annotations SpirvOp.decorate permitted
  | addMemberDecoration target member decoration operands =>
    exact sound.emit .annotations SpirvOp.memberDecorate permitted
  | typeBool => exact (sound.typeBool permitted).sound
  | typeVoid | typeFloat | typeVector | typeImage | typeSampledImage | typeRuntimeArray
  | typePointer | constant64 | constantNull =>
    exact (sound.request permitted (fun _ => by simp [Operand.words])
      (fun _ => rfl) (fun _ => rfl) fun _ _ _ member => member).sound
  | typeInt width signed => exact (sound.typeInt permitted).sound
  | typeArray elementType count => exact sound.typeArray permitted
  | typeStruct memberTypes =>
    exact sound.emitNew permitted .typesConstantsGlobals SpirvOp.typeStruct
      (by simp [Operand.words]) (by simp) rfl rfl
  | typeFunction returnType parameterTypes =>
    obtain ⟨requestable, short⟩ := permitted
    apply (sound.request requestable _ _ _ fun _ _ _ member => member).sound
    · intro id
      constructor
      · simp [Operand.words]
        omega
      · simp
    · intro id
      exact congrArg (id :: ·) (results_map_reference parameterTypes)
    · intro id
      exact congrArg (returnType :: ·) (references_map_reference parameterTypes)
  | constantBool value => exact (sound.constantBool permitted).sound
  | constant type value => exact (sound.constant permitted).sound
  | constantFloat type bits => exact (sound.constant permitted).sound
  | constantComposite type constituents =>
    exact sound.emitNew permitted .typesConstantsGlobals
      SpirvOp.constantComposite (by simp [Operand.words]) (by simp) rfl rfl
  | addGlobalVariable pointerType storageClass initializer =>
    exact sound.addVariable permitted
  | beginFunction returnType functionType =>
    exact sound.emitNew permitted .functions SpirvOp.function
      (by simp [Operand.words]) (by simp) rfl rfl
  | addFunctionParameter type => exact sound.emitResult permitted
  | addLabel id =>
    cases id with
    | none =>
      exact sound.emitNew permitted .functions SpirvOp.label
        (by simp [Operand.words]) (by simp) rfl rfl
    | some id => exact sound.emit .functions SpirvOp.label permitted
  | addFunctionVariable pointerType initializer =>
    exact sound.addVariable permitted
  | addInstruction opcode resultType operands =>
    exact sound.emitResult permitted
  | addStatement opcode operands => exact sound.emit .functions opcode permitted
  | endFunction =>
    exact sound.emit .functions SpirvOp.functionEnd (Emittable.literals builder [] (by decide))
  | build => exact sound.build

theorem Sound.new : Sound SpirvModuleBuilder.new := by
  constructor
  · intro moduleSection
    rfl
  · simp [SpirvModuleBuilder.new]
  · simp [SpirvModuleBuilder.new]
  · simp [SpirvModuleBuilder.new, resultIds]
  · simp [SpirvModuleBuilder.new, resultIds, Knows]
  · simp [SpirvModuleBuilder.new, referenceIds, Knows]
  · simp [SpirvModuleBuilder.new]
  · simp [SpirvModuleBuilder.new]

end Calls

/-! ## Runs -/

def called (before : SpirvModuleBuilder) (call : Call) (after : SpirvModuleBuilder) : Prop :=
  after = before.perform call

section Runs

variable {builder : SpirvModuleBuilder}

theorem sound_of_reachable (reachable : Reachable (· = SpirvModuleBuilder.new)
      (onlyWhen Permitted called) builder) : Sound builder := by
  apply reachable.invariant_onlyWhen
  · rintro start rfl
    exact Sound.new
  · rintro before call after sound permitted rfl
    exact sound.perform permitted

theorem Sound.result_unique (sound : Sound builder)
    {first second : ModuleSection × Instruction} {id : UInt32}
    (isFirst : first ∈ builder.emitted) (isSecond : second ∈ builder.emitted)
    (firstResult : id ∈ results first.2.operands)
    (secondResult : id ∈ results second.2.operands) : first = second := by
  by_contra different
  have apart := (List.nodup_flatMap.mp sound.distinct).2
  have symmetric : Std.Symm (Function.onFun List.Disjoint
      fun entry : ModuleSection × Instruction => results entry.2.operands) :=
    ⟨fun _ _ disjoint _ inSecond inFirst => disjoint inFirst inSecond⟩
  exact apart.forall isFirst isSecond different firstResult secondResult

theorem Sound.parse_body (sound : Sound builder) : WordCounted.parse builder.body =
      some ((ModuleSection.all.flatMap builder.instructions).map Instruction.plain) := by
  have words : builder.body = ((ModuleSection.all.flatMap builder.instructions).map
        Instruction.plain).flatMap WordCounted.encode := by
    rw [List.flatMap_map, List.flatMap_assoc, body]
    apply List.flatMap_congr
    intro moduleSection _
    exact sound.written moduleSection
  rw [words]
  apply WordCounted.parse_flatMap_encode
  intro plain member
  obtain ⟨instruction, inSections, rfl⟩ := List.mem_map.mp member
  obtain ⟨moduleSection, _, isIn⟩ := List.mem_flatMap.mp inSections
  obtain ⟨entry, kept, rfl⟩ := List.mem_map.mp isIn
  exact sound.fit entry (List.mem_of_mem_filter kept)

theorem Sound.read_operands (sound : Sound builder) :
    ∀ instruction ∈ ModuleSection.all.flatMap builder.instructions,
      readOperands (instruction.operands.map Operand.kind) instruction.plain.2 =
        some instruction.operands := by
  intro instruction member
  obtain ⟨moduleSection, _, isIn⟩ := List.mem_flatMap.mp member
  obtain ⟨entry, kept, rfl⟩ := List.mem_map.mp isIn
  exact readOperands_words (sound.texts entry (List.mem_of_mem_filter kept))

theorem length_body_withMemoryModel (builder : SpirvModuleBuilder) :
    builder.withMemoryModel.body.length = builder.body.length +
      if builder.sections .memoryModel = [] then 3 else 0 := by
  by_cases noModel : builder.sections .memoryModel = []
  · rw [withMemoryModel, if_pos noModel, if_pos noModel]
    simp [body, ModuleSection.all, setLogicalGlsl450MemoryModel,
      SpirvModuleBuilder.emit, WordCounted.encode, Instruction.plain,
      Operand.words]
    omega
  · rw [withMemoryModel, if_neg noModel, if_neg noModel, Nat.add_zero]

/-- The words of a finished module whose bytes can be counted. -/
theorem build_fst (short : Permitted builder .build) :
    builder.build.1 = some builder.build.2.words := by
  have bodyLength := length_body_withMemoryModel builder
  have wordCount : builder.withMemoryModel.words.length =
      builder.withMemoryModel.body.length + 5 := by
    simp [words]
  rw [Permitted, Nat.add_assoc, ← bodyLength] at short
  rw [build_snd, SpirvModuleBuilder.build]
  simp only [wordCount]
  rw [if_neg (by omega), Nat.mod_eq_of_lt (by omega),
    Nat.mul_div_cancel _ (by omega), ← wordCount, List.take_length]

structure ModuleSound (builder : SpirvModuleBuilder) : Prop where
  results_distinct : builder.resultIds.Nodup
  answers_declared : ∀ request id, (request, id) ∈ builder.answered →
    request.DeclaredBy builder id
  one_declaration : ∀ first ∈ builder.emitted, ∀ second ∈ builder.emitted,
    ∀ id ∈ results first.2.operands, id ∈ results second.2.operands →
      first = second
  texts_padded : ∀ value, ∃ zeros, 1 ≤ zeros ∧ zeros ≤ 4 ∧
    wordBytes (encodeString value) =
      value.toUTF8.toList ++ List.replicate zeros 0
  parses_back : Permitted builder .build →
    ∃ bound words,
      builder.build.1 = some (magic :: version15 :: generator :: bound :: 0 ::
          words) ∧
        WordCounted.parse words =
          some ((ModuleSection.all.flatMap builder.build.2.instructions).map
            Instruction.plain) ∧
        (∀ instruction ∈ ModuleSection.all.flatMap builder.build.2.instructions,
          readOperands (instruction.operands.map Operand.kind) instruction.plain.2 =
            some instruction.operands) ∧
        (∀ id ∈ builder.build.2.resultIds, id < bound) ∧
        ∀ id ∈ builder.build.2.referenceIds, id < bound

/-- Every run of permitted calls makes a sound module. -/
theorem module_sound (builder : SpirvModuleBuilder)
    (reachable : Reachable (· = SpirvModuleBuilder.new)
      (onlyWhen Permitted called) builder) : ModuleSound builder := by
  have sound := sound_of_reachable reachable
  constructor
  · exact sound.distinct
  · intro request id member
    exact (sound.declared request id member).1
  · intro first isFirst second isSecond id firstResult secondResult
    exact sound.result_unique isFirst isSecond firstResult secondResult
  · exact wordBytes_encodeString
  · intro short
    have finished := sound.build
    exact ⟨_, _, build_fst short, finished.parse_body, finished.read_operands,
      finished.resultsKnown, finished.referencesKnown⟩

theorem five_bytes : "five".toUTF8.toList = [0x66, 0x69, 0x76, 0x65] := by
  rw [ByteArray.toList, toList_loop]
  rfl

theorem five_words : encodeString "five" = [0x65766966, 0] := by
  rw [encodeString, five_bytes]
  rfl

/-- A run that asks for a 64-bit type and for a constant of it, and names the
constant. -/
theorem module_sound_sample :
    let builder := ((SpirvModuleBuilder.new.perform (.typeInt 64 false)).perform
      (.constant64 1 5)).perform (.addName 2 "five")
    ModuleSound builder ∧ Permitted builder .build := by
  have typePermitted : Permitted .new (.typeInt 64 false) :=
    ⟨by decide, by simp [Knows], fun isConstant => isConstant.elim⟩
  have constantPermitted : Permitted
      (SpirvModuleBuilder.new.perform (.typeInt 64 false)) (.constant64 1 5) := by
    refine ⟨by decide, ?_, ?_⟩
    · intro id member
      rw [List.mem_singleton.mp member]
      decide
    · intro _ earlier id member sameKey
      have isType : earlier = .typeInt 64 false :=
        congrArg Prod.fst (List.mem_singleton.mp member)
      rw [isType] at sameKey
      exact absurd sameKey (by decide)
  have namePermitted : Permitted ((SpirvModuleBuilder.new.perform
      (.typeInt 64 false)).perform (.constant64 1 5)) (.addName 2 "five") := by
    constructor
    · simp [Operand.words, five_words]
    · intro value isText
      obtain rfl : value = "five" := by simpa using isText
      rw [NulFree, five_bytes]
      decide
    · exact ⟨by decide, by simp [results, Operand.resultId]⟩
    · simp [results, Operand.resultId, Knows]
    · intro id member
      rw [List.mem_singleton.mp member]
      decide
  have sections : (((SpirvModuleBuilder.new.perform (.typeInt 64 false)).perform
      (.constant64 1 5)).perform (.addName 2 "five")).sections =
      Function.update ((SpirvModuleBuilder.new.perform
        (.typeInt 64 false)).perform (.constant64 1 5)).sections .debug
        (WordCounted.encode (SpirvOp.name, [2, 0x65766966, 0])) := by
    rw [← five_words, ← List.append_nil (encodeString "five")]
    rfl
  refine ⟨module_sound _ ?_, by rw [Permitted, body, sections]; decide⟩
  exact .next (.next (.next (.start rfl) ⟨typePermitted, rfl⟩)
    ⟨constantPermitted, rfl⟩) ⟨namePermitted, rfl⟩

theorem reachable_perform (reachable : Reachable (· = SpirvModuleBuilder.new) called builder)
    (call : Call) :
    Reachable (· = SpirvModuleBuilder.new) called (builder.perform call) :=
  reachable.next (show called builder call (builder.perform call) from rfl)

/-- A constant of all ones and then the null constant of its type: the second
answer is the first one's id, and no null constant is declared. -/
theorem null_answered_by_all_ones :
    ∃ builder, Reachable (· = SpirvModuleBuilder.new) called builder ∧
      (Request.constantNull 1, 2) ∈ builder.answered ∧
      (Request.constant64 1 0xffffffffffffffff, 2) ∈ builder.answered ∧
      ¬ (Request.constantNull 1).DeclaredBy builder 2 := by
  refine ⟨((SpirvModuleBuilder.new.perform (.typeInt 64 false)).perform
    (.constant64 1 0xffffffffffffffff)).perform (.constantNull 1), ?_, ?_, ?_, ?_⟩
  · apply reachable_perform
    apply reachable_perform
    apply reachable_perform
    exact .start rfl
  · decide
  · decide
  · rw [Request.DeclaredBy, Declares]
    decide

end Runs

end SharpEmu.Spirv
