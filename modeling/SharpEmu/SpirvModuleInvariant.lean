import SharpEmu.PathSegments
import SharpEmu.SpirvModuleBuilder
import Mathlib.Data.List.GetD
import Mathlib.Data.List.Nodup

/-!
# The invariant of the SPIR-V module builder

The calls of the builder are made of a few moves: handing out an id, emitting an
instruction, and answering a cached request from a dictionary or by a new
declaration.  One invariant ties the dictionaries to the instructions that were
emitted, and each move keeps it under a condition of its own.
-/

namespace SharpEmu.Spirv

open SpirvModuleBuilder

/-! ## Texts -/

section Texts

def wordBytes (words : List UInt32) : List UInt8 :=
  words.flatMap fun word =>
    (List.range 4).map (LittleEndian.byteAt word.toNat)

theorem range_flatMap_four {Item : Type*} (item : ℕ → Item) (count : ℕ) :
    ((List.range count).flatMap fun index =>
        (List.range 4).map fun place => item (4 * index + place)) =
      (List.range (4 * count)).map item := by
  induction count with
  | zero => rfl
  | succ count ih =>
    have longer : List.range (count + 1) = List.range count ++ [count] :=
      List.range_succ
    rw [longer, List.flatMap_append, ih, Nat.mul_succ, List.range_add, List.map_append]
    simp

theorem range_map_getD (bytes : List UInt8) (more : ℕ) :
    (List.range (bytes.length + more)).map (fun place => bytes.getD place 0) =
      bytes ++ List.replicate more 0 := by
  apply List.ext_getElem
  · simp
  · intro place inLeft inRight
    rw [List.getElem_map, List.getElem_range]
    by_cases inBytes : place < bytes.length
    · rw [List.getElem_append_left inBytes, List.getD_eq_getElem _ _ inBytes]
    · rw [List.getElem_append_right (by omega), List.getElem_replicate,
        List.getD_eq_default _ _ (by omega)]

theorem wordBytes_encodeString (value : String) : ∃ zeros, 1 ≤ zeros ∧ zeros ≤ 4 ∧
      wordBytes (encodeString value) = value.toUTF8.toList ++ List.replicate zeros 0 := by
  generalize isBytes : value.toUTF8.toList = bytes
  have wordCount : 4 * ((bytes.length + 1 + 3) / 4) =
      bytes.length + (4 * ((bytes.length + 4) / 4) - bytes.length) := by
    omega
  refine ⟨4 * ((bytes.length + 4) / 4) - bytes.length, by omega, by omega, ?_⟩
  rw [← range_map_getD, ← wordCount, ← range_flatMap_four, wordBytes,
    encodeString, List.flatMap_map, isBytes]
  apply List.flatMap_congr
  intro index _
  apply List.map_congr_left
  intro place inWord
  have small := LittleEndian.assemble_lt (fun inside => bytes.getD (4 * index + inside) 0) 4
  rw [UInt32.toNat_ofNat', LittleEndian.load, Nat.mod_eq_of_lt (show _ < 2 ^ 32 from small),
    LittleEndian.byteAt_assemble _ (List.mem_range.mp inWord)]

def NulFree (value : String) : Prop :=
  0 ∉ value.toUTF8.toList

instance (value : String) : Decidable (NulFree value) :=
  inferInstanceAs (Decidable (¬ _))

theorem toList_loop (bytes : ByteArray) (place : ℕ) (behind : List UInt8) :
    ByteArray.toList.loop bytes place behind = behind.reverse ++ bytes.data.toList.drop place := by
  fun_induction ByteArray.toList.loop bytes place behind with
  | case1 place behind inside ih =>
    have inData : place < bytes.data.toList.length := inside
    have isByte : bytes.get! place = bytes.data.toList[place] := by
      rw [ByteArray.get!, getElem!_pos bytes.data place inside, Array.getElem_toList]
    rw [ih, isByte, List.reverse_cons, List.append_assoc, List.singleton_append,
      List.drop_eq_getElem_cons inside]
  | case2 place behind outside =>
    rw [List.drop_eq_nil_of_le (Nat.not_lt.mp outside), List.append_nil]

theorem fromUTF8_toList (value : String) :
    String.fromUTF8? ⟨value.toUTF8.toList.toArray⟩ = some value := by
  have isBytes : (⟨value.toUTF8.toList.toArray⟩ : ByteArray) = value.toUTF8 := by
    rw [ByteArray.toList, toList_loop]
    rfl
  rw [isBytes]
  exact dif_pos value.isValidUTF8

/-- Read a text up to its first zero byte, and go on behind the word of that byte. -/
def readText (words : List UInt32) : Option (String × List UInt32) :=
  let content := (wordBytes words).takeWhile (· ≠ 0)
  (String.fromUTF8? ⟨content.toArray⟩).map (·, words.drop (content.length / 4 + 1))

theorem readText_encodeString {value : String} (nulFree : NulFree value) (rest : List UInt32) :
    readText (encodeString value ++ rest) = some (value, rest) := by
  obtain ⟨zeros, some_zero, -, isPadded⟩ := wordBytes_encodeString value
  obtain ⟨more, rfl⟩ := Nat.exists_eq_add_of_le' some_zero
  have content : (wordBytes (encodeString value ++ rest)).takeWhile (· ≠ 0) =
      value.toUTF8.toList := by
    rw [wordBytes, List.flatMap_append, ← wordBytes, isPadded, List.append_assoc,
      List.takeWhile_append_of_pos, List.replicate_succ, List.cons_append,
      List.takeWhile_cons_of_neg (by simp), List.append_nil]
    intro byte member
    simpa using fun isZero : byte = 0 => nulFree (isZero ▸ member)
  have wordCount : (encodeString value).length = value.toUTF8.toList.length / 4 + 1 := by
    rw [encodeString, List.length_map, List.length_range]
    omega
  rw [readText, content, fromUTF8_toList, Option.map_some, ← wordCount, List.drop_left]

inductive OperandKind
  | result
  | reference
  | literal
  | text

def Operand.kind : Operand → OperandKind
  | result _ => .result
  | reference _ => .reference
  | literal _ => .literal
  | text _ => .text

def readOperand (words : List UInt32) : OperandKind → Option (Operand × List UInt32)
  | .result => words.head?.map fun word => (.result word, words.tail)
  | .reference => words.head?.map fun word => (.reference word, words.tail)
  | .literal => words.head?.map fun word => (.literal word, words.tail)
  | .text => (readText words).map fun (value, rest) => (.text value, rest)

/-- Read all of an instruction's words as operands of the kinds that its opcode
takes. -/
def readOperands : List OperandKind → List UInt32 → Option (List Operand)
  | [], words => if words = [] then some [] else none
  | kind :: kinds, words =>
      (readOperand words kind).bind fun (operand, rest) =>
        (readOperands kinds rest).map (operand :: ·)

theorem readOperands_words {operands : List Operand}
    (nulFree : ∀ value, Operand.text value ∈ operands → NulFree value) :
    readOperands (operands.map Operand.kind) (operands.flatMap Operand.words) =
      some operands := by
  induction operands with
  | nil => rfl
  | cons operand rest ih =>
    have first : readOperand (operand.words ++ rest.flatMap Operand.words)
        operand.kind = some (operand, rest.flatMap Operand.words) := by
      cases operand with
      | text value =>
        rw [Operand.kind, readOperand, Operand.words,
          readText_encodeString (nulFree value List.mem_cons_self)]
        rfl
      | _ => rfl
    rw [List.map_cons, List.flatMap_cons, readOperands, first, Option.bind_some]
    dsimp only
    rw [ih fun value member => nulFree value (List.mem_cons_of_mem _ member), Option.map_some]

end Texts

/-! ## Keys -/

section Keys

/-- The marks between the numbers of a function type's key. -/
def isMark (letter : Char) : Bool := letter = ':' || letter = ','

theorem isSegment_toDigits (number : ℕ) :
    PathSegments.IsSegment isMark (Nat.toDigits 10 number) := by
  refine ⟨Nat.toDigits_ne_nil, ?_⟩
  intro letter member
  have isDigit := Nat.isDigit_of_mem_toDigits (by omega) (by omega) member
  rw [isMark, Bool.or_eq_false_iff, decide_eq_false_iff_not, decide_eq_false_iff_not]
  constructor
  · rintro rfl
    exact absurd isDigit (by decide)
  · rintro rfl
    exact absurd isDigit (by decide)

theorem segments_functionTypeKey (returnType : UInt32) (parameterTypes : List UInt32) :
    PathSegments.segments isMark (functionTypeKey returnType parameterTypes).toList =
      (returnType :: parameterTypes).map fun type =>
        Nat.toDigits 10 type.toNat := by
  have text : (functionTypeKey returnType parameterTypes).toList =
      Nat.toDigits 10 returnType.toNat ++ ':' :: [','].intercalate (parameterTypes.map fun type =>
          Nat.toDigits 10 type.toNat) := by
    simp [functionTypeKey, Function.comp_def]
  have parts : ∀ part ∈ parameterTypes.map fun type =>
      Nat.toDigits 10 type.toNat, PathSegments.IsSegment isMark part := by
    intro part member
    obtain ⟨type, _, rfl⟩ := List.mem_map.mp member
    exact isSegment_toDigits _
  rw [text, PathSegments.segments_append_cons _ _ (by decide),
    PathSegments.segments_of_isSegment (isSegment_toDigits _),
    PathSegments.segments_intercalate (by decide) parts]
  rfl

theorem toDigits_injective {first second : UInt32}
    (same : Nat.toDigits 10 first.toNat = Nat.toDigits 10 second.toNat) :
    first = second := by
  have numbers := congrArg (fun digits => Nat.ofDigitChars 10 digits 0) same
  simp only [Nat.ofDigitChars_toDigits (by omega : 1 < 10) (by omega)] at numbers
  exact UInt32.toNat_inj.mp numbers

theorem functionTypeKey_injective {firstReturn secondReturn : UInt32}
    {firstParameters secondParameters : List UInt32}
    (same : functionTypeKey firstReturn firstParameters =
      functionTypeKey secondReturn secondParameters) :
    firstReturn = secondReturn ∧ firstParameters = secondParameters := by
  have numbers := segments_functionTypeKey firstReturn firstParameters
  rw [same, segments_functionTypeKey] at numbers
  have injective : Function.Injective fun type : UInt32 =>
      Nat.toDigits 10 type.toNat := fun _ _ => toDigits_injective
  have lists := List.map_injective_iff.mpr injective numbers
  rw [List.cons.injEq] at lists
  exact ⟨lists.1.symm, lists.2.symm⟩

def Request.IsConstant : Request → Prop
  | constantBool _ _ => True
  | constant _ _ => True
  | constant64 _ _ => True
  | constantNull _ => True
  | _ => False

theorem Request.eq_of_key {first second : Request}
    (notConstant : ¬ second.IsConstant) (same : first.key = second.key) :
    first = second := by
  cases second with
  | constantBool _ _ => exact absurd trivial notConstant
  | constant _ _ => exact absurd trivial notConstant
  | constant64 _ _ => exact absurd trivial notConstant
  | constantNull _ => exact absurd trivial notConstant
  | typeFunction returnType parameterTypes =>
    cases first <;> simp only [Request.key, reduceCtorEq, CacheKey.functionTypes.injEq] at same
    obtain ⟨rfl, rfl⟩ := functionTypeKey_injective same
    rfl
  | _ => cases first <;> simp_all [Request.key]

end Keys

/-! ## The invariant -/

def Operand.resultId : Operand → Option UInt32
  | result id => some id
  | _ => none

def Operand.referenceId : Operand → Option UInt32
  | reference id => some id
  | _ => none

def results (operands : List Operand) : List UInt32 :=
  operands.filterMap Operand.resultId

def references (operands : List Operand) : List UInt32 :=
  operands.filterMap Operand.referenceId

namespace SpirvModuleBuilder

def instructions (builder : SpirvModuleBuilder) (moduleSection : ModuleSection) :
    List Instruction :=
  (builder.emitted.filter fun entry => entry.1 = moduleSection).map Prod.snd

def resultIds (builder : SpirvModuleBuilder) : List UInt32 :=
  builder.emitted.flatMap fun entry => results entry.2.operands

def referenceIds (builder : SpirvModuleBuilder) : List UInt32 :=
  builder.emitted.flatMap fun entry => references entry.2.operands

/-- An instruction was emitted among the types, constants and globals. -/
def Declares (builder : SpirvModuleBuilder) (opcode : SpirvOp) (operands : List Operand) : Prop :=
  (ModuleSection.typesConstantsGlobals, Instruction.mk opcode operands) ∈ builder.emitted

def Knows (builder : SpirvModuleBuilder) (ids : List UInt32) : Prop :=
  ∀ id ∈ ids, id < builder.nextId

end SpirvModuleBuilder

/-- What a builder has emitted and handed out is kept. -/
structure Extends (before after : SpirvModuleBuilder) : Prop where
  emitted : ∀ entry ∈ before.emitted, entry ∈ after.emitted
  ids : before.nextId ≤ after.nextId

def Request.DeclaredBy (builder : SpirvModuleBuilder) (id : UInt32) : Request → Prop
  | typeVoid => builder.Declares SpirvOp.typeVoid [.result id]
  | typeBool => builder.Declares SpirvOp.typeBool [.result id]
  | typeInt width signed =>
      builder.Declares SpirvOp.typeInt [.result id, .literal width, .literal (flag signed)]
  | typeFloat width =>
      builder.Declares SpirvOp.typeFloat [.result id, .literal width]
  | typeVector componentType count =>
      builder.Declares SpirvOp.typeVector [.result id, .reference componentType, .literal count]
  | typeImage sampledType dimension depth arrayed multisampled sampled format =>
      builder.Declares SpirvOp.typeImage [.result id, .reference sampledType, .literal dimension,
          .literal (flag depth), .literal (flag arrayed),
          .literal (flag multisampled), .literal sampled, .literal format]
  | typeSampledImage imageType =>
      builder.Declares SpirvOp.typeSampledImage [.result id, .reference imageType]
  | typeArray elementType count =>
      ∃ lengthType length, builder.Declares SpirvOp.typeInt
            [.result lengthType, .literal 32, .literal 0] ∧
          builder.Declares SpirvOp.constant
            [.reference lengthType, .result length, .literal count] ∧
          builder.Declares SpirvOp.typeArray [.result id, .reference elementType, .reference length]
  | typeRuntimeArray elementType =>
      builder.Declares SpirvOp.typeRuntimeArray [.result id, .reference elementType]
  | typePointer storageClass type =>
      builder.Declares SpirvOp.typePointer [.result id, .literal storageClass, .reference type]
  | typeFunction returnType parameterTypes =>
      builder.Declares SpirvOp.typeFunction
        (.result id :: .reference returnType :: parameterTypes.map .reference)
  | constantBool type value =>
      builder.Declares SpirvOp.typeBool [.result type] ∧ builder.Declares
          (if value then SpirvOp.constantTrue else SpirvOp.constantFalse)
          [.reference type, .result id]
  | constant type value =>
      builder.Declares SpirvOp.constant [.reference type, .result id, .literal value]
  | constant64 type value =>
      builder.Declares SpirvOp.constant [.reference type, .result id, .literal value.toUInt32,
          .literal (value >>> 32).toUInt32]
  | constantNull type =>
      builder.Declares SpirvOp.constantNull [.reference type, .result id]
  | importExtInst name =>
      (ModuleSection.imports, Instruction.mk SpirvOp.extInstImport [.result id, .text name]) ∈
          builder.emitted

/-- What ties the words, the dictionaries and the ids of a builder to the
instructions it has emitted and the answers it has given. -/
structure Sound (builder : SpirvModuleBuilder) : Prop where
  written : ∀ moduleSection, builder.sections moduleSection =
    (builder.instructions moduleSection).flatMap fun instruction =>
      WordCounted.encode instruction.plain
  fit : ∀ entry ∈ builder.emitted, WordCounted.Fits entry.2.plain
  texts : ∀ entry ∈ builder.emitted, ∀ value,
    Operand.text value ∈ entry.2.operands → NulFree value
  distinct : builder.resultIds.Nodup
  resultsKnown : builder.Knows builder.resultIds
  referencesKnown : builder.Knows builder.referenceIds
  remembered : ∀ key id, builder.cache key = some id →
    ∃ request, (request, id) ∈ builder.answered ∧ request.key = key
  declared : ∀ request id, (request, id) ∈ builder.answered →
    request.DeclaredBy builder id ∧ id < builder.nextId

/-- An instruction may be emitted: its word count fits, no text has a zero byte, its
ids were handed out, and its results are not yet results. -/
structure Emittable (builder : SpirvModuleBuilder) (operands : List Operand) :
    Prop where
  short : (operands.flatMap Operand.words).length + 1 < 2 ^ 16
  texts : ∀ value, Operand.text value ∈ operands → NulFree value
  fresh : (results operands).Nodup ∧
    ∀ id ∈ results operands, id ∉ builder.resultIds
  resultsKnown : builder.Knows (results operands)
  referencesKnown : builder.Knows (references operands)

def HasRoom (builder : SpirvModuleBuilder) (count : ℕ) : Prop :=
  builder.nextId.toNat + count < 2 ^ 32

instance (builder : SpirvModuleBuilder) (count : ℕ) : Decidable (HasRoom builder count) :=
  inferInstanceAs (Decidable (_ < _))

/-- The ids that declaring under a key would take. -/
def missing (builder : SpirvModuleBuilder) (key : CacheKey) : ℕ :=
  if builder.cache key = none then 1 else 0

/-- No earlier request for another constant took the same key. -/
def Unambiguous (builder : SpirvModuleBuilder) (request : Request) : Prop :=
  ∀ earlier id, (earlier, id) ∈ builder.answered → earlier.key = request.key → earlier = request

/-- A cached declaration may be asked for: there is an id for it if it is
missing, the ids it is about were handed out, and no other constant took its
key. -/
def Requestable (builder : SpirvModuleBuilder) (request : Request) (ids : List UInt32) : Prop :=
  HasRoom builder (missing builder request.key) ∧ builder.Knows ids ∧
    (request.IsConstant → Unambiguous builder request)

def EmittableNew (builder : SpirvModuleBuilder) (others : List Operand) :
    Prop :=
  HasRoom builder 1 ∧ Emittable builder others ∧ (others.flatMap Operand.words).length + 2 < 2 ^ 16

section Moves

variable {builder before after : SpirvModuleBuilder}

theorem Extends.trans {later : SpirvModuleBuilder}
    (first : Extends before after) (second : Extends after later) :
    Extends before later :=
  ⟨fun entry member => second.emitted entry (first.emitted entry member),
    UInt32.le_trans first.ids second.ids⟩

variable {id : UInt32}

theorem Request.DeclaredBy.mono {request : Request}
    (declared : request.DeclaredBy before id) (extends' : Extends before after) :
    request.DeclaredBy after id := by
  cases request with
  | typeArray elementType count =>
    obtain ⟨lengthType, length, isType, isLength, isArray⟩ := declared
    exact ⟨lengthType, length, extends'.emitted _ isType,
      extends'.emitted _ isLength, extends'.emitted _ isArray⟩
  | constantBool type value =>
    exact ⟨extends'.emitted _ declared.1, extends'.emitted _ declared.2⟩
  | _ => exact extends'.emitted _ declared

variable {ids : List UInt32}

theorem Knows.mono (knows : before.Knows ids) (extends' : Extends before after) : after.Knows ids :=
  fun id member => UInt32.lt_of_lt_of_le (knows id member) extends'.ids

theorem toNat_nextId_allocateId (room : HasRoom builder 1) :
    builder.allocateId.2.nextId.toNat = builder.nextId.toNat + 1 := by
  rw [allocateId, UInt32.toNat_add, UInt32.toNat_one, Nat.mod_eq_of_lt room]

theorem Extends.allocateId (room : HasRoom builder 1) : Extends builder builder.allocateId.2 := by
  refine ⟨fun _ member => member, ?_⟩
  rw [UInt32.le_iff_toNat_le, toNat_nextId_allocateId room]
  omega

theorem Sound.allocateId (sound : Sound builder) (room : HasRoom builder 1) :
    Sound builder.allocateId.2 := by
  have grown := Extends.allocateId room
  constructor
  · exact sound.written
  · exact sound.fit
  · exact sound.texts
  · exact sound.distinct
  · exact Knows.mono sound.resultsKnown grown
  · exact Knows.mono sound.referencesKnown grown
  · exact sound.remembered
  · intro request id member
    have declared := sound.declared request id member
    exact ⟨declared.1.mono grown, UInt32.lt_of_lt_of_le declared.2 grown.ids⟩

theorem allocateId_fresh (sound : Sound builder) :
    builder.allocateId.1 ∉ builder.allocateId.2.resultIds := by
  intro member
  exact absurd (sound.resultsKnown _ member) (UInt32.lt_irrefl _)

theorem allocateId_known (room : HasRoom builder 1) :
    builder.allocateId.1 < builder.allocateId.2.nextId := by
  rw [UInt32.lt_iff_toNat_lt, toNat_nextId_allocateId room]
  exact Nat.lt_succ_self _

section Emitting

variable (moduleSection : ModuleSection) (opcode : SpirvOp)
variable (operands : List Operand)

theorem Extends.emit (builder : SpirvModuleBuilder) :
    Extends builder (builder.emit moduleSection opcode operands) :=
  ⟨fun _ member => List.mem_append_left _ member, UInt32.le_refl _⟩

theorem mem_emitted_emit (builder : SpirvModuleBuilder) :
    (moduleSection, Instruction.mk opcode operands) ∈
      (builder.emit moduleSection opcode operands).emitted :=
  List.mem_append_right _ (List.mem_singleton_self _)

theorem instructions_emit (builder : SpirvModuleBuilder) (other : ModuleSection) :
    (builder.emit moduleSection opcode operands).instructions other = builder.instructions other ++
        if other = moduleSection then [⟨opcode, operands⟩] else [] := by
  simp only [instructions, emit, List.filter_append, List.map_append]
  by_cases same : other = moduleSection
  · simp [same]
  · simp [same, Ne.symm same]

theorem resultIds_emit (builder : SpirvModuleBuilder) :
    (builder.emit moduleSection opcode operands).resultIds =
      builder.resultIds ++ results operands := by
  simp [resultIds, emit]

theorem referenceIds_emit (builder : SpirvModuleBuilder) :
    (builder.emit moduleSection opcode operands).referenceIds =
      builder.referenceIds ++ references operands := by
  simp [referenceIds, emit]

theorem Sound.emit {operands : List Operand} (sound : Sound builder)
    (emittable : Emittable builder operands) :
    Sound (builder.emit moduleSection opcode operands) := by
  have grown := Extends.emit moduleSection opcode operands builder
  constructor
  · intro other
    rw [instructions_emit, List.flatMap_append, ← sound.written other]
    by_cases same : other = moduleSection
    · subst same
      simp [SpirvModuleBuilder.emit]
    · simp [SpirvModuleBuilder.emit, same]
  · intro entry member
    rcases List.mem_append.mp member with old | new
    · exact sound.fit entry old
    · rw [List.mem_singleton.mp new]
      exact emittable.short
  · intro entry member
    rcases List.mem_append.mp member with old | new
    · exact sound.texts entry old
    · rw [List.mem_singleton.mp new]
      exact emittable.texts
  · rw [resultIds_emit]
    refine List.nodup_append.mpr ⟨sound.distinct, emittable.fresh.1, ?_⟩
    rintro old isOld new isNew rfl
    exact emittable.fresh.2 old isNew isOld
  · rw [resultIds_emit]
    intro id member
    rcases List.mem_append.mp member with old | new
    · exact sound.resultsKnown id old
    · exact emittable.resultsKnown id new
  · rw [referenceIds_emit]
    intro id member
    rcases List.mem_append.mp member with old | new
    · exact sound.referencesKnown id old
    · exact emittable.referencesKnown id new
  · exact sound.remembered
  · intro request id member
    have declared := sound.declared request id member
    exact ⟨declared.1.mono grown, declared.2⟩

end Emitting

structure Declaration (builder : SpirvModuleBuilder) (request : Request)
    (moduleSection : ModuleSection) (opcode : SpirvOp)
    (operands : UInt32 → List Operand) : Prop where
  short : ∀ id, ((operands id).flatMap Operand.words).length + 1 < 2 ^ 16 ∧
    ∀ value, Operand.text value ∈ operands id → NulFree value
  result : ∀ id, results (operands id) = [id]
  known : ∀ id, builder.Knows (references (operands id))
  declares : ∀ id after, Extends builder after →
    (moduleSection, Instruction.mk opcode (operands id)) ∈ after.emitted →
      request.DeclaredBy after id

structure Answers (before : SpirvModuleBuilder) (request : Request)
    (ended : UInt32 × SpirvModuleBuilder) : Prop where
  sound : Sound ended.2
  grown : Extends before ended.2
  declared : request.DeclaredBy ended.2 ended.1
  known : ended.1 < ended.2.nextId
  ids : ended.2.nextId.toNat =
    before.nextId.toNat + missing before request.key
  kept : ∀ key, key ≠ request.key → ended.2.cache key = before.cache key
  answered : ended.2.answered = (request, ended.1) :: before.answered

theorem Sound.answer {request : Request} (sound : Sound builder)
    (declared : request.DeclaredBy builder id) (known : id < builder.nextId) :
    Sound (builder.answer request id).2 := by
  have same : Extends builder (builder.answer request id).2 :=
    ⟨fun _ member => member, UInt32.le_refl _⟩
  constructor
  · exact sound.written
  · exact sound.fit
  · exact sound.texts
  · exact sound.distinct
  · exact sound.resultsKnown
  · exact sound.referencesKnown
  · intro key other cached
    obtain ⟨earlier, member, isKey⟩ := sound.remembered key other cached
    exact ⟨earlier, List.mem_cons_of_mem _ member, isKey⟩
  · intro earlier other member
    rcases List.mem_cons.mp member with isNew | old
    · cases isNew
      exact ⟨declared.mono same, known⟩
    · have before := sound.declared earlier other old
      exact ⟨before.1.mono same, before.2⟩

section Declaring

variable {request : Request} {moduleSection : ModuleSection} {opcode : SpirvOp}
variable {operands : UInt32 → List Operand}

theorem Sound.remember {key : CacheKey} {id : UInt32} (sound : Sound builder)
    (answered : ∃ request, (request, id) ∈ builder.answered ∧ request.key = key) :
    Sound { builder with
      cache := Function.update builder.cache key (some id) } := by
  have same : Extends builder { builder with
      cache := Function.update builder.cache key (some id) } :=
    ⟨fun _ member => member, UInt32.le_refl _⟩
  constructor
  · exact sound.written
  · exact sound.fit
  · exact sound.texts
  · exact sound.distinct
  · exact sound.resultsKnown
  · exact sound.referencesKnown
  · intro other cachedId cached
    by_cases isKey : other = key
    · subst isKey
      simp only [Function.update_self, Option.some.injEq] at cached
      subst cached
      exact answered
    · simp only [Function.update_of_ne isKey] at cached
      exact sound.remembered other cachedId cached
  · intro earlier other member
    have before := sound.declared earlier other member
    exact ⟨before.1.mono same, before.2⟩

theorem Sound.declare (sound : Sound builder)
    (declaration : Declaration builder request moduleSection opcode operands)
    (isMissing : builder.cache request.key = none) (room : HasRoom builder 1) :
    Answers builder request (builder.declare request moduleSection opcode operands) := by
  have handedOut := Extends.allocateId room
  have emitted := Extends.emit moduleSection opcode
    (operands builder.allocateId.1) builder.allocateId.2
  have grown := handedOut.trans emitted
  have declared := declaration.declares builder.allocateId.1 _ grown
    (mem_emitted_emit moduleSection opcode _ _)
  have known := allocateId_known room
  have emittable : Emittable builder.allocateId.2 (operands builder.allocateId.1) := by
    constructor
    · exact (declaration.short _).1
    · exact (declaration.short _).2
    · rw [declaration.result]
      refine ⟨List.nodup_singleton _, ?_⟩
      intro id member
      rw [List.mem_singleton.mp member]
      exact allocateId_fresh sound
    · rw [declaration.result]
      intro id member
      rw [List.mem_singleton.mp member]
      exact known
    · exact Knows.mono (declaration.known _) handedOut
  have soundEmitted := (sound.allocateId room).emit moduleSection opcode emittable
  have soundAnswered := soundEmitted.answer declared known
  constructor
  · exact soundAnswered.remember ⟨request, List.mem_cons_self, rfl⟩
  · exact ⟨grown.emitted, grown.ids⟩
  · exact declared.mono ⟨fun _ member => member, UInt32.le_refl _⟩
  · exact known
  · rw [missing, if_pos isMissing]
    exact toNat_nextId_allocateId room
  · intro key other
    exact Function.update_of_ne other _ _
  · rfl

theorem Sound.declareOnce (sound : Sound builder)
    (declaration : Declaration builder request moduleSection opcode operands)
    (room : HasRoom builder (missing builder request.key))
    (unambiguous : request.IsConstant → Unambiguous builder request) :
    Answers builder request (builder.declareOnce request moduleSection opcode operands) := by
  rw [SpirvModuleBuilder.declareOnce]
  rcases cached : builder.cache request.key with _ | existing
  · rw [missing, if_pos cached] at room
    exact sound.declare declaration cached room
  · obtain ⟨earlier, member, sameKey⟩ := sound.remembered _ _ cached
    have same : earlier = request := by
      by_cases isConstant : request.IsConstant
      · exact unambiguous isConstant earlier existing member sameKey
      · exact Request.eq_of_key isConstant sameKey
    subst same
    obtain ⟨declared, known⟩ := sound.declared _ _ member
    have unchanged : Extends builder (builder.answer earlier existing).2 :=
      ⟨fun _ member => member, UInt32.le_refl _⟩
    constructor
    · exact sound.answer declared known
    · exact unchanged
    · exact declared.mono unchanged
    · exact known
    · simp [missing, cached, SpirvModuleBuilder.answer]
    · intro key _
      rfl
    · rfl

end Declaring

theorem Sound.emitNew (sound : Sound builder) {others : List Operand}
    (emittable : EmittableNew builder others) (moduleSection : ModuleSection)
    (opcode : SpirvOp) {operands : List Operand}
    (sameLength : (operands.flatMap Operand.words).length =
      (others.flatMap Operand.words).length + 1)
    (sameTexts : ∀ value, Operand.text value ∈ operands → Operand.text value ∈ others)
    (newResults : results operands = builder.allocateId.1 :: results others)
    (sameReferences : references operands = references others) :
    Sound (builder.allocateId.2.emit moduleSection opcode operands) := by
  obtain ⟨room, others_emittable, short⟩ := emittable
  have handedOut := Extends.allocateId room
  apply (sound.allocateId room).emit moduleSection opcode
  constructor
  · omega
  · exact fun value member => others_emittable.texts value (sameTexts value member)
  · rw [newResults]
    constructor
    · refine List.nodup_cons.mpr ⟨?_, others_emittable.fresh.1⟩
      intro member
      exact absurd (others_emittable.resultsKnown _ member) (UInt32.lt_irrefl _)
    · intro id member
      rcases List.mem_cons.mp member with rfl | other
      · exact allocateId_fresh sound
      · exact others_emittable.fresh.2 id other
  · rw [newResults]
    intro id member
    rcases List.mem_cons.mp member with rfl | other
    · exact allocateId_known room
    · exact Knows.mono others_emittable.resultsKnown handedOut id other
  · rw [sameReferences]
    exact Knows.mono others_emittable.referencesKnown handedOut

theorem Sound.request (sound : Sound builder) {request : Request}
    (requestable : Requestable builder request ids)
    {moduleSection : ModuleSection} {opcode : SpirvOp}
    {operands : UInt32 → List Operand}
    (short : ∀ id, ((operands id).flatMap Operand.words).length + 1 < 2 ^ 16 ∧
      ∀ value, Operand.text value ∈ operands id → NulFree value)
    (result : ∀ id, results (operands id) = [id])
    (refers : ∀ id, references (operands id) = ids)
    (declares : ∀ id after, Extends builder after →
      (moduleSection, Instruction.mk opcode (operands id)) ∈ after.emitted →
        request.DeclaredBy after id) :
    Answers builder request (builder.declareOnce request moduleSection opcode operands) := by
  obtain ⟨room, known, unambiguous⟩ := requestable
  apply sound.declareOnce _ room unambiguous
  constructor
  · exact short
  · exact result
  · intro id
    rw [refers]
    exact known
  · exact declares

end Moves

end SharpEmu.Spirv
