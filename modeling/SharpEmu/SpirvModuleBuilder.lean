import SharpEmu.LittleEndianSpans
import SharpEmu.WordCountedStreams
import SharpEmu.MachineWords

/-!
# The SPIR-V module builder

The builder hands out result ids, appends instructions to the ten sections of a
module and remembers, in dictionaries, which types, constants and imports it has
already declared.  Operands carry what they are to the caller: the result of the
instruction, another id, a literal word or a text; the sections hold words only.

The constants of all kinds share one dictionary, keyed by their type and a
packed 64-bit value.
-/

namespace SharpEmu.Spirv

abbrev SpirvOp := UInt16

namespace SpirvOp

def name : SpirvOp := 5
def extension : SpirvOp := 10
def extInstImport : SpirvOp := 11
def memoryModel : SpirvOp := 14
def entryPoint : SpirvOp := 15
def executionMode : SpirvOp := 16
def capability : SpirvOp := 17
def typeVoid : SpirvOp := 19
def typeBool : SpirvOp := 20
def typeInt : SpirvOp := 21
def typeFloat : SpirvOp := 22
def typeVector : SpirvOp := 23
def typeImage : SpirvOp := 25
def typeSampledImage : SpirvOp := 27
def typeArray : SpirvOp := 28
def typeRuntimeArray : SpirvOp := 29
def typeStruct : SpirvOp := 30
def typePointer : SpirvOp := 32
def typeFunction : SpirvOp := 33
def constantTrue : SpirvOp := 41
def constantFalse : SpirvOp := 42
def constant : SpirvOp := 43
def constantComposite : SpirvOp := 44
def constantNull : SpirvOp := 46
def function : SpirvOp := 54
def functionParameter : SpirvOp := 55
def functionEnd : SpirvOp := 56
def variableOp : SpirvOp := 59
def decorate : SpirvOp := 71
def memberDecorate : SpirvOp := 72
def label : SpirvOp := 248

end SpirvOp

inductive ModuleSection
  | capabilities
  | extensions
  | imports
  | memoryModel
  | entryPoints
  | executionModes
  | debug
  | annotations
  | typesConstantsGlobals
  | functions
  deriving DecidableEq

def ModuleSection.all : List ModuleSection :=
  [.capabilities, .extensions, .imports, .memoryModel, .entryPoints,
    .executionModes, .debug, .annotations, .typesConstantsGlobals, .functions]

inductive Operand
  | result (id : UInt32)
  | reference (id : UInt32)
  | literal (word : UInt32)
  | text (value : String)
  deriving DecidableEq

/-- The UTF-8 bytes of a text in words, with a zero byte behind them. -/
def encodeString (value : String) : List UInt32 :=
  let bytes := value.toUTF8.toList
  let byteCount := bytes.length + 1
  (List.range ((byteCount + 3) / 4)).map fun index =>
    UInt32.ofNat (LittleEndian.load (fun place => bytes.getD place 0) (4 * index) 4)

def Operand.words : Operand → List UInt32
  | result id => [id]
  | reference id => [id]
  | literal word => [word]
  | text value => encodeString value

structure Instruction where
  opcode : SpirvOp
  operands : List Operand
  deriving DecidableEq

def Instruction.plain (instruction : Instruction) : UInt16 × List UInt32 :=
  (instruction.opcode, instruction.operands.flatMap Operand.words)

inductive CacheKey
  | voidType
  | boolType
  | integerTypes (width : UInt32) (signed : Bool)
  | floatTypes (width : UInt32)
  | vectorTypes (component count : UInt32)
  | imageTypes (sampledType dimension : UInt32)
      (depth arrayed multisampled : Bool) (sampled format : UInt32)
  | sampledImageTypes (imageType : UInt32)
  | pointerTypes (storage type : UInt32)
  | arrayTypes (element count : UInt32)
  | runtimeArrayTypes (element : UInt32)
  | functionTypes (signature : String)
  | constants (type : UInt32) (value : UInt64)
  | extInstImports (name : String)
  deriving DecidableEq

/-- What the caller of a cached declaration asks for, with the ids of types
resolved. -/
inductive Request
  | typeVoid
  | typeBool
  | typeInt (width : UInt32) (signed : Bool)
  | typeFloat (width : UInt32)
  | typeVector (componentType count : UInt32)
  | typeImage (sampledType dimension : UInt32)
      (depth arrayed multisampled : Bool) (sampled format : UInt32)
  | typeSampledImage (imageType : UInt32)
  | typeArray (elementType count : UInt32)
  | typeRuntimeArray (elementType : UInt32)
  | typePointer (storageClass type : UInt32)
  | typeFunction (returnType : UInt32) (parameterTypes : List UInt32)
  | constantBool (type : UInt32) (value : Bool)
  | constant (type value : UInt32)
  | constant64 (type : UInt32) (value : UInt64)
  | constantNull (type : UInt32)
  | importExtInst (name : String)
  deriving DecidableEq

/-- The builder.  The last two fields are history: the instructions as their
callers meant them with their sections, and the cached requests with their
answers.  The builder
itself does not read them. -/
structure SpirvModuleBuilder where
  sections : ModuleSection → List UInt32
  cache : CacheKey → Option UInt32
  declaredCapabilities : List UInt32
  nextId : UInt32
  emitted : List (ModuleSection × Instruction)
  answered : List (Request × UInt32)

def SpirvModuleBuilder.new : SpirvModuleBuilder where
  sections := fun _ => []
  cache := fun _ => none
  declaredCapabilities := []
  nextId := 1
  emitted := []
  answered := []

def flag (value : Bool) : UInt32 := if value then 1 else 0

def functionTypeKey (returnType : UInt32) (parameterTypes : List UInt32) :
    String :=
  toString returnType.toNat ++ ":" ++
    ",".intercalate (parameterTypes.map fun type => toString type.toNat)

def Request.key : Request → CacheKey
  | typeVoid => .voidType
  | typeBool => .boolType
  | typeInt width signed => .integerTypes width signed
  | typeFloat width => .floatTypes width
  | typeVector componentType count => .vectorTypes componentType count
  | typeImage sampledType dimension depth arrayed multisampled sampled format =>
      .imageTypes sampledType dimension depth arrayed multisampled sampled format
  | typeSampledImage imageType => .sampledImageTypes imageType
  | typeArray elementType count => .arrayTypes elementType count
  | typeRuntimeArray elementType => .runtimeArrayTypes elementType
  | typePointer storageClass type => .pointerTypes storageClass type
  | typeFunction returnType parameterTypes =>
      .functionTypes (functionTypeKey returnType parameterTypes)
  | constantBool type value => .constants type (if value then 1 else 0)
  | constant type value => .constants type value.toUInt64
  | constant64 type value => .constants type value
  | constantNull type => .constants type 0xffffffffffffffff
  | importExtInst name => .extInstImports name

namespace SpirvModuleBuilder

def allocateId (builder : SpirvModuleBuilder) : UInt32 × SpirvModuleBuilder :=
  (builder.nextId, { builder with nextId := builder.nextId + 1 })

def emit (builder : SpirvModuleBuilder) (moduleSection : ModuleSection)
    (opcode : SpirvOp) (operands : List Operand) : SpirvModuleBuilder :=
  let instruction : Instruction := ⟨opcode, operands⟩
  { builder with
    sections := Function.update builder.sections moduleSection
      (builder.sections moduleSection ++ WordCounted.encode instruction.plain)
    emitted := builder.emitted ++ [(moduleSection, instruction)] }

/-- The text stands behind the other operands, or behind the first few. -/
def emitWithString (builder : SpirvModuleBuilder)
    (moduleSection : ModuleSection) (opcode : SpirvOp) (others : List Operand)
    (value : String) (stringBeforeTailCount : Option ℕ) : SpirvModuleBuilder :=
  match stringBeforeTailCount with
  | none => builder.emit moduleSection opcode (others ++ [.text value])
  | some count =>
      builder.emit moduleSection opcode (others.take count ++ .text value :: others.drop count)

def emitResult (builder : SpirvModuleBuilder) (moduleSection : ModuleSection)
    (opcode : SpirvOp) (resultType : UInt32) (operands : List Operand) :
    UInt32 × SpirvModuleBuilder :=
  let (result, builder) := builder.allocateId
  (result, builder.emit moduleSection opcode (.reference resultType :: .result result :: operands))

def answer (builder : SpirvModuleBuilder) (request : Request) (id : UInt32) :
    UInt32 × SpirvModuleBuilder :=
  (id, { builder with answered := (request, id) :: builder.answered })

def declare (builder : SpirvModuleBuilder) (request : Request)
    (moduleSection : ModuleSection) (opcode : SpirvOp)
    (operands : UInt32 → List Operand) : UInt32 × SpirvModuleBuilder :=
  let (id, builder) := builder.allocateId
  let builder := builder.emit moduleSection opcode (operands id)
  { builder with
    cache := Function.update builder.cache request.key (some id) }.answer request id

def declareOnce (builder : SpirvModuleBuilder) (request : Request)
    (moduleSection : ModuleSection) (opcode : SpirvOp)
    (operands : UInt32 → List Operand) : UInt32 × SpirvModuleBuilder :=
  match builder.cache request.key with
  | some existing => builder.answer request existing
  | none => builder.declare request moduleSection opcode operands

def addCapability (builder : SpirvModuleBuilder) (capability : UInt32) :
    SpirvModuleBuilder :=
  if capability ∈ builder.declaredCapabilities then builder
  else
    { builder with
      declaredCapabilities := capability :: builder.declaredCapabilities }.emit
        .capabilities SpirvOp.capability [.literal capability]

def addExtension (builder : SpirvModuleBuilder) (extension : String) :
    SpirvModuleBuilder :=
  builder.emitWithString .extensions SpirvOp.extension [] extension none

def importExtInst (builder : SpirvModuleBuilder) (name : String) : UInt32 × SpirvModuleBuilder :=
  builder.declareOnce (.importExtInst name) .imports SpirvOp.extInstImport
    fun id => [.result id, .text name]

def setLogicalGlsl450MemoryModel (builder : SpirvModuleBuilder) :
    SpirvModuleBuilder :=
  builder.emit .memoryModel SpirvOp.memoryModel [.literal 0, .literal 1]

def addEntryPoint (builder : SpirvModuleBuilder) (model function : UInt32)
    (name : String) (interfaces : List UInt32) : SpirvModuleBuilder :=
  builder.emitWithString .entryPoints SpirvOp.entryPoint
    (.literal model :: .reference function :: interfaces.map .reference) name
    (some 2)

def addExecutionMode (builder : SpirvModuleBuilder) (function mode : UInt32)
    (operands : List UInt32) : SpirvModuleBuilder :=
  builder.emit .executionModes SpirvOp.executionMode
    (.reference function :: .literal mode :: operands.map .literal)

def addName (builder : SpirvModuleBuilder) (target : UInt32) (name : String) :
    SpirvModuleBuilder :=
  builder.emitWithString .debug SpirvOp.name [.reference target] name none

def addDecoration (builder : SpirvModuleBuilder) (target decoration : UInt32)
    (operands : List UInt32) : SpirvModuleBuilder :=
  builder.emit .annotations SpirvOp.decorate
    (.reference target :: .literal decoration :: operands.map .literal)

def addMemberDecoration (builder : SpirvModuleBuilder)
    (target member decoration : UInt32) (operands : List UInt32) :
    SpirvModuleBuilder :=
  builder.emit .annotations SpirvOp.memberDecorate
    (.reference target :: .literal member :: .literal decoration :: operands.map .literal)

def typeVoid (builder : SpirvModuleBuilder) : UInt32 × SpirvModuleBuilder :=
  builder.declareOnce .typeVoid .typesConstantsGlobals SpirvOp.typeVoid
    fun id => [.result id]

def typeBool (builder : SpirvModuleBuilder) : UInt32 × SpirvModuleBuilder :=
  builder.declareOnce .typeBool .typesConstantsGlobals SpirvOp.typeBool
    fun id => [.result id]

def typeInt (builder : SpirvModuleBuilder) (width : UInt32) (signed : Bool) :
    UInt32 × SpirvModuleBuilder :=
  builder.declareOnce (.typeInt width signed) .typesConstantsGlobals SpirvOp.typeInt
    fun id => [.result id, .literal width, .literal (flag signed)]

def typeFloat (builder : SpirvModuleBuilder) (width : UInt32) : UInt32 × SpirvModuleBuilder :=
  builder.declareOnce (.typeFloat width) .typesConstantsGlobals
    SpirvOp.typeFloat fun id => [.result id, .literal width]

def typeVector (builder : SpirvModuleBuilder) (componentType count : UInt32) :
    UInt32 × SpirvModuleBuilder :=
  builder.declareOnce (.typeVector componentType count) .typesConstantsGlobals SpirvOp.typeVector
    fun id => [.result id, .reference componentType, .literal count]

def typeImage (builder : SpirvModuleBuilder) (sampledType dimension : UInt32)
    (depth arrayed multisampled : Bool) (sampled format : UInt32) :
    UInt32 × SpirvModuleBuilder :=
  builder.declareOnce (.typeImage sampledType dimension depth arrayed multisampled sampled format)
    .typesConstantsGlobals SpirvOp.typeImage
    fun id => [.result id, .reference sampledType, .literal dimension,
      .literal (flag depth), .literal (flag arrayed),
      .literal (flag multisampled), .literal sampled, .literal format]

def typeSampledImage (builder : SpirvModuleBuilder) (imageType : UInt32) :
    UInt32 × SpirvModuleBuilder :=
  builder.declareOnce (.typeSampledImage imageType) .typesConstantsGlobals
    SpirvOp.typeSampledImage fun id => [.result id, .reference imageType]

def constant (builder : SpirvModuleBuilder) (type value : UInt32) : UInt32 × SpirvModuleBuilder :=
  builder.declareOnce (.constant type value) .typesConstantsGlobals
    SpirvOp.constant fun id => [.reference type, .result id, .literal value]

/-- The length of an array is a constant of its own, declared first. -/
def typeArray (builder : SpirvModuleBuilder) (elementType count : UInt32) :
    UInt32 × SpirvModuleBuilder :=
  match builder.cache (Request.typeArray elementType count).key with
  | some existing => builder.answer (.typeArray elementType count) existing
  | none =>
      let (lengthType, builder) := builder.typeInt 32 false
      let (length, builder) := builder.constant lengthType count
      builder.declare (.typeArray elementType count) .typesConstantsGlobals SpirvOp.typeArray
        fun id => [.result id, .reference elementType, .reference length]

def typeRuntimeArray (builder : SpirvModuleBuilder) (elementType : UInt32) :
    UInt32 × SpirvModuleBuilder :=
  builder.declareOnce (.typeRuntimeArray elementType) .typesConstantsGlobals
    SpirvOp.typeRuntimeArray fun id => [.result id, .reference elementType]

def typeStruct (builder : SpirvModuleBuilder) (memberTypes : List UInt32) :
    UInt32 × SpirvModuleBuilder :=
  let (id, builder) := builder.allocateId
  (id, builder.emit .typesConstantsGlobals SpirvOp.typeStruct
    (.result id :: memberTypes.map .reference))

def typePointer (builder : SpirvModuleBuilder) (storageClass type : UInt32) :
    UInt32 × SpirvModuleBuilder :=
  builder.declareOnce (.typePointer storageClass type) .typesConstantsGlobals SpirvOp.typePointer
    fun id => [.result id, .literal storageClass, .reference type]

def typeFunction (builder : SpirvModuleBuilder) (returnType : UInt32)
    (parameterTypes : List UInt32) : UInt32 × SpirvModuleBuilder :=
  builder.declareOnce (.typeFunction returnType parameterTypes)
    .typesConstantsGlobals SpirvOp.typeFunction
    fun id => .result id :: .reference returnType :: parameterTypes.map .reference

def constantBool (builder : SpirvModuleBuilder) (value : Bool) : UInt32 × SpirvModuleBuilder :=
  let (type, builder) := builder.typeBool
  builder.declareOnce (.constantBool type value) .typesConstantsGlobals
    (if value then SpirvOp.constantTrue else SpirvOp.constantFalse)
    fun id => [.reference type, .result id]

def constant64 (builder : SpirvModuleBuilder) (type : UInt32) (value : UInt64) :
    UInt32 × SpirvModuleBuilder :=
  builder.declareOnce (.constant64 type value) .typesConstantsGlobals SpirvOp.constant
    fun id => [.reference type, .result id, .literal value.toUInt32,
      .literal (value >>> 32).toUInt32]

def constantFloat (builder : SpirvModuleBuilder) (type bits : UInt32) :
    UInt32 × SpirvModuleBuilder :=
  builder.constant type bits

def constantComposite (builder : SpirvModuleBuilder) (type : UInt32)
    (constituents : List UInt32) : UInt32 × SpirvModuleBuilder :=
  let (id, builder) := builder.allocateId
  (id, builder.emit .typesConstantsGlobals SpirvOp.constantComposite
    (.reference type :: .result id :: constituents.map .reference))

def constantNull (builder : SpirvModuleBuilder) (type : UInt32) : UInt32 × SpirvModuleBuilder :=
  builder.declareOnce (.constantNull type) .typesConstantsGlobals
    SpirvOp.constantNull fun id => [.reference type, .result id]

def addVariable (builder : SpirvModuleBuilder) (moduleSection : ModuleSection)
    (pointerType storageClass : UInt32) (initializer : Option UInt32) :
    UInt32 × SpirvModuleBuilder :=
  let (id, builder) := builder.allocateId
  (id, builder.emit moduleSection SpirvOp.variableOp
    (.reference pointerType :: .result id :: .literal storageClass ::
      (initializer.map Operand.reference).toList))

def addGlobalVariable (builder : SpirvModuleBuilder)
    (pointerType storageClass : UInt32) (initializer : Option UInt32) :
    UInt32 × SpirvModuleBuilder :=
  builder.addVariable .typesConstantsGlobals pointerType storageClass initializer

def beginFunction (builder : SpirvModuleBuilder)
    (returnType functionType : UInt32) : UInt32 × SpirvModuleBuilder :=
  let (id, builder) := builder.allocateId
  (id, builder.emit .functions SpirvOp.function
    [.reference returnType, .result id, .literal 0, .reference functionType])

def addFunctionParameter (builder : SpirvModuleBuilder) (type : UInt32) :
    UInt32 × SpirvModuleBuilder :=
  builder.emitResult .functions SpirvOp.functionParameter type []

def addLabel (builder : SpirvModuleBuilder) (id : Option UInt32) : UInt32 × SpirvModuleBuilder :=
  let (result, builder) :=
    match id with
    | some given => (given, builder)
    | none => builder.allocateId
  (result, builder.emit .functions SpirvOp.label [.result result])

def addFunctionVariable (builder : SpirvModuleBuilder) (pointerType : UInt32)
    (initializer : Option UInt32) : UInt32 × SpirvModuleBuilder :=
  builder.addVariable .functions pointerType 7 initializer

def addInstruction (builder : SpirvModuleBuilder) (opcode : SpirvOp)
    (resultType : UInt32) (operands : List Operand) :
    UInt32 × SpirvModuleBuilder :=
  builder.emitResult .functions opcode resultType operands

def addStatement (builder : SpirvModuleBuilder) (opcode : SpirvOp)
    (operands : List Operand) : SpirvModuleBuilder :=
  builder.emit .functions opcode operands

def endFunction (builder : SpirvModuleBuilder) : SpirvModuleBuilder :=
  builder.emit .functions SpirvOp.functionEnd []

def magic : UInt32 := 0x07230203
def version15 : UInt32 := 0x00010500
def generator : UInt32 := 0x53504500

/-- The words of the sections in writing order. -/
def body (builder : SpirvModuleBuilder) : List UInt32 :=
  ModuleSection.all.flatMap builder.sections

def withMemoryModel (builder : SpirvModuleBuilder) : SpirvModuleBuilder :=
  if builder.sections .memoryModel = [] then
    builder.setLogicalGlsl450MemoryModel
  else builder

/-- The header and the sections. -/
def words (builder : SpirvModuleBuilder) : List UInt32 :=
  magic :: version15 :: generator :: builder.nextId :: 0 :: builder.body

/-- The words that the bytes of a finished module hold.  Sizes are 32-bit
integers: a negative size is an error, and a byte count that wraps around copies
only the front of the module. -/
def build (builder : SpirvModuleBuilder) : Option (List UInt32) × SpirvModuleBuilder :=
  let finished := builder.withMemoryModel
  let byteCount := finished.words.length * 4 % 2 ^ 32
  if 2 ^ 31 ≤ finished.words.length ∨ 2 ^ 31 ≤ byteCount then (none, finished)
  else (some (finished.words.take (byteCount / 4)), finished)

end SpirvModuleBuilder

end SharpEmu.Spirv
