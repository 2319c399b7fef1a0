import SharpEmu.SnprintfStrings

/-!
# Which strings snprintf prints unchanged

The bytes of a `%s` go through UTF-16 and a precision counts UTF-16 units.  They come
out unchanged exactly when they are a text and no precision cuts it, or when the
precision cuts behind bytes that are all ASCII.
-/

namespace SharpEmu
namespace Printf

open Addressed (Memory)

def stringFormat : FieldNumber → List Char
  | .absent => ['%', 's']
  | .literal digits => '%' :: '.' :: (digits ++ ['s'])
  | .argument _ => ['%', '.', '*', 's']

def CpuContext.stringArgument (ctx : CpuContext) : FieldNumber → UInt64
  | .argument _ => ctx.r8
  | _ => ctx.rcx

def unitLimit (precision : FieldNumber) : Option ℕ :=
  if precision.precisionValue ≥ 0 then some precision.precisionValue.toInt.toNat
  else none

def requested (precision : FieldNumber) (string : List UInt8) : List UInt8 :=
  match precision.standardPrecision with
  | none => string
  | some count => string.take count

def AsciiDigits {Float : Type} (library : TextLibrary Float) : Prop :=
  ∀ char : Char, char.toNat < 0x80 → library.isDigit char = char.isDigit

structure PrintsString (ctx : CpuContext) (memory : ReadableMemory)
    (precision : FieldNumber) (string : List UInt8) : Prop where
  standard : precision.IsStandard
  format : HoldsCString memory.guest ctx.rdx (Unicode.toUtf8 (stringFormat precision))
  formatLength : (Unicode.toUtf8 (stringFormat precision)).length ≤ stringLimit
  source : HoldsCString memory.guest (ctx.stringArgument precision) string
  argument : ∀ value, precision = .argument value → ctx.rcx = value

variable {library : TextLibrary UInt64} {ctx : CpuContext} {memory : ReadableMemory}
variable {wideText : ReadableMemory → UInt64 → Option (List UInt16)}
variable {precision : FieldNumber} {string : List UInt8}

/-! ## The engine on these formats -/

theorem truncateUnits_eq (precision : FieldNumber) (text : List UInt16) :
    truncateUnits precision.precisionValue text = Unicode.cut (unitLimit precision) text := by
  unfold truncateUnits unitLimit
  split <;> rfl

theorem isDigit_letter (digits : AsciiDigits library) :
    library.isDigit 's' = false ∧ library.isDigit '.' = false := by
  constructor
  · rw [digits 's' (by decide)]
    rfl
  · rw [digits '.' (by decide)]
    rfl

variable {digits : List Char}

theorem takeWhile_digits (ascii : AsciiDigits library)
    (standard : ∀ digit ∈ digits, digit.isDigit = true) (rest : List Char) :
    (digits ++ 's' :: rest).takeWhile library.isDigit = digits ∧
      (digits ++ 's' :: rest).dropWhile library.isDigit = 's' :: rest := by
  have all : ∀ digit ∈ digits, library.isDigit digit = true := by
    intro digit member
    have isDigit := standard digit member
    have small : digit.toNat < 0x80 := by
      have bounds : 48 ≤ digit.toNat ∧ digit.toNat ≤ 57 := by
        simpa [Char.isDigit, UInt32.le_iff_toNat_le] using isDigit
      omega
    rw [ascii digit small, isDigit]
  rw [List.takeWhile_append_of_pos all, List.dropWhile_append_of_pos all,
    List.takeWhile_cons, List.dropWhile_cons, (isDigit_letter ascii).1]
  simp

def stringConversion (precision : FieldNumber) : Conversion :=
  ⟨.none, .absent, precision, .none, 's'⟩

theorem readPrecision_literal (ascii : AsciiDigits library)
    (standard : ∀ digit ∈ digits, digit.isDigit = true)
    (source : RegisterPrintfArgumentSource) :
    readPrecision library registerArguments ('.' :: (digits ++ ['s'])) source =
      (.literal digits, ['s'], source) := by
  obtain ⟨taken, dropped⟩ := takeWhile_digits ascii standard []
  have noStar : ∀ rest, digits ++ ['s'] ≠ '*' :: rest := by
    intro rest same
    cases digits with
    | nil => simp at same
    | cons digit digits =>
      rw [List.cons_append, List.cons.injEq] at same
      have isDigit := standard digit List.mem_cons_self
      rw [same.1] at isDigit
      cases isDigit
  unfold readPrecision
  split
  · rename_i rest isStar
    exact absurd (List.cons.inj isStar).2 (noStar rest)
  · rename_i rest _ isRest
    rw [← (List.cons.inj isRest).2, taken, dropped]
  · rename_i noDot
    exact absurd rfl (noDot _)

theorem readConversion_stringFormat (ascii : AsciiDigits library) (standard : precision.IsStandard)
    (argument : ∀ value, precision = .argument value → ctx.rcx = value) :
    ∃ behind source, stringFormat precision = '%' :: behind ∧
      readConversion library registerArguments behind (RegisterPrintfArgumentSource.create ctx 3) =
        some (stringConversion precision, [], source) ∧
      (source.nextGpArg).1 = ctx.stringArgument precision := by
  obtain ⟨notLetter, notDot⟩ := isDigit_letter ascii
  cases precision with
  | absent =>
    refine ⟨['s'], RegisterPrintfArgumentSource.create ctx 3, rfl, ?_, rfl⟩
    simp [readConversion, readFlags, readWidth, readPrecision, readLength, notLetter,
      stringConversion]
  | literal digits =>
    refine ⟨'.' :: (digits ++ ['s']), RegisterPrintfArgumentSource.create ctx 3, rfl, ?_, rfl⟩
    simp [readConversion, readFlags, readWidth, notDot, readLength, stringConversion,
      readPrecision_literal ascii standard]
  | argument value =>
    refine ⟨['.', '*', 's'], { RegisterPrintfArgumentSource.create ctx 3 with
      gpIndex := 4 }, rfl, ?_, rfl⟩
    obtain rfl := argument value rfl
    simp [readConversion, readFlags, readWidth, readPrecision, readLength, notDot,
      stringConversion, registerArguments, RegisterPrintfArgumentSource.nextGpArg,
      RegisterPrintfArgumentSource.create, CpuContext.gpRegister]

theorem stringUnits_eq (agrees : memory.HostAgrees) {address : UInt64}
    (holds : HoldsCString memory.guest address string) :
    (stringConversion precision).stringUnits wideText memory address =
      Unicode.cut (unitLimit precision) (getString (string.take stringLimit)) := by
  have noPadding (text : List UInt16) : padUnits text (stringConversion precision).width.widthValue
        (stringConversion precision).leftAlign = text :=
    if_pos (Int.natCast_nonneg _)
  unfold Conversion.stringUnits
  rw [if_neg holds.notNull, if_neg (by simp [stringConversion]),
    tryReadCString_eq agrees holds, Option.map_some]
  dsimp only
  rw [noPadding]
  exact truncateUnits_eq precision _

theorem snprintfCore_eq (ascii : AsciiDigits library) (agrees : memory.HostAgrees)
    (prints : PrintsString ctx memory precision string) (rax : UInt64) :
    snprintfCore library wideText ctx memory rax =
      writeSnprintfOutput ⟨memory.guest, rax⟩ ctx.rdi ctx.rsi
        (Unicode.cut (unitLimit precision) (getString (string.take stringLimit))) := by
  obtain ⟨behind, source, isFormat, isRead, isArgument⟩ :=
    readConversion_stringFormat ascii prints.standard prints.argument
  have formatted : formatUnits library registerArguments wideText
      (stringFormat precision) ⟨memory, [], RegisterPrintfArgumentSource.create ctx 3⟩ =
      ⟨memory, Unicode.cut (unitLimit precision) (getString (string.take stringLimit)),
        source.nextGpArg.2⟩ := by
    rw [isFormat, formatUnits, if_pos rfl]
    split
    · rename_i none
      rw [isRead] at none
      cases none
    · rename_i conversion rest after isSome
      rw [isRead] at isSome
      obtain ⟨rfl, rfl, rfl⟩ := by simpa using isSome
      have rendered : renderUnits library registerArguments wideText
          (stringConversion precision) ⟨memory, [], source⟩ =
          ⟨memory, [] ++ (stringConversion precision).stringUnits wideText memory
            source.nextGpArg.1, source.nextGpArg.2⟩ := rfl
      rw [rendered, isArgument, stringUnits_eq agrees prints.source, List.nil_append, formatUnits]
  unfold snprintfCore
  rw [tryReadCString_eq agrees prints.format, List.take_of_length_le prints.formatLength]
  dsimp only
  rw [Unicode.fromUtf8_toUtf8, formatted]

theorem getBytes_cut (precision : FieldNumber) (bytes : List UInt8) :
    getBytes (Unicode.cut (unitLimit precision) (getString bytes)) =
      Unicode.transcode (unitLimit precision) bytes :=
  rfl

theorem length_output_le (precision : FieldNumber) (string : List UInt8) :
    (Unicode.transcode (unitLimit precision) (string.take stringLimit)).length ≤
      3 * stringLimit := by
  have transcoded := Unicode.length_transcode_le (unitLimit precision) (string.take stringLimit)
  have taken := List.length_take_le stringLimit string
  omega

theorem requested_prefix (precision : FieldNumber) (string : List UInt8) :
    requested precision string <+: string := by
  unfold requested
  split
  · exact List.prefix_refl string
  · exact List.take_prefix _ _

theorem unitLimit_eq (standard : precision.IsStandard)
    (less : (requested precision string).length < (string.take stringLimit).length) :
    unitLimit precision = some (requested precision string).length := by
  have bound := List.length_take_le stringLimit string
  have whole := List.length_take_le' stringLimit string
  have size : stringLimit = 1048576 := rfl
  have keeps : ∀ count : ℕ, precision.standardPrecision = some count →
      count = (requested precision string).length := by
    intro count isCount
    unfold requested at less ⊢
    rw [isCount] at less ⊢
    dsimp only at less ⊢
    rw [List.length_take] at less ⊢
    omega
  have isLimit (isCount : precision.precisionValue.toInt = (requested precision string).length) :
      unitLimit precision = some (requested precision string).length := by
    unfold unitLimit
    rw [if_pos, isCount, Int.toNat_natCast]
    rw [ge_iff_le, Int32.le_iff_toInt_le, isCount]
    exact Int.natCast_nonneg _
  cases precision with
  | absent =>
    unfold requested FieldNumber.standardPrecision at less
    dsimp only at less
    omega
  | literal digits =>
    have count := keeps (naturalValue digits) rfl
    apply isLimit
    rw [← count]
    exact toInt_literalValue standard (by omega)
  | argument value =>
    apply isLimit
    have isValue : (FieldNumber.argument value).precisionValue =
        value.toUInt32.toInt32 := rfl
    rw [isValue]
    by_cases negative : value.toUInt32.toInt32.toInt < 0
    · have none : (FieldNumber.argument value).standardPrecision = none :=
        if_pos negative
      unfold requested at less
      rw [none] at less
      dsimp only at less
      omega
    · have count := keeps value.toUInt32.toInt32.toInt.toNat (if_neg negative)
      omega

/-! ## When the law holds -/

def PrintsText (library : TextLibrary UInt64)
    (wideText : ReadableMemory → UInt64 → Option (List UInt16)) (ctx : CpuContext)
    (memory : ReadableMemory) (text : List UInt8) : Prop :=
  ∀ destination bufferSize rax : UInt64, destination ≠ 0 →
    (bufferSize ≠ 0 → (Addressed.readBytes memory.guest destination
      (terminated bufferSize text).length).isSome) →
    snprintfCore library wideText { ctx with rdi := destination, rsi := bufferSize } memory rax =
      (.ok, ⟨printed memory.guest destination bufferSize text, .ofNat text.length⟩)

theorem PrintsString.buffer (prints : PrintsString ctx memory precision string)
    (destination bufferSize : UInt64) :
    PrintsString { ctx with rdi := destination, rsi := bufferSize } memory precision string where
  standard := prints.standard
  format := prints.format
  formatLength := prints.formatLength
  source := by
    have same : ({ ctx with rdi := destination, rsi := bufferSize } :
        CpuContext).stringArgument precision = ctx.stringArgument precision := by
      cases precision <;> rfl
    rw [same]
    exact prints.source
  argument := prints.argument

theorem transcode_eq_of_printsText (ascii : AsciiDigits library)
    (agrees : memory.HostAgrees) (prints : PrintsString ctx memory precision string)
    {destination : UInt64} (notNull : destination ≠ 0)
    (roomy : (Addressed.readBytes memory.guest destination
      (3 * stringLimit + 1)).isSome) {text : List UInt8}
    (short : text.length < 2 ^ 64) (law : PrintsText library wideText ctx memory text) :
    Unicode.transcode (unitLimit precision) (string.take stringLimit) = text := by
  have outputLength := length_output_le precision string
  have size : stringLimit = 1048576 := rfl
  have bufferSize : (UInt64.ofNat (3 * stringLimit + 1)).toNat = 3 * stringLimit + 1 := rfl
  have nonempty : UInt64.ofNat (3 * stringLimit + 1) ≠ 0 := by decide
  rw [Addressed.isSome_readBytes_iff] at roomy
  have room : ∀ text : List UInt8, (Addressed.readBytes memory.guest destination
      (terminated (UInt64.ofNat (3 * stringLimit + 1)) text).length).isSome := by
    intro text
    have taken := List.length_take_le (3 * stringLimit) text
    rw [Addressed.isSome_readBytes_iff, terminated, List.length_append,
      List.length_singleton, bufferSize, Nat.add_sub_cancel]
    exact fun index inside => roomy index (by omega)
  have isPrinted := law destination (.ofNat (3 * stringLimit + 1)) 0 notNull
    fun _ => room text
  rw [snprintfCore_eq ascii agrees (prints.buffer _ _),
    writeSnprintfOutput_eq _ notNull (by rw [getBytes_cut]; omega)
      (fun _ => room _), getBytes_cut, Prod.mk.injEq, SnprintfState.mk.injEq] at isPrinted
  obtain ⟨-, sameMemory, sameLength⟩ := isPrinted
  generalize Unicode.transcode (unitLimit precision) (string.take stringLimit) = output
    at outputLength sameMemory sameLength ⊢
  have length := congrArg UInt64.toNat sameLength
  rw [UInt64.toNat_ofNat', UInt64.toNat_ofNat', Nat.mod_eq_of_lt (by omega),
    Nat.mod_eq_of_lt (by omega)] at length
  rw [printed, printed, if_neg nonempty, if_neg nonempty] at sameMemory
  have stored := Addressed.eq_of_storeBytes_eq (by simp [terminated, length]) (by
      rw [terminated, List.length_append, List.length_take, List.length_singleton]
      omega) sameMemory
  rw [terminated, terminated, bufferSize, Nat.add_sub_cancel,
    List.take_of_length_le outputLength, List.take_of_length_le (by omega)] at stored
  exact List.append_cancel_right stored

/-- `snprintf` prints the requested bytes to every buffer if they survive being
decoded, cut and encoded, and, as soon as some buffer has room for every
output, only if they do; and it never writes outside of its buffer. -/
theorem snprintf_prints_iff_survives (ascii : AsciiDigits library)
    (agrees : memory.HostAgrees) (prints : PrintsString ctx memory precision string) :
    (Unicode.Survives (unitLimit precision) (string.take stringLimit) (requested precision string) →
      PrintsText library wideText ctx memory (requested precision string)) ∧
    ((∃ destination : UInt64, destination ≠ 0 ∧
        (Addressed.readBytes memory.guest destination (3 * stringLimit + 1)).isSome) →
      PrintsText library wideText ctx memory (requested precision string) →
      Unicode.Survives (unitLimit precision) (string.take stringLimit)
        (requested precision string)) ∧
    ∀ destination bufferSize rax other : UInt64,
      Addressed.inRange destination bufferSize.toNat other = false →
      (snprintfCore library wideText { ctx with rdi := destination, rsi := bufferSize }
        memory rax).2.guest other = memory.guest other := by
  have inMemory := prints.source.inside
  have isRequested := requested_prefix precision string
  have survivesIff := Unicode.transcode_eq_iff (List.take_prefix stringLimit string)
    isRequested (unitLimit_eq prints.standard)
  rw [← survivesIff]
  refine ⟨?_, ?_, ?_⟩
  · intro survives destination bufferSize rax notNull writable
    have outputLength := length_output_le precision string
    have size : stringLimit = 1048576 := rfl
    rw [snprintfCore_eq ascii agrees (prints.buffer _ _),
      writeSnprintfOutput_eq _ notNull (by rw [getBytes_cut]; omega)
        (by rw [getBytes_cut, survives]; exact writable), getBytes_cut, survives]
  · rintro ⟨destination, notNull, room⟩ law
    have shorter := isRequested.length_le
    exact transcode_eq_of_printsText ascii agrees prints notNull room (by omega) law
  · intro destination bufferSize rax other outside
    rw [snprintfCore_eq ascii agrees (prints.buffer _ _)]
    exact writeSnprintfOutput_frame _ outside

def plainLibrary : TextLibrary UInt64 :=
  ⟨Char.isDigit, fun _ _ => none, fun _ => none, fun _ _ _ => [], fun _ => true⟩

def memoryWith (string : List UInt8) : ReadableMemory where
  guest := fun address =>
    if address < 0x200 then some (([0x25, 0x73] : List UInt8).getD (address - 0x100).toNat 0)
    else some (string.getD (address - 0x200).toNat 0)
  tryReadHostMemory := fun _ _ => none

/-- The call `snprintf(0x300, 8, "%s", string)`. -/
def printCall : CpuContext where
  rdi := 0x300
  rsi := 8
  rdx := 0x100
  rcx := 0x200
  r8 := 0
  r9 := 0
  rsp := 0
  xmm := fun _ => 0
  tryReadUInt64 := fun _ => none
  tryReadHostMemory := fun _ => none

theorem memoryWith_agrees (string : List UInt8) : (memoryWith string).HostAgrees := by
  intro address count bytes isRead
  cases isRead

theorem memoryWith_roomy (string : List UInt8) : ∃ destination : UInt64, destination ≠ 0 ∧
      (Addressed.readBytes (memoryWith string).guest destination (3 * stringLimit + 1)).isSome := by
  refine ⟨0x300, by decide, ?_⟩
  rw [Addressed.isSome_readBytes_iff]
  intro index inside
  unfold memoryWith
  dsimp only
  split <;> rfl

theorem printCall_prints {string : List UInt8}
    (source : HoldsCString (memoryWith string).guest 0x200 string)
    (format : HoldsCString (memoryWith string).guest 0x100 [0x25, 0x73]) :
    PrintsString printCall (memoryWith string) .absent string where
  standard := trivial
  format := format
  formatLength := by decide
  source := source
  argument := by simp

/-- The two bytes of an accented letter survive; a byte 0xFF does not. -/
theorem snprintf_prints_iff_survives_letter :
    PrintsText plainLibrary (fun _ _ => none) printCall (memoryWith [0xC3, 0xA9]) [0xC3, 0xA9] ∧
      ¬ PrintsText plainLibrary (fun _ _ => none) printCall (memoryWith [0xFF]) [0xFF] := by
  have letter : PrintsString printCall (memoryWith [0xC3, 0xA9]) .absent [0xC3, 0xA9] :=
    printCall_prints ⟨by decide, by decide, by decide, by decide +kernel⟩
      ⟨by decide, by decide, by decide, by decide +kernel⟩
  have invalid : PrintsString printCall (memoryWith [0xFF]) .absent [0xFF] :=
    printCall_prints ⟨by decide, by decide, by decide, by decide +kernel⟩
      ⟨by decide, by decide, by decide, by decide +kernel⟩
  constructor
  · apply (snprintf_prints_iff_survives (fun _ _ => rfl) (memoryWith_agrees _) letter).1
    exact ⟨['é'], by decide, by simp [unitLimit, FieldNumber.precisionValue], .inl (by decide)⟩
  · intro law
    obtain ⟨text, isText, -⟩ := (snprintf_prints_iff_survives (fun _ _ => rfl)
      (memoryWith_agrees _) invalid).2.1 (memoryWith_roomy _) law
    have decoded := congrArg Unicode.fromUtf8 isText
    rw [Unicode.fromUtf8_toUtf8] at decoded
    rw [← decoded] at isText
    revert isText
    decide

/-- The string of one byte 0xFF is printed as three bytes. -/
theorem invalid_byte_replaced : HoldsCString (memoryWith [0xFF]).guest 0x200 [0xFF] ∧
      (snprintfCore plainLibrary (fun _ _ => none) printCall (memoryWith [0xFF]) 0).2.rax = 3 ∧
      (snprintfCore plainLibrary (fun _ _ => none) printCall (memoryWith [0xFF])
        0).2.guest 0x300 = some 0xEF := by
  have source : HoldsCString (memoryWith [0xFF]).guest 0x200 [0xFF] :=
    ⟨by decide, by decide, by decide, by decide +kernel⟩
  have prints := printCall_prints source ⟨by decide, by decide, by decide, by decide +kernel⟩
  refine ⟨source, ?_⟩
  rw [snprintfCore_eq (fun _ _ => rfl) (memoryWith_agrees _) prints]
  decide +kernel

end Printf
end SharpEmu
