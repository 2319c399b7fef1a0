import SharpEmu.CharacterEncodings
import SharpEmu.GuestCStrings
import SharpEmu.PrintfArguments
import SharpEmu.PrintfStandard

/-!
# Strings through snprintf

The format and the strings that `%s` prints are decoded to UTF-16, the output is built
in UTF-16, and it is encoded again before as much of it as fits is written.
-/

namespace SharpEmu
namespace Printf

open Addressed (Memory)

/-! ## The engine -/

/-- `Encoding.UTF8.GetString`. -/
def getString (bytes : List UInt8) : List UInt16 :=
  Unicode.toUtf16 (Unicode.fromUtf8 bytes)

/-- `Encoding.UTF8.GetBytes`. -/
def getBytes (text : List UInt16) : List UInt8 :=
  Unicode.toUtf8 (Unicode.fromUtf16 text)

def nullText : List UInt16 := Unicode.toUtf16 "(null)".toList

def truncateUnits (precision : Int32) (text : List UInt16) : List UInt16 :=
  if precision ≥ 0 then text.take precision.toInt.toNat else text

def padUnits (text : List UInt16) (width : Int32) (leftAlign : Bool) : List UInt16 :=
  if width.toInt ≤ text.length then text
  else
    let padding := List.replicate (width.toInt - text.length).toNat 32
    if leftAlign then text ++ padding else padding ++ text

def Conversion.stringUnits (conversion : Conversion)
    (wideText : ReadableMemory → UInt64 → Option (List UInt16))
    (memory : ReadableMemory) (address : UInt64) : List UInt16 :=
  if address = 0 then nullText
  else
    match
      if conversion.length = .long then wideText memory address
      else (memory.tryReadCString address).map getString with
    | none => nullText
    | some text =>
        padUnits (truncateUnits conversion.precision.precisionValue text)
          conversion.width.widthValue conversion.leftAlign

structure FormatState (Source : Type) where
  memory : ReadableMemory
  output : List UInt16
  source : Source

/-- Store the length so far for `%n`; a failure is ignored. -/
def tryWriteInt32 (memory : ReadableMemory) (address : UInt64) (value : ℕ) :
    ReadableMemory :=
  match Addressed.tryWrite memory.guest address (Addressed.bytesOf 4 value) with
  | some guest => { memory with guest }
  | none => memory

section Engine

variable {Source Float : Type}

def renderUnits (library : TextLibrary Float) (arguments : ArgumentSource Source Float)
    (wideText : ReadableMemory → UInt64 → Option (List UInt16))
    (conversion : Conversion) (state : FormatState Source) : FormatState Source :=
  let next := arguments.nextGpArg state.source
  match conversion.specifier with
  | 's' =>
      { state with
        output := state.output ++ conversion.stringUnits wideText state.memory next.1
        source := next.2 }
  | 'n' =>
      { state with
        memory :=
          if next.1 = 0 then state.memory
          else tryWriteInt32 state.memory next.1 state.output.length
        source := next.2 }
  | _ =>
      let rendered := renderConversion library arguments conversion state.source
      { state with
        output := state.output ++ Unicode.toUtf16 rendered.1.text
        source := rendered.2 }

def formatUnits (library : TextLibrary Float) (arguments : ArgumentSource Source Float)
    (wideText : ReadableMemory → UInt64 → Option (List UInt16)) (format : List Char)
    (state : FormatState Source) : FormatState Source :=
  match format with
  | [] => state
  | head :: behind =>
      if head = '%' then
        match _read : readConversion library arguments behind state.source with
        | none => { state with output := state.output ++ Unicode.toUtf16 ['%'] }
        | some (conversion, rest, afterReading) =>
            formatUnits library arguments wideText rest
              (renderUnits library arguments wideText conversion
                { state with source := afterReading })
      else
        formatUnits library arguments wideText (behind.dropWhile (· ≠ '%'))
          { state with
            output := state.output ++ Unicode.toUtf16 (head :: behind.takeWhile (· ≠ '%')) }
termination_by format.length
decreasing_by
  · exact Nat.lt_succ_of_lt (length_lt_of_readConversion _read)
  · exact Nat.lt_succ_of_le (List.length_dropWhile_le _ _)

end Engine

/-! ## Writing the output -/

inductive SnprintfResult
  | ok
  | memoryFault
deriving DecidableEq, Repr

/-- Guest memory and the register of the result. -/
structure SnprintfState where
  guest : Memory
  rax : UInt64

def writeSnprintfBytes (state : SnprintfState) (destination bufferSize : UInt64)
    (outputBytes : List UInt8) : SnprintfResult × SnprintfState :=
  if bufferSize ≠ 0 ∧ destination ≠ 0 then
    let maxWritable := min 0x7FFFFFFF (bufferSize - 1).toNat
    let copyLength := min maxWritable outputBytes.length
    match
      if copyLength > 0 then
        Addressed.tryWrite state.guest destination (outputBytes.take copyLength)
      else some state.guest with
    | none => (.memoryFault, state)
    | some copied =>
        match Addressed.tryWrite copied (destination + .ofNat copyLength) [0] with
        | none => (.memoryFault, { state with guest := copied })
        | some terminated => (.ok, ⟨terminated, .ofNat outputBytes.length⟩)
  else (.ok, { state with rax := .ofNat outputBytes.length })

def writeSnprintfOutput (state : SnprintfState) (destination bufferSize : UInt64)
    (output : List UInt16) : SnprintfResult × SnprintfState :=
  if bufferSize = 0 ∨ destination = 0 then
    (.ok, { state with rax := .ofNat (getBytes output).length })
  else writeSnprintfBytes state destination bufferSize (getBytes output)

def snprintfCore (library : TextLibrary UInt64)
    (wideText : ReadableMemory → UInt64 → Option (List UInt16)) (ctx : CpuContext)
    (memory : ReadableMemory) (rax : UInt64) : SnprintfResult × SnprintfState :=
  match memory.tryReadCString ctx.rdx with
  | none => (.memoryFault, ⟨memory.guest, rax⟩)
  | some formatBytes =>
      let formatted := formatUnits library registerArguments wideText (Unicode.fromUtf8 formatBytes)
        ⟨memory, [], RegisterPrintfArgumentSource.create ctx 3⟩
      writeSnprintfOutput ⟨formatted.memory.guest, rax⟩ ctx.rdi ctx.rsi formatted.output

/-! ## What is written -/

variable {state : SnprintfState} {destination bufferSize : UInt64}

def terminated (bufferSize : UInt64) (text : List UInt8) : List UInt8 :=
  text.take (bufferSize.toNat - 1) ++ [0]

def printed (guest : Memory) (destination bufferSize : UInt64) (text : List UInt8) :
    Memory :=
  if bufferSize = 0 then guest
  else Addressed.storeBytes guest destination (terminated bufferSize text)

theorem writeSnprintfBytes_eq (output : List UInt8) (notNull : destination ≠ 0)
    (nonempty : bufferSize ≠ 0) (short : output.length < 2 ^ 31)
    (writable : (Addressed.readBytes state.guest destination
      (terminated bufferSize output).length).isSome) :
    writeSnprintfBytes state destination bufferSize output =
      (.ok, ⟨printed state.guest destination bufferSize output, .ofNat output.length⟩) := by
  have size := Word64.toNat_pred nonempty
  have copyLength : min (min 0x7FFFFFFF (bufferSize - 1).toNat) output.length =
      (output.take (bufferSize.toNat - 1)).length := by
    rw [size, List.length_take]
    omega
  have isTake : output.take (output.take (bufferSize.toNat - 1)).length =
      output.take (bufferSize.toNat - 1) := by
    rw [List.length_take, ← List.take_take, List.take_length]
  unfold terminated at writable
  rw [List.length_append, List.length_singleton] at writable
  rw [Addressed.isSome_readBytes_iff] at writable
  unfold writeSnprintfBytes printed terminated
  rw [if_pos ⟨nonempty, notNull⟩, if_neg nonempty]
  dsimp only
  rw [copyLength, isTake]
  generalize output.take (bufferSize.toNat - 1) = copied at writable ⊢
  have store : (if copied.length > 0 then
      Addressed.tryWrite state.guest destination copied else some state.guest) =
      some (Addressed.storeBytes state.guest destination copied) := by
    split
    · apply Addressed.tryWrite_of_isSome
      rw [Addressed.isSome_readBytes_iff]
      exact fun index inside => writable index (by omega)
    · rename_i isEmpty
      rw [List.eq_nil_of_length_eq_zero (Nat.eq_zero_of_not_pos isEmpty)]
      rfl
  rw [store]
  dsimp only
  rw [Addressed.tryWrite_of_isSome, Addressed.storeBytes_append]
  rw [List.length_singleton, Addressed.isSome_readBytes_iff]
  intro index inside
  obtain rfl : index = 0 := by omega
  rw [Addressed.add_ofNat_zero]
  exact Addressed.isSome_storeBytes copied (writable copied.length (by omega))

variable {other : UInt64}

theorem writeSnprintfBytes_frame (output : List UInt8)
    (outside : Addressed.inRange destination bufferSize.toNat other = false) :
    (writeSnprintfBytes state destination bufferSize output).2.guest other = state.guest other := by
  unfold writeSnprintfBytes
  split
  · rename_i valid
    have size := Word64.toNat_pred valid.1
    have positive := Word64.toNat_pos valid.1
    have sizeBound := bufferSize.toNat_lt
    dsimp only
    have atMost : min (min 0x7FFFFFFF (bufferSize - 1).toNat) output.length ≤
        bufferSize.toNat - 1 := by omega
    generalize min (min 0x7FFFFFFF (bufferSize - 1).toNat) output.length = copyLength at atMost ⊢
    unfold Addressed.inRange at outside
    rw [decide_eq_false_iff_not] at outside
    have copies : ∀ copied, (if copyLength > 0 then
        Addressed.tryWrite state.guest destination (output.take copyLength)
        else some state.guest) = some copied → copied other = state.guest other := by
      intro copied isCopied
      have length := List.length_take_le copyLength output
      split at isCopied
      · apply Addressed.tryWrite_frame isCopied
        · unfold Addressed.inRange
          rw [decide_eq_false_iff_not]
          omega
        · omega
      · rw [Option.some.inj isCopied]
    split
    · rfl
    · rename_i copied isCopied
      have same := copies copied isCopied
      split
      · exact same
      · rename_i terminated isTerminated
        rw [← same]
        apply Addressed.tryWrite_frame isTerminated
        · have destinationBound := destination.toNat_lt
          have otherBound := other.toNat_lt
          have offset : (UInt64.ofNat copyLength).toNat = copyLength := by
            rw [UInt64.toNat_ofNat']
            exact Nat.mod_eq_of_lt (by omega)
          unfold Addressed.inRange
          rw [decide_eq_false_iff_not, List.length_singleton, UInt64.toNat_sub,
            UInt64.toNat_add, offset]
          rw [UInt64.toNat_sub] at outside
          omega
        · exact Nat.one_le_two_pow
  · rfl

theorem writeSnprintfOutput_frame (output : List UInt16)
    (outside : Addressed.inRange destination bufferSize.toNat other = false) :
    (writeSnprintfOutput state destination bufferSize output).2.guest other =
      state.guest other := by
  unfold writeSnprintfOutput
  split
  · rfl
  · exact writeSnprintfBytes_frame _ outside

theorem writeSnprintfOutput_eq (output : List UInt16) (notNull : destination ≠ 0)
    (short : (getBytes output).length < 2 ^ 31)
    (writable : bufferSize ≠ 0 → (Addressed.readBytes state.guest destination
      (terminated bufferSize (getBytes output)).length).isSome) :
    writeSnprintfOutput state destination bufferSize output =
      (.ok, ⟨printed state.guest destination bufferSize (getBytes output),
        .ofNat (getBytes output).length⟩) := by
  unfold writeSnprintfOutput
  by_cases isEmpty : bufferSize = 0
  · rw [if_pos (.inl isEmpty), printed, if_pos isEmpty]
  · rw [if_neg (not_or.mpr ⟨isEmpty, notNull⟩)]
    exact writeSnprintfBytes_eq _ notNull isEmpty short (writable isEmpty)

end Printf
end SharpEmu
