import Mathlib.Data.List.TakeWhile
import Mathlib.Tactic.Common

/-!
# The printf engine

`FormatString` walks a format string once.  A conversion is read in the order
flags, width, precision, length modifier, specifier, and rendered in two stages:
the number is turned into text with its sign or prefix, and `PadString` then
fills the field.  Guest memory, floating-point text and the argument source are
parameters.
-/

namespace SharpEmu
namespace Printf

inductive PrintfLength
  | none
  | char
  | short
  | long
deriving DecidableEq, Repr

structure Flags where
  leftAlign : Bool
  showSign : Bool
  spaceForSign : Bool
  padWithZero : Bool
  alternateForm : Bool
deriving DecidableEq, Repr

def Flags.none : Flags := ⟨false, false, false, false, false⟩

/-- A width or a precision as the format string gives it. -/
inductive FieldNumber
  | absent
  | literal (digits : List Char)
  | argument (value : UInt64)
deriving DecidableEq, Repr

structure Conversion where
  flags : Flags
  width : FieldNumber
  precision : FieldNumber
  length : PrintfLength
  specifier : Char
deriving DecidableEq, Repr

/-- Where the arguments come from: registers and stack, or a `va_list`. -/
structure ArgumentSource (Source Float : Type) where
  nextGpArg : Source → UInt64 × Source
  nextFloatArg : Source → Float × Source

/-- What a text needs beyond the format string and the arguments. -/
structure TextLibrary (Float : Type) where
  /-- `char.IsDigit`, which also accepts the decimal digits of other scripts. -/
  isDigit : Char → Bool
  /-- The string at a guest address, wide or narrow. -/
  readText : Bool → UInt64 → Option (List Char)
  wideChar : UInt16 → Option (List Char)
  /-- The text of a number for a specifier and a precision. -/
  floatText : Char → Int32 → Float → List Char
  isNonNegative : Float → Bool

/-! ## Reading a conversion -/

def readFlags : Flags → List Char → Flags × List Char
  | flags, '-' :: rest => readFlags { flags with leftAlign := true } rest
  | flags, '+' :: rest => readFlags { flags with showSign := true } rest
  | flags, ' ' :: rest => readFlags { flags with spaceForSign := true } rest
  | flags, '0' :: rest => readFlags { flags with padWithZero := true } rest
  | flags, '#' :: rest => readFlags { flags with alternateForm := true } rest
  | flags, rest => (flags, rest)

section Reading

variable {Source Float : Type}

def readWidth (library : TextLibrary Float)
    (arguments : ArgumentSource Source Float) (format : List Char)
    (source : Source) : FieldNumber × List Char × Source :=
  match format with
  | '*' :: rest =>
      let next := arguments.nextGpArg source
      (.argument next.1, rest, next.2)
  | format =>
      let digits := format.takeWhile library.isDigit
      if digits = [] then (.absent, format, source)
      else (.literal digits, format.dropWhile library.isDigit, source)

def readPrecision (library : TextLibrary Float)
    (arguments : ArgumentSource Source Float) (format : List Char)
    (source : Source) : FieldNumber × List Char × Source :=
  match format with
  | '.' :: '*' :: rest =>
      let next := arguments.nextGpArg source
      (.argument next.1, rest, next.2)
  | '.' :: rest =>
      (.literal (rest.takeWhile library.isDigit), rest.dropWhile library.isDigit, source)
  | format => (.absent, format, source)

def readLength : List Char → PrintfLength × List Char
  | 'h' :: 'h' :: rest => (.char, rest)
  | 'l' :: 'l' :: rest => (.long, rest)
  | 'h' :: rest => (.short, rest)
  | format@(modifier :: rest) =>
      if modifier ∈ ['l', 'j', 'z', 't', 'L'] then (.long, rest)
      else (.none, format)
  | [] => (.none, [])

def readConversion (library : TextLibrary Float)
    (arguments : ArgumentSource Source Float) (format : List Char)
    (source : Source) : Option (Conversion × List Char × Source) :=
  let flags := readFlags .none format
  let width := readWidth library arguments flags.2 source
  let precision := readPrecision library arguments width.2.1 width.2.2
  let length := readLength precision.2.1
  match length.2 with
  | [] => none
  | specifier :: rest =>
      some (⟨flags.1, width.1, precision.1, length.1, specifier⟩, rest, precision.2.2)

theorem length_readFlags_le (flags : Flags) (format : List Char) :
    (readFlags flags format).2.length ≤ format.length := by
  fun_induction readFlags flags format <;> simp_all <;> omega

theorem length_readWidth_le (library : TextLibrary Float)
    (arguments : ArgumentSource Source Float) (format : List Char)
    (source : Source) :
    (readWidth library arguments format source).2.1.length ≤ format.length := by
  unfold readWidth
  split
  · simp
  · simp only
    split
    · exact Nat.le_refl _
    · exact List.length_dropWhile_le _ _

theorem length_readPrecision_le (library : TextLibrary Float)
    (arguments : ArgumentSource Source Float) (format : List Char)
    (source : Source) :
    (readPrecision library arguments format source).2.1.length ≤
      format.length := by
  unfold readPrecision
  split
  · simp only [List.length_cons]
    omega
  · exact Nat.le_succ_of_le (List.length_dropWhile_le _ _)
  · exact Nat.le_refl _

theorem length_readLength_le (format : List Char) :
    (readLength format).2.length ≤ format.length := by
  unfold readLength
  split
  · simp only [List.length_cons]
    omega
  · simp only [List.length_cons]
    omega
  · simp
  · split <;> simp
  · simp

theorem length_lt_of_readConversion {library : TextLibrary Float}
    {arguments : ArgumentSource Source Float} {format rest : List Char}
    {source after : Source} {conversion : Conversion}
    (read : readConversion library arguments format source = some (conversion, rest, after)) :
    rest.length < format.length := by
  unfold readConversion at read
  simp only at read
  split at read
  case h_1 => cases read
  case h_2 specifier behind atSpecifier =>
    simp only [Option.some.injEq, Prod.mk.injEq] at read
    obtain ⟨_, rfl, _⟩ := read
    have flagsLength := length_readFlags_le Flags.none format
    have widthLength := length_readWidth_le library arguments (readFlags Flags.none format).2 source
    have precisionLength := length_readPrecision_le library arguments
      (readWidth library arguments (readFlags Flags.none format).2 source).2.1
      (readWidth library arguments (readFlags Flags.none format).2 source).2.2
    have lengthLength := length_readLength_le (readPrecision library arguments
      (readWidth library arguments (readFlags Flags.none format).2 source).2.1
      (readWidth library arguments (readFlags Flags.none format).2 source).2.2).2.1
    rw [atSpecifier, List.length_cons] at lengthLength
    omega

end Reading

/-! ## Rendering -/

def literalValue (digits : List Char) : Int32 :=
  digits.foldl (fun value digit => value * 10 + Int32.ofInt (digit.toNat - 48)) 0

def FieldNumber.widthValue : FieldNumber → Int32
  | .absent => 0
  | .literal digits => literalValue digits
  | .argument value =>
      let width := value.toUInt32.toInt32
      if width < 0 then -width else width

def FieldNumber.isNegative : FieldNumber → Bool
  | .argument value => value.toUInt32.toInt32 < 0
  | _ => false

def FieldNumber.precisionValue : FieldNumber → Int32
  | .absent => -1
  | .literal digits => literalValue digits
  | .argument value => value.toUInt32.toInt32

def Conversion.leftAlign (conversion : Conversion) : Bool :=
  conversion.flags.leftAlign || conversion.width.isNegative

def padString (text : List Char) (width : Int32) (leftAlign padWithZero : Bool) :
    List Char :=
  if width.toInt ≤ text.length then text
  else
    let padding := List.replicate (width.toInt - text.length).toNat
      (if padWithZero then '0' else ' ')
    if leftAlign then text ++ padding else padding ++ text

def signedArgument (length : PrintfLength) (argument : UInt64) : Int :=
  match length with
  | .char => argument.toUInt8.toInt8.toInt
  | .short => argument.toUInt16.toInt16.toInt
  | .long => argument.toInt64.toInt
  | .none => argument.toUInt32.toInt32.toInt

def unsignedArgument (length : PrintfLength) (argument : UInt64) : ℕ :=
  match length with
  | .char => argument.toUInt8.toNat
  | .short => argument.toUInt16.toNat
  | .long => argument.toNat
  | .none => argument.toUInt32.toNat

def decimalText (value : Int) : List Char :=
  if value < 0 then '-' :: Nat.toDigits 10 value.natAbs
  else Nat.toDigits 10 value.natAbs

def upperHexText (value : ℕ) : List Char :=
  (Nat.toDigits 16 value).map Char.toUpper

def withSign (flags : Flags) (isNonNegative : Bool) (text : List Char) :
    List Char :=
  if flags.showSign && isNonNegative then '+' :: text
  else if flags.spaceForSign && isNonNegative then ' ' :: text
  else text

def Conversion.isInteger (conversion : Conversion) : Bool :=
  conversion.specifier ∈ ['d', 'i', 'u', 'x', 'X', 'o']

def Conversion.formatted (conversion : Conversion) (argument : UInt64) :
    List Char :=
  let signed := signedArgument conversion.length argument
  let unsigned := unsignedArgument conversion.length argument
  let showPrefix := conversion.flags.alternateForm && unsigned ≠ 0
  match conversion.specifier with
  | 'd' | 'i' => withSign conversion.flags (signed ≥ 0) (decimalText signed)
  | 'u' => Nat.toDigits 10 unsigned
  | 'x' =>
      if showPrefix then '0' :: 'x' :: Nat.toDigits 16 unsigned
      else Nat.toDigits 16 unsigned
  | 'X' =>
      if showPrefix then '0' :: 'X' :: upperHexText unsigned
      else upperHexText unsigned
  | _ =>
      if showPrefix then '0' :: Nat.toDigits 8 unsigned
      else Nat.toDigits 8 unsigned

def Conversion.pad (conversion : Conversion) (text : List Char) (padWithZero : Bool) : List Char :=
  padString text conversion.width.widthValue conversion.leftAlign padWithZero

def Conversion.integerText (conversion : Conversion) (argument : UInt64) :
    List Char :=
  conversion.pad (conversion.formatted argument)
    (conversion.flags.padWithZero && !conversion.leftAlign)

/-! ## The walk -/

inductive Piece
  | literal (text : List Char)
  | integer (conversion : Conversion) (argument : UInt64)
  | other (text : List Char)
deriving DecidableEq, Repr

def Piece.text : Piece → List Char
  | .literal text => text
  | .integer conversion argument => conversion.integerText argument
  | .other text => text

section Walk

variable {Source Float : Type}

/-- A string keeps at most as many characters as a precision that was given. -/
def truncateText (precision : Int32) (text : List Char) : List Char :=
  if precision ≥ 0 then text.take precision.toInt.toNat else text

def Conversion.stringText (conversion : Conversion) (library : TextLibrary Float)
    (address : UInt64) : List Char :=
  if address = 0 then "(null)".toList
  else
    match library.readText (conversion.length = .long) address with
    | none => "(null)".toList
    | some text =>
        conversion.pad (truncateText conversion.precision.precisionValue text) false

def Conversion.charText (conversion : Conversion) (library : TextLibrary Float)
    (argument : UInt64) : List Char :=
  let rendered :=
    if conversion.length = .long then
      (library.wideChar argument.toUInt16).getD ['?']
    else [Char.ofNat argument.toUInt8.toNat]
  conversion.pad rendered false

def Conversion.floatText (conversion : Conversion) (library : TextLibrary Float)
    (value : Float) : List Char :=
  let text := library.floatText conversion.specifier conversion.precision.precisionValue value
  conversion.pad (withSign conversion.flags (library.isNonNegative value) text)
    (conversion.flags.padWithZero && !conversion.leftAlign)

def pointerText (value : UInt64) : List Char :=
  if value = 0 then "(nil)".toList else '0' :: 'x' :: upperHexText value.toNat

/-- One conversion, with the argument it takes.  `%n` stores the length so far
in guest memory and adds no text. -/
def renderConversion (library : TextLibrary Float)
    (arguments : ArgumentSource Source Float) (conversion : Conversion)
    (source : Source) : Piece × Source :=
  let next := arguments.nextGpArg source
  if conversion.isInteger then (.integer conversion next.1, next.2)
  else
    match conversion.specifier with
    | '%' => (.other ['%'], source)
    | 'p' => (.other (pointerText next.1), next.2)
    | 's' => (.other (conversion.stringText library next.1), next.2)
    | 'c' => (.other (conversion.charText library next.1), next.2)
    | 'n' => (.other [], next.2)
    | specifier =>
        if specifier ∈ ['f', 'F', 'e', 'E', 'g', 'G'] then
          let value := arguments.nextFloatArg source
          (.other (conversion.floatText library value.1), value.2)
        else (.other ['%', specifier], source)

def pieces (library : TextLibrary Float)
    (arguments : ArgumentSource Source Float) (format : List Char)
    (source : Source) : List Piece :=
  match format with
  | [] => []
  | head :: behind =>
      if head = '%' then
        match _read : readConversion library arguments behind source with
        | none => [.other ['%']]
        | some (conversion, rest, afterReading) =>
            let rendered :=
              renderConversion library arguments conversion afterReading
            rendered.1 :: pieces library arguments rest rendered.2
      else
        .literal (head :: behind.takeWhile (· ≠ '%')) ::
          pieces library arguments (behind.dropWhile (· ≠ '%')) source
termination_by format.length
decreasing_by
  · exact Nat.lt_succ_of_lt (length_lt_of_readConversion _read)
  · exact Nat.lt_succ_of_le (List.length_dropWhile_le _ _)

end Walk

end Printf
end SharpEmu
