import SharpEmu.PrintfFormatting
import Mathlib.Data.UInt

/-!
# Integer conversions and the C standard

The standard's text of an integer conversion is a sign or radix prefix and a
digit string that the precision fills up, placed in a field that is filled with
spaces or, between prefix and digits, with zeros.  The engine has no precision
for integers and pads in front of the sign; this file says exactly on which
conversions the two texts agree.
-/

namespace SharpEmu
namespace Printf

/-! ## The standard -/

def naturalValue (digits : List Char) : ℕ :=
  digits.foldl (fun value digit => value * 10 + (digit.toNat - 48)) 0

def FieldNumber.standardWidth : FieldNumber → ℕ
  | .absent => 0
  | .literal digits => naturalValue digits
  | .argument value => value.toUInt32.toInt32.toInt.natAbs

/-- A negative precision argument is taken as if the precision were omitted. -/
def FieldNumber.standardPrecision : FieldNumber → Option ℕ
  | .absent => none
  | .literal digits => some (naturalValue digits)
  | .argument value =>
      if value.toUInt32.toInt32.toInt < 0 then none
      else some value.toUInt32.toInt32.toInt.toNat

def FieldNumber.IsStandard : FieldNumber → Prop
  | .literal digits => ∀ digit ∈ digits, digit.isDigit = true
  | _ => True

def Conversion.IsStandard (conversion : Conversion) : Prop :=
  conversion.width.IsStandard ∧ conversion.precision.IsStandard

def Conversion.isSigned (conversion : Conversion) : Bool :=
  conversion.specifier ∈ ['d', 'i']

def Conversion.magnitude (conversion : Conversion) (argument : UInt64) : ℕ :=
  if conversion.isSigned then
    (signedArgument conversion.length argument).natAbs
  else unsignedArgument conversion.length argument

/-- The sign of a signed conversion, the radix prefix of a hexadecimal one. -/
def Conversion.lead (conversion : Conversion) (argument : UInt64) : List Char :=
  if conversion.isSigned then
    if signedArgument conversion.length argument < 0 then ['-']
    else if conversion.flags.showSign then ['+']
    else if conversion.flags.spaceForSign then [' ']
    else []
  else if conversion.flags.alternateForm ∧
      conversion.magnitude argument ≠ 0 ∧ conversion.specifier ∈ ['x', 'X'] then
    ['0', conversion.specifier]
  else []

def Conversion.plainDigits (conversion : Conversion) (argument : UInt64) :
    List Char :=
  match conversion.specifier with
  | 'x' => Nat.toDigits 16 (conversion.magnitude argument)
  | 'X' => upperHexText (conversion.magnitude argument)
  | 'o' => Nat.toDigits 8 (conversion.magnitude argument)
  | _ => Nat.toDigits 10 (conversion.magnitude argument)

def Conversion.alternateOctal (conversion : Conversion) : Prop :=
  conversion.specifier = 'o' ∧ conversion.flags.alternateForm = true

instance (conversion : Conversion) : Decidable conversion.alternateOctal :=
  inferInstanceAs (Decidable (_ ∧ _))

/-- The precision is a minimum digit count, and zero with precision zero has no
digits; the alternate octal form makes the first digit a zero. -/
def Conversion.standardDigits (conversion : Conversion) (argument : UInt64) :
    List Char :=
  let plain := conversion.plainDigits argument
  let counted :=
    match conversion.precision.standardPrecision with
    | none => plain
    | some precision =>
        if precision = 0 ∧ conversion.magnitude argument = 0 then []
        else List.replicate (precision - plain.length) '0' ++ plain
  if conversion.alternateOctal ∧ counted.head? ≠ some '0' then '0' :: counted
  else counted

def Conversion.standardText (conversion : Conversion) (argument : UInt64) :
    List Char :=
  let lead := conversion.lead argument
  let digits := conversion.standardDigits argument
  let fill := conversion.width.standardWidth - (lead ++ digits).length
  if conversion.leftAlign then lead ++ digits ++ List.replicate fill ' '
  else if conversion.flags.padWithZero ∧ conversion.precision.standardPrecision = none then
    lead ++ List.replicate fill '0' ++ digits
  else List.replicate fill ' ' ++ (lead ++ digits)

/-! ## The condition -/

/-- The digits of the value, behind the zero that the alternate octal form puts
in front of a value that is not zero. -/
def Conversion.valueDigits (conversion : Conversion) (argument : UInt64) :
    List Char :=
  if conversion.alternateOctal ∧ conversion.magnitude argument ≠ 0 then
    '0' :: conversion.plainDigits argument
  else conversion.plainDigits argument

def Conversion.zeroFill (conversion : Conversion) : Prop :=
  conversion.flags.padWithZero = true ∧ conversion.leftAlign = false

instance (conversion : Conversion) : Decidable conversion.zeroFill :=
  inferInstanceAs (Decidable (_ ∧ _))

/-- The standard writes no digit at all. -/
def Conversion.dropsZero (conversion : Conversion) (argument : UInt64) (precision : ℕ) : Prop :=
  precision = 0 ∧ conversion.magnitude argument = 0 ∧ ¬ conversion.alternateOctal

instance (conversion : Conversion) (argument : UInt64) (precision : ℕ) :
    Decidable (conversion.dropsZero argument precision) :=
  inferInstanceAs (Decidable (_ ∧ _))

/-- When the engine's text is the standard's: the width is an `int`, and the
engine's missing precision and its zeros in front of the sign do not show. -/
def Conversion.Exact (conversion : Conversion) (argument : UInt64) : Prop :=
  let width := conversion.width.standardWidth
  let lead := conversion.lead argument
  let digits := conversion.valueDigits argument
  width < 2 ^ 31 ∧
    match conversion.precision.standardPrecision with
    | none => conversion.zeroFill → width ≤ (lead ++ digits).length ∨ lead = []
    | some precision =>
        ¬ conversion.dropsZero argument precision ∧
          if precision ≤ digits.length then
            conversion.zeroFill → width ≤ (lead ++ digits).length
          else conversion.zeroFill ∧ lead = [] ∧ width = precision

/-! ## Digits -/

variable {base : ℕ}

theorem toDigits_induction (large : 1 < base) (property : ℕ → List Char → Prop)
    (single : ∀ digit < base, property digit [digit.digitChar])
    (append : ∀ front digit text, 0 < front → digit < base →
      property front text → property (base * front + digit)
        (text ++ [digit.digitChar])) (value : ℕ) :
    property value (Nat.toDigits base value) := by
  induction value using Nat.strongRecOn with
  | ind value ih =>
    by_cases small : value < base
    · rw [Nat.toDigits_of_lt_base small]
      exact single value small
    · have positive : 0 < value / base :=
        Nat.div_pos (Nat.le_of_not_lt small) (by omega)
      have digitBound := Nat.mod_lt value (show 0 < base by omega)
      have split := Nat.toDigits_append_toDigits large positive digitBound
      rw [Nat.div_add_mod, Nat.toDigits_of_lt_base digitBound] at split
      rw [← split]
      have appended := append (value / base) (value % base) _ positive
        digitBound (ih _ (Nat.div_lt_self (by omega) large))
      rwa [Nat.div_add_mod] at appended

theorem space_not_mem_toDigits (large : 1 < base) (value : ℕ) : ' ' ∉ Nat.toDigits base value := by
  apply toDigits_induction large fun _ text => ' ' ∉ text
  · intro digit _
    simp
  · intro front digit text _ _ notMem
    simp [notMem]

theorem head_toDigits_ne_zero {value : ℕ} (large : 1 < base)
    (positive : 0 < value) : (Nat.toDigits base value).head? ≠ some '0' := by
  have nonzeroHead : 0 < value → ∃ digit rest,
      Nat.toDigits base value = digit :: rest ∧ digit ≠ '0' := by
    apply toDigits_induction large fun value text =>
      0 < value → ∃ digit rest, text = digit :: rest ∧ digit ≠ '0'
    · intro digit _ digitPositive
      refine ⟨_, [], rfl, ?_⟩
      rw [Ne, Nat.digitChar_eq_zero]
      omega
    · intro front digit text frontPositive _ hasHead _
      obtain ⟨first, rest, rfl, nonzero⟩ := hasHead frontPositive
      exact ⟨first, rest ++ [digit.digitChar], rfl, nonzero⟩
  obtain ⟨digit, rest, isDigits, nonzero⟩ := nonzeroHead positive
  rw [isDigits]
  simpa using nonzero

theorem formatted_eq {conversion : Conversion}
    (isInteger : conversion.isInteger = true) (argument : UInt64) :
    conversion.formatted argument =
      conversion.lead argument ++ conversion.valueDigits argument := by
  obtain ⟨flags, width, precision, length, specifier⟩ := conversion
  simp only [Conversion.isInteger, List.mem_cons, List.not_mem_nil, or_false,
    decide_eq_true_eq] at isInteger
  rcases isInteger with rfl | rfl | rfl | rfl | rfl | rfl
  all_goals
    simp only [Conversion.formatted, Conversion.lead, Conversion.valueDigits,
      Conversion.plainDigits, Conversion.alternateOctal, Conversion.isSigned,
      Conversion.magnitude, withSign, decimalText]
    grind

theorem space_not_mem_plainDigits (conversion : Conversion)
    (argument : UInt64) : ' ' ∉ conversion.plainDigits argument := by
  have upper (value : ℕ) : ' ' ∉ upperHexText value := by
    intro member
    obtain ⟨digit, digitMem, isSpace⟩ := List.mem_map.mp member
    have chars : ∀ text value, text = Nat.toDigits 16 value →
        ∀ digit ∈ text, digit.toUpper ≠ ' ' := by
      intro text value isText
      subst isText
      apply toDigits_induction (show 1 < 16 by decide)
        fun _ text => ∀ digit ∈ text, digit.toUpper ≠ ' '
      · intro digit below
        have checked : ∀ digit < 16, digit.digitChar.toUpper ≠ ' ' := by decide
        simpa using checked digit below
      · intro front digit text _ below holds other otherMem
        have checked : ∀ digit < 16, digit.digitChar.toUpper ≠ ' ' := by decide
        rcases List.mem_append.mp otherMem with inFront | isLast
        · exact holds other inFront
        · rw [List.mem_singleton.mp isLast]
          exact checked digit below
    exact chars _ value rfl digit digitMem isSpace
  unfold Conversion.plainDigits
  split
  · exact space_not_mem_toDigits (by decide) _
  · exact upper _
  · exact space_not_mem_toDigits (by decide) _
  · exact space_not_mem_toDigits (by decide) _

theorem space_not_mem_valueDigits (conversion : Conversion)
    (argument : UInt64) : ' ' ∉ conversion.valueDigits argument := by
  have plain := space_not_mem_plainDigits conversion argument
  unfold Conversion.valueDigits
  split
  · simp [plain]
  · exact plain

theorem replicate_append_cons (digit : Char) (count : ℕ) (text : List Char) :
    List.replicate count digit ++ digit :: text =
      digit :: (List.replicate count digit ++ text) := by
  induction count with
  | zero => rfl
  | succ count ih => rw [List.replicate_succ, List.cons_append, ih,
      List.cons_append]

/-- A sign or prefix does not end in a zero. -/
theorem getLast?_lead (conversion : Conversion) (argument : UInt64) :
    (conversion.lead argument).getLast? ≠ some '0' := by
  unfold Conversion.lead
  split
  · split
    · decide
    · split
      · decide
      · split <;> decide
  · split
    · rename_i hexadecimal
      rcases List.mem_cons.mp hexadecimal.2.2 with lower | rest
      · simp [lower]
      · simp [List.mem_singleton.mp rest]
    · decide

theorem standardDigits_eq (conversion : Conversion) (argument : UInt64) :
    conversion.standardDigits argument =
      match conversion.precision.standardPrecision with
      | none => conversion.valueDigits argument
      | some precision =>
        if conversion.dropsZero argument precision then []
        else
          List.replicate (precision - (conversion.valueDigits argument).length) '0' ++
              conversion.valueDigits argument := by
  have zeroOctal (isOctal : conversion.alternateOctal)
      (isZero : conversion.magnitude argument = 0) :
      conversion.plainDigits argument = ['0'] := by
    simp [Conversion.plainDigits, isOctal.1, isZero]
  have octalHead (isOctal : conversion.alternateOctal)
      (nonzero : conversion.magnitude argument ≠ 0) :
      (conversion.plainDigits argument).head? ≠ some '0' := by
    simp only [Conversion.plainDigits, isOctal.1]
    exact head_toDigits_ne_zero (by decide) (Nat.pos_of_ne_zero nonzero)
  unfold Conversion.standardDigits Conversion.valueDigits Conversion.dropsZero
  cases conversion.precision.standardPrecision with
  | none =>
    by_cases isOctal : conversion.alternateOctal
    · by_cases isZero : conversion.magnitude argument = 0
      · simp [isOctal, isZero, zeroOctal isOctal isZero]
      · simp [isOctal, isZero, octalHead isOctal isZero]
    · simp [isOctal]
  | some precision =>
    by_cases isOctal : conversion.alternateOctal
    · by_cases isZero : conversion.magnitude argument = 0
      · have plain := zeroOctal isOctal isZero
        cases precision with
        | zero => simp [isOctal, isZero, plain]
        | succ precision =>
          cases precision <;>
            simp [isOctal, isZero, plain, List.replicate_succ]
      · by_cases above : (conversion.plainDigits argument).length < precision
        · obtain ⟨extra, rfl⟩ := Nat.exists_eq_add_of_lt above
          have counted : (conversion.plainDigits argument).length + extra + 1 -
              (conversion.plainDigits argument).length = extra + 1 := by omega
          have valueCounted : (conversion.plainDigits argument).length + extra + 1 -
                ((conversion.plainDigits argument).length + 1) = extra := by
            omega
          simp [isOctal, isZero, counted, valueCounted, List.replicate_succ, replicate_append_cons]
        · have counted : precision - (conversion.plainDigits argument).length = 0 := by
            omega
          have valueCounted : precision -
              ((conversion.plainDigits argument).length + 1) = 0 := by omega
          simp [isOctal, isZero, counted, valueCounted, octalHead isOctal isZero]
    · simp [isOctal]

/-! ## Fields -/

variable {lead : List Char}

theorem replicate_append_lead_iff
    (noZero : lead.getLast? ≠ some '0') (digits : List Char) (count : ℕ) :
    List.replicate count '0' ++ (lead ++ digits) = lead ++ List.replicate count '0' ++ digits ↔
      count = 0 ∨ lead = [] := by
  constructor
  · intro same
    by_contra! neither
    obtain ⟨positive, nonempty⟩ := neither
    rw [← List.append_assoc] at same
    have lastOf := congrArg List.getLast? (List.append_cancel_right same)
    rw [List.getLast?_append_of_ne_nil _ nonempty,
      List.getLast?_append_of_ne_nil _ (by simpa using positive),
      List.getLast?_replicate, if_neg positive] at lastOf
    exact noZero lastOf
  · rintro (rfl | rfl) <;> simp

variable {digits : List Char} {zeros : ℕ}

theorem left_field_ne (noSpace : ' ' ∉ digits) (positive : 0 < zeros) (width : ℕ) :
    lead ++ digits ++ List.replicate (width - (lead ++ digits).length) ' ' ≠
      lead ++ (List.replicate zeros '0' ++ digits) ++ List.replicate
          (width - (lead ++ (List.replicate zeros '0' ++ digits)).length) ' ' := by
  intro same
  have lengths := congrArg List.length same
  have spaces := congrArg (List.count ' ') same
  simp only [List.length_append, List.length_replicate] at lengths
  simp only [List.count_append, List.count_eq_zero_of_not_mem noSpace,
    List.count_replicate_self, List.count_replicate, List.length_append,
    List.length_replicate] at spaces
  simp at spaces
  omega

/-- The same, filled with spaces on the left. -/
theorem right_field_ne (noSpace : ' ' ∉ digits) (positive : 0 < zeros) (width : ℕ) :
    List.replicate (width - (lead ++ digits).length) ' ' ++ (lead ++ digits) ≠ List.replicate
          (width - (lead ++ (List.replicate zeros '0' ++ digits)).length) ' ' ++
        (lead ++ (List.replicate zeros '0' ++ digits)) := by
  intro same
  have lengths := congrArg List.length same
  have spaces := congrArg (List.count ' ') same
  simp only [List.length_append, List.length_replicate] at lengths
  simp only [List.count_append, List.count_eq_zero_of_not_mem noSpace,
    List.count_replicate_self, List.count_replicate, List.length_append,
    List.length_replicate] at spaces
  simp at spaces
  omega

theorem zero_field_eq_iff (noSpace : ' ' ∉ digits)
    (noZero : lead.getLast? ≠ some '0') (positive : 0 < zeros)
    (width : ℕ) :
    List.replicate (width - (lead ++ digits).length) '0' ++ (lead ++ digits) = List.replicate
            (width - (lead ++ (List.replicate zeros '0' ++ digits)).length) ' ' ++
          (lead ++ (List.replicate zeros '0' ++ digits)) ↔
      lead = [] ∧ width = zeros + digits.length := by
  constructor
  · intro same
    have lengths := congrArg List.length same
    have spaces := congrArg (List.count ' ') same
    simp only [List.length_append, List.length_replicate] at lengths
    simp only [List.count_append, List.count_eq_zero_of_not_mem noSpace,
      List.count_replicate_self, List.count_replicate, List.length_append,
      List.length_replicate] at spaces
    simp at spaces
    have filled : width = lead.length + digits.length + zeros := by omega
    have engineZeros : width - (lead ++ digits).length = zeros := by
      rw [List.length_append]
      omega
    have noFill : width - (lead ++ (List.replicate zeros '0' ++ digits)).length = 0 := by
      simp only [List.length_append, List.length_replicate]
      omega
    rw [engineZeros, noFill, List.replicate_zero, List.nil_append,
      ← List.append_assoc lead, replicate_append_lead_iff noZero] at same
    have noLead : lead = [] := same.resolve_left (by omega)
    subst noLead
    exact ⟨rfl, by rw [filled, List.length_nil]; omega⟩
  · rintro ⟨rfl, rfl⟩
    simp

/-! ## Field widths -/

theorem naturalValue_append (front : List Char) (digit : Char) : naturalValue (front ++ [digit]) =
      naturalValue front * 10 + (digit.toNat - 48) := by
  simp [naturalValue]

theorem literalValue_append (front : List Char) (digit : Char) : literalValue (front ++ [digit]) =
      literalValue front * 10 + Int32.ofInt (digit.toNat - 48) := by
  simp [literalValue]

theorem toInt_literalValue (standard : ∀ digit ∈ digits, digit.isDigit = true)
    (fits : naturalValue digits < 2 ^ 31) :
    (literalValue digits).toInt = naturalValue digits := by
  induction digits using List.reverseRecOn with
  | nil => rfl
  | append_singleton front digit ih =>
    rw [naturalValue_append] at fits ⊢
    have isDigit := standard digit (by simp)
    have bounds : 48 ≤ digit.toNat ∧ digit.toNat ≤ 57 := by
      simpa [Char.isDigit, UInt32.le_iff_toNat_le] using isDigit
    have frontValue := ih (fun other member => standard other (List.mem_append_left _ member))
      (by omega)
    rw [literalValue_append, Int32.toInt_add, Int32.toInt_mul, frontValue, Int32.toInt_ofInt]
    have ten : (10 : Int32).toInt = 10 := by decide
    have digitValue : ((digit.toNat : Int) - 48).bmod Int32.size =
        ((digit.toNat - 48 : ℕ) : Int) := by
      rw [show Int32.size = 2 ^ 32 from rfl, Int.bmod_eq_of_le] <;> omega
    have frontFits : ((naturalValue front : Int) * 10).bmod (2 ^ 32) =
        (naturalValue front : Int) * 10 := by
      rw [Int.bmod_eq_of_le] <;> omega
    rw [ten, digitValue, frontFits, Int.bmod_eq_of_le] <;> omega

theorem toInt_widthValue {width : FieldNumber} (standard : width.IsStandard)
    (fits : width.standardWidth < 2 ^ 31) :
    width.widthValue.toInt = width.standardWidth := by
  cases width with
  | absent => rfl
  | literal digits => exact toInt_literalValue standard fits
  | argument value =>
    simp only [FieldNumber.standardWidth] at fits
    have range := Int32.le_toInt value.toUInt32.toInt32
    simp only [FieldNumber.widthValue, FieldNumber.standardWidth, Int32.lt_iff_toInt_lt]
    split
    · rename_i negative
      rw [Int32.toInt_neg, Int.bmod_eq_of_le] <;>
        simp only [Int32.toInt_zero] at negative <;> omega
    · rename_i nonnegative
      simp only [Int32.toInt_zero] at nonnegative
      omega

theorem widthValue_lt (width : FieldNumber) : width.widthValue.toInt < 2 ^ 31 :=
  Int32.toInt_lt _

theorem magnitude_lt (conversion : Conversion) (argument : UInt64) :
    conversion.magnitude argument < 2 ^ 64 := by
  unfold Conversion.magnitude signedArgument unsignedArgument
  split
  · have byte := Int8.le_toInt argument.toUInt8.toInt8
    have byteLt := Int8.toInt_lt argument.toUInt8.toInt8
    have half := Int16.le_toInt argument.toUInt16.toInt16
    have halfLt := Int16.toInt_lt argument.toUInt16.toInt16
    have word := Int32.le_toInt argument.toUInt32.toInt32
    have wordLt := Int32.toInt_lt argument.toUInt32.toInt32
    have long := Int64.le_toInt argument.toInt64
    have longLt := Int64.toInt_lt argument.toInt64
    cases conversion.length <;> simp only <;> omega
  · have byte := argument.toUInt8.toNat_lt
    have half := argument.toUInt16.toNat_lt
    have word := argument.toUInt32.toNat_lt
    have long := argument.toNat_lt
    cases conversion.length <;> simp only <;> omega

theorem length_plainDigits_le (conversion : Conversion) (argument : UInt64) :
    (conversion.plainDigits argument).length ≤ 64 := by
  have bound := magnitude_lt conversion argument
  have inRadix (radix : ℕ) (large : 2 ≤ radix) :
      (Nat.toDigits radix (conversion.magnitude argument)).length ≤ 64 := by
    rw [Nat.length_toDigits_le_iff (by omega) (by omega)]
    exact lt_of_lt_of_le bound (Nat.pow_le_pow_left large 64)
  unfold Conversion.plainDigits upperHexText
  split
  · exact inRadix 16 (by omega)
  · rw [List.length_map]
    exact inRadix 16 (by omega)
  · exact inRadix 8 (by omega)
  · exact inRadix 10 (by omega)

theorem length_lead_le (conversion : Conversion) (argument : UInt64) :
    (conversion.lead argument).length ≤ 2 := by
  unfold Conversion.lead
  grind

theorem length_formatted_lt {conversion : Conversion}
    (isInteger : conversion.isInteger = true) (argument : UInt64) :
    (conversion.formatted argument).length < 2 ^ 31 := by
  have leadLength := length_lead_le conversion argument
  have plainLength := length_plainDigits_le conversion argument
  have digitsLength : (conversion.valueDigits argument).length ≤ 65 := by
    unfold Conversion.valueDigits
    split
    · rw [List.length_cons]
      omega
    · omega
  rw [formatted_eq isInteger, List.length_append]
  omega

theorem length_padString (text : List Char) (width : Int32) (leftAlign padWithZero : Bool) :
    (padString text width leftAlign padWithZero).length = max text.length width.toInt.toNat := by
  unfold padString
  split
  · omega
  · simp only
    split <;> simp only [List.length_append, List.length_replicate] <;> omega

theorem mem_padString_of_mem {letter : Char} {text : List Char}
    (member : letter ∈ text) (width : Int32) (leftAlign padWithZero : Bool) :
    letter ∈ padString text width leftAlign padWithZero := by
  unfold padString
  split
  · exact member
  · simp only
    split
    · exact List.mem_append_left _ member
    · exact List.mem_append_right _ member

/-- The engine's field, once its width is known. -/
theorem padString_eq (text : List Char) {width : Int32} {standardWidth : ℕ}
    (sameWidth : width.toInt = standardWidth) (leftAlign padWithZero : Bool) :
    padString text width leftAlign padWithZero =
      if leftAlign then
        text ++ List.replicate (standardWidth - text.length) (if padWithZero then '0' else ' ')
      else
        List.replicate (standardWidth - text.length)
          (if padWithZero then '0' else ' ') ++ text := by
  unfold padString
  rw [sameWidth]
  split
  · have noPadding : standardWidth - text.length = 0 := by omega
    simp [noPadding]
  · have padding : ((standardWidth : Int) - text.length).toNat =
        standardWidth - text.length := by omega
    simp [padding]

theorem standardWidth_le_length (conversion : Conversion) (argument : UInt64) :
    conversion.width.standardWidth ≤ (conversion.standardText argument).length := by
  unfold Conversion.standardText
  simp only
  split
  · simp only [List.length_append, List.length_replicate]
    omega
  · split <;> simp only [List.length_append, List.length_replicate] <;> omega

/-! ## Agreement -/

section Agreement

variable {conversion : Conversion} (argument : UInt64)

theorem integerText_eq (isInteger : conversion.isInteger = true) (standard : conversion.IsStandard)
    (fits : conversion.width.standardWidth < 2 ^ 31) :
    conversion.integerText argument =
      let text := conversion.lead argument ++ conversion.valueDigits argument
      let fill := conversion.width.standardWidth - text.length
      if conversion.leftAlign then text ++ List.replicate fill ' '
      else if conversion.zeroFill then List.replicate fill '0' ++ text
      else List.replicate fill ' ' ++ text := by
  unfold Conversion.integerText Conversion.pad
  rw [padString_eq _ (toInt_widthValue standard.1 fits), formatted_eq isInteger]
  by_cases isLeft : conversion.leftAlign
  · simp [isLeft]
  · by_cases zeroFlag : conversion.flags.padWithZero <;>
      simp [isLeft, zeroFlag, Conversion.zeroFill]

theorem agrees_without_precision (isInteger : conversion.isInteger = true)
    (standard : conversion.IsStandard)
    (fits : conversion.width.standardWidth < 2 ^ 31)
    (noPrecision : conversion.precision.standardPrecision = none) :
    conversion.integerText argument = conversion.standardText argument ↔ (conversion.zeroFill →
        conversion.width.standardWidth ≤ (conversion.lead argument ++
              conversion.valueDigits argument).length ∨
          conversion.lead argument = []) := by
  have digits := standardDigits_eq conversion argument
  rw [noPrecision] at digits
  change conversion.standardDigits argument = conversion.valueDigits argument at digits
  rw [integerText_eq argument isInteger standard fits]
  simp only [Conversion.standardText, digits, noPrecision, and_true]
  by_cases isLeft : conversion.leftAlign
  · simp [isLeft, Conversion.zeroFill]
  · by_cases zeroFlag : conversion.flags.padWithZero
    · have zeroFill : conversion.zeroFill := ⟨zeroFlag, by simpa using isLeft⟩
      simp only [isLeft, zeroFlag, zeroFill, if_true, if_false, Bool.false_eq_true, forall_const]
      rw [replicate_append_lead_iff (getLast?_lead conversion argument), Nat.sub_eq_zero_iff_le]
    · have noZeroFill : ¬ conversion.zeroFill := fun fill => zeroFlag fill.1
      simp [isLeft, zeroFlag, noZeroFill]

variable {precision : ℕ}

theorem differs_of_dropsZero (isInteger : conversion.isInteger = true)
    (hasPrecision : conversion.precision.standardPrecision = some precision)
    (drops : conversion.dropsZero argument precision) :
    conversion.integerText argument ≠ conversion.standardText argument := by
  have digits := standardDigits_eq conversion argument
  rw [hasPrecision] at digits
  simp only [drops, if_true] at digits
  have noZero : '0' ∉ conversion.lead argument := by
    unfold Conversion.lead
    simp only [drops.2.1, ne_eq, not_true_eq_false, false_and, and_false, if_false]
    split
    · split
      · decide
      · split
        · decide
        · split <;> decide
    · simp
  have someZero : '0' ∈ conversion.valueDigits argument := by
    unfold Conversion.valueDigits Conversion.plainDigits upperHexText
    simp only [drops.2.1, ne_eq, not_true_eq_false, and_false, if_false, Nat.toDigits_zero]
    split <;> decide
  intro same
  have engineZero : '0' ∈ conversion.integerText argument := by
    apply mem_padString_of_mem
    rw [formatted_eq isInteger]
    exact List.mem_append_right _ someZero
  rw [same] at engineZero
  simp only [Conversion.standardText, digits, hasPrecision, List.append_nil,
    reduceCtorEq, and_false, if_false] at engineZero
  split at engineZero <;>
    simp [List.mem_replicate, noZero] at engineZero

theorem agrees_below_precision (isInteger : conversion.isInteger = true)
    (standard : conversion.IsStandard)
    (fits : conversion.width.standardWidth < 2 ^ 31)
    (hasPrecision : conversion.precision.standardPrecision = some precision)
    (keeps : ¬ conversion.dropsZero argument precision)
    (below : precision ≤ (conversion.valueDigits argument).length) :
    conversion.integerText argument = conversion.standardText argument ↔ (conversion.zeroFill →
        conversion.width.standardWidth ≤ (conversion.lead argument ++
            conversion.valueDigits argument).length) := by
  have digits := standardDigits_eq conversion argument
  rw [hasPrecision] at digits
  simp only [keeps, if_false, Nat.sub_eq_zero_of_le below, List.replicate_zero,
    List.nil_append] at digits
  rw [integerText_eq argument isInteger standard fits]
  simp only [Conversion.standardText, digits, hasPrecision, reduceCtorEq, and_false, if_false]
  by_cases isLeft : conversion.leftAlign
  · simp [isLeft, Conversion.zeroFill]
  · by_cases zeroFill : conversion.zeroFill
    · simp only [isLeft, zeroFill, if_true, if_false, Bool.false_eq_true, forall_const]
      rw [List.append_cancel_right_eq, List.replicate_inj]
      simp [Nat.sub_eq_zero_iff_le]
    · simp [isLeft, zeroFill]

theorem agrees_above_precision (isInteger : conversion.isInteger = true)
    (standard : conversion.IsStandard)
    (fits : conversion.width.standardWidth < 2 ^ 31)
    (hasPrecision : conversion.precision.standardPrecision = some precision)
    (keeps : ¬ conversion.dropsZero argument precision)
    (above : (conversion.valueDigits argument).length < precision) :
    conversion.integerText argument = conversion.standardText argument ↔
      conversion.zeroFill ∧ conversion.lead argument = [] ∧
        conversion.width.standardWidth = precision := by
  have digits := standardDigits_eq conversion argument
  rw [hasPrecision] at digits
  simp only [keeps, if_false] at digits
  have positive : 0 < precision - (conversion.valueDigits argument).length := by
    omega
  have noSpace := space_not_mem_valueDigits conversion argument
  rw [integerText_eq argument isInteger standard fits]
  simp only [Conversion.standardText, digits, hasPrecision, reduceCtorEq, and_false, if_false]
  by_cases isLeft : conversion.leftAlign
  · simp only [isLeft, if_true, Conversion.zeroFill]
    constructor
    · intro same
      exact absurd same (left_field_ne noSpace positive _)
    · rintro ⟨⟨_, notLeft⟩, _⟩
      cases notLeft
  · by_cases zeroFill : conversion.zeroFill
    · simp only [isLeft, zeroFill, if_true, if_false, Bool.false_eq_true, true_and]
      rw [zero_field_eq_iff noSpace (getLast?_lead conversion argument) positive,
        Nat.sub_add_cancel (Nat.le_of_lt above)]
    · simp only [isLeft, zeroFill, if_false, Bool.false_eq_true, false_and, iff_false]
      exact right_field_ne noSpace positive _

theorem agrees_iff_exact (isInteger : conversion.isInteger = true)
    (standard : conversion.IsStandard) :
    conversion.integerText argument = conversion.standardText argument ↔
      conversion.Exact argument := by
  by_cases fits : conversion.width.standardWidth < 2 ^ 31
  · unfold Conversion.Exact
    simp only [fits, true_and]
    cases hasPrecision : conversion.precision.standardPrecision with
    | none =>
      exact agrees_without_precision argument isInteger standard fits hasPrecision
    | some precision =>
      simp only
      by_cases drops : conversion.dropsZero argument precision
      · simp [drops, differs_of_dropsZero argument isInteger hasPrecision drops]
      · simp only [drops, not_false_eq_true, true_and]
        split
        · rename_i below
          exact agrees_below_precision argument isInteger standard fits hasPrecision drops below
        · rename_i above
          exact agrees_above_precision argument isInteger standard fits
            hasPrecision drops (Nat.lt_of_not_le above)
  · constructor
    · intro same
      have short := length_formatted_lt isInteger argument
      have wide := standardWidth_le_length conversion argument
      have engineWidth := widthValue_lt conversion.width
      rw [← same] at wide
      unfold Conversion.integerText Conversion.pad at wide
      rw [length_padString] at wide
      omega
    · intro agrees
      exact absurd agrees.1 fits

end Agreement

/-! ## Format strings -/

section FormatStrings

variable {Source Float : Type}

variable {library : TextLibrary Float} {arguments : ArgumentSource Source Float} {source : Source}

theorem isInteger_of_renderConversion {conversion rendered : Conversion} {argument : UInt64}
    (isPiece : (renderConversion library arguments conversion source).1 =
      .integer rendered argument) :
    rendered.isInteger = true := by
  unfold renderConversion at isPiece
  simp only at isPiece
  split at isPiece
  · rename_i isInteger
    cases isPiece
    exact isInteger
  · split at isPiece <;> try cases isPiece
    split at isPiece <;> cases isPiece

theorem isInteger_of_mem_pieces {format : List Char} {conversion : Conversion} {argument : UInt64}
    (member : .integer conversion argument ∈ pieces library arguments format source) :
    conversion.isInteger = true := by
  fun_induction pieces library arguments format source with
  | case1 => simp at member
  | case2 => simp at member
  | case3 source behind parsed rest afterReading read rendered ih =>
    rcases List.mem_cons.mp member with isHead | inRest
    · exact isInteger_of_renderConversion isHead.symm
    · exact ih inRest
  | case4 source head behind notPercent ih =>
    rcases List.mem_cons.mp member with isHead | inRest
    · cases isHead
    · exact ih inRest

end FormatStrings

end Printf
end SharpEmu
