import Mathlib.Data.List.Basic
import Mathlib.Tactic.Common

/-!
# UTF-8 and UTF-16

A text is a list of characters.  Decoders replace what is not well formed: in UTF-8,
each longest start of a sequence that no sequence continues, and in UTF-16 each
surrogate without its partner.  Encoders of texts need no replacement, so a text
survives being encoded and decoded, and bytes survive being decoded and encoded if and
only if they encode a text.
-/

namespace SharpEmu.Unicode

/-- The character that stands for what could not be decoded. -/
def replacement : Char := '\uFFFD'

/-! ## UTF-8 -/

def toUtf8 (text : List Char) : List UInt8 :=
  text.flatMap String.utf8EncodeChar

/-- The start of a sequence: the bits read so far, the number of bytes that are
missing, and the range the next byte has to be in. -/
structure Sequence where
  value : ℕ
  missing : ℕ
  lower : ℕ
  upper : ℕ

def lead (byte : ℕ) : Option Sequence :=
  if 0xC2 ≤ byte ∧ byte ≤ 0xDF then some ⟨byte - 0xC0, 1, 0x80, 0xBF⟩
  else if 0xE0 ≤ byte ∧ byte ≤ 0xEF then
    -- No longer form than needed, and no surrogates.
    some ⟨byte - 0xE0, 2, if byte = 0xE0 then 0xA0 else 0x80,
      if byte = 0xED then 0x9F else 0xBF⟩
  else if 0xF0 ≤ byte ∧ byte ≤ 0xF4 then
    some ⟨byte - 0xF0, 3, if byte = 0xF0 then 0x90 else 0x80,
      if byte = 0xF4 then 0x8F else 0xBF⟩
  else none

def begin (byte : UInt8) : List Char × Option Sequence :=
  if byte.toNat < 0x80 then ([Char.ofNat byte.toNat], none)
  else
    match lead byte.toNat with
    | some sequence => ([], some sequence)
    | none => ([replacement], none)

/-- Read a byte; a byte that does not continue the sequence starts another. -/
def feed : Option Sequence → UInt8 → List Char × Option Sequence
  | none, byte => begin byte
  | some sequence, byte =>
      if sequence.lower ≤ byte.toNat ∧ byte.toNat ≤ sequence.upper then
        let value := sequence.value * 64 + byte.toNat % 64
        if sequence.missing = 1 then ([Char.ofNat value], none)
        else ([], some ⟨value, sequence.missing - 1, 0x80, 0xBF⟩)
      else (replacement :: (begin byte).1, (begin byte).2)

def decode : Option Sequence → List UInt8 → List Char
  | none, [] => []
  | some _, [] => [replacement]
  | state, byte :: rest => (feed state byte).1 ++ decode (feed state byte).2 rest

def fromUtf8 (bytes : List UInt8) : List Char :=
  decode none bytes

/-! ## UTF-16 -/

def utf16Units (char : Char) : List UInt16 :=
  if char.toNat < 0x10000 then [UInt16.ofNat char.toNat]
  else
    [UInt16.ofNat (0xD800 + (char.toNat - 0x10000) / 0x400),
      UInt16.ofNat (0xDC00 + (char.toNat - 0x10000) % 0x400)]

def toUtf16 (text : List Char) : List UInt16 :=
  text.flatMap utf16Units

def isHighSurrogate (unit : UInt16) : Bool :=
  0xD800 ≤ unit.toNat && unit.toNat ≤ 0xDBFF

def isLowSurrogate (unit : UInt16) : Bool :=
  0xDC00 ≤ unit.toNat && unit.toNat ≤ 0xDFFF

/-- The character of a unit without partner. -/
def single (unit : UInt16) : Char :=
  if isHighSurrogate unit || isLowSurrogate unit then replacement
  else Char.ofNat unit.toNat

def pair (high low : UInt16) : Char :=
  Char.ofNat (0x10000 + (high.toNat - 0xD800) * 0x400 + (low.toNat - 0xDC00))

def fromUtf16 : List UInt16 → List Char
  | [] => []
  | [unit] => [single unit]
  | high :: low :: rest =>
      if isHighSurrogate high && isLowSurrogate low then
        pair high low :: fromUtf16 rest
      else single high :: fromUtf16 (low :: rest)

/-! ## Decoding what was encoded -/

variable {char : Char} {text : List Char} {bytes rest : List UInt8}

@[simp]
theorem toUtf8_nil : toUtf8 [] = [] := rfl

@[simp]
theorem toUtf8_cons (char : Char) (text : List Char) :
    toUtf8 (char :: text) = String.utf8EncodeChar char ++ toUtf8 text :=
  List.flatMap_cons

@[simp]
theorem toUtf8_append (text more : List Char) :
    toUtf8 (text ++ more) = toUtf8 text ++ toUtf8 more :=
  List.flatMap_append

@[simp]
theorem toUtf16_nil : toUtf16 [] = [] := rfl

@[simp]
theorem toUtf16_cons (char : Char) (text : List Char) :
    toUtf16 (char :: text) = utf16Units char ++ toUtf16 text :=
  List.flatMap_cons

@[simp]
theorem toUtf16_append (text more : List Char) :
    toUtf16 (text ++ more) = toUtf16 text ++ toUtf16 more :=
  List.flatMap_append

variable {value : ℕ}

theorem toNat_ofNat (valid : value.isValidChar) : (Char.ofNat value).toNat = value := by
  unfold Char.ofNat
  rw [dif_pos valid]
  rfl

theorem decode_cons (state : Option Sequence) (byte : UInt8) (rest : List UInt8) :
    decode state (byte :: rest) = (feed state byte).1 ++ decode (feed state byte).2 rest := by
  cases state <;> rfl

theorem toNat_byte (small : value < 256) : (UInt8.ofNat value).toNat = value := by
  rw [UInt8.toNat_ofNat']
  exact Nat.mod_eq_of_lt small

variable {sequence : Sequence} {bits : ℕ}

theorem decode_continue (small : bits < 64)
    (lower : sequence.lower ≤ bits + 0x80) (upper : bits + 0x80 ≤ sequence.upper)
    (more : sequence.missing ≠ 1) (rest : List UInt8) :
    decode (some sequence) (UInt8.ofNat (bits + 0x80) :: rest) =
      decode (some ⟨sequence.value * 64 + bits, sequence.missing - 1, 0x80, 0xBF⟩)
        rest := by
  have low : (bits + 0x80) % 64 = bits := by omega
  rw [decode_cons, feed, toNat_byte (by omega), if_pos ⟨lower, upper⟩, if_neg more, low]
  rfl

theorem decode_end (small : bits < 64)
    (lower : sequence.lower ≤ bits + 0x80) (upper : bits + 0x80 ≤ sequence.upper)
    (last : sequence.missing = 1) (rest : List UInt8) :
    decode (some sequence) (UInt8.ofNat (bits + 0x80) :: rest) =
      Char.ofNat (sequence.value * 64 + bits) :: decode none rest := by
  have low : (bits + 0x80) % 64 = bits := by omega
  rw [decode_cons, feed, toNat_byte (by omega), if_pos ⟨lower, upper⟩, if_pos last, low]
  rfl

theorem decode_lead (small : value < 256)
    (above : 0x80 ≤ value) (starts : lead value = some sequence) (rest : List UInt8) :
    decode none (UInt8.ofNat value :: rest) = decode (some sequence) rest := by
  rw [decode_cons, feed, begin, toNat_byte small, if_neg (by omega), starts]
  rfl

theorem toNat_valid (char : Char) :
    char.toNat < 0xD800 ∨ (0xDFFF < char.toNat ∧ char.toNat < 0x110000) :=
  char.valid

theorem lead_two (above : 0x7F < value) (below : value ≤ 0x7FF) :
    lead (value / 64 % 0x20 + 0xC0) = some ⟨value / 64, 1, 0x80, 0xBF⟩ := by
  have bits : value / 64 % 0x20 + 0xC0 - 0xC0 = value / 64 := by omega
  unfold lead
  rw [if_pos (by omega), bits]

theorem lead_three (above : 0x7FF < value) (below : value ≤ 0xFFFF) :
    lead (value / 4096 % 0x10 + 0xE0) =
      some ⟨value / 4096, 2, if value / 4096 = 0 then 0xA0 else 0x80,
        if value / 4096 = 0xD then 0x9F else 0xBF⟩ := by
  have bits : value / 4096 % 0x10 + 0xE0 - 0xE0 = value / 4096 := by omega
  have isFirst : (value / 4096 % 0x10 + 0xE0 = 0xE0) = (value / 4096 = 0) := by
    rw [eq_iff_iff]
    omega
  have isSurrogate : (value / 4096 % 0x10 + 0xE0 = 0xED) = (value / 4096 = 0xD) := by
    rw [eq_iff_iff]
    omega
  unfold lead
  rw [if_neg (by omega), if_pos (by omega), bits]
  simp only [isFirst, isSurrogate]

theorem lead_four (above : 0xFFFF < value) (below : value < 0x110000) :
    lead (value / 262144 % 0x08 + 0xF0) =
      some ⟨value / 262144, 3, if value / 262144 = 0 then 0x90 else 0x80,
        if value / 262144 = 4 then 0x8F else 0xBF⟩ := by
  have bits : value / 262144 % 0x08 + 0xF0 - 0xF0 = value / 262144 := by omega
  have isFirst : (value / 262144 % 0x08 + 0xF0 = 0xF0) = (value / 262144 = 0) := by
    rw [eq_iff_iff]
    omega
  have isLast : (value / 262144 % 0x08 + 0xF0 = 0xF4) = (value / 262144 = 4) := by
    rw [eq_iff_iff]
    omega
  unfold lead
  rw [if_neg (by omega), if_neg (by omega), if_pos (by omega), bits]
  simp only [isFirst, isLast]

/-- The bytes that a sequence starts with lead to a state that is not at its end; the
last byte completes the character. -/
theorem decode_encodeChar (char : Char) (rest : List UInt8) :
    decode none (String.utf8EncodeChar char ++ rest) = char :: decode none rest := by
  have valid := toNat_valid char
  have isChar := Char.ofNat_toNat char
  unfold String.utf8EncodeChar
  dsimp only
  change char.val.toNat < _ ∨ _ < char.val.toNat ∧ char.val.toNat < _ at valid
  change Char.ofNat char.val.toNat = char at isChar
  generalize char.val.toNat = value at valid isChar ⊢
  split
  · rename_i one
    rw [List.singleton_append, decode_cons, feed, begin, toNat_byte (by omega),
      if_pos (by omega), isChar]
    rfl
  · split
    · rename_i two
      have whole : value / 64 * 64 + value % 0x40 = value := by omega
      simp only [List.cons_append, List.nil_append]
      rw [decode_lead (by omega) (by omega) (lead_two (by omega) two),
        decode_end (by omega) (by simp) (by simp only; omega) rfl, whole, isChar]
    · split
      · rename_i three
        have whole : (value / 4096 * 64 + value / 64 % 0x40) * 64 + value % 0x40 =
            value := by omega
        simp only [List.cons_append, List.nil_append]
        rw [decode_lead (by omega) (by omega) (lead_three (by omega) three),
          decode_continue (by omega) (by simp only; split <;> omega)
            (by simp only; split <;> omega) (by simp),
          decode_end (by omega) (by simp) (by simp only; omega) rfl, whole, isChar]
      · have whole : ((value / 262144 * 64 + value / 4096 % 0x40) * 64 +
            value / 64 % 0x40) * 64 + value % 0x40 = value := by omega
        simp only [List.cons_append, List.nil_append]
        rw [decode_lead (by omega) (by omega) (lead_four (by omega) (by omega)),
          decode_continue (by omega) (by simp only; split <;> omega)
            (by simp only; split <;> omega) (by simp),
          decode_continue (by omega) (by simp) (by simp only; omega) (by simp),
          decode_end (by omega) (by simp) (by simp only; omega) rfl, whole, isChar]

variable {count : ℕ}

theorem decode_take_encodeChar (char : Char) (positive : 0 < count)
    (short : count < (String.utf8EncodeChar char).length) :
    decode none ((String.utf8EncodeChar char).take count) = [replacement] := by
  have valid := toNat_valid char
  unfold String.utf8EncodeChar at short ⊢
  dsimp only at short ⊢
  change char.val.toNat < _ ∨ _ < char.val.toNat ∧ char.val.toNat < _ at valid
  generalize char.val.toNat = value at valid short ⊢
  split at short
  · simp only [List.length_cons, List.length_nil] at short
    omega
  · rename_i notOne
    rw [if_neg notOne]
    split at short
    · rename_i two
      obtain rfl : count = 1 := by
        simp only [List.length_cons, List.length_nil] at short
        omega
      rw [if_pos two, List.take_succ_cons, List.take_zero,
        decode_lead (by omega) (by omega) (lead_two (by omega) two)]
      rfl
    · rename_i notTwo
      rw [if_neg notTwo]
      split at short
      · rename_i three
        rw [if_pos three]
        simp only [List.length_cons, List.length_nil] at short
        obtain rfl | rfl : count = 1 ∨ count = 2 := by omega
        · rw [List.take_succ_cons, List.take_zero,
            decode_lead (by omega) (by omega) (lead_three (by omega) three)]
          rfl
        · rw [List.take_succ_cons, List.take_succ_cons, List.take_zero,
            decode_lead (by omega) (by omega) (lead_three (by omega) three),
            decode_continue (by omega) (by simp only; split <;> omega)
              (by simp only; split <;> omega) (by simp)]
          rfl
      · rename_i notThree
        rw [if_neg notThree]
        simp only [List.length_cons, List.length_nil] at short
        have starts := lead_four (show 0xFFFF < value by omega) (by omega)
        obtain rfl | rfl | rfl : count = 1 ∨ count = 2 ∨ count = 3 := by omega
        · rw [List.take_succ_cons, List.take_zero, decode_lead (by omega) (by omega) starts]
          rfl
        · rw [List.take_succ_cons, List.take_succ_cons, List.take_zero,
            decode_lead (by omega) (by omega) starts,
            decode_continue (by omega) (by simp only; split <;> omega)
              (by simp only; split <;> omega) (by simp)]
          rfl
        · rw [List.take_succ_cons, List.take_succ_cons, List.take_succ_cons,
            List.take_zero, decode_lead (by omega) (by omega) starts,
            decode_continue (by omega) (by simp only; split <;> omega)
              (by simp only; split <;> omega) (by simp),
            decode_continue (by omega) (by simp) (by simp only; omega) (by simp)]
          rfl

theorem fromUtf8_toUtf8_append (text : List Char) (rest : List UInt8) :
    fromUtf8 (toUtf8 text ++ rest) = text ++ fromUtf8 rest := by
  unfold fromUtf8
  induction text with
  | nil => rfl
  | cons char text ih =>
    rw [toUtf8_cons, List.append_assoc, decode_encodeChar, ih, List.cons_append]

theorem fromUtf8_toUtf8 (text : List Char) : fromUtf8 (toUtf8 text) = text := by
  have whole := fromUtf8_toUtf8_append text []
  rw [List.append_nil] at whole
  rw [whole]
  exact List.append_nil text

theorem feed_ne_idle (state : Option Sequence) (byte : UInt8) :
    (feed state byte).1 ≠ [] ∨ (feed state byte).2 ≠ none := by
  have begins : (begin byte).1 ≠ [] ∨ (begin byte).2 ≠ none := by
    unfold begin
    split
    · exact .inl (List.cons_ne_nil _ _)
    · split
      · exact .inr (Option.some_ne_none _)
      · exact .inl (List.cons_ne_nil _ _)
  cases state with
  | none => exact begins
  | some sequence =>
    rw [feed]
    split
    · dsimp only
      split
      · exact .inl (List.cons_ne_nil _ _)
      · exact .inr (Option.some_ne_none _)
    · exact .inl (List.cons_ne_nil _ _)

theorem decode_some_ne_nil (sequence : Sequence) (bytes : List UInt8) :
    decode (some sequence) bytes ≠ [] := by
  induction bytes generalizing sequence with
  | nil => exact List.cons_ne_nil _ _
  | cons byte rest ih =>
    rw [decode_cons]
    rcases feed_ne_idle (some sequence) byte with emits | stays
    · exact List.append_ne_nil_of_left_ne_nil emits _
    · obtain ⟨next, isNext⟩ := Option.ne_none_iff_exists'.mp stays
      rw [isNext]
      exact List.append_ne_nil_of_right_ne_nil _ (ih next)

/-- Decoding loses no byte altogether. -/
theorem fromUtf8_eq_nil (isEmpty : fromUtf8 bytes = []) : bytes = [] := by
  unfold fromUtf8 at isEmpty
  cases bytes with
  | nil => rfl
  | cons byte rest =>
    rw [decode_cons, List.append_eq_nil_iff] at isEmpty
    rcases feed_ne_idle none byte with emits | stays
    · exact absurd isEmpty.1 emits
    · obtain ⟨next, isNext⟩ := Option.ne_none_iff_exists'.mp stays
      rw [isNext] at isEmpty
      exact absurd isEmpty.2 (decode_some_ne_nil next rest)

theorem take_toUtf8 (short : count < (toUtf8 text).length) :
    ∃ front char back cut, text = front ++ char :: back ∧
      cut < (String.utf8EncodeChar char).length ∧
      (toUtf8 text).take count = toUtf8 front ++ (String.utf8EncodeChar char).take cut := by
  induction text generalizing count with
  | nil => exact absurd short (Nat.not_lt_zero _)
  | cons char text ih =>
    rw [toUtf8_cons, List.length_append] at short
    by_cases inHead : count < (String.utf8EncodeChar char).length
    · refine ⟨[], char, text, count, rfl, inHead, ?_⟩
      rw [toUtf8_cons, List.take_append_of_le_length (by omega)]
      rfl
    · obtain ⟨front, cutChar, back, cut, rfl, inside, isTaken⟩ :=
        ih (show count - (String.utf8EncodeChar char).length < _ by omega)
      refine ⟨char :: front, cutChar, back, cut, rfl, inside, ?_⟩
      rw [toUtf8_cons, List.take_append, List.take_of_length_le (by omega), isTaken,
        toUtf8_cons, List.append_assoc]

theorem exists_text_of_ascii (ascii : ∀ byte ∈ bytes, byte < 0x80) :
    ∃ text, bytes = toUtf8 text ∧ (toUtf16 text).length = bytes.length := by
  induction bytes with
  | nil => exact ⟨[], rfl, rfl⟩
  | cons byte rest ih =>
    obtain ⟨isAscii, restAscii⟩ := List.forall_mem_cons.mp ascii
    obtain ⟨text, isText, sameLength⟩ := ih restAscii
    have small : byte.toNat < 0x80 := UInt8.lt_iff_toNat_lt.mp isAscii
    have value : (Char.ofNat byte.toNat).toNat = byte.toNat :=
      toNat_ofNat (.inl (by omega))
    refine ⟨Char.ofNat byte.toNat :: text, ?_, ?_⟩
    · have encoded : String.utf8EncodeChar (Char.ofNat byte.toNat) = [byte] := by
        unfold String.utf8EncodeChar
        dsimp only
        change (if (Char.ofNat byte.toNat).toNat ≤ _ then
          [UInt8.ofNat (Char.ofNat byte.toNat).toNat] else _) = _
        rw [value, if_pos (by omega), UInt8.ofNat_toNat]
      rw [toUtf8_cons, encoded, ← isText]
      rfl
    · rw [toUtf16_cons, utf16Units, value, if_pos (by omega), List.length_append, sameLength]
      exact Nat.add_comm 1 rest.length

/-! ## Units and bytes -/

theorem length_encodeChar (char : Char) : (String.utf8EncodeChar char).length =
      if char.toNat ≤ 0x7F then 1 else if char.toNat ≤ 0x7FF then 2
      else if char.toNat ≤ 0xFFFF then 3 else 4 := by
  unfold String.utf8EncodeChar
  dsimp only
  change List.length (if char.toNat ≤ _ then _ else if char.toNat ≤ _ then _
    else if char.toNat ≤ _ then _ else _) = _
  split
  · rfl
  · split
    · rfl
    · split <;> rfl

theorem length_encodeChar_pos (char : Char) : 0 < (String.utf8EncodeChar char).length := by
  rw [length_encodeChar]
  split
  · decide
  · split
    · decide
    · split <;> decide

theorem length_encode_replacement : (String.utf8EncodeChar replacement).length = 3 := by
  decide

theorem ascii_of_length {byte : UInt8} (one : (String.utf8EncodeChar char).length = 1)
    (member : byte ∈ String.utf8EncodeChar char) : byte < 0x80 := by
  rw [length_encodeChar] at one
  have small : char.toNat ≤ 0x7F := by
    by_contra large
    rw [if_neg large] at one
    split at one
    · omega
    · split at one <;> omega
  unfold String.utf8EncodeChar at member
  dsimp only at member
  change byte ∈ (if char.toNat ≤ _ then [UInt8.ofNat char.toNat] else _) at member
  rw [if_pos small, List.mem_singleton] at member
  rw [member, UInt8.lt_iff_toNat_lt, toNat_byte (by omega)]
  exact Nat.lt_succ_of_le small

theorem toNat_unit (small : value < 0x10000) : (UInt16.ofNat value).toNat = value := by
  rw [UInt16.toNat_ofNat']
  exact Nat.mod_eq_of_lt small

variable {high low : UInt16}

theorem toNat_pair (isHigh : isHighSurrogate high = true) (isLow : isLowSurrogate low = true) :
    (pair high low).toNat = 0x10000 + (high.toNat - 0xD800) * 0x400 + (low.toNat - 0xDC00) := by
  unfold isHighSurrogate at isHigh
  unfold isLowSurrogate at isLow
  rw [Bool.and_eq_true, decide_eq_true_eq, decide_eq_true_eq] at isHigh isLow
  exact toNat_ofNat (.inr ⟨by omega, by omega⟩)

theorem length_encode_pair (isHigh : isHighSurrogate high = true)
    (isLow : isLowSurrogate low = true) :
    (String.utf8EncodeChar (pair high low)).length = 4 := by
  rw [length_encodeChar, toNat_pair isHigh isLow, if_neg (by omega), if_neg (by omega),
    if_neg (by omega)]

theorem fromUtf16_cons {unit : UInt16} (notHigh : isHighSurrogate unit = false)
    (rest : List UInt16) : fromUtf16 (unit :: rest) = single unit :: fromUtf16 rest := by
  cases rest with
  | nil => rfl
  | cons low rest => rw [fromUtf16, notHigh, Bool.false_and, if_neg (by decide)]

theorem fromUtf16_utf16Units (char : Char) (rest : List UInt16) :
    fromUtf16 (utf16Units char ++ rest) = char :: fromUtf16 rest := by
  have valid := toNat_valid char
  have isChar := Char.ofNat_toNat char
  unfold utf16Units
  split
  · rename_i small
    have value := toNat_unit small
    have notHigh : isHighSurrogate (UInt16.ofNat char.toNat) = false := by
      unfold isHighSurrogate
      rw [value, Bool.and_eq_false_iff, decide_eq_false_iff_not, decide_eq_false_iff_not]
      omega
    have notLow : isLowSurrogate (UInt16.ofNat char.toNat) = false := by
      unfold isLowSurrogate
      rw [value, Bool.and_eq_false_iff, decide_eq_false_iff_not, decide_eq_false_iff_not]
      omega
    rw [List.singleton_append, fromUtf16_cons notHigh, single, notHigh, notLow, value,
      if_neg (by decide), isChar]
  · have high : (UInt16.ofNat (0xD800 + (char.toNat - 0x10000) / 0x400)).toNat =
        0xD800 + (char.toNat - 0x10000) / 0x400 := toNat_unit (by omega)
    have low : (UInt16.ofNat (0xDC00 + (char.toNat - 0x10000) % 0x400)).toNat =
        0xDC00 + (char.toNat - 0x10000) % 0x400 := toNat_unit (by omega)
    simp only [List.cons_append, List.nil_append]
    rw [fromUtf16, if_pos]
    · have whole : 0x10000 + (0xD800 + (char.toNat - 0x10000) / 0x400 - 0xD800) * 0x400 +
          (0xDC00 + (char.toNat - 0x10000) % 0x400 - 0xDC00) = char.toNat := by
        omega
      rw [pair, high, low, whole, isChar]
    · unfold isHighSurrogate isLowSurrogate
      rw [high, low]
      simp only [Bool.and_eq_true, decide_eq_true_eq]
      omega

theorem fromUtf16_toUtf16 (text : List Char) : fromUtf16 (toUtf16 text) = text := by
  induction text with
  | nil => rfl
  | cons char text ih => rw [toUtf16_cons, fromUtf16_utf16Units, ih]

theorem length_le_toUtf8_fromUtf16 (units : List UInt16) :
    units.length ≤ (toUtf8 (fromUtf16 units)).length ∧
      (units.length = (toUtf8 (fromUtf16 units)).length →
        ∀ byte ∈ toUtf8 (fromUtf16 units), byte < 0x80) := by
  fun_induction fromUtf16 units with
  | case1 => simp
  | case2 unit =>
    rw [toUtf8_cons, toUtf8_nil, List.append_nil, List.length_singleton]
    exact ⟨length_encodeChar_pos _, fun one _ => ascii_of_length one.symm⟩
  | case3 high low rest isPair ih =>
    rw [Bool.and_eq_true] at isPair
    have four := length_encode_pair isPair.1 isPair.2
    rw [toUtf8_cons, List.length_append, four]
    simp only [List.length_cons]
    refine ⟨by omega, fun same => ?_⟩
    omega
  | case4 high low rest notPair ih =>
    have positive := length_encodeChar_pos (single high)
    rw [toUtf8_cons, List.length_append]
    simp only [List.length_cons] at ih ⊢
    refine ⟨by omega, fun same byte member => ?_⟩
    rcases List.mem_append.mp member with inHead | inRest
    · exact ascii_of_length (by omega) inHead
    · exact ih.2 (by omega) byte inRest

variable {units : List UInt16}

/-- Cutting units off makes the encoding shorter. -/
theorem length_toUtf8_take_lt (short : count < units.length) :
    (toUtf8 (fromUtf16 (units.take count))).length < (toUtf8 (fromUtf16 units)).length := by
  fun_induction fromUtf16 units generalizing count with
  | case1 => exact absurd short (Nat.not_lt_zero _)
  | case2 unit =>
    obtain rfl : count = 0 := by
      rw [List.length_singleton] at short
      omega
    rw [toUtf8_cons, List.length_append]
    exact Nat.lt_add_right _ (length_encodeChar_pos _)
  | case3 high low rest isPair ih =>
    have both := isPair
    rw [Bool.and_eq_true] at both
    rw [toUtf8_cons, List.length_append, length_encode_pair both.1 both.2]
    match count with
    | 0 =>
      rw [List.take_zero]
      exact Nat.lt_add_right _ (by decide)
    | 1 =>
      -- The high surrogate stays alone and takes three bytes.
      have alone : single high = replacement := by
        rw [single, both.1, Bool.true_or, if_pos rfl]
      rw [List.take_succ_cons, List.take_zero, fromUtf16, alone, toUtf8_cons,
        toUtf8_nil, List.append_nil, length_encode_replacement]
      omega
    | count + 2 =>
      have shorter := ih (show count < rest.length by simpa using short)
      rw [List.take_succ_cons, List.take_succ_cons, fromUtf16, if_pos isPair,
        toUtf8_cons, List.length_append, length_encode_pair both.1 both.2]
      omega
  | case4 high low rest notPair ih =>
    rw [toUtf8_cons, List.length_append]
    have positive := length_encodeChar_pos (single high)
    match count with
    | 0 =>
      rw [List.take_zero]
      exact Nat.lt_add_right _ positive
    | count + 1 =>
      have shorter := ih (show count < (low :: rest).length by simpa using short)
      have alone : fromUtf16 (high :: (low :: rest).take count) =
          single high :: fromUtf16 ((low :: rest).take count) := by
        cases count with
        | zero => rfl
        | succ count => rw [List.take_succ_cons, fromUtf16, if_neg notPair]
      rw [List.take_succ_cons, alone, toUtf8_cons, List.length_append]
      omega

theorem toNat_single_lt (unit : UInt16) : (single unit).toNat < 0x10000 := by
  unfold single
  split
  · decide
  · rename_i notSurrogate
    unfold isHighSurrogate isLowSurrogate at notSurrogate
    simp only [Bool.or_eq_true, Bool.and_eq_true, decide_eq_true_eq] at notSurrogate
    have bound := unit.toNat_lt
    rw [toNat_ofNat (by
      rw [Nat.isValidChar]
      omega)]
    exact bound

theorem length_toUtf8_fromUtf16_le (units : List UInt16) :
    (toUtf8 (fromUtf16 units)).length ≤ 3 * units.length := by
  have one (unit : UInt16) : (String.utf8EncodeChar (single unit)).length ≤ 3 := by
    have small := toNat_single_lt unit
    rw [length_encodeChar]
    split
    · decide
    · split
      · decide
      · exact Nat.le_of_eq (if_pos (by omega))
  fun_induction fromUtf16 units with
  | case1 => exact Nat.le_refl _
  | case2 unit =>
    rw [toUtf8_cons, toUtf8_nil, List.append_nil]
    exact one unit
  | case3 high low rest isPair ih =>
    rw [Bool.and_eq_true] at isPair
    rw [toUtf8_cons, List.length_append, length_encode_pair isPair.1 isPair.2]
    simp only [List.length_cons]
    omega
  | case4 high low rest notPair ih =>
    have head := one high
    rw [toUtf8_cons, List.length_append]
    simp only [List.length_cons] at ih ⊢
    omega

/-- What a state has read and not yet given out counts for one unit. -/
def pending : Option Sequence → ℕ
  | none => 0
  | some _ => 1

theorem length_utf16Units_le (char : Char) : (utf16Units char).length ≤ 2 := by
  unfold utf16Units
  split <;> simp

theorem length_feed_le (state : Option Sequence) (byte : UInt8) :
    (toUtf16 (feed state byte).1).length + pending (feed state byte).2 ≤ pending state + 1 := by
  have replaced : (utf16Units replacement).length = 1 := by decide
  have begins : (toUtf16 (begin byte).1).length + pending (begin byte).2 ≤ 1 := by
    unfold begin
    split
    · rename_i ascii
      have value : (Char.ofNat byte.toNat).toNat = byte.toNat :=
        toNat_ofNat (.inl (by omega))
      rw [toUtf16_cons, toUtf16_nil, List.append_nil, utf16Units, value, if_pos (by omega)]
      exact Nat.le_refl _
    · split
      · exact Nat.le_refl _
      · rw [toUtf16_cons, toUtf16_nil, List.append_nil, replaced]
        exact Nat.le_refl _
  cases state with
  | none => exact begins
  | some sequence =>
    rw [feed]
    split
    · dsimp only
      split
      · rw [toUtf16_cons, toUtf16_nil, List.append_nil]
        exact length_utf16Units_le _
      · exact Nat.le_succ 1
    · rw [toUtf16_cons, List.length_append, replaced]
      simp only [pending] at begins ⊢
      omega

/-- Decoding gives at most one unit a byte. -/
theorem length_toUtf16_fromUtf8_le (bytes : List UInt8) :
    (toUtf16 (fromUtf8 bytes)).length ≤ bytes.length := by
  have decoded : ∀ state, (toUtf16 (decode state bytes)).length ≤ pending state + bytes.length := by
    induction bytes with
    | nil =>
      intro state
      cases state with
      | none => exact Nat.le_refl _
      | some sequence => exact Nat.le_refl 1
    | cons byte rest ih =>
      intro state
      have now := length_feed_le state byte
      have later := ih (feed state byte).2
      rw [decode_cons, toUtf16_append, List.length_append, List.length_cons]
      omega
  have fromStart := decoded none
  rw [pending, Nat.zero_add] at fromStart
  exact fromStart

/-! ## Through UTF-16 and back -/

def cut (limit : Option ℕ) (units : List UInt16) : List UInt16 :=
  match limit with
  | none => units
  | some count => units.take count

/-- Bytes that are decoded, cut to a number of units and encoded again. -/
def transcode (limit : Option ℕ) (bytes : List UInt8) : List UInt8 :=
  toUtf8 (fromUtf16 (cut limit (toUtf16 (fromUtf8 bytes))))

theorem cut_cases (limit : Option ℕ) (units : List UInt16) :
    (cut limit units = units ∧ ∀ count ∈ limit, units.length ≤ count) ∨
      ∃ count, limit = some count ∧ count < units.length ∧ cut limit units = units.take count := by
  cases limit with
  | none => exact .inl ⟨rfl, by simp⟩
  | some count =>
    rcases Nat.lt_or_ge count units.length with short | long
    · exact .inr ⟨count, rfl, short, rfl⟩
    · refine .inl ⟨List.take_of_length_le long, ?_⟩
      intro other isCount
      obtain rfl := Option.some.inj isCount
      exact long

variable {limit : Option ℕ}

theorem cut_of_le (long : ∀ count ∈ limit, units.length ≤ count) : cut limit units = units := by
  cases limit with
  | none => rfl
  | some count => exact List.take_of_length_le (long count rfl)

theorem length_transcode_le (limit : Option ℕ) (bytes : List UInt8) :
    (transcode limit bytes).length ≤ 3 * bytes.length := by
  have units := length_toUtf16_fromUtf8_le bytes
  have encoded := length_toUtf8_fromUtf16_le (cut limit (toUtf16 (fromUtf8 bytes)))
  have fewer : (cut limit (toUtf16 (fromUtf8 bytes))).length ≤
      (toUtf16 (fromUtf8 bytes)).length := by
    rcases cut_cases limit (toUtf16 (fromUtf8 bytes)) with ⟨same, -⟩ | ⟨count, -, -, isCut⟩
    · exact Nat.le_of_eq (congrArg List.length same)
    · rw [isCut]
      exact List.length_take_le' _ _
  unfold transcode
  omega

theorem transcode_whole (long : ∀ count ∈ limit, (toUtf16 (fromUtf8 bytes)).length ≤ count) :
    transcode limit bytes = toUtf8 (fromUtf8 bytes) := by
  rw [transcode, cut_of_le long, fromUtf16_toUtf16]

/-- The bytes that were read give the requested bytes when they are decoded, cut and
encoded: what is requested is a text, which is read as a whole, or of which only a
replacement character is cut; or some of what is read is not requested, and the
requested bytes are as many units. -/
def Survives (limit : Option ℕ) (read requested : List UInt8) : Prop :=
  if requested.length < read.length then ∀ byte ∈ requested, byte < 0x80
  else
    ∃ text, requested = toUtf8 text ∧ (∀ count ∈ limit, (toUtf16 text).length ≤ count) ∧
      (requested.length = read.length ∨
        ∃ front, text = front ++ [replacement] ∧ (toUtf8 front).length < read.length)

theorem transcode_longer_iff (isLimit : limit = some bytes.length) (nonempty : rest ≠ []) :
    transcode limit (bytes ++ rest) = bytes ↔ ∀ byte ∈ bytes, byte < 0x80 := by
  subst isLimit
  constructor
  · intro survives
    rcases cut_cases (some bytes.length) (toUtf16 (fromUtf8 (bytes ++ rest))) with
      ⟨-, whole⟩ | ⟨count, isCount, short, isCut⟩
    · -- All the text would fit, also what follows the bytes.
      have isText := transcode_whole whole
      rw [survives] at isText
      have more := fromUtf8_toUtf8_append (fromUtf8 (bytes ++ rest)) rest
      rw [← isText] at more
      have none := List.self_eq_append_right.mp more
      exact absurd (fromUtf8_eq_nil none) nonempty
    · obtain rfl := Option.some.inj isCount
      unfold transcode at survives
      rw [isCut] at survives
      have isAscii := (length_le_toUtf8_fromUtf16
        ((toUtf16 (fromUtf8 (bytes ++ rest))).take bytes.length)).2
      rw [survives, List.length_take, Nat.min_eq_left (Nat.le_of_lt short)] at isAscii
      exact isAscii rfl
  · intro ascii
    obtain ⟨text, isText, sameLength⟩ := exists_text_of_ascii ascii
    rw [transcode, cut, ← sameLength]
    nth_rewrite 1 [isText]
    rw [fromUtf8_toUtf8_append, toUtf16_append, List.take_left, fromUtf16_toUtf16, isText]

theorem transcode_same_iff : transcode limit bytes = bytes ↔
      ∃ text, bytes = toUtf8 text ∧ ∀ count ∈ limit, (toUtf16 text).length ≤ count := by
  constructor
  · intro survives
    have isText := survives
    rw [transcode] at isText
    generalize fromUtf16 (cut limit (toUtf16 (fromUtf8 bytes))) = text at isText
    refine ⟨text, isText.symm, ?_⟩
    have decoded : fromUtf8 bytes = text := by rw [← isText, fromUtf8_toUtf8]
    rw [transcode, decoded] at survives
    rcases cut_cases limit (toUtf16 text) with ⟨-, whole⟩ | ⟨count, -, short, isCut⟩
    · exact whole
    · have shorter := length_toUtf8_take_lt short
      rw [← isCut, survives, fromUtf16_toUtf16, isText] at shorter
      exact absurd shorter (Nat.lt_irrefl _)
  · rintro ⟨text, rfl, whole⟩
    have decoded := fromUtf8_toUtf8 text
    rw [transcode_whole (by rw [decoded]; exact whole), decoded]

/-- What is left of a text after its end was cut off. -/
theorem fromUtf8_take (short : count < (toUtf8 text).length) :
    ∃ front char back, text = front ++ char :: back ∧ (fromUtf8 ((toUtf8 text).take count) = front ∧
          (toUtf8 front).length = count ∨
        fromUtf8 ((toUtf8 text).take count) = front ++ [replacement] ∧
          (toUtf8 front).length < count) := by
  obtain ⟨front, char, back, cut, isText, inside, isTaken⟩ := take_toUtf8 short
  refine ⟨front, char, back, isText, ?_⟩
  have length := congrArg List.length isTaken
  rw [List.length_take, List.length_append, List.length_take,
    Nat.min_eq_left (Nat.le_of_lt short), Nat.min_eq_left (Nat.le_of_lt inside)] at length
  rw [isTaken, fromUtf8_toUtf8_append]
  rcases Nat.eq_zero_or_pos cut with rfl | positive
  · left
    exact ⟨List.append_nil front, by omega⟩
  · right
    exact ⟨congrArg (front ++ ·) (decode_take_encodeChar char positive inside), by omega⟩

theorem transcode_shorter_iff (short : count < bytes.length) :
    transcode limit (bytes.take count) = bytes ↔ ∃ text, bytes = toUtf8 text ∧
        (∀ units ∈ limit, (toUtf16 text).length ≤ units) ∧
        ∃ front, text = front ++ [replacement] ∧ (toUtf8 front).length < count := by
  constructor
  · intro survives
    have isText := survives
    rw [transcode] at isText
    generalize fromUtf16 (cut limit (toUtf16 (fromUtf8 (bytes.take count)))) = text at isText
    rw [← isText] at short
    obtain ⟨front, char, back, -, left⟩ := fromUtf8_take short
    rw [isText] at left short
    rw [transcode] at survives
    rcases left with ⟨isFront, length⟩ | ⟨isFront, shorter⟩
    · -- Nothing was replaced, and what is left is too short.
      rw [isFront] at survives
      have total : bytes.length ≤ (toUtf8 front).length := by
        rw [← survives]
        rcases cut_cases limit (toUtf16 front) with ⟨whole, -⟩ | ⟨_, -, less, isCut⟩
        · exact Nat.le_of_eq (by rw [whole, fromUtf16_toUtf16])
        · have cutShort := length_toUtf8_take_lt less
          rw [fromUtf16_toUtf16] at cutShort
          rw [isCut]
          exact Nat.le_of_lt cutShort
      omega
    · rw [isFront] at survives
      rcases cut_cases limit (toUtf16 (front ++ [replacement])) with
        ⟨isWhole, whole⟩ | ⟨units, -, less, isCut⟩
      · rw [isWhole, fromUtf16_toUtf16] at survives
        exact ⟨front ++ [replacement], survives.symm, whole, front, rfl, shorter⟩
      · -- The replacement is cut off again.
        have unitCount : (utf16Units replacement).length = 1 := by decide
        rw [toUtf16_append, toUtf16_cons, toUtf16_nil, List.append_nil] at less isCut
        rw [List.length_append, unitCount] at less
        have inFront : cut limit (toUtf16 front ++ utf16Units replacement) =
            (toUtf16 front).take units := by
          rw [isCut, List.take_append_of_le_length (by omega)]
        rw [toUtf16_append, toUtf16_cons, toUtf16_nil, List.append_nil, inFront] at survives
        have total : bytes.length ≤ (toUtf8 front).length := by
          rw [← survives]
          rcases Nat.lt_or_ge units (toUtf16 front).length with inside | outside
          · have cutShort := length_toUtf8_take_lt inside
            rw [fromUtf16_toUtf16] at cutShort
            exact Nat.le_of_lt cutShort
          · exact Nat.le_of_eq (by rw [List.take_of_length_le outside, fromUtf16_toUtf16])
        omega
  · rintro ⟨text, rfl, whole, front, rfl, shorter⟩
    rw [toUtf8_append, toUtf8_cons, toUtf8_nil, List.append_nil, List.length_append] at short
    have decoded : fromUtf8 ((toUtf8 (front ++ [replacement])).take count) =
        front ++ [replacement] := by
      rw [toUtf8_append, toUtf8_cons, toUtf8_nil, List.append_nil, List.take_append,
        List.take_of_length_le (by omega), fromUtf8_toUtf8_append, fromUtf8,
        decode_take_encodeChar replacement (by omega) (by omega)]
    rw [transcode_whole (by rw [decoded]; exact whole), decoded]

/-- For two starts of the same bytes, decoding the one gives the other when it
survives. -/
theorem transcode_eq_iff {source read requested : List UInt8}
    (isRead : read <+: source) (isRequested : requested <+: source)
    (isLimit : requested.length < read.length → limit = some requested.length) :
    transcode limit read = requested ↔ Survives limit read requested := by
  unfold Survives
  rcases Nat.lt_trichotomy requested.length read.length with less | same | more
  · rw [if_pos less]
    obtain ⟨rest, rfl⟩ := List.prefix_of_prefix_length_le isRequested isRead (by omega)
    apply transcode_longer_iff (isLimit less)
    rintro rfl
    rw [List.append_nil] at less
    omega
  · rw [if_neg (by omega)]
    obtain rfl := List.IsPrefix.eq_of_length
      (List.prefix_of_prefix_length_le isRequested isRead (by omega)) same
    rw [transcode_same_iff]
    constructor
    · rintro ⟨text, isText, whole⟩
      exact ⟨text, isText, whole, .inl rfl⟩
    · rintro ⟨text, isText, whole, -⟩
      exact ⟨text, isText, whole⟩
  · rw [if_neg (by omega)]
    have isTake := List.prefix_iff_eq_take.mp
      (List.prefix_of_prefix_length_le isRead isRequested (by omega))
    have spec : transcode limit (requested.take read.length) = requested ↔ _ :=
      transcode_shorter_iff more
    rw [← isTake] at spec
    rw [spec]
    constructor
    · rintro ⟨text, isText, whole, cutEnd⟩
      exact ⟨text, isText, whole, .inr cutEnd⟩
    · rintro ⟨text, isText, whole, same | cutEnd⟩
      · omega
      · exact ⟨text, isText, whole, cutEnd⟩

end SharpEmu.Unicode
