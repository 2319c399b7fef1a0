import Mathlib.Data.UInt

/-!
# Streams of word-counted instructions

An instruction is a 16-bit opcode and operand words.  In a stream it is headed by
a word with the opcode in its low half and the number of the instruction's words,
the head included, in its high half.  A reader that trusts these counts gets back
the instructions that were written, as long as each count fits.
-/

namespace SharpEmu.WordCounted

def head (opcode : UInt16) (operandCount : ℕ) : UInt32 :=
  UInt32.ofNat (operandCount + 1) <<< 16 ||| opcode.toUInt32

def encode (instruction : UInt16 × List UInt32) : List UInt32 :=
  head instruction.1 instruction.2.length :: instruction.2

def opcodeOf (word : UInt32) : UInt16 := word.toUInt16

def countOf (word : UInt32) : ℕ := (word >>> 16).toNat

/-- Read a stream to its end.  A count of zero or one that goes past the end is
an error. -/
def parse : List UInt32 → Option (List (UInt16 × List UInt32))
  | [] => some []
  | word :: rest =>
      if countOf word = 0 ∨ rest.length < countOf word - 1 then none
      else
        (parse (rest.drop (countOf word - 1))).map fun others =>
          (opcodeOf word, rest.take (countOf word - 1)) :: others
termination_by words => words.length
decreasing_by
  simp only [List.length_drop, List.length_cons]
  omega

def Fits (instruction : UInt16 × List UInt32) : Prop :=
  instruction.2.length + 1 < 2 ^ 16

variable {operandCount : ℕ}

theorem toNat_head (opcode : UInt16) (fits : operandCount + 1 < 2 ^ 16) :
    (head opcode operandCount).toNat = (operandCount + 1) * 2 ^ 16 + opcode.toNat := by
  have opcodeBound : opcode.toNat < 2 ^ 16 := opcode.toNat_lt
  have countMod : (operandCount + 1) % 2 ^ 32 = operandCount + 1 :=
    Nat.mod_eq_of_lt (by omega)
  have shifted : (operandCount + 1) <<< 16 < 2 ^ 32 := by
    rw [Nat.shiftLeft_eq]
    omega
  rw [head, UInt32.toNat_or, UInt32.toNat_shiftLeft, UInt32.toNat_ofNat',
    UInt16.toNat_toUInt32, countMod, show (16 : UInt32).toNat % 32 = 16 from rfl,
    Nat.mod_eq_of_lt shifted, ← Nat.shiftLeft_add_eq_or_of_lt opcodeBound,
    Nat.shiftLeft_eq]

@[simp] theorem countOf_head (opcode : UInt16) (fits : operandCount + 1 < 2 ^ 16) :
    countOf (head opcode operandCount) = operandCount + 1 := by
  have opcodeBound : opcode.toNat < 2 ^ 16 := opcode.toNat_lt
  rw [countOf, UInt32.toNat_shiftRight, toNat_head opcode fits,
    show (16 : UInt32).toNat % 32 = 16 from rfl, Nat.shiftRight_eq_div_pow]
  omega

@[simp] theorem opcodeOf_head (opcode : UInt16) (fits : operandCount + 1 < 2 ^ 16) :
    opcodeOf (head opcode operandCount) = opcode := by
  have opcodeBound : opcode.toNat < 2 ^ 16 := opcode.toNat_lt
  apply UInt16.toNat_inj.mp
  rw [opcodeOf, UInt32.toNat_toUInt16, toNat_head opcode fits]
  omega

theorem parse_encode_append {instruction : UInt16 × List UInt32}
    (fits : Fits instruction) (rest : List UInt32) :
    parse (encode instruction ++ rest) = (parse rest).map fun others => instruction :: others := by
  obtain ⟨opcode, operands⟩ := instruction
  rw [encode, List.cons_append, parse, countOf_head opcode fits,
    opcodeOf_head opcode fits, Nat.add_sub_cancel, List.drop_left,
    List.take_left, if_neg]
  simp

/-- Reading back what was written. -/
theorem parse_flatMap_encode {instructions : List (UInt16 × List UInt32)}
    (fit : ∀ instruction ∈ instructions, Fits instruction) :
    parse (instructions.flatMap encode) = some instructions := by
  induction instructions with
  | nil => rw [List.flatMap_nil, parse]
  | cons first others ih =>
    rw [List.flatMap_cons, parse_encode_append (fit first (by simp)), ih (List.forall_mem_cons.mp fit).2]
    rfl

end SharpEmu.WordCounted
