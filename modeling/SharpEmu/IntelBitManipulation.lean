import SharpEmu.BitSelections

/-!
# The architecture's bit-manipulation instructions

What ANDN, the BLS family, BEXTR, BZHI, the two counts, the flagless shifts,
PDEP and PEXT mean at an operand width: the result of that width, and for each
status flag whether the instruction gives it a value, leaves it alone, or
leaves it undefined.
-/

namespace Intel

inductive FlagEffect
  | unchanged
  | undefined
  | becomes (value : Bool)

def FlagEffect.Permits (before after : Bool) : FlagEffect → Prop
  | unchanged => after = before
  | undefined => True
  | becomes value => after = value

/-- The effects on the status flags.  Bits of the flags word that are no status
flag are left alone by every instruction here. -/
structure FlagEffects where
  carry : FlagEffect
  parity : FlagEffect
  adjust : FlagEffect
  zero : FlagEffect
  sign : FlagEffect
  overflow : FlagEffect

namespace FlagEffects

def none : FlagEffects :=
  ⟨.unchanged, .unchanged, .unchanged, .unchanged, .unchanged, .unchanged⟩

def onBit (effects : FlagEffects) (bit : ℕ) : FlagEffect :=
  if bit = 0 then effects.carry
  else if bit = 2 then effects.parity
  else if bit = 4 then effects.adjust
  else if bit = 6 then effects.zero
  else if bit = 7 then effects.sign
  else if bit = 11 then effects.overflow
  else .unchanged

def Permit (effects : FlagEffects) (before after : BitVec 32) : Prop :=
  ∀ bit, (effects.onBit bit).Permits (before.getLsbD bit) (after.getLsbD bit)

end FlagEffects

structure Outcome (width : ℕ) where
  result : BitVec width
  flags : FlagEffects

variable {width : ℕ}

/-- The flags of the logical instructions: carry as the instruction says, zero
and sign from the result, overflow cleared. -/
def logicFlags (result : BitVec width) (carry : Bool) : FlagEffects where
  carry := .becomes carry
  parity := .undefined
  adjust := .undefined
  zero := .becomes (result == 0#(width))
  sign := .becomes result.msb
  overflow := .becomes false

def countFlags (result : BitVec width) (carry : Bool) : FlagEffects where
  carry := .becomes carry
  parity := .undefined
  adjust := .undefined
  zero := .becomes (result == 0#(width))
  sign := .undefined
  overflow := .undefined

def logicOutcome (result : BitVec width) (carry : Bool) : Outcome width :=
  ⟨result, logicFlags result carry⟩

def countOutcome (result : BitVec width) (carry : Bool) : Outcome width :=
  ⟨result, countFlags result carry⟩

def andn (first second : BitVec width) : Outcome width :=
  logicOutcome (~~~first &&& second) false

def blsi (source : BitVec width) : Outcome width :=
  logicOutcome (-source &&& source) (source != 0#(width))

/-- The zero flag is cleared rather than taken from the result. -/
def blsmsk (source : BitVec width) : Outcome width :=
  let result := (source - 1#(width)) ^^^ source
  ⟨result, { logicFlags result (source == 0#(width)) with
    zero := .becomes false }⟩

def blsr (source : BitVec width) : Outcome width :=
  logicOutcome ((source - 1#(width)) &&& source) (source == 0#(width))

/-- Bits `start` up to `start + length` of the source extended with zeros, where
the control's low byte is the start and the next byte is the length. -/
def bextr (source control : BitVec width) : Outcome width :=
  let start := control.toNat % 2 ^ 8
  let length := control.toNat / 2 ^ 8 % 2 ^ 8
  let result := (source.extractLsb' start length).setWidth width
  { result := result
    flags :=
      { carry := .becomes false
        parity := .undefined
        adjust := .undefined
        zero := .becomes (result == 0#(width))
        sign := .undefined
        overflow := .becomes false } }

def bzhi (source index : BitVec width) : Outcome width :=
  let position := index.toNat % 2 ^ 8
  logicOutcome ((source.setWidth position).setWidth width) (decide (width ≤ position))

/-- How many positions from the low end are clear before the first set one. -/
def trailingZeros (source : BitVec width) : ℕ :=
  ((List.range width).takeWhile fun i => !source.getLsbD i).length

/-- How many positions from the high end are clear before the first set one. -/
def leadingZeros (source : BitVec width) : ℕ :=
  ((List.range width).takeWhile fun i => !source.getMsbD i).length

def tzcnt (source : BitVec width) : Outcome width :=
  countOutcome (BitVec.ofNat width (trailingZeros source)) (source == 0#(width))

def lzcnt (source : BitVec width) : Outcome width :=
  countOutcome (BitVec.ofNat width (leadingZeros source)) (source == 0#(width))

def rorx (source : BitVec width) (count : ℕ) : Outcome width :=
  ⟨source.rotateRight (count % width), .none⟩

def sarx (source : BitVec width) (count : ℕ) : Outcome width :=
  ⟨source.sshiftRight (count % width), .none⟩

def shlx (source : BitVec width) (count : ℕ) : Outcome width :=
  ⟨source <<< (count % width), .none⟩

def shrx (source : BitVec width) (count : ℕ) : Outcome width :=
  ⟨source >>> (count % width), .none⟩

def pdep (source mask : BitVec width) : Outcome width :=
  ⟨BitSelections.deposit source mask, .none⟩

def pext (source mask : BitVec width) : Outcome width :=
  ⟨BitSelections.extract source mask, .none⟩

theorem blsmsk_result_ne_zero (source : BitVec width) (positive : 0 < width) :
    (source - 1#(width)) ^^^ source ≠ 0#(width) := by
  intro zero
  rw [BitVec.xor_eq_zero_iff, BitVec.sub_eq_iff_eq_add, BitVec.self_eq_add_right] at zero
  have one := congrArg BitVec.toNat zero
  rw [BitVec.toNat_ofNat, BitVec.toNat_ofNat,
    Nat.mod_eq_of_lt (Nat.one_lt_two_pow positive.ne')] at one
  simp at one

theorem blsmsk_eq_logicOutcome (source : BitVec width) (positive : 0 < width) :
    blsmsk source = logicOutcome ((source - 1#(width)) ^^^ source) (source == 0#(width)) := by
  have nonzero := blsmsk_result_ne_zero source positive
  simp only [blsmsk, logicOutcome, logicFlags]
  rw [beq_eq_false_iff_ne.mpr nonzero]

theorem length_takeWhile_range {clear : ℕ → Bool} {limit count : ℕ}
    (le : count ≤ limit) (before : ∀ i < count, clear i = true)
    (stop : count < limit → clear count = false) :
    ((List.range limit).takeWhile clear).length = count := by
  have split : List.range limit =
      List.range count ++ (List.range (limit - count)).map (count + ·) := by
    rw [← List.range_add, Nat.add_sub_cancel' le]
  rw [split, List.takeWhile_append_of_pos (fun i member => before i (List.mem_range.mp member)),
    List.length_append, List.length_range]
  cases left : limit - count with
  | zero => simp
  | succ rest =>
    have stopped := stop (by omega)
    simp [List.range_succ_eq_map, stopped]

theorem trailingZeros_zero (width : ℕ) : trailingZeros 0#(width) = width :=
  length_takeWhile_range le_rfl (fun _ _ => by simp) (fun lt => absurd lt (lt_irrefl _))

variable {source : BitVec width}

theorem trailingZeros_eq_ctz (nonzero : source ≠ 0#(width)) :
    trailingZeros source = source.ctz.toNat := by
  have below : source.ctz.toNat < width := by
    have lt := BitVec.lt_def.mp (BitVec.ctz_lt_iff_ne_zero.mpr nonzero)
    simpa using lt
  apply length_takeWhile_range below.le
  · intro i before
    rw [BitVec.getLsbD_false_of_lt_ctz before]
    rfl
  · intro _
    rw [BitVec.getLsbD_true_ctz_of_ne_zero nonzero]
    rfl

theorem leadingZeros_eq_reverse (source : BitVec width) :
    leadingZeros source = trailingZeros source.reverse := by
  simp only [leadingZeros, trailingZeros, BitVec.getLsbD_reverse]

theorem leadingZeros_zero (width : ℕ) : leadingZeros 0#(width) = width := by
  rw [leadingZeros_eq_reverse, BitVec.reverse_eq_zero_iff.mpr rfl, trailingZeros_zero]

theorem leadingZeros_eq_clz (nonzero : source ≠ 0#(width)) :
    leadingZeros source = source.clz.toNat := by
  have reversed : source.reverse ≠ 0#(width) := by
    rwa [Ne, BitVec.reverse_eq_zero_iff]
  rw [leadingZeros_eq_reverse, trailingZeros_eq_ctz reversed, BitVec.clz_eq_reverse_ctz]

end Intel
