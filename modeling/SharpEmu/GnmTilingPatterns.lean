import Mathlib.Data.Nat.Digits.Lemmas
import SharpEmu.BlockLayouts
import SharpEmu.GnmTiling
import SharpEmu.ParityPatterns

/-!
# Offsets inside a swizzle block

Address equations and interleaved coordinates both write the offset inside a
block bit by bit.  Every bit list of a supported mode determines the position
inside its block: an equation because its masks peel off every coordinate bit
of the block, the coordinate bits above the block being known, and an
interleaving because it takes each bit once.
-/

namespace SharpEmu

namespace GnmTiling

/-! ## Powers of two -/

variable {exponent : Nat}

theorem trailingZeroCount_two_pow (lt : exponent < 32) :
    trailingZeroCount (2 ^ exponent) = exponent := by
  have found : (List.range 32).find? (2 ^ exponent).testBit =
      some exponent := by
    rw [List.find?_range_eq_some]
    refine ⟨by simp, by simpa using lt, ?_⟩
    intro lower isLower
    simp [Nat.testBit_two_pow]
    omega
  rw [trailingZeroCount, found, Option.getD_some]

@[simp]
theorem bitLog2_two_pow (lt : exponent < 32) : bitLog2 (2 ^ exponent) = some exponent := by
  have isPower : 2 ^ exponent &&& (2 ^ exponent - 1) = 0 := by
    rw [Nat.and_sub_one_eq_zero_iff_isPowerOfTwo (Nat.two_pow_pos _).ne']
    exact ⟨exponent, rfl⟩
  have positive : 2 ^ exponent ≠ 0 := (Nat.two_pow_pos _).ne'
  rw [bitLog2, if_neg (by simp [isPower]), trailingZeroCount_two_pow lt]

variable {value : Nat}

theorem eq_two_pow_of_bitLog2 (small : value < 2 ^ 32) (isLog : bitLog2 value = some exponent) :
    exponent < 32 ∧ value = 2 ^ exponent := by
  unfold bitLog2 at isLog
  split at isLog
  · cases isLog
  · next isPower =>
    simp only [ne_eq, not_or, not_not] at isPower
    obtain ⟨other, isOther⟩ :=
      (Nat.and_sub_one_eq_zero_iff_isPowerOfTwo isPower.1).mp isPower.2
    have lt : other < 32 := by
      rw [isOther] at small
      exact (Nat.pow_lt_pow_iff_right (by omega)).mp small
    rw [isOther, trailingZeroCount_two_pow lt] at isLog
    cases isLog
    exact ⟨lt, isOther⟩

/-! ## Address equations -/

inductive Coordinate where
  | x (bit : Nat)
  | y (bit : Nat)
deriving DecidableEq

def coordinateBits (x y : Nat) : Coordinate → Bool
  | .x bit => x.testBit bit
  | .y bit => y.testBit bit

def AddressBit.positions (equation : AddressBit) : List Coordinate :=
  ((List.range 32).filter equation.xMask.testBit).map .x ++
    ((List.range 32).filter equation.yMask.testBit).map .y

theorem popCount_and (value mask : Nat) : popCount (value &&& mask) =
      ((List.range 32).filter mask.testBit).countP value.testBit := by
  rw [popCount, List.countP_filter]
  congr 1
  ext1 bit
  rw [Nat.testBit_and]

theorem AddressBit.parity_eq (equation : AddressBit) (x y : Nat) : equation.parity x y =
      ParityPattern.parity (coordinateBits x y) equation.positions := by
  unfold AddressBit.parity ParityPattern.parity AddressBit.positions
  rw [popCount_and, popCount_and, Nat.and_one_is_mod, List.countP_append,
    List.countP_map, List.countP_map]
  rfl

theorem AddressBit.parity_lt (equation : AddressBit) (x y : Nat) : equation.parity x y < 2 := by
  unfold AddressBit.parity
  rw [Nat.and_one_is_mod]
  omega

variable {bit : Nat}

theorem or_bit_eq_add {offset outBit : Nat} (small : offset < 2 ^ outBit) :
    offset ||| bit <<< outBit = offset + 2 ^ outBit * bit := by
  rw [Nat.or_comm, ← Nat.shiftLeft_add_eq_or_of_lt small, Nat.shiftLeft_eq,
    Nat.mul_comm, Nat.add_comm]

theorem patternOffsetFrom_eq (x y : Nat) (pattern : List AddressBit) :
    ∀ bit, patternOffsetFrom x y bit pattern = 2 ^ bit * Nat.ofDigits 2
        (pattern.map fun equation => equation.parity x y) := by
  induction pattern with
  | nil => simp [patternOffsetFrom]
  | cons equation pattern ih =>
    intro bit
    have small : equation.parity x y <<< bit < 2 ^ (bit + 1) := by
      rw [Nat.shiftLeft_eq, Nat.pow_succ, Nat.mul_comm]
      exact Nat.mul_lt_mul_of_pos_left (equation.parity_lt x y) (Nat.two_pow_pos bit)
    have shifted (rest : Nat) : 2 ^ (bit + 1) * rest = rest <<< (bit + 1) := by
      rw [Nat.shiftLeft_eq, Nat.mul_comm]
    rw [patternOffsetFrom, ih, shifted, or_bit_eq_add small,
      Nat.shiftLeft_eq, List.map_cons, Nat.ofDigits_cons, Nat.pow_succ]
    ring

theorem computePatternOffset_eq (x y : Nat) (pattern : List AddressBit) :
    computePatternOffset x y pattern =
      Nat.ofDigits 2 (pattern.map fun equation => equation.parity x y) := by
  rw [computePatternOffset, patternOffsetFrom_eq, Nat.pow_zero, Nat.one_mul]

theorem parity_digits (pattern : List AddressBit) (x y : Nat) :
    ∀ digit ∈ pattern.map fun equation => equation.parity x y, digit < 2 := by
  intro digit isDigit
  obtain ⟨equation, _, rfl⟩ := List.mem_map.mp isDigit
  exact equation.parity_lt x y

def aboveBlock (widthBits heightBits : Nat) : List Coordinate :=
  (List.range' widthBits (32 - widthBits)).map .x ++
    (List.range' heightBits (32 - heightBits)).map .y

/-- An equation fits its blocks when it has a bit for each address bit of the
block, leaves the address bits inside an element clear, and peels off the
coordinate bits of the block. -/
def EquationFits (pattern : List AddressBit)
    (blockBits bppLog2 widthBits heightBits : Nat) : Prop :=
  pattern.length = blockBits ∧ (∀ equation ∈ pattern.take bppLog2,
      equation.xMask = 0 ∧ equation.yMask = 0) ∧
    (∀ bit < widthBits, .x bit ∈ ParityPattern.peel (pattern.map AddressBit.positions) 8
        (aboveBlock widthBits heightBits)) ∧
    ∀ bit < heightBits, .y bit ∈ ParityPattern.peel (pattern.map AddressBit.positions) 8
        (aboveBlock widthBits heightBits)

instance (pattern : List AddressBit) (blockBits bppLog2 widthBits heightBits : Nat) : Decidable
      (EquationFits pattern blockBits bppLog2 widthBits heightBits) :=
  inferInstanceAs (Decidable (_ ∧ _ ∧ _ ∧ _))

variable {other bits : Nat}

theorem testBit_eq_of_div_eq (same : value / 2 ^ bits = other / 2 ^ bits) (above : bits ≤ bit) :
    value.testBit bit = other.testBit bit := by
  have := congrArg (·.testBit (bit - bits)) same
  simpa [Nat.testBit_div_two_pow, Nat.sub_add_cancel above] using this

theorem eq_of_testBit_of_div_eq (same : value / 2 ^ bits = other / 2 ^ bits)
    (low : ∀ bit < bits, value.testBit bit = other.testBit bit) :
    value = other := by
  apply Nat.eq_of_testBit_eq
  intro bit
  by_cases isLow : bit < bits
  · exact low bit isLow
  · exact testBit_eq_of_div_eq same (Nat.le_of_not_lt isLow)

namespace EquationFits

variable {pattern : List AddressBit}
  {blockBits bppLog2 widthBits heightBits : Nat}

theorem offset_lt (fits : EquationFits pattern blockBits bppLog2 widthBits heightBits)
    (x y : Nat) : computePatternOffset x y pattern < 2 ^ blockBits := by
  have isLt := Nat.ofDigits_lt_base_pow_length (by omega) (parity_digits pattern x y)
  rw [computePatternOffset_eq]
  rwa [List.length_map, fits.1] at isLt

theorem dvd_offset (fits : EquationFits pattern blockBits bppLog2 widthBits heightBits)
    (small : bppLog2 ≤ blockBits) (x y : Nat) :
    2 ^ bppLog2 ∣ computePatternOffset x y pattern := by
  have clear : (pattern.take bppLog2).map
      (fun equation => equation.parity x y) = List.replicate bppLog2 0 := by
    rw [List.eq_replicate_iff]
    refine ⟨by simp [fits.1, small], ?_⟩
    intro digit isDigit
    obtain ⟨equation, isTaken, rfl⟩ := List.mem_map.mp isDigit
    obtain ⟨noX, noY⟩ := fits.2.1 equation isTaken
    simp only [AddressBit.parity, noX, noY, Nat.and_zero, Nat.and_one_is_mod]
    omega
  rw [computePatternOffset_eq, ← List.take_append_drop bppLog2 pattern,
    List.map_append, Nat.ofDigits_append, clear, List.length_replicate,
    Nat.ofDigits_replicate_zero, Nat.zero_add]
  exact Nat.dvd_mul_right _ _

theorem offset_injective (fits : EquationFits pattern blockBits bppLog2 widthBits heightBits)
    {x y other below : Nat}
    (sameColumn : x / 2 ^ widthBits = other / 2 ^ widthBits)
    (sameRow : y / 2 ^ heightBits = below / 2 ^ heightBits)
    (same : computePatternOffset x y pattern = computePatternOffset other below pattern) :
    x = other ∧ y = below := by
  rw [computePatternOffset_eq, computePatternOffset_eq] at same
  have sameDigits := Nat.ofDigits_inj_of_len_eq (by omega) (by simp)
    (parity_digits pattern x y) (parity_digits pattern other below) same
  have sameParity : ∀ mask ∈ pattern.map AddressBit.positions,
      ParityPattern.parity (coordinateBits x y) mask =
        ParityPattern.parity (coordinateBits other below) mask := by
    intro mask isMask
    obtain ⟨equation, isMember, rfl⟩ := List.mem_map.mp isMask
    rw [← equation.parity_eq, ← equation.parity_eq]
    exact List.map_inj_left.mp sameDigits equation isMember
  have above : ∀ position ∈ aboveBlock widthBits heightBits,
      coordinateBits x y position = coordinateBits other below position := by
    intro position isAbove
    cases List.mem_append.mp isAbove with
    | inl isColumn =>
      obtain ⟨bit, isBit, rfl⟩ := List.mem_map.mp isColumn
      exact testBit_eq_of_div_eq sameColumn (List.mem_range'_1.mp isBit).1
    | inr isRow =>
      obtain ⟨bit, isBit, rfl⟩ := List.mem_map.mp isRow
      exact testBit_eq_of_div_eq sameRow (List.mem_range'_1.mp isBit).1
  have agree := ParityPattern.agree_peel sameParity 8 above
  constructor
  · exact eq_of_testBit_of_div_eq sameColumn fun bit lt =>
      agree (.x bit) (fits.2.2.1 bit lt)
  · exact eq_of_testBit_of_div_eq sameRow fun bit lt =>
      agree (.y bit) (fits.2.2.2 bit lt)

end EquationFits

/-! ## Interleaved coordinates -/

section Interleaving

variable {first second firstBits secondBits : Nat}

def interleavedBits (first second firstBits secondBits : Nat) :
    Nat → (firstBit secondBit : Nat) → List Nat
  | 0, _, _ => []
  | rounds + 1, firstBit, secondBit =>
      (if firstBit < firstBits then [(first >>> firstBit) &&& 1] else []) ++
        (if secondBit < secondBits then [(second >>> secondBit) &&& 1]
          else []) ++
        interleavedBits first second firstBits secondBits rounds
          (if firstBit < firstBits then firstBit + 1 else firstBit)
          (if secondBit < secondBits then secondBit + 1 else secondBit)

theorem interleavedBits_lt (rounds : Nat) :
    ∀ firstBit secondBit, ∀ bit ∈ interleavedBits first second firstBits
      secondBits rounds firstBit secondBit, bit < 2 := by
  induction rounds with
  | zero => simp [interleavedBits]
  | succ rounds ih =>
    intro firstBit secondBit bit isBit
    rw [interleavedBits, List.mem_append, List.mem_append] at isBit
    rcases isBit with (isFirst | isSecond) | isLater
    · split at isFirst
      · rw [List.mem_singleton.mp isFirst, Nat.and_one_is_mod]
        omega
      · cases isFirst
    · split at isSecond
      · rw [List.mem_singleton.mp isSecond, Nat.and_one_is_mod]
        omega
      · cases isSecond
    · exact ih _ _ bit isLater

theorem length_interleavedBits (rounds : Nat) :
    ∀ firstBit secondBit, firstBits - firstBit ≤ rounds → secondBits - secondBit ≤ rounds →
      (interleavedBits first second firstBits secondBits rounds firstBit secondBit).length =
        (firstBits - firstBit) + (secondBits - secondBit) := by
  induction rounds with
  | zero =>
    intro firstBit secondBit firstEnds secondEnds
    simp only [interleavedBits, List.length_nil]
    omega
  | succ rounds ih =>
    intro firstBit secondBit firstEnds secondEnds
    rw [interleavedBits, List.length_append, List.length_append,
      ih _ _ (by split <;> omega) (by split <;> omega)]
    split <;> split <;>
      simp only [List.length_nil, List.length_cons] <;> omega

theorem or_bit_lt {offset outBit bit : Nat} (small : offset < 2 ^ outBit)
    (isBit : bit < 2) : offset ||| bit <<< outBit < 2 ^ (outBit + 1) := by
  rw [or_bit_eq_add small, Nat.pow_succ]
  have : 2 ^ outBit * bit ≤ 2 ^ outBit * 1 :=
    Nat.mul_le_mul_left _ (Nat.le_of_lt_succ isBit)
  omega

theorem interleaveRounds_eq (rounds : Nat) :
    ∀ firstBit secondBit outBit offset, offset < 2 ^ outBit →
      interleaveRounds first second firstBits secondBits rounds firstBit secondBit outBit offset =
        offset + 2 ^ outBit * Nat.ofDigits 2 (interleavedBits first second
          firstBits secondBits rounds firstBit secondBit) := by
  induction rounds with
  | zero => simp [interleaveRounds, interleavedBits]
  | succ rounds ih =>
    intro firstBit secondBit outBit offset small
    have isBit (value : Nat) : value &&& 1 < 2 := by
      rw [Nat.and_one_is_mod]
      omega
    have afterFirst := or_bit_lt small (isBit (first >>> firstBit))
    by_cases firstLeft : firstBit < firstBits <;>
      by_cases secondLeft : secondBit < secondBits <;>
      simp only [interleaveRounds, interleavedBits, firstLeft, secondLeft,
        if_true, if_false, List.cons_append, List.nil_append]
    · rw [ih _ _ _ _ (or_bit_lt afterFirst (isBit _)),
        or_bit_eq_add afterFirst, or_bit_eq_add small, Nat.ofDigits_cons,
        Nat.ofDigits_cons, Nat.pow_succ, Nat.pow_succ]
      ring
    · rw [ih _ _ _ _ afterFirst, or_bit_eq_add small, Nat.ofDigits_cons, Nat.pow_succ]
      ring
    · rw [ih _ _ _ _ (or_bit_lt small (isBit _)), or_bit_eq_add small,
        Nat.ofDigits_cons, Nat.pow_succ]
      ring
    · exact ih _ _ _ _ small

variable {other below : Nat}

theorem testBit_of_interleavedBits_eq (rounds : Nat) :
    ∀ firstBit secondBit, firstBits - firstBit ≤ rounds → secondBits - secondBit ≤ rounds →
      interleavedBits first second firstBits secondBits rounds firstBit secondBit =
        interleavedBits other below firstBits secondBits rounds firstBit secondBit →
      (∀ bit, firstBit ≤ bit → bit < firstBits →
        first.testBit bit = other.testBit bit) ∧
      ∀ bit, secondBit ≤ bit → bit < secondBits → second.testBit bit = below.testBit bit := by
  induction rounds with
  | zero =>
    intro firstBit secondBit firstEnds secondEnds _
    constructor <;> intro bit le lt <;> omega
  | succ rounds ih =>
    intro firstBit secondBit firstEnds secondEnds same
    rw [interleavedBits, interleavedBits, List.append_assoc, List.append_assoc] at same
    have sameFirst := List.append_inj same (by split <;> rfl)
    have sameSecond := List.append_inj sameFirst.2 (by split <;> rfl)
    obtain ⟨laterFirst, laterSecond⟩ := ih _ _ (by split <;> omega)
      (by split <;> omega) sameSecond.2
    have sameBit {value value' bit : Nat} (same : (value >>> bit) &&& 1 = (value' >>> bit) &&& 1) :
        value.testBit bit = value'.testBit bit := by
      simp only [Nat.and_one_is_mod, Nat.shiftRight_eq_div_pow] at same
      simp only [Nat.testBit_eq_decide_div_mod_eq, same]
    constructor
    · intro bit le lt
      have firstLeft : firstBit < firstBits := by omega
      simp only [firstLeft, if_true] at sameFirst laterFirst
      by_cases isNext : bit = firstBit
      · subst isNext
        exact sameBit (List.cons.inj sameFirst.1).1
      · exact laterFirst bit (by omega) lt
    · intro bit le lt
      have secondLeft : secondBit < secondBits := by omega
      simp only [secondLeft, if_true] at sameSecond laterSecond
      by_cases isNext : bit = secondBit
      · subst isNext
        exact sameBit (List.cons.inj sameSecond.1).1
      · exact laterSecond bit (by omega) lt

theorem interleave_eq (firstSmall : firstBits < 32) (secondSmall : secondBits < 32) :
    interleave first second (2 ^ firstBits) (2 ^ secondBits) =
      Nat.ofDigits 2 (interleavedBits first second firstBits secondBits
        (max firstBits secondBits) 0 0) := by
  unfold interleave
  rw [bitLog2_two_pow firstSmall, bitLog2_two_pow secondSmall]
  simp only [Option.getD_some]
  rw [interleaveRounds_eq _ _ _ _ _ (by omega)]
  simp

theorem interleave_lt (firstSmall : firstBits < 32) (secondSmall : secondBits < 32) :
    interleave first second (2 ^ firstBits) (2 ^ secondBits) < 2 ^ (firstBits + secondBits) := by
  rw [interleave_eq firstSmall secondSmall]
  calc Nat.ofDigits 2 (interleavedBits first second firstBits secondBits
          (max firstBits secondBits) 0 0)
      < 2 ^ (interleavedBits first second firstBits secondBits
          (max firstBits secondBits) 0 0).length :=
        Nat.ofDigits_lt_base_pow_length (by omega) (interleavedBits_lt _ _ _)
    _ = _ := by
        rw [length_interleavedBits _ _ _ (by omega) (by omega)]
        simp

theorem interleave_injective (firstSmall : firstBits < 32)
    (secondSmall : secondBits < 32) (firstLt : first < 2 ^ firstBits)
    (secondLt : second < 2 ^ secondBits) (otherLt : other < 2 ^ firstBits)
    (belowLt : below < 2 ^ secondBits)
    (same : interleave first second (2 ^ firstBits) (2 ^ secondBits) =
      interleave other below (2 ^ firstBits) (2 ^ secondBits)) :
    first = other ∧ second = below := by
  rw [interleave_eq firstSmall secondSmall, interleave_eq firstSmall secondSmall] at same
  have sameBits := Nat.ofDigits_inj_of_len_eq (by omega) (by
      rw [length_interleavedBits _ _ _ (by omega) (by omega),
        length_interleavedBits _ _ _ (by omega) (by omega)])
    (interleavedBits_lt _ _ _) (interleavedBits_lt _ _ _) same
  obtain ⟨sameFirst, sameSecond⟩ := testBit_of_interleavedBits_eq _ _ _
    (by omega) (by omega) sameBits
  constructor
  · exact eq_of_testBit_of_div_eq (by rw [Nat.div_eq_of_lt firstLt, Nat.div_eq_of_lt otherLt])
      fun bit lt => sameFirst bit (Nat.zero_le bit) lt
  · exact eq_of_testBit_of_div_eq (by rw [Nat.div_eq_of_lt secondLt, Nat.div_eq_of_lt belowLt])
      fun bit lt => sameSecond bit (Nat.zero_le bit) lt

end Interleaving

/-! ## Surfaces -/

def Surface.blockBits (surface : Surface) : Nat :=
  surface.blockBytes.log2

def blockWidthBits (blockBits bppLog2 : Nat) : Nat :=
  (blockBits - bppLog2 + 1) / 2

def blockHeightBits (blockBits bppLog2 : Nat) : Nat :=
  blockBits - bppLog2 - (blockBits - bppLog2 + 1) / 2

structure Surface.Valid (surface : Surface) : Prop where
  wide_pos : 0 < surface.elementsWide
  wide_lt : surface.elementsWide < 2 ^ 31
  high_pos : 0 < surface.elementsHigh
  high_lt : surface.elementsHigh < 2 ^ 31
  kind : tryGetSwizzleKind surface.swizzleMode =
    some (surface.kind, surface.blockBytes)
  blockBytes : surface.blockBytes = 2 ^ surface.blockBits
  blockBits_le : surface.blockBits ≤ 16
  bytesPerElement : surface.bytesPerElement = 2 ^ surface.bppLog2
  bppLog2_le : surface.bppLog2 ≤ surface.blockBits
  blockElements : surface.blockElements =
    2 ^ (surface.blockBits - surface.bppLog2)
  blockWidth : surface.blockWidth =
    2 ^ blockWidthBits surface.blockBits surface.bppLog2
  blockHeight : surface.blockHeight =
    2 ^ blockHeightBits surface.blockBits surface.bppLog2

theorem tryGetSwizzleKind_blockBytes {swizzleMode blockBytes : Nat} {kind : SwizzleKind}
    (isKind : tryGetSwizzleKind swizzleMode = some (kind, blockBytes)) :
    blockBytes = 256 ∨ blockBytes = 4096 ∨ blockBytes = 65536 := by
  obtain ⟨_, _, same⟩ := Option.map_eq_some_iff.mp isKind
  have := (Prod.mk.inj same).2
  split at this
  · omega
  · split at this
    · omega
    · split at this <;> omega

theorem squareBlockDimensions_two_pow (lt : exponent < 32) : squareBlockDimensions (2 ^ exponent) =
      (2 ^ ((exponent + 1) / 2), 2 ^ (exponent - (exponent + 1) / 2)) := by
  unfold squareBlockDimensions
  rw [bitLog2_two_pow lt]
  simp [Nat.shiftLeft_eq]

theorem two_pow_shiftRight {amount : Nat} (le : amount ≤ exponent) :
    2 ^ exponent >>> amount = 2 ^ (exponent - amount) := by
  rw [Nat.shiftRight_eq_div_pow, Nat.pow_div le (by omega)]

theorem trySurface_valid {setting : DetileSetting} {swizzleMode : UInt32}
    {elementsWide elementsHigh bytesPerElement : Int32} {surface : Surface}
    (isSurface : trySurface setting swizzleMode elementsWide elementsHigh
      bytesPerElement = some surface) : surface.Valid := by
  unfold trySurface at isSurface
  split at isSurface
  · cases isSurface
  · next positive =>
    simp only [Bool.or_eq_true, decide_eq_true_eq, not_or, Int.not_le] at positive
    split at isSurface
    · cases isSurface
    · next kind blockBytes isKind =>
      split at isSurface
      · cases isSurface
      · next bppLog2 isLog =>
        dsimp only at isSurface
        split at isSurface
        · cases isSurface
        · next nonzero =>
          cases isSurface
          have wideLt := elementsWide.toInt_lt
          have highLt := elementsHigh.toInt_lt
          have elementLt := bytesPerElement.toInt_lt
          obtain ⟨bppSmall, isPower⟩ := eq_two_pow_of_bitLog2 (by omega) isLog
          obtain ⟨blockBits, blockBitsLe, isBytes⟩ :
              ∃ blockBits ≤ 16, blockBytes = 2 ^ blockBits := by
            rcases tryGetSwizzleKind_blockBytes isKind with is | is | is
            · exact ⟨8, by omega, is⟩
            · exact ⟨12, by omega, is⟩
            · exact ⟨16, by omega, is⟩
          have bppLe : bppLog2 ≤ blockBits := by
            by_contra above
            have noElement : blockBytes >>> bppLog2 = 0 := by
              rw [isBytes, Nat.shiftRight_eq_div_pow]
              exact Nat.div_eq_of_lt (Nat.pow_lt_pow_right (by omega) (by omega))
            rw [noElement] at nonzero
            exact nonzero (Or.inl rfl)
          have isElements : blockBytes >>> bppLog2 = 2 ^ (blockBits - bppLog2) := by
            rw [isBytes, two_pow_shiftRight bppLe]
          have isLog2 : blockBytes.log2 = blockBits := by
            rw [isBytes, Nat.log2_two_pow]
          have dimensions := squareBlockDimensions_two_pow (show blockBits - bppLog2 < 32 by omega)
          exact
            { wide_pos := by dsimp only; omega
              wide_lt := by dsimp only; omega
              high_pos := by dsimp only; omega
              high_lt := by dsimp only; omega
              kind := isKind
              blockBytes := by
                simp only [Surface.blockBits, isLog2]
                exact isBytes
              blockBits_le := by
                simp only [Surface.blockBits, isLog2]
                exact blockBitsLe
              bytesPerElement := isPower
              bppLog2_le := by
                simp only [Surface.blockBits, isLog2]
                exact bppLe
              blockElements := by
                simp only [Surface.blockBits, isLog2]
                exact isElements
              blockWidth := by
                simp only [Surface.blockBits, isLog2, isElements, dimensions, blockWidthBits]
              blockHeight := by
                simp only [Surface.blockBits, isLog2, isElements, dimensions, blockHeightBits] }

theorem equations_fit : ∀ swizzleMode ∈ [5, 9, 24, 27], ∀ bppLog2 < 5,
      ∀ blockBits ∈ [12, 16], (swizzleMode = 5 ↔ blockBits = 12) →
        ∀ pattern ∈ tryGetExactXorPattern swizzleMode bppLog2,
          EquationFits pattern blockBits bppLog2 (blockWidthBits blockBits bppLog2)
            (blockHeightBits blockBits bppLog2) := by
  decide +kernel

end GnmTiling

end SharpEmu
