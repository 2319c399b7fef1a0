import SharpEmu.BmiInstructions
import SharpEmu.IntelBitManipulation

/-!
# The emulated instructions are the architecture's

Each function of the emulator, at either operand width, leaves the result of
the architecture's instruction on the operands' low bits, zero-extended, and a
flags word that the instruction permits.
-/

namespace SharpEmu.BmiInstructionEmulator

open GprOperandSize

variable {size : GprOperandSize}

/-- A full register and a flags word are what an outcome of the instruction
leaves when it starts from the given flags. -/
def Meets (emulated : BitVec 64 × BitVec 32) (eflags : BitVec 32)
    (outcome : Intel.Outcome size.widthBits) : Prop :=
  emulated.1 = size.widen outcome.result ∧ outcome.flags.Permit eflags emulated.2

theorem toNat_widen (value : BitVec size.widthBits) : (size.widen value).toNat = value.toNat := by
  rw [widen, BitVec.toNat_setWidth, Nat.mod_eq_of_lt]
  exact value.isLt.trans_le (Nat.pow_le_pow_right (by decide) size.widthBits_le)

/-! ### Flags -/

variable {place : ℕ}

theorem getLsbD_withFlag (eflags : BitVec 32) (set : Bool) (inside : place < 32) (bit : ℕ) :
    (withFlag eflags (1#32 <<< place) set).getLsbD bit =
      if bit = place then set else eflags.getLsbD bit := by
  rw [withFlag, ← BitVec.twoPow_eq]
  by_cases below : bit < 32
  · cases set <;>
      simp only [Bool.false_eq_true, if_false, if_true, BitVec.getLsbD_and,
        BitVec.getLsbD_or, BitVec.getLsbD_not, BitVec.getLsbD_twoPow,
        inside, below, decide_true, Bool.true_and]
    · by_cases same : bit = place
      · simp [same]
      · simp [same, Ne.symm same]
    · by_cases same : bit = place
      · simp [same]
      · simp [same, Ne.symm same]
  · rw [if_neg (show ¬bit = place by omega), BitVec.getLsbD_of_ge _ bit (by omega),
      BitVec.getLsbD_of_ge eflags bit (by omega)]

theorem applyLogicFlags_permitted (eflags : BitVec 32)
    (result : BitVec size.widthBits) (carry : Bool) :
    (Intel.logicFlags result carry).Permit eflags
      (applyLogicFlags eflags (size.widen result) size carry) := by
  intro bit
  simp only [applyLogicFlags, flagCarry, flagZero, flagSign, flagOverflow,
    getLsbD_withFlag _ _ (show 0 < 32 by decide),
    getLsbD_withFlag _ _ (show 6 < 32 by decide),
    getLsbD_withFlag _ _ (show 7 < 32 by decide),
    getLsbD_withFlag _ _ (show 11 < 32 by decide),
    beq_zero_widen, signSet_widen, Intel.FlagEffects.onBit, Intel.logicFlags]
  split_ifs <;> first | omega | exact trivial | rfl

theorem applyCountFlags_permitted (eflags : BitVec 32)
    (result : BitVec size.widthBits) (carry : Bool) :
    (Intel.countFlags result carry).Permit eflags
      (applyCountFlags eflags (size.widen result) carry) := by
  intro bit
  simp only [applyCountFlags, flagCarry, flagZero, getLsbD_withFlag _ _ (show 0 < 32 by decide),
    getLsbD_withFlag _ _ (show 6 < 32 by decide),
    beq_zero_widen, Intel.FlagEffects.onBit, Intel.countFlags]
  split_ifs <;> first | omega | exact trivial | rfl

theorem none_permits (eflags : BitVec 32) : Intel.FlagEffects.none.Permit eflags eflags := by
  intro bit
  simp only [Intel.FlagEffects.onBit, Intel.FlagEffects.none]
  split_ifs <;> rfl

variable {result : BitVec 64} {value : BitVec size.widthBits} {carry expected : Bool}

theorem logic_meets (eflags : BitVec 32)
    (sameResult : result = size.widen value) (sameCarry : carry = expected) :
    Meets (result, applyLogicFlags eflags result size carry) eflags
      (Intel.logicOutcome value expected) := by
  subst sameResult sameCarry
  exact ⟨rfl, applyLogicFlags_permitted eflags value carry⟩

theorem count_meets (eflags : BitVec 32)
    (sameResult : result = size.widen value) (sameCarry : carry = expected) :
    Meets (result, applyCountFlags eflags result carry) eflags
      (Intel.countOutcome value expected) := by
  subst sameResult sameCarry
  exact ⟨rfl, applyCountFlags_permitted eflags value carry⟩

/-! ### Arithmetic on narrowed words -/

theorem narrow_sub (left right : BitVec 64) :
    size.narrow (left - right) = size.narrow left - size.narrow right := by
  simp only [narrow, BitVec.sub_eq_add_neg]
  rw [BitVec.setWidth_add _ _ size.widthBits_le, BitVec.setWidth_neg_of_le size.widthBits_le]

theorem narrow_and (left right : BitVec 64) :
    size.narrow (left &&& right) = size.narrow left &&& size.narrow right :=
  BitVec.setWidth_and

theorem narrow_xor (left right : BitVec 64) :
    size.narrow (left ^^^ right) = size.narrow left ^^^ size.narrow right :=
  BitVec.setWidth_xor

theorem narrow_not (value : BitVec 64) : size.narrow (~~~value) = ~~~size.narrow value :=
  BitVec.setWidth_not size.widthBits_le

theorem narrow_zero : size.narrow 0#64 = 0#(size.widthBits) := by
  simp [narrow]

theorem narrow_one : size.narrow 1#64 = 1#(size.widthBits) := by
  cases size <;> decide

theorem bne_zero_widen (value : BitVec size.widthBits) :
    (size.widen value != 0#64) = (value != 0#(size.widthBits)) := by
  rw [bne, bne, beq_zero_widen]

theorem andn_meets (src1 src2 : BitVec 64) (eflags : BitVec 32) :
    Meets (andn src1 src2 size eflags) eflags
      (Intel.andn (size.narrow src1) (size.narrow src2)) := by
  refine logic_meets eflags ?_ rfl
  rw [and_widthMask, narrow_and, narrow_not]

theorem blsi_meets (src : BitVec 64) (eflags : BitVec 32) :
    Meets (blsi src size eflags) eflags (Intel.blsi (size.narrow src)) := by
  have operand := and_widthMask src size
  refine logic_meets eflags ?_ ?_
  · rw [operand, and_widthMask, narrow_and, narrow_sub, narrow_widen, narrow_zero, BitVec.zero_sub]
  · rw [operand, bne_zero_widen]

theorem blsmsk_meets (src : BitVec 64) (eflags : BitVec 32) : Meets (blsmsk src size eflags) eflags
      (Intel.blsmsk (size.narrow src)) := by
  have operand := and_widthMask src size
  rw [Intel.blsmsk_eq_logicOutcome _ size.widthBits_pos]
  refine logic_meets eflags ?_ ?_
  · rw [operand, and_widthMask, narrow_xor, narrow_sub, narrow_widen, narrow_one]
  · rw [operand, beq_zero_widen]

theorem blsr_meets (src : BitVec 64) (eflags : BitVec 32) :
    Meets (blsr src size eflags) eflags (Intel.blsr (size.narrow src)) := by
  have operand := and_widthMask src size
  refine logic_meets eflags ?_ ?_
  · rw [operand, and_widthMask, narrow_and, narrow_sub, narrow_widen, narrow_one]
  · rw [operand, beq_zero_widen]

/-! ### Bit fields -/

theorem getLsbD_and_lowMask (value : BitVec 64) {length : ℕ} (short : length < 64) (bit : ℕ) :
    (value &&& ((1#64 <<< length) - 1#64)).getLsbD bit =
      (decide (bit < length) && value.getLsbD bit) := by
  have mask : ((1#64 <<< length) - 1#64 : BitVec 64).toNat = 2 ^ length - 1 := by
    have lt : 2 ^ length < 2 ^ 64 := Nat.pow_lt_pow_right (by decide) short
    have positive : 0 < 2 ^ length := Nat.two_pow_pos length
    rw [← BitVec.twoPow_eq, BitVec.toNat_sub, BitVec.toNat_twoPow,
      Nat.mod_eq_of_lt lt, BitVec.toNat_ofNat]
    omega
  rw [BitVec.getLsbD_and, ← BitVec.testBit_toNat (_ - _), mask,
    Nat.testBit_two_pow_sub_one, Bool.and_comm]

theorem toNat_and_byte (value : BitVec 64) : (value &&& 0xFF#64).toNat = value.toNat % 2 ^ 8 := by
  rw [BitVec.toNat_and]
  exact Nat.and_two_pow_sub_one_eq_mod value.toNat 8

theorem toNat_narrow_mod (value : BitVec 64) {bits : ℕ} (inside : bits ≤ size.widthBits) :
    (size.narrow value).toNat % 2 ^ bits = value.toNat % 2 ^ bits := by
  rw [narrow, BitVec.toNat_setWidth]
  exact Nat.mod_mod_of_dvd _ (Nat.pow_dvd_pow 2 inside)

theorem eight_le_widthBits : 8 ≤ size.widthBits := by
  cases size <;> decide

theorem sixteen_le_widthBits : 16 ≤ size.widthBits := by
  cases size <;> decide

theorem bzhi_meets (src index : BitVec 64) (eflags : BitVec 32) :
    Meets (bzhi src index size eflags) eflags
      (Intel.bzhi (size.narrow src) (size.narrow index)) := by
  have position : (index &&& 0xFF#64).toNat = (size.narrow index).toNat % 2 ^ 8 := by
    rw [toNat_and_byte, toNat_narrow_mod _ eight_le_widthBits]
  refine logic_meets eflags ?_ (by rw [position])
  rw [position, and_widthMask]
  generalize (size.narrow index).toNat % 2 ^ 8 = n
  apply BitVec.eq_of_getLsbD_eq
  intro i _
  rw [getLsbD_widen, BitVec.getLsbD_setWidth, BitVec.getLsbD_setWidth]
  split
  next all =>
    rw [getLsbD_widen]
    by_cases inside : i < size.widthBits
    · simp [inside, show i < n by omega]
    · rw [BitVec.getLsbD_of_ge _ i (by omega)]
      simp [inside]
  next short =>
    rw [getLsbD_and_lowMask _ (by have := size.widthBits_le; omega), getLsbD_widen]
    by_cases inside : i < size.widthBits
    · simp [inside]
    · rw [BitVec.getLsbD_of_ge _ i (by omega)]
      simp [inside]

theorem bextr_result (size : GprOperandSize) (src : BitVec 64) (start length : ℕ) :
    (if size.widthBits ≤ start then 0#64
      else if length = 0 then 0#64
      else if size.widthBits ≤ length then
        (src &&& widthMask size) >>> start
      else
        ((src &&& widthMask size) >>> start) &&& ((1#64 <<< length) - 1#64)) =
      size.widen (((size.narrow src).extractLsb' start length).setWidth size.widthBits) := by
  rw [and_widthMask]
  apply BitVec.eq_of_getLsbD_eq
  intro i _
  rw [getLsbD_widen, BitVec.getLsbD_setWidth, BitVec.getLsbD_extractLsb']
  split
  next beyond =>
    rw [BitVec.getLsbD_zero, BitVec.getLsbD_of_ge (size.narrow src) (start + i) (by omega)]
    simp
  next inside =>
    split
    next empty => simp [empty]
    next =>
      have shifted : (size.widen (size.narrow src) >>> start).getLsbD i =
          (decide (i < size.widthBits) && (size.narrow src).getLsbD (start + i)) := by
        rw [BitVec.getLsbD_ushiftRight, getLsbD_widen]
        by_cases below : i < size.widthBits
        · simp [below]
        · rw [BitVec.getLsbD_of_ge _ (start + i) (by omega)]
          simp
      split
      next long =>
        rw [shifted]
        by_cases below : i < size.widthBits
        · simp [below, show i < length by omega]
        · simp [below]
      next short =>
        rw [getLsbD_and_lowMask _ (by have := size.widthBits_le; omega), shifted]
        cases decide (i < size.widthBits) <;> simp

theorem bextr_meets (src control : BitVec 64) (eflags : BitVec 32) :
    Meets (bextr src control size eflags) eflags
      (Intel.bextr (size.narrow src) (size.narrow control)) := by
  have start : (control &&& 0xFF#64).toNat = (size.narrow control).toNat % 2 ^ 8 := by
    rw [toNat_and_byte, toNat_narrow_mod _ eight_le_widthBits]
  have length : ((control >>> 8) &&& 0xFF#64).toNat =
      (size.narrow control).toNat / 2 ^ 8 % 2 ^ 8 := by
    have low : (size.narrow control).toNat % 2 ^ 16 = control.toNat % 2 ^ 16 :=
      toNat_narrow_mod control sixteen_le_widthBits
    rw [toNat_and_byte, BitVec.toNat_ushiftRight, Nat.shiftRight_eq_div_pow,
      ← Nat.mod_mul_right_div_self, ← Nat.mod_mul_right_div_self]
    exact congrArg (· / 2 ^ 8) low.symm
  have selected := bextr_result size src ((size.narrow control).toNat % 2 ^ 8)
    ((size.narrow control).toNat / 2 ^ 8 % 2 ^ 8)
  simp only [Meets, bextr, Intel.bextr, start, length, selected]
  simp only [and_widthMask, narrow_widen, true_and]
  intro bit
  simp only [flagCarry, flagZero, flagOverflow, getLsbD_withFlag _ _ (show 0 < 32 by decide),
    getLsbD_withFlag _ _ (show 6 < 32 by decide),
    getLsbD_withFlag _ _ (show 11 < 32 by decide),
    beq_zero_widen, Intel.FlagEffects.onBit]
  split_ifs <;> first | omega | exact trivial | rfl

/-! ### Counts -/

theorem widen_bits64 (value : BitVec 64) : widen bits64 value = value :=
  BitVec.setWidth_eq value

theorem tzcnt_meets (src : BitVec 64) (eflags : BitVec 32) :
    Meets (tzcnt src size eflags) eflags (Intel.tzcnt (size.narrow src)) := by
  have operand := and_widthMask src size
  refine count_meets eflags ?_ (by rw [operand, beq_zero_widen])
  rw [operand]
  split
  next zero =>
    rw [widen_eq_zero.mp zero, Intel.trailingZeros_zero]
    cases size <;> rfl
  next nonzero =>
    rw [widen_eq_zero] at nonzero
    rw [Intel.trailingZeros_eq_ctz nonzero, BitVec.ofNat_toNat, BitVec.setWidth_eq]
    cases size with
    | bits64 =>
      exact (widen_bits64 _).symm ▸ congrArg BitVec.ctz (widen_bits64 _)
    | bits32 =>
      exact congrArg (widen bits32 ·.ctz) (narrow_widen bits32 (narrow bits32 src))

theorem lzcnt_meets (src : BitVec 64) (eflags : BitVec 32) :
    Meets (lzcnt src size eflags) eflags (Intel.lzcnt (size.narrow src)) := by
  have operand := and_widthMask src size
  refine count_meets eflags ?_ (by rw [operand, beq_zero_widen])
  rw [operand]
  split
  next zero =>
    rw [widen_eq_zero.mp zero, Intel.leadingZeros_zero]
    cases size <;> rfl
  next nonzero =>
    rw [widen_eq_zero] at nonzero
    rw [Intel.leadingZeros_eq_clz nonzero, BitVec.ofNat_toNat, BitVec.setWidth_eq]
    cases size with
    | bits64 =>
      exact (widen_bits64 _).symm ▸ congrArg BitVec.clz (widen_bits64 _)
    | bits32 =>
      exact congrArg (widen bits32 ·.clz) (narrow_widen bits32 (narrow bits32 src))

/-! ### Shifts -/

theorem toNat_and_widthBits (count : BitVec 32) :
    (count &&& BitVec.ofNat 32 (size.widthBits - 1)).toNat = count.toNat % size.widthBits := by
  rw [BitVec.toNat_and]
  cases size with
  | bits64 => exact Nat.and_two_pow_sub_one_eq_mod count.toNat 6
  | bits32 => exact Nat.and_two_pow_sub_one_eq_mod count.toNat 5

theorem maskedCount_eq (count : BitVec 64) : maskedCount (count.setWidth 32) size =
      (size.narrow count).toNat % size.widthBits := by
  rw [maskedCount, toNat_and_widthBits, BitVec.toNat_setWidth, narrow, BitVec.toNat_setWidth]
  cases size with
  | bits64 => simp only [widthBits]; omega
  | bits32 => simp only [widthBits]

theorem maskedCount_byte (count : BitVec 8) :
    maskedCount (count.setWidth 32) size = count.toNat % size.widthBits := by
  have small : count.toNat < 2 ^ 32 := count.isLt.trans (by decide)
  rw [maskedCount, toNat_and_widthBits, BitVec.toNat_setWidth, Nat.mod_eq_of_lt small]

theorem shrx_eq (src : BitVec 64) (count : BitVec 32) : shrx src count size =
      size.widen (size.narrow src >>> maskedCount count size) := by
  rw [shrx, and_widthMask]
  apply BitVec.eq_of_getLsbD_eq
  intro i _
  rw [BitVec.getLsbD_ushiftRight, getLsbD_widen, getLsbD_widen, BitVec.getLsbD_ushiftRight]

theorem shlx_eq (src : BitVec 64) (count : BitVec 32) : shlx src count size =
      size.widen (size.narrow src <<< maskedCount count size) := by
  rw [shlx, and_widthMask]
  apply BitVec.eq_of_getLsbD_eq
  intro i _
  rw [getLsbD_widen, getLsbD_widen]
  by_cases inside : i < size.widthBits
  · rw [getLsbD_narrow _ _ inside]
    simp only [BitVec.getLsbD_shiftLeft, inside, decide_true, Bool.true_and]
    rw [getLsbD_narrow _ _ (by omega)]
    have := size.widthBits_le
    simp [show i < 64 by omega]
  · rw [BitVec.getLsbD_of_ge _ i (by omega), BitVec.getLsbD_of_ge _ i (by omega)]

theorem sarx_eq (src : BitVec 64) (count : BitVec 32) : sarx src count size =
      size.widen ((size.narrow src).sshiftRight (maskedCount count size)) := by
  cases size with
  | bits64 => exact (widen_bits64 _).symm ▸ rfl
  | bits32 =>
    simp only [sarx]
    rw [and_widthMask]
    exact congrArg (widen bits32) (narrow_widen bits32 _)

theorem narrow_or (left right : BitVec 64) :
    size.narrow (left ||| right) = size.narrow left ||| size.narrow right :=
  BitVec.setWidth_or

theorem narrow_ushiftRight_widen (value : BitVec size.widthBits) (count : ℕ) :
    size.narrow (size.widen value >>> count) = value >>> count := by
  apply BitVec.eq_of_getLsbD_eq
  intro i inside
  rw [getLsbD_narrow _ _ inside, BitVec.getLsbD_ushiftRight, getLsbD_widen,
    BitVec.getLsbD_ushiftRight]

theorem narrow_shiftLeft_widen (value : BitVec size.widthBits) (count : ℕ) :
    size.narrow (size.widen value <<< count) = value <<< count := by
  apply BitVec.eq_of_getLsbD_eq
  intro i inside
  have := size.widthBits_le
  rw [getLsbD_narrow _ _ inside]
  simp only [BitVec.getLsbD_shiftLeft, getLsbD_widen, inside,
    show i < 64 by omega]

theorem rorx_eq (src : BitVec 64) (count : BitVec 32) : rorx src count size =
      size.widen ((size.narrow src).rotateRight (maskedCount count size)) := by
  have short : maskedCount count size < size.widthBits := by
    rw [maskedCount, toNat_and_widthBits]
    exact Nat.mod_lt _ size.widthBits_pos
  simp only [rorx]
  generalize maskedCount count size = rotate at short
  rw [BitVec.rotateRight_def, Nat.mod_eq_of_lt short]
  split
  next zero =>
    rw [and_widthMask, zero]
    simp
  next nonzero =>
    simp only [and_widthMask, narrow_or, narrow_ushiftRight_widen, narrow_shiftLeft_widen]

theorem rorx_meets (src : BitVec 64) (count : BitVec 8) (eflags : BitVec 32) :
    Meets (rorx src (count.setWidth 32) size, eflags) eflags
      (Intel.rorx (size.narrow src) count.toNat) := by
  refine ⟨?_, none_permits eflags⟩
  rw [rorx_eq, maskedCount_byte]
  rfl

theorem sarx_meets (src count : BitVec 64) (eflags : BitVec 32) :
    Meets (sarx src (count.setWidth 32) size, eflags) eflags
      (Intel.sarx (size.narrow src) (size.narrow count).toNat) := by
  refine ⟨?_, none_permits eflags⟩
  rw [sarx_eq, maskedCount_eq]
  rfl

theorem shlx_meets (src count : BitVec 64) (eflags : BitVec 32) :
    Meets (shlx src (count.setWidth 32) size, eflags) eflags
      (Intel.shlx (size.narrow src) (size.narrow count).toNat) := by
  refine ⟨?_, none_permits eflags⟩
  rw [shlx_eq, maskedCount_eq]
  rfl

theorem shrx_meets (src count : BitVec 64) (eflags : BitVec 32) :
    Meets (shrx src (count.setWidth 32) size, eflags) eflags
      (Intel.shrx (size.narrow src) (size.narrow count).toNat) := by
  refine ⟨?_, none_permits eflags⟩
  rw [shrx_eq, maskedCount_eq]
  rfl

/-! ### The loops over the selector -/

/-- Setting a position of a word when a condition holds. -/
theorem getLsbD_setIf (value : BitVec 64) (set : Bool) (inside : place < 64) (bit : ℕ) :
    (if set then value ||| (1#64 <<< place) else value).getLsbD bit =
      (value.getLsbD bit || (set && decide (bit = place))) := by
  cases set with
  | false => simp
  | true =>
    rw [if_pos rfl, ← BitVec.twoPow_eq, BitVec.getLsbD_or,
      BitVec.getLsbD_twoPow, decide_eq_true inside]
    simp only [Bool.true_and, eq_comm]

variable {i : ℕ}

theorem pdepStep_eq (src selector : BitVec 64) (state : BitVec 64 × ℕ) (inside : i < 64) :
    pdepStep src selector state i =
      if selector.getLsbD i then
        (if src.getLsbD state.2 then state.1 ||| (1#64 <<< i) else state.1, state.2 + 1)
      else state := by
  simp only [pdepStep, and_position_ne_zero selector inside, shifted_bit_ne_zero]

theorem pextStep_eq (src selector : BitVec 64) (state : BitVec 64 × ℕ) (inside : i < 64) :
    pextStep src selector state i =
      if selector.getLsbD i then
        (if src.getLsbD i then state.1 ||| (1#64 <<< state.2) else state.1, state.2 + 1)
      else state := by
  simp only [pextStep, and_position_ne_zero selector inside, shifted_bit_ne_zero]

variable {limit : ℕ}

theorem pdep_loop (src selector : BitVec 64) (inside : limit ≤ 64) :
    ((List.range limit).foldl (pdepStep src selector) (0#64, 0)).2 =
        BitSelections.rank selector limit ∧
      ∀ bit, ((List.range limit).foldl (pdepStep src selector) (0#64, 0)).1.getLsbD bit =
        (decide (bit < limit) && (selector.getLsbD bit &&
          src.getLsbD (BitSelections.rank selector bit))) := by
  induction limit with
  | zero => simp
  | succ limit ih =>
    obtain ⟨counted, placed⟩ := ih (by omega)
    rw [List.range_succ, List.foldl_append]
    generalize (List.range limit).foldl (pdepStep src selector) (0#64, 0) =
      state at counted placed ⊢
    rw [List.foldl_cons, List.foldl_nil, pdepStep_eq _ _ _ (by omega)]
    cases selected : selector.getLsbD limit with
    | false =>
      refine ⟨?_, fun bit => ?_⟩
      · rw [BitSelections.rank_succ_of_not_selected selected]
        exact counted
      · rw [if_neg (by decide), placed]
        by_cases here : bit = limit
        · simp [here, selected]
        · simp [show bit < limit + 1 ↔ bit < limit by omega]
    | true =>
      refine ⟨?_, fun bit => ?_⟩
      · rw [BitSelections.rank_succ_of_selected selected, ← counted]
        rfl
      · rw [if_pos rfl, getLsbD_setIf _ _ (by omega), placed, counted]
        by_cases here : bit = limit
        · simp [here, selected]
        · simp [here, show bit < limit + 1 ↔ bit < limit by omega]

theorem pext_loop (src selector : BitVec 64) (inside : limit ≤ 64) :
    ((List.range limit).foldl (pextStep src selector) (0#64, 0)).2 =
        BitSelections.rank selector limit ∧
      ∀ bit, ((List.range limit).foldl (pextStep src selector) (0#64, 0)).1.getLsbD bit = true ↔
        ∃ position < limit, selector.getLsbD position = true ∧
          BitSelections.rank selector position = bit ∧
          src.getLsbD position = true := by
  induction limit with
  | zero => simp
  | succ limit ih =>
    obtain ⟨counted, gathered⟩ := ih (by omega)
    rw [List.range_succ, List.foldl_append]
    generalize (List.range limit).foldl (pextStep src selector) (0#64, 0) =
      state at counted gathered ⊢
    rw [List.foldl_cons, List.foldl_nil, pextStep_eq _ _ _ (by omega)]
    cases selected : selector.getLsbD limit with
    | false =>
      refine ⟨?_, fun bit => ?_⟩
      · rw [BitSelections.rank_succ_of_not_selected selected]
        exact counted
      · rw [if_neg (by decide), gathered]
        constructor
        · rintro ⟨position, before, rest⟩
          exact ⟨position, by omega, rest⟩
        · rintro ⟨position, before, here, rest⟩
          have other : position ≠ limit := by
            rintro rfl
            rw [selected] at here
            exact Bool.false_ne_true here
          exact ⟨position, by omega, here, rest⟩
    | true =>
      refine ⟨?_, fun bit => ?_⟩
      · rw [BitSelections.rank_succ_of_selected selected, ← counted]
        rfl
      · have room : state.2 < 64 := by
          have := BitSelections.rank_le selector limit
          omega
        rw [if_pos rfl, getLsbD_setIf _ _ room, Bool.or_eq_true, gathered,
          Bool.and_eq_true, decide_eq_true_iff, counted]
        constructor
        · rintro (⟨position, before, rest⟩ | ⟨source, here⟩)
          · exact ⟨position, by omega, rest⟩
          · exact ⟨limit, by omega, selected, here.symm, source⟩
        · rintro ⟨position, before, here, ranked, source⟩
          rcases Nat.lt_succ_iff_lt_or_eq.mp before with earlier | rfl
          · exact Or.inl ⟨position, earlier, here, ranked, source⟩
          · exact Or.inr ⟨source, ranked.symm⟩

theorem rank_widen (selector : BitVec size.widthBits) {position : ℕ}
    (inside : position ≤ size.widthBits) :
    BitSelections.rank (size.widen selector) position = BitSelections.rank selector position :=
  BitVec.cpopNatRec_setWidth_of_le selector (inside.trans size.widthBits_le)

theorem pdep_eq (src mask : BitVec 64) : pdep src mask size =
      size.widen (BitSelections.deposit (size.narrow src) (size.narrow mask)) := by
  simp only [pdep, and_widthMask]
  congr 1
  apply BitVec.eq_of_getLsbD_eq
  intro bit inside
  rw [getLsbD_narrow _ _ inside,
    (pdep_loop src _ size.widthBits_le).2, BitSelections.getLsbD_deposit,
    getLsbD_widen, rank_widen _ inside.le, decide_eq_true inside,
    Bool.true_and, getLsbD_narrow size src ((BitSelections.rank_le _ bit).trans_lt inside)]

theorem pext_eq (src mask : BitVec 64) : pext src mask size =
      size.widen (BitSelections.extract (size.narrow src) (size.narrow mask)) := by
  simp only [pext, and_widthMask]
  congr 1
  apply BitVec.eq_of_getLsbD_eq
  intro bit inside
  rw [getLsbD_narrow _ _ inside, Bool.eq_iff_iff,
    (pext_loop src _ size.widthBits_le).2, BitSelections.getLsbD_extract]
  constructor
  · rintro ⟨position, before, selected, ranked, source⟩
    rw [getLsbD_widen] at selected
    rw [rank_widen _ before.le] at ranked
    exact ⟨position, selected, ranked, (getLsbD_narrow size src before).trans source⟩
  · rintro ⟨position, selected, ranked, source⟩
    have before := BitSelections.lt_width_of_selected selected
    refine ⟨position, before, ?_, ?_, ?_⟩
    · rw [getLsbD_widen]
      exact selected
    · rw [rank_widen _ before.le]
      exact ranked
    · rwa [getLsbD_narrow size src before] at source

theorem pdep_meets (src mask : BitVec 64) (eflags : BitVec 32) :
    Meets (pdep src mask size, eflags) eflags (Intel.pdep (size.narrow src) (size.narrow mask)) :=
  ⟨pdep_eq src mask, none_permits eflags⟩

theorem pext_meets (src mask : BitVec 64) (eflags : BitVec 32) :
    Meets (pext src mask size, eflags) eflags (Intel.pext (size.narrow src) (size.narrow mask)) :=
  ⟨pext_eq src mask, none_permits eflags⟩

theorem toNat_pext_pdep (src mask : BitVec 64) : (pext (pdep src mask size) mask size).toNat =
      (size.narrow src).toNat % 2 ^ (size.narrow mask).cpop.toNat := by
  rw [pext_eq, pdep_eq, narrow_widen, toNat_widen, BitSelections.toNat_extract_deposit]

/-- Depositing what was extracted keeps the source under the mask. -/
theorem pdep_pext (src mask : BitVec 64) : pdep (pext src mask size) mask size =
      size.widen (size.narrow (src &&& mask)) := by
  rw [pdep_eq, pext_eq, narrow_widen, BitSelections.deposit_extract, narrow_and]

end SharpEmu.BmiInstructionEmulator
