import Mathlib.Order.Defs.LinearOrder
import Mathlib.Algebra.Order.Group.Nat
import Mathlib.Tactic.Common

/-!
# Sixty-four-bit machine words

Addresses and sizes are unsigned 64-bit words whose arithmetic wraps unless a
program asks for the checked form.  This file gives the linear order on words,
checked addition, and the mask-based rounding used to align addresses, together
with the natural-number facts that let later proofs leave the word level.
-/

namespace SharpEmu

instance instLinearOrderUInt64 : LinearOrder UInt64 where
  le_refl := UInt64.le_refl
  le_trans _ _ _ := UInt64.le_trans
  lt_iff_le_not_ge first second := by
    simp only [UInt64.lt_iff_toNat_lt, UInt64.le_iff_toNat_le]
    omega
  le_antisymm _ _ := UInt64.le_antisymm
  le_total := UInt64.le_total
  toDecidableLE := inferInstance
  toDecidableLT := inferInstance
  toDecidableEq := inferInstance

instance instLinearOrderUInt32 : LinearOrder UInt32 where
  le_refl := UInt32.le_refl
  le_trans _ _ _ := UInt32.le_trans
  lt_iff_le_not_ge first second := by
    simp only [UInt32.lt_iff_toNat_lt, UInt32.le_iff_toNat_le]
    omega
  le_antisymm _ _ := UInt32.le_antisymm
  le_total := UInt32.le_total
  toDecidableLE := inferInstance
  toDecidableLT := inferInstance
  toDecidableEq := inferInstance

instance instLawfulBEqUInt64 : LawfulBEq UInt64 :=
  instLawfulBEq

instance instLawfulBEqUInt32 : LawfulBEq UInt32 :=
  instLawfulBEq

namespace Word64

/-- Addition in a checked context: no value when the exact sum needs a 65th
bit. -/
def checkedAdd (left right : UInt64) : Option UInt64 :=
  if left + right < left then none else some (left + right)

def roundDown (value alignment : UInt64) : UInt64 :=
  value &&& ~~~(alignment - 1)

def wrappingRoundUp (value alignment : UInt64) : UInt64 :=
  roundDown (value + (alignment - 1)) alignment

def checkedRoundUp (value alignment : UInt64) : Option UInt64 :=
  (checkedAdd value (alignment - 1)).map fun sum => roundDown sum alignment

def IsPowerOfTwo (alignment : UInt64) : Prop :=
  alignment ≠ 0 ∧ alignment &&& (alignment - 1) = 0

instance (alignment : UInt64) : Decidable (IsPowerOfTwo alignment) :=
  inferInstanceAs (Decidable (_ ∧ _))

variable {left right : UInt64}

theorem toNat_inj : left = right ↔ left.toNat = right.toNat :=
  UInt64.toNat_inj.symm

theorem toNat_min (first second : UInt64) :
    (min first second).toNat = min first.toNat second.toNat := by
  rcases le_total first second with below | above
  · rw [min_eq_left below, min_eq_left (UInt64.le_iff_toNat_le.mp below)]
  · rw [min_eq_right above, min_eq_right (UInt64.le_iff_toNat_le.mp above)]

theorem toNat_max (first second : UInt64) :
    (max first second).toNat = max first.toNat second.toNat := by
  rcases le_total first second with below | above
  · rw [max_eq_right below, max_eq_right (UInt64.le_iff_toNat_le.mp below)]
  · rw [max_eq_left above, max_eq_left (UInt64.le_iff_toNat_le.mp above)]

variable {word : UInt64}

theorem toNat_pos (nonzero : word ≠ 0) : 0 < word.toNat := by
  rcases Nat.eq_zero_or_pos word.toNat with isZero | positive
  · exact absurd (toNat_inj.mpr (by simpa using isZero)) nonzero
  · exact positive

theorem toNat_ne_zero : word ≠ 0 ↔ 0 < word.toNat := by
  refine ⟨toNat_pos, ?_⟩
  rintro positive rfl
  simp at positive

theorem toNat_pred (nonzero : word ≠ 0) : (word - 1).toNat = word.toNat - 1 := by
  have positive := toNat_pos nonzero
  rw [UInt64.toNat_sub_of_le _ _ (by
    simp only [UInt64.le_iff_toNat_le, UInt64.toNat_one]
    omega)]
  rfl

theorem toNat_add_of_lt (fits : left.toNat + right.toNat < 2 ^ 64) :
    (left + right).toNat = left.toNat + right.toNat := by
  rw [UInt64.toNat_add, Nat.mod_eq_of_lt fits]

theorem toNat_add_ofNat (word : UInt64) (amount : ℕ) (fits : word.toNat + amount < 2 ^ 64) :
    (word + UInt64.ofNat amount).toNat = word.toNat + amount := by
  have amountFits : amount < 2 ^ 64 := by omega
  rw [UInt64.toNat_add, UInt64.toNat_ofNat', Nat.mod_eq_of_lt amountFits, Nat.mod_eq_of_lt fits]

theorem checkedAdd_eq_some {sum : UInt64} : checkedAdd left right = some sum ↔
      left.toNat + right.toNat < 2 ^ 64 ∧ sum.toNat = left.toNat + right.toNat := by
  have leftBound := left.toNat_lt
  have rightBound := right.toNat_lt
  simp only [checkedAdd, UInt64.lt_iff_toNat_lt, UInt64.toNat_add]
  split
  · simp only [reduceCtorEq, false_iff]
    omega
  · rw [Option.some.injEq, toNat_inj, UInt64.toNat_add]
    omega

theorem checkedAdd_isSome (fits : left.toNat + right.toNat < 2 ^ 64) :
    checkedAdd left right = some (left + right) :=
  checkedAdd_eq_some.mpr ⟨fits, toNat_add_of_lt fits⟩

private theorem and_add_and_not (value mask : BitVec 64) :
    (value &&& mask) + (value &&& ~~~mask) = value := by
  have noCommonBit : value &&& mask &&& (value &&& ~~~mask) = 0#64 := by
    ext index inBounds
    simp only [BitVec.getElem_and, BitVec.getElem_not, BitVec.getElem_zero]
    cases value[index] <;> cases mask[index] <;> rfl
  rw [BitVec.add_eq_or_of_and_eq_zero _ _ noCommonBit]
  ext index inBounds
  simp only [BitVec.getElem_or, BitVec.getElem_and, BitVec.getElem_not]
  cases value[index] <;> cases mask[index] <;> rfl

theorem toNat_and_not (value mask : UInt64) :
    (value &&& ~~~mask).toNat = value.toNat - (value &&& mask).toNat := by
  have split := congrArg BitVec.toNat (and_add_and_not value.toBitVec mask.toBitVec)
  rw [BitVec.toNat_add] at split
  change ((value &&& mask).toNat + (value &&& ~~~mask).toNat) % 2 ^ 64 = value.toNat at split
  have lowBound : (value &&& mask).toNat ≤ value.toNat := by
    rw [UInt64.toNat_and]
    exact Nat.and_le_left
  have highBound : (value &&& ~~~mask).toNat ≤ value.toNat := by
    rw [UInt64.toNat_and]
    exact Nat.and_le_left
  omega

theorem roundDown_le (value alignment : UInt64) : roundDown value alignment ≤ value := by
  rw [roundDown, UInt64.le_iff_toNat_le, toNat_and_not]
  omega

variable {alignment : UInt64}

theorem toNat_lt_roundDown_add (value : UInt64) (nonzero : alignment ≠ 0) :
    value.toNat < (roundDown value alignment).toNat + alignment.toNat := by
  have maskBound : (value &&& (alignment - 1)).toNat ≤ alignment.toNat - 1 := by
    rw [UInt64.toNat_and, toNat_pred nonzero]
    exact Nat.and_le_right
  have positive := toNat_pos nonzero
  rw [roundDown, toNat_and_not]
  omega

theorem IsPowerOfTwo.exists_pow (power : IsPowerOfTwo alignment) :
    ∃ exponent, alignment.toNat = 2 ^ exponent := by
  obtain ⟨nonzero, masked⟩ := power
  refine Nat.ne_zero_and_sub_one_eq_zero_iff_isPowerOfTwo.mp ⟨(toNat_pos nonzero).ne', ?_⟩
  rw [← toNat_pred nonzero, ← UInt64.toNat_and, masked]
  rfl

theorem IsPowerOfTwo.toNat_le (power : IsPowerOfTwo alignment) : alignment.toNat ≤ 2 ^ 63 := by
  obtain ⟨exponent, isPow⟩ := power.exists_pow
  have alignmentBound := alignment.toNat_lt
  rw [isPow] at alignmentBound ⊢
  exact Nat.pow_le_pow_right (by omega)
    (Nat.le_of_lt_succ ((Nat.pow_lt_pow_iff_right (by omega)).mp alignmentBound))

theorem IsPowerOfTwo.dvd_of_le {smaller larger : UInt64}
    (smallerPower : IsPowerOfTwo smaller) (largerPower : IsPowerOfTwo larger)
    (ordered : smaller ≤ larger) : smaller.toNat ∣ larger.toNat := by
  obtain ⟨smallExponent, smallEq⟩ := smallerPower.exists_pow
  obtain ⟨largeExponent, largeEq⟩ := largerPower.exists_pow
  rw [UInt64.le_iff_toNat_le, smallEq, largeEq] at ordered
  rw [smallEq, largeEq]
  exact Nat.pow_dvd_pow 2 ((Nat.pow_le_pow_iff_right (by omega)).mp ordered)

theorem IsPowerOfTwo.dvd_modulus (power : IsPowerOfTwo alignment) : alignment.toNat ∣ 2 ^ 64 := by
  obtain ⟨exponent, isPow⟩ := power.exists_pow
  have alignmentBound := alignment.toNat_lt
  rw [isPow] at alignmentBound ⊢
  exact Nat.pow_dvd_pow 2 ((Nat.pow_lt_pow_iff_right (by omega)).mp alignmentBound).le

theorem toNat_roundDown (value : UInt64) (power : IsPowerOfTwo alignment) :
    (roundDown value alignment).toNat = alignment.toNat * (value.toNat / alignment.toNat) := by
  obtain ⟨exponent, isPow⟩ := power.exists_pow
  have divMod := Nat.div_add_mod value.toNat alignment.toNat
  rw [roundDown, toNat_and_not, UInt64.toNat_and, toNat_pred power.1]
  rw [isPow] at divMod ⊢
  rw [Nat.and_two_pow_sub_one_eq_mod]
  omega

theorem toNat_and_pred (value : UInt64) (power : IsPowerOfTwo alignment) :
    (value &&& (alignment - 1)).toNat = value.toNat % alignment.toNat := by
  obtain ⟨exponent, isPow⟩ := power.exists_pow
  rw [UInt64.toNat_and, toNat_pred power.1, isPow, Nat.and_two_pow_sub_one_eq_mod]

/-- Wrapping sums have the remainder of the exact sum. -/
theorem toNat_add_mod (left right : UInt64) (power : IsPowerOfTwo alignment) :
    (left + right).toNat % alignment.toNat = (left.toNat + right.toNat) % alignment.toNat := by
  rw [UInt64.toNat_add, Nat.mod_mod_of_dvd _ power.dvd_modulus]

theorem dvd_roundDown (value : UInt64) (power : IsPowerOfTwo alignment) :
    alignment.toNat ∣ (roundDown value alignment).toNat :=
  ⟨_, toNat_roundDown value power⟩

variable {value : UInt64}

theorem wrappingRoundUp_of_lt (nonzero : alignment ≠ 0)
    (fits : value.toNat + (alignment.toNat - 1) < 2 ^ 64) :
    value ≤ wrappingRoundUp value alignment := by
  have upper := toNat_lt_roundDown_add (value + (alignment - 1)) nonzero
  have predecessor := toNat_pred nonzero
  rw [toNat_add_of_lt (by omega), predecessor] at upper
  rw [UInt64.le_iff_toNat_le, wrappingRoundUp]
  omega

variable {rounded : UInt64}

theorem checkedRoundUp_eq_some :
    checkedRoundUp value alignment = some rounded ↔ value.toNat + (alignment - 1).toNat < 2 ^ 64 ∧
        rounded = wrappingRoundUp value alignment := by
  rw [checkedRoundUp, Option.map_eq_some_iff]
  constructor
  · rintro ⟨sum, added, rfl⟩
    obtain ⟨fits, sumEq⟩ := checkedAdd_eq_some.mp added
    have isSum : sum = value + (alignment - 1) :=
      toNat_inj.mpr (sumEq.trans (toNat_add_of_lt fits).symm)
    exact ⟨fits, by rw [isSum, wrappingRoundUp]⟩
  · rintro ⟨fits, rfl⟩
    exact ⟨_, checkedAdd_isSome fits, rfl⟩

theorem toNat_of_checkedRoundUp (power : IsPowerOfTwo alignment)
    (succeeds : checkedRoundUp value alignment = some rounded) :
    rounded.toNat = alignment.toNat *
      ((value.toNat + (alignment.toNat - 1)) / alignment.toNat) := by
  obtain ⟨fits, rfl⟩ := checkedRoundUp_eq_some.mp succeeds
  rw [wrappingRoundUp, toNat_roundDown _ power, toNat_add_of_lt fits, toNat_pred power.1]

theorem le_of_checkedRoundUp (nonzero : alignment ≠ 0)
    (succeeds : checkedRoundUp value alignment = some rounded) :
    value ≤ rounded := by
  obtain ⟨fits, rfl⟩ := checkedRoundUp_eq_some.mp succeeds
  exact wrappingRoundUp_of_lt nonzero (by rwa [toNat_pred nonzero] at fits)

theorem dvd_wrappingRoundUp (value : UInt64) (power : IsPowerOfTwo alignment) :
    alignment.toNat ∣ (wrappingRoundUp value alignment).toNat :=
  dvd_roundDown _ power

theorem wrappingRoundUp_le_of_dvd {multiple : ℕ} (power : IsPowerOfTwo alignment)
    (fits : value.toNat + (alignment.toNat - 1) < 2 ^ 64)
    (aligned : alignment.toNat ∣ multiple) (above : value.toNat ≤ multiple) :
    (wrappingRoundUp value alignment).toNat ≤ multiple := by
  have positive := toNat_pos power.1
  have predecessor := toNat_pred power.1
  obtain ⟨quotient, rfl⟩ := aligned
  rw [wrappingRoundUp, toNat_roundDown _ power, toNat_add_of_lt (by omega), predecessor]
  refine Nat.mul_le_mul_left _ (Nat.le_of_lt_succ ?_)
  rw [Nat.div_lt_iff_lt_mul positive, Nat.succ_mul, Nat.mul_comm]
  omega

end Word64
end SharpEmu
