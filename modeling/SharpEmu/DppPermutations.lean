import SharpEmu.DppLanes

/-!
# The permutations of DPP controls

What the controls prescribe: a permutation of the lanes of each row, in which some
have no source, and masks of the rows and banks that are written.  The emitted
lane is the prescribed one, but a bank is taken for a position in a quad and a
source that does not execute does not suppress the write.
-/

namespace SharpEmu.Gen5Spirv.Dpp

open Spirv

/-! ## Prescribed lanes -/

/-- What a supported control does to the lanes. -/
inductive DppPermutation where
  | quadPermute (selectors : Fin 256)
  | rowShiftLeft (amount : Fin 15)
  | rowShiftRight (amount : Fin 15)
  | rowRotateRight (amount : Fin 15)
  | rowMirror
  | rowHalfMirror
  | rowShare (source : Fin 16)
  | rowXmask (mask : Fin 16)
deriving DecidableEq

namespace DppPermutation

/-- The encoding of a permutation; amounts are encoded without zero. -/
def control : DppPermutation → Word
  | quadPermute selectors => .ofNat 32 selectors
  | rowShiftLeft amount => .ofNat 32 (0x101 + amount)
  | rowShiftRight amount => .ofNat 32 (0x111 + amount)
  | rowRotateRight amount => .ofNat 32 (0x121 + amount)
  | rowMirror => 0x140
  | rowHalfMirror => 0x141
  | rowShare source => .ofNat 32 (0x150 + source)
  | rowXmask mask => .ofNat 32 (0x160 + mask)

def inRow (lane : Fin 32) (position : Fin 16) : Fin 32 :=
  ⟨lane.val / 16 * 16 + position.val, by omega⟩

def sourceLane (lane : Fin 32) : DppPermutation → Option (Fin 32)
  | quadPermute selectors =>
      some ⟨lane.val / 4 * 4 + selectors.val / 4 ^ (lane.val % 4) % 4, by omega⟩
  | rowShiftLeft amount =>
      if _inside : lane.val % 16 + (amount.val + 1) < 16 then
        some ⟨lane.val + (amount.val + 1), by omega⟩
      else none
  | rowShiftRight amount =>
      if amount.val + 1 ≤ lane.val % 16 then
        some ⟨lane.val - (amount.val + 1), by omega⟩
      else none
  | rowRotateRight amount =>
      some (inRow lane ⟨(lane.val % 16 + 16 - (amount.val + 1)) % 16, Nat.mod_lt _ (by decide)⟩)
  | rowMirror => some (inRow lane ⟨15 - lane.val % 16, by omega⟩)
  | rowHalfMirror => some ⟨lane.val / 8 * 8 + (7 - lane.val % 8), by omega⟩
  | rowShare source => some (inRow lane source)
  | rowXmask mask =>
      some (inRow lane ⟨(lane.val % 16) ^^^ mask.val,
        Nat.xor_lt_two_pow (n := 4) (Nat.mod_lt _ (by decide)) mask.isLt⟩)

end DppPermutation

theorem isSupportedDppControl_iff (control : Word) : isSupportedDppControl control ↔
      ∃ permutation : DppPermutation, permutation.control = control := by
  constructor
  · intro supported
    have known : control.toNat ≤ 0xFF ∨ (0x101 ≤ control.toNat ∧ control.toNat ≤ 0x10F) ∨
        (0x111 ≤ control.toNat ∧ control.toNat ≤ 0x11F) ∨
        (0x121 ≤ control.toNat ∧ control.toNat ≤ 0x12F) ∨
        control = 0x140 ∨ control = 0x141 ∨
        (0x150 ≤ control.toNat ∧ control.toNat ≤ 0x15F) ∨
        (0x160 ≤ control.toNat ∧ control.toNat ≤ 0x16F) := supported
    have encoded {number : ℕ} (isNumber : number = control.toNat) :
        BitVec.ofNat 32 number = control := by
      rw [isNumber, BitVec.ofNat_toNat, BitVec.setWidth_eq]
    obtain quad | left | right | rotate | mirror | half | share | xmask := known
    · exact ⟨.quadPermute ⟨control.toNat, by omega⟩, encoded rfl⟩
    · exact ⟨.rowShiftLeft ⟨control.toNat - 0x101, by omega⟩, encoded (Nat.add_sub_of_le left.1)⟩
    · exact ⟨.rowShiftRight ⟨control.toNat - 0x111, by omega⟩, encoded (Nat.add_sub_of_le right.1)⟩
    · exact ⟨.rowRotateRight ⟨control.toNat - 0x121, by omega⟩,
        encoded (Nat.add_sub_of_le rotate.1)⟩
    · exact ⟨.rowMirror, mirror.symm⟩
    · exact ⟨.rowHalfMirror, half.symm⟩
    · exact ⟨.rowShare ⟨control.toNat - 0x150, by omega⟩, encoded (Nat.add_sub_of_le share.1)⟩
    · exact ⟨.rowXmask ⟨control.toNat - 0x160, by omega⟩, encoded (Nat.add_sub_of_le xmask.1)⟩
  · rintro ⟨permutation, rfl⟩
    cases permutation <;>
      simp only [isSupportedDppControl, DppPermutation.control,
        BitVec.le_def, BitVec.toNat_ofNat] <;>
      grind

/-! ## The emitted lane -/

section Lanes

variable (lane : Fin 32)

theorem toNat_laneWord : (laneWord lane).toNat = lane.val :=
  Nat.mod_eq_of_lt (by omega)

theorem laneWord_quadBase : laneWord lane &&& 0xFFFFFFFC = .ofNat 32 (lane.val / 4 * 4) := by
  revert lane
  decide

theorem laneWord_quadLane : laneWord lane &&& 3 = .ofNat 32 (lane.val % 4) := by
  revert lane
  decide

end Lanes

theorem quadSelector_eq (dpp : Word) : ∀ position < 4,
      quadSelector dpp (.ofNat 32 position) = (dpp >>> (position * 2)) &&& 3
  | 0, _ | 1, _ | 2, _ | 3, _ => by simp [quadSelector, select]

theorem toNat_quadSelector (dpp : Word) (position : ℕ) (inQuad : position < 4) :
    (quadSelector dpp (.ofNat 32 position)).toNat = dpp.toNat / 4 ^ position % 4 := by
  have four : (2 : ℕ) ^ 2 = 4 := rfl
  rw [quadSelector_eq dpp position inQuad, toNat_and_low _ 3 2 rfl,
    toNat_shiftRight, Nat.mul_comm, Nat.pow_mul, four]

def IsEmitted (control : Word) (lane : Fin 32) : Option (Fin 32) → Prop
  | some source =>
      getDppSourceLane control (laneWord lane) = (laneWord source, true)
  | none => (getDppSourceLane control (laneWord lane)).2 = false

instance (control : Word) (lane : Fin 32) (source : Option (Fin 32)) :
    Decidable (IsEmitted control lane source) :=
  match source with
  | some source =>
      inferInstanceAs (Decidable
        (getDppSourceLane control (laneWord lane) = (laneWord source, true)))
  | none =>
      inferInstanceAs (Decidable ((getDppSourceLane control (laneWord lane)).2 = false))

theorem getDppSourceLane_of_quad {dpp : Word} (isQuad : dpp ≤ 0xFF) (lane : Word) :
    getDppSourceLane dpp lane = ((lane &&& 0xFFFFFFFC) + quadSelector dpp (lane &&& 3), true) :=
  if_pos isQuad

theorem isEmitted_quadPermute (lane : Fin 32) (selectors : Fin 256) :
    IsEmitted (DppPermutation.quadPermute selectors).control lane
      ((DppPermutation.quadPermute selectors).sourceLane lane) := by
  have isControl : (BitVec.ofNat 32 selectors.val : Word).toNat =
      selectors.val := Nat.mod_eq_of_lt (by omega)
  have isQuad : (BitVec.ofNat 32 selectors.val : Word) ≤ 0xFF := by
    rw [BitVec.le_def, isControl]
    exact Nat.le_of_lt_succ selectors.isLt
  simp only [IsEmitted, DppPermutation.sourceLane, DppPermutation.control]
  rw [getDppSourceLane_of_quad isQuad, laneWord_quadBase, laneWord_quadLane]
  congr 1
  apply BitVec.eq_of_toNat_eq
  rw [BitVec.toNat_add, toNat_quadSelector _ _ (Nat.mod_lt _ (by decide)),
    isControl, toNat_laneWord, BitVec.toNat_ofNat]
  dsimp only
  omega

theorem isEmitted_sourceLane (permutation : DppPermutation) (lane : Fin 32) :
    IsEmitted permutation.control lane (permutation.sourceLane lane) := by
  cases permutation with
  | quadPermute selectors => exact isEmitted_quadPermute lane selectors
  | rowShiftLeft amount => revert lane amount; decide +kernel
  | rowShiftRight amount => revert lane amount; decide +kernel
  | rowRotateRight amount => revert lane amount; decide +kernel
  | rowMirror => revert lane; decide +kernel
  | rowHalfMirror => revert lane; decide +kernel
  | rowShare source => revert lane source; decide +kernel
  | rowXmask mask => revert lane mask; decide +kernel

/-- The second backend reads the selector of a quad permutation directly. -/
theorem emitDppSourceLane_eq (dpp : Word) (lane : Fin 32) :
    Metal.emitDppSourceLane dpp (laneWord lane) = getDppSourceLane dpp (laneWord lane) := by
  have isSelector : quadSelector dpp (laneWord lane &&& 3) =
      (dpp >>> ((laneWord lane &&& 3) * 2).toNat) &&& 3 := by
    rw [laneWord_quadLane, quadSelector_eq dpp _ (Nat.mod_lt _ (by decide))]
    have isAmount : (BitVec.ofNat 32 (lane.val % 4) * 2 : Word).toNat = lane.val % 4 * 2 := by
      rw [BitVec.toNat_mul, BitVec.toNat_ofNat]
      change lane.val % 4 % 2 ^ 32 * 2 % 2 ^ 32 = lane.val % 4 * 2
      omega
    rw [isAmount]
  unfold Metal.emitDppSourceLane getDppSourceLane
  rw [isSelector]

end SharpEmu.Gen5Spirv.Dpp
