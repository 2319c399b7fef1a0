import SharpEmu.DppPermutations

/-!
# Results under DPP controls

What a lane stores under a DPP control: nothing if its row or bank is masked, and
without a source that it may fetch, zero or nothing.  Both backends take the bank
from the position in a quad, let sources that do not execute write, and the second
fetches the own value of a lane without a source.
-/

namespace SharpEmu.Gen5Spirv.Dpp

open Spirv

structure DppFields where
  permutation : DppPermutation
  fetchInactive : Bool
  boundControl : Bool
  bankMask : BitVec 4
  rowMask : BitVec 4
deriving DecidableEq

namespace DppFields

def encode (fields : DppFields) : Gen5DppControl where
  control := fields.permutation.control
  fetchInactive := fields.fetchInactive
  boundControl := fields.boundControl
  bankMask := fields.bankMask.setWidth 32
  rowMask := fields.rowMask.setWidth 32

variable (fields : DppFields) (exec : Wave Bool) (values : Wave Word)
  (lane : Fin 32)

def isRowEnabled : Bool := fields.rowMask.getLsbD (lane.val / 16)

/-- A bank is a group of four consecutive lanes of a row. -/
def isBankEnabled : Bool := fields.bankMask.getLsbD (lane.val % 16 / 4)

/-- The bit of the bank mask that is tested for a lane: the one of its position in
its quad. -/
def isPositionEnabled : Bool := fields.bankMask.getLsbD (lane.val % 4)

/-- The lane whose value is fetched, if it is in range and may be fetched. -/
def availableSource : Option (Fin 32) :=
  (fields.permutation.sourceLane lane).filter fun source =>
    fields.fetchInactive || exec source

/-- The source value that a lane's result is computed from, or nothing if the lane
keeps its destination. -/
def prescribedResult : Option Word :=
  if exec lane && fields.isRowEnabled lane && fields.isBankEnabled lane then
    match fields.availableSource exec lane with
    | some source => some (values source)
    | none => if fields.boundControl then some 0 else none
  else none

variable {fields lane}

theorem availableSource_of_none (isSource : fields.permutation.sourceLane lane = none) :
    fields.availableSource exec lane = none := by
  rw [availableSource, isSource]
  rfl

theorem availableSource_of_some {source : Fin 32}
    (isSource : fields.permutation.sourceLane lane = some source) :
    fields.availableSource exec lane =
      if fields.fetchInactive || exec source then some source else none := by
  rw [availableSource, isSource]
  rfl

end DppFields

/-- The encoded controls are the supported ones with masks of four bits. -/
theorem exists_encode_iff (control : Gen5DppControl) :
    (∃ fields : DppFields, fields.encode = control) ↔
      isSupportedDppControl control.control ∧ control.bankMask < 16 ∧ control.rowMask < 16 := by
  constructor
  · rintro ⟨fields, rfl⟩
    refine ⟨(isSupportedDppControl_iff _).mpr ⟨_, rfl⟩, ?_, ?_⟩
    all_goals
      simp only [DppFields.encode]
      bv_omega
  · rintro ⟨supported, bank, row⟩
    obtain ⟨permutation, isControl⟩ := (isSupportedDppControl_iff _).mp supported
    obtain ⟨word, fetch, bound, bankMask, rowMask⟩ := control
    obtain rfl : permutation.control = word := isControl
    refine ⟨⟨permutation, fetch, bound, bankMask.setWidth 4, rowMask.setWidth 4⟩, ?_⟩
    have isBank : (bankMask.setWidth 4).setWidth 32 = bankMask := by
      dsimp only at bank
      bv_omega
    have isRow : (rowMask.setWidth 4).setWidth 32 = rowMask := by
      dsimp only at row
      bv_omega
    rw [DppFields.encode, isBank, isRow]
/-! ## Emitted values and masks -/

theorem and_shifted_one (mask : Word) (index : ℕ) (inside : index < 32) :
    decide (mask &&& ((1 : Word) <<< index) ≠ 0) = mask.getLsbD index := by
  change decide (mask &&& (1#32 <<< index) ≠ 0) = _
  rw [← BitVec.twoPow_eq, BitVec.and_twoPow]
  have isSet : BitVec.twoPow 32 index ≠ 0 := by
    intro isZero
    have bit := congrArg (BitVec.getLsbD · index) isZero
    simp [inside] at bit
  cases mask.getLsbD index
  · rfl
  · exact decide_eq_true isSet

theorem shifted_and_one (mask : Word) (index : ℕ) :
    decide ((mask >>> index) &&& 1 ≠ 0) = mask.getLsbD index := by
  change decide ((mask >>> index) &&& 1#32 ≠ 0) = _
  rw [BitVec.and_one_eq_setWidth_ofBool_getLsbD, BitVec.getLsbD_ushiftRight, Nat.add_zero]
  cases mask.getLsbD index <;> rfl

theorem getLsbD_encoded_mask (mask : BitVec 4) (index : ℕ) (inside : index < 32) :
    (mask.setWidth 32).getLsbD index = mask.getLsbD index := by
  rw [BitVec.getLsbD_setWidth, decide_eq_true inside, Bool.true_and]

theorem laneWord_and_31 (lane : Fin 32) : laneWord lane &&& 31 = laneWord lane := by
  revert lane
  decide

theorem laneWord_row (lane : Fin 32) : laneWord lane >>> 4 = .ofNat 32 (lane.val / 16) := by
  revert lane
  decide

theorem shuffle_laneWord {Value : Type} (values : Wave Value) (lane : Fin 32) :
    shuffle values (laneWord lane) = some (values lane) := by
  unfold shuffle
  rw [dif_pos (by rw [toNat_laneWord]; exact lane.isLt)]
  simp only [toNat_laneWord]

theorem shuffledActive_laneWord (exec : Wave Bool) (lane : Fin 32) :
    shuffledActive exec (laneWord lane) = some (exec lane) := by
  unfold shuffledActive
  rw [shuffle_laneWord]
  cases exec lane <;> rfl

theorem isSourceAvailable_laneWord (control : Gen5DppControl) (exec : Wave Bool)
    (inRange : Bool) (lane : Fin 32) :
    isSourceAvailable control exec inRange (laneWord lane) =
      some (inRange && (control.fetchInactive || exec lane)) := by
  unfold isSourceAvailable
  rw [shuffledActive_laneWord]
  cases control.fetchInactive <;> cases inRange <;> rfl

section Fields

variable (fields : DppFields) (exec : Wave Bool) (values : Wave Word)
  (lane : Fin 32)

theorem isEmitted_encode :
    IsEmitted fields.encode.control lane (fields.permutation.sourceLane lane) :=
  isEmitted_sourceLane fields.permutation lane

theorem applyDppSource_encode : applyDppSource fields.encode exec values lane =
      some ((fields.availableSource exec lane).elim 0 values) := by
  have isEmitted := isEmitted_encode fields lane
  unfold applyDppSource
  cases isSource : fields.permutation.sourceLane lane with
  | none =>
    rw [isSource] at isEmitted
    rcases isLane : getDppSourceLane fields.encode.control (laneWord lane) with ⟨target, inRange⟩
    rw [IsEmitted, isLane] at isEmitted
    obtain rfl : inRange = false := isEmitted
    rw [DppFields.availableSource_of_none exec isSource]
    simp only [select_false, laneWord_and_31, shuffle_laneWord, isSourceAvailable_laneWord]
    rfl
  | some source =>
    rw [isSource] at isEmitted
    rw [show getDppSourceLane _ _ = _ from isEmitted,
      DppFields.availableSource_of_some exec isSource]
    simp only [select_true, laneWord_and_31, shuffle_laneWord,
      isSourceAvailable_laneWord, DppFields.encode]
    cases fields.fetchInactive || exec source <;> rfl

/-- Which lanes are in an enabled row, at an enabled position, and in range or under
bound control. -/
def isWriteEmitted : Bool :=
  fields.isRowEnabled lane && (fields.isPositionEnabled lane &&
    (fields.boundControl || (fields.permutation.sourceLane lane).isSome))

theorem inRange_encode : (getDppSourceLane fields.encode.control (laneWord lane)).2 =
      (fields.permutation.sourceLane lane).isSome := by
  have isEmitted := isEmitted_encode fields lane
  cases isSource : fields.permutation.sourceLane lane with
  | none =>
    rw [isSource] at isEmitted
    exact isEmitted
  | some source =>
    rw [isSource] at isEmitted
    exact congrArg Prod.snd isEmitted

theorem toNat_row : (BitVec.ofNat 32 (lane.val / 16) : Word).toNat = lane.val / 16 :=
  Nat.mod_eq_of_lt (by omega)

theorem toNat_position : (BitVec.ofNat 32 (lane.val % 4) : Word).toNat = lane.val % 4 :=
  Nat.mod_eq_of_lt (by omega)

theorem isDppWriteEnabled_encode :
    isDppWriteEnabled fields.encode lane = some (isWriteEmitted fields lane) := by
  have rowInside : lane.val / 16 < 32 := by omega
  have positionInside : lane.val % 4 < 32 := by omega
  unfold isDppWriteEnabled isWriteEmitted
  have isRow : shiftRightLogical (laneWord lane) 4 =
      some (laneWord lane >>> 4) := shiftRightLogical_of_amount rfl (by decide)
  rw [inRange_encode, isRow, laneWord_row, laneWord_quadLane]
  simp only [Option.bind_eq_bind, Option.bind_some,
    shiftLeftLogical_of_amount (toNat_row lane) rowInside,
    shiftLeftLogical_of_amount (toNat_position lane) positionInside]
  rw [and_shifted_one _ _ rowInside, and_shifted_one _ _ positionInside]
  simp only [DppFields.encode, getLsbD_encoded_mask _ _ rowInside,
    getLsbD_encoded_mask _ _ positionInside]
  obtain ⟨_, _, boundControl, _, _⟩ := fields
  cases boundControl <;> rfl

/-! ## The second backend -/

theorem metal_applyDppSource_encode : Metal.applyDppSource fields.encode exec values lane =
      some (match fields.permutation.sourceLane lane with
        | some source =>
          if fields.fetchInactive || exec source then values source else 0
        | none => if fields.fetchInactive then values lane else 0) := by
  have isEmitted := isEmitted_encode fields lane
  unfold Metal.applyDppSource
  rw [emitDppSourceLane_eq]
  cases isSource : fields.permutation.sourceLane lane with
  | none =>
    rw [isSource] at isEmitted
    rcases isLane : getDppSourceLane fields.encode.control (laneWord lane) with ⟨target, inRange⟩
    rw [IsEmitted, isLane] at isEmitted
    obtain rfl : inRange = false := isEmitted
    simp only [Bool.false_eq_true, if_false, laneWord_and_31, shuffle_laneWord, DppFields.encode]
    obtain ⟨_, fetchInactive, _, _, _⟩ := fields
    cases fetchInactive <;> rfl
  | some source =>
    rw [isSource] at isEmitted
    rw [show getDppSourceLane _ _ = _ from isEmitted]
    simp only [if_true, laneWord_and_31, shuffle_laneWord, DppFields.encode]
    obtain ⟨_, fetchInactive, _, _, _⟩ := fields
    generalize exec source = active
    cases fetchInactive <;> cases active <;> rfl

theorem emitDppWriteEnabled_encode :
    Metal.emitDppWriteEnabled fields.encode lane = isWriteEmitted fields lane := by
  have rowInside : lane.val / 16 < 32 := by omega
  have positionInside : lane.val % 4 < 32 := by omega
  unfold Metal.emitDppWriteEnabled isWriteEmitted
  rw [emitDppSourceLane_eq, inRange_encode, laneWord_row, laneWord_quadLane,
    toNat_row, toNat_position, shifted_and_one, shifted_and_one]
  simp only [DppFields.encode, getLsbD_encoded_mask _ _ rowInside,
    getLsbD_encoded_mask _ _ positionInside]
  obtain ⟨_, _, boundControl, _, _⟩ := fields
  cases boundControl <;> simp [DppFields.isRowEnabled, DppFields.isPositionEnabled, Bool.and_assoc]

end Fields

/-! ## Where the results are the prescribed ones -/

/-- Where a bank is enabled as the position of a lane in its quad is, a source that
does not execute is not wanted, and a lane without a source has the value zero. -/
def DppFields.IsRegular (fields : DppFields) (exec : Wave Bool)
    (values : Wave Word) (lane : Fin 32) : Prop :=
  exec lane → fields.isRowEnabled lane →
    match fields.availableSource exec lane with
    | some _ => fields.isPositionEnabled lane = fields.isBankEnabled lane
    | none =>
        if fields.boundControl then
          fields.isPositionEnabled lane = fields.isBankEnabled lane ∧
            (fields.isBankEnabled lane → fields.fetchInactive → values lane = 0)
        else
          fields.permutation.sourceLane lane = none ∨ fields.isPositionEnabled lane = false

/-- Both backends store the prescribed results exactly where each lane is
regular. -/
theorem emitDppResult_prescribed_iff (fields : DppFields) (exec : Wave Bool) (values : Wave Word) :
    (∀ lane, emitDppResult fields.encode exec values lane =
          some (fields.prescribedResult exec values lane) ∧
        Metal.emitDppResult fields.encode exec values lane =
          emitDppResult fields.encode exec values lane) ↔
      ∀ lane, fields.IsRegular exec values lane := by
  refine forall_congr' fun lane => ?_
  unfold emitDppResult Metal.emitDppResult DppFields.prescribedResult DppFields.IsRegular
  rw [applyDppSource_encode, isDppWriteEnabled_encode,
    metal_applyDppSource_encode, emitDppWriteEnabled_encode]
  unfold isWriteEmitted
  -- What is left depends on the flags and on the masks' bits for the lane alone.
  cases isSource : fields.permutation.sourceLane lane with
  | none =>
    rw [DppFields.availableSource_of_none exec isSource]
    cases exec lane <;> cases fields.isRowEnabled lane <;>
      cases fields.isPositionEnabled lane <;>
      cases fields.isBankEnabled lane <;> cases fields.boundControl <;>
      cases fields.fetchInactive <;> simp
  | some source =>
    rw [DppFields.availableSource_of_some exec isSource]
    cases exec lane <;> cases fields.isRowEnabled lane <;>
      cases fields.isPositionEnabled lane <;>
      cases fields.isBankEnabled lane <;> cases fields.boundControl <;>
      cases fields.fetchInactive <;> cases active : exec source <;>
      simp [active]

/-- In a row that is mirrored with its first bank alone enabled, the second lane of
the bank keeps its destination and the second bank's first lane is written. -/
theorem first_bank_keeps_and_second_writes :
    let fields : DppFields := ⟨.rowMirror, true, true, 1, 15⟩
    let exec : Wave Bool := fun _ => true
    let values : Wave Word := fun _ => 7
    emitDppResult fields.encode exec values 1 = some none ∧
      fields.prescribedResult exec values 1 = some 7 ∧
      emitDppResult fields.encode exec values 4 = some (some 7) ∧
      fields.prescribedResult exec values 4 = none := by
  decide

end SharpEmu.Gen5Spirv.Dpp
