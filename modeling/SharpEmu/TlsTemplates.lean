import SharpEmu.FaultingPrograms
import SharpEmu.MachineWords
import SharpEmu.RangeCoverage
import SharpEmu.TransitionRuns
import Mathlib.Data.Nat.ModEq
import Mathlib.Order.Bounds.Basic

/-!
# The static TLS layout

Every module with thread-local storage registers a template: its image, its size
and its alignment.  The template gets an offset below the thread pointer, chosen
behind the blocks of the modules before it.
-/

namespace SharpEmu
namespace GuestTlsTemplate

open Word64

/-! ## The source -/

/-- Bytes below the thread pointer that every thread maps. -/
def startupStaticTlsReservation : UInt64 := 0x10000

structure ModuleTemplate where
  moduleId : UInt64
  initImage : List UInt8
  memorySize : UInt64
  alignment : UInt64
  alignmentBias : UInt64
  staticOffset : UInt64
deriving DecidableEq, Repr

inductive TlsError
  | argumentOutOfRange
  | invalidData
  | invalidOperation
  | overflow
  | outOfMemory
deriving DecidableEq, Repr

structure Templates where
  modules : SortedTable ModuleTemplate.moduleId
  staticTlsSize : UInt64
  maximumAlignment : UInt64
  generation : UInt64
deriving DecidableEq

def Templates.start : Templates := ⟨.empty, 0, 1, 0⟩

def checked : Option UInt64 → Except TlsError UInt64
  | some value => .ok value
  | none => .error .overflow

def calculateStaticOffset (previousOffset size alignment alignmentBias : UInt64) :
    Except TlsError UInt64 := do
  let sum ← checked (checkedAdd previousOffset size)
  let result ← checked (checkedAdd sum alignment)
  let result := result - 1
  return result - ((result + alignmentBias) &&& (alignment - 1))

def validateTemplate (moduleId : UInt64) (initImage : List UInt8)
    (memorySize alignment : UInt64) : Except TlsError Unit :=
  if moduleId = 0 then .error .argumentOutOfRange
  else if alignment &&& (alignment - 1) ≠ 0 then .error .invalidData
  else if memorySize > 0x7FFFFFFF ∨ initImage.length > memorySize.toNat then
    .error .invalidData
  else .ok ()

def registerModule (moduleId : UInt64) (initImage : List UInt8)
    (memorySize alignment alignmentBias : UInt64) (templates : Templates) :
    Except TlsError (UInt64 × Templates) := do
  let normalizedAlignment := if alignment = 0 then 1 else alignment
  validateTemplate moduleId initImage memorySize normalizedAlignment
  match templates.modules.get? moduleId with
  | some existing =>
      if existing.memorySize ≠ memorySize ∨ existing.alignment ≠ normalizedAlignment ∨
          existing.alignmentBias ≠ alignmentBias ∨
          existing.initImage ≠ initImage then
        throw .invalidOperation
      else return (existing.staticOffset, templates)
  | none =>
      let staticOffset ← calculateStaticOffset templates.staticTlsSize memorySize
        normalizedAlignment alignmentBias
      if staticOffset > startupStaticTlsReservation then throw .invalidOperation
      else
        return (staticOffset,
          { modules := templates.modules.set
              ⟨moduleId, initImage, memorySize, normalizedAlignment, alignmentBias, staticOffset⟩
            staticTlsSize := staticOffset
            maximumAlignment :=
              max templates.maximumAlignment normalizedAlignment
            generation := templates.generation + 1 })

def Templates.reset (templates : Templates) : Templates :=
  ⟨.empty, 0, 1, templates.generation + 1⟩

/-! ## The offset -/

/-- Offsets that leave room for a block behind an earlier offset, with the
block's start congruent to the bias. -/
def Admissible (previousOffset size alignment alignmentBias : ℕ) : Set ℕ :=
  {offset | previousOffset + size ≤ offset ∧
    alignment ∣ offset + alignmentBias}

theorem checked_eq_ok {value : Option UInt64} {result : UInt64} :
    checked value = .ok result ↔ value = some result := by
  cases value <;> simp [checked]

variable {alignment alignmentBias offset : UInt64}

theorem calculateStaticOffset_isLeast {previousOffset size : UInt64}
    (power : IsPowerOfTwo alignment)
    (calculated : calculateStaticOffset previousOffset size alignment alignmentBias = .ok offset) :
    IsLeast (Admissible previousOffset.toNat size.toNat alignment.toNat
      alignmentBias.toNat) offset.toNat := by
  simp only [calculateStaticOffset, except_bind_eq_ok, checked_eq_ok] at calculated
  obtain ⟨sum, hasSum, result, hasResult, isOffset⟩ := calculated
  obtain ⟨sumFits, sumNat⟩ := checkedAdd_eq_some.mp hasSum
  obtain ⟨resultFits, resultNat⟩ := checkedAdd_eq_some.mp hasResult
  have positive := toNat_pos power.1
  have predecessor : (result - 1).toNat =
      previousOffset.toNat + size.toNat + alignment.toNat - 1 := by
    rw [toNat_pred (toNat_ne_zero.mpr (by omega)), resultNat, sumNat]
  have low : ((result - 1 + alignmentBias) &&& (alignment - 1)).toNat =
      (previousOffset.toNat + size.toNat + alignment.toNat - 1 +
        alignmentBias.toNat) % alignment.toNat := by
    rw [toNat_and_pred _ power, toNat_add_mod _ _ power, predecessor]
  have lowBound := Nat.mod_lt (previousOffset.toNat + size.toNat +
    alignment.toNat - 1 + alignmentBias.toNat) positive
  have offsetNat : offset.toNat = previousOffset.toNat + size.toNat + alignment.toNat - 1 -
        (previousOffset.toNat + size.toNat + alignment.toNat - 1 +
          alignmentBias.toNat) % alignment.toNat := by
    have isValue : offset = result - 1 - ((result - 1 + alignmentBias) &&& (alignment - 1)) := by
      cases isOffset
      rfl
    rw [isValue, UInt64.toNat_sub_of_le _ _ (by
      rw [UInt64.le_iff_toNat_le, low, predecessor]
      omega), low, predecessor]
  generalize isTop : previousOffset.toNat + size.toNat + alignment.toNat - 1 = top at *
  have divMod := Nat.div_add_mod (top + alignmentBias.toNat) alignment.toNat
  have offsetSum : offset.toNat + alignmentBias.toNat =
      alignment.toNat * ((top + alignmentBias.toNat) / alignment.toNat) := by
    omega
  constructor
  · exact ⟨by omega, _, offsetSum⟩
  · rintro other ⟨roomy, quotient, isMultiple⟩
    by_contra smaller
    have fewer : quotient < (top + alignmentBias.toNat) / alignment.toNat := by
      apply Nat.lt_of_mul_lt_mul_left (a := alignment.toNat)
      omega
    have oneLess := Nat.mul_le_mul_left alignment.toNat (Nat.succ_le_of_lt fewer)
    rw [Nat.mul_succ] at oneLess
    omega

/-! ## Registration -/

variable {moduleId memorySize : UInt64} {initImage : List UInt8} {templates after : Templates}

theorem registerModule_eq_ok (registered : registerModule moduleId initImage memorySize alignment
      alignmentBias templates = .ok (offset, after)) :
    (∃ existing, templates.modules.get? moduleId = some existing ∧
        offset = existing.staticOffset ∧ after = templates) ∨
      ∃ added : ModuleTemplate, templates.modules.get? moduleId = none ∧
        added = ⟨moduleId, initImage, memorySize,
          if alignment = 0 then 1 else alignment, alignmentBias, offset⟩ ∧
        IsPowerOfTwo added.alignment ∧
        initImage.length ≤ memorySize.toNat ∧
        memorySize.toNat < 2 ^ 31 ∧
        calculateStaticOffset templates.staticTlsSize memorySize added.alignment
          alignmentBias = .ok offset ∧
        offset ≤ startupStaticTlsReservation ∧
        after = ⟨templates.modules.set added, offset,
          max templates.maximumAlignment added.alignment,
          templates.generation + 1⟩ := by
  simp only [registerModule, except_bind_eq_ok] at registered
  obtain ⟨_, valid, outcome⟩ := registered
  generalize isAlignment : (if alignment = 0 then 1 else alignment) = normalized at *
  unfold validateTemplate at valid
  split at valid
  case isTrue => cases valid
  case isFalse =>
    split at valid
    case isTrue => cases valid
    case isFalse masked =>
      split at valid
      case isTrue => cases valid
      case isFalse sized =>
        rw [not_or, gt_iff_lt, not_lt, gt_iff_lt, not_lt] at sized
        have sizeBound := UInt64.le_iff_toNat_le.mp sized.1
        have limit : (0x7FFFFFFF : UInt64).toNat = 2 ^ 31 - 1 := rfl
        have power : IsPowerOfTwo normalized := by
          refine ⟨?_, by simpa using masked⟩
          rw [← isAlignment]
          split
          · decide
          · assumption
        cases found : templates.modules.get? moduleId with
        | some existing =>
          rw [found] at outcome
          left
          simp only at outcome
          split at outcome
          · cases outcome
          · cases outcome
            exact ⟨existing, rfl, rfl, rfl⟩
        | none =>
          rw [found] at outcome
          simp only [except_bind_eq_ok] at outcome
          obtain ⟨staticOffset, calculated, outcome⟩ := outcome
          right
          split at outcome
          · cases outcome
          · rename_i inside
            cases outcome
            exact ⟨_, rfl, rfl, power, sized.2, by omega, calculated, not_lt.mp inside, rfl⟩

/-! ## The layout -/

def ModuleTemplate.block (threadPointer : ℕ) (template : ModuleTemplate) : Extent :=
  ⟨threadPointer - template.staticOffset.toNat, template.memorySize.toNat⟩

structure ModuleTemplate.WellPlaced (template : ModuleTemplate) : Prop where
  power : IsPowerOfTwo template.alignment
  imageFits : template.initImage.length ≤ template.memorySize.toNat
  sizeFits : template.memorySize.toNat ≤ template.staticOffset.toNat
  congruent : template.alignment.toNat ∣
    template.staticOffset.toNat + template.alignmentBias.toNat

structure Templates.LaidOut (templates : Templates) : Prop where
  wellPlaced : ∀ template ∈ templates.modules.entries, template.WellPlaced
  behind : ∀ template ∈ templates.modules.entries,
    template.staticOffset ≤ templates.staticTlsSize
  attained : templates.staticTlsSize = 0 ∨
    ∃ template ∈ templates.modules.entries,
      template.staticOffset = templates.staticTlsSize
  inside : templates.staticTlsSize ≤ startupStaticTlsReservation
  power : IsPowerOfTwo templates.maximumAlignment
  maximal : ∀ template ∈ templates.modules.entries,
    template.alignment ≤ templates.maximumAlignment
  apart : ∀ threadPointer, startupStaticTlsReservation.toNat ≤ threadPointer →
    Extent.ApartTable (ModuleTemplate.block threadPointer) templates.modules

theorem laidOut_start : Templates.start.LaidOut where
  wellPlaced := by simp [Templates.start]
  behind := by simp [Templates.start]
  attained := .inl rfl
  inside := by decide
  power := by decide
  maximal := by simp [Templates.start]
  apart _ _ := Extent.apartTable_empty

theorem Templates.LaidOut.registerModule (laidOut : templates.LaidOut)
    (registered : registerModule moduleId initImage memorySize alignment
      alignmentBias templates = .ok (offset, after)) :
    after.LaidOut := by
  rcases registerModule_eq_ok registered with ⟨_, _, _, rfl⟩ |
    ⟨added, isNew, isAdded, power, imageFits, _, calculated, inside, rfl⟩
  · exact laidOut
  · have least := calculateStaticOffset_isLeast power calculated
    obtain ⟨roomy, congruent⟩ := least.1
    have placed : added.WellPlaced := by
      subst isAdded
      exact ⟨power, imageFits, by simp only; omega, congruent⟩
    have isOffset : added.staticOffset = offset := by rw [isAdded]
    have isSize : added.memorySize = memorySize := by rw [isAdded]
    have behindAll (template : ModuleTemplate) (member : template ∈ templates.modules.entries) :
        template.staticOffset.toNat + memorySize.toNat ≤ offset.toNat := by
      have below := UInt64.le_iff_toNat_le.mp (laidOut.behind template member)
      omega
    constructor
    · intro template member
      rcases SortedTable.mem_set.mp member with rfl | ⟨old, _⟩
      · exact placed
      · exact laidOut.wellPlaced template old
    · intro template member
      rcases SortedTable.mem_set.mp member with rfl | ⟨old, _⟩
      · exact isOffset.le
      · rw [UInt64.le_iff_toNat_le]
        have below := behindAll template old
        change template.staticOffset.toNat ≤ offset.toNat
        omega
    · exact .inr ⟨added, SortedTable.mem_set.mpr (.inl rfl), isOffset⟩
    · exact inside
    · change IsPowerOfTwo (max templates.maximumAlignment added.alignment)
      rcases max_choice templates.maximumAlignment added.alignment with same | same
      · rw [same]
        exact laidOut.power
      · rw [same]
        exact power
    · intro template member
      rcases SortedTable.mem_set.mp member with rfl | ⟨old, _⟩
      · exact le_max_right _ _
      · exact (laidOut.maximal template old).trans (le_max_left _ _)
    · intro threadPointer above
      apply (laidOut.apart threadPointer above).set
      intro other otherMem _
      right
      have below := behindAll other otherMem
      have insideNat := UInt64.le_iff_toNat_le.mp inside
      simp only [ModuleTemplate.block, isOffset, isSize]
      omega

/-! ## Runs -/

inductive Action
  | register (moduleId : UInt64) (initImage : List UInt8)
      (memorySize alignment alignmentBias : UInt64)
  | reset

/-- A registration that throws changes nothing. -/
def Templates.afterAction (templates : Templates) : Action → Templates
  | .register moduleId initImage memorySize alignment alignmentBias =>
      match registerModule moduleId initImage memorySize alignment alignmentBias
        templates with
      | .ok (_, after) => after
      | .error _ => templates
  | .reset => templates.reset

def initial (templates : Templates) : Prop :=
  templates = .start

def step (before : Templates) (action : Action) (after : Templates) : Prop :=
  after = before.afterAction action

theorem laidOut_of_reachable
    (reachable : Reachable initial step templates) : templates.LaidOut := by
  apply reachable.invariant
  · rintro start rfl
    exact laidOut_start
  · rintro before action after laidOut rfl
    cases action with
    | register moduleId initImage memorySize alignment alignmentBias =>
      simp only [Templates.afterAction]
      split
      · rename_i registered
        exact laidOut.registerModule registered
      · exact laidOut
    | reset =>
      have sameLayout := laidOut_start
      exact ⟨sameLayout.wellPlaced, sameLayout.behind, sameLayout.attained,
        sameLayout.inside, sameLayout.power, sameLayout.maximal,
        sameLayout.apart⟩

theorem Templates.LaidOut.congruent (laidOut : templates.LaidOut) {template : ModuleTemplate}
    (member : template ∈ templates.modules.entries) {threadPointer : UInt64}
    (aligned : templates.maximumAlignment.toNat ∣ threadPointer.toNat) :
    (threadPointer - template.staticOffset).toNat % template.alignment.toNat =
      template.alignmentBias.toNat % template.alignment.toNat := by
  have placed := laidOut.wellPlaced template member
  have divides : template.alignment.toNat ∣ threadPointer.toNat :=
    Nat.dvd_trans (placed.power.dvd_of_le laidOut.power (laidOut.maximal template member)) aligned
  have startSum : ((threadPointer - template.staticOffset).toNat +
      template.staticOffset.toNat) % template.alignment.toNat = 0 := by
    rw [← toNat_add_mod _ _ placed.power, UInt64.sub_add_cancel]
    exact Nat.mod_eq_zero_of_dvd divides
  have biasSum : (template.alignmentBias.toNat +
      template.staticOffset.toNat) % template.alignment.toNat = 0 := by
    rw [Nat.add_comm]
    exact Nat.mod_eq_zero_of_dvd placed.congruent
  exact Nat.ModEq.add_right_cancel' template.staticOffset.toNat (startSum.trans biasSum.symm)

/-- The blocks below a thread pointer are apart, inside the reservation and
congruent to their biases, and a new module gets the least offset that is so
behind the modules before it. -/
theorem static_layout {templates : Templates} (reachable : Reachable initial step templates) :
    (∀ threadPointer, startupStaticTlsReservation.toNat ≤ threadPointer →
      (templates.modules.entries.map
        (ModuleTemplate.block threadPointer)).Pairwise Extent.Separated ∧
      ∀ template ∈ templates.modules.entries, threadPointer - startupStaticTlsReservation.toNat ≤
            (template.block threadPointer).start ∧
          (template.block threadPointer).start +
            (template.block threadPointer).length ≤ threadPointer) ∧
    (∀ template ∈ templates.modules.entries, ∀ threadPointer : UInt64,
      templates.maximumAlignment.toNat ∣ threadPointer.toNat →
      (threadPointer - template.staticOffset).toNat % template.alignment.toNat =
        template.alignmentBias.toNat % template.alignment.toNat) ∧
    ∀ moduleId initImage memorySize alignment alignmentBias offset after,
      templates.modules.get? moduleId = none →
      registerModule moduleId initImage memorySize alignment alignmentBias
        templates = .ok (offset, after) →
      IsLeast {candidate | memorySize.toNat ≤ candidate ∧
          (∀ template ∈ templates.modules.entries,
            template.staticOffset.toNat + memorySize.toNat ≤ candidate) ∧
          max alignment.toNat 1 ∣ candidate + alignmentBias.toNat}
        offset.toNat := by
  have laidOut := laidOut_of_reachable reachable
  refine ⟨?_, ?_, ?_⟩
  · intro threadPointer above
    refine ⟨(laidOut.apart threadPointer above).pairwise, ?_⟩
    intro template member
    have sizeFits := (laidOut.wellPlaced template member).sizeFits
    have behind := UInt64.le_iff_toNat_le.mp (laidOut.behind template member)
    have inside := UInt64.le_iff_toNat_le.mp laidOut.inside
    simp only [ModuleTemplate.block]
    omega
  · intro template member threadPointer aligned
    exact laidOut.congruent member aligned
  · intro moduleId initImage memorySize alignment alignmentBias offset after isNew registered
    rcases registerModule_eq_ok registered with ⟨_, found, _, _⟩ |
      ⟨added, _, isAdded, power, _, _, calculated, _, _⟩
    · rw [isNew] at found
      cases found
    · have least := calculateStaticOffset_isLeast power calculated
      have isAlignment : added.alignment.toNat = max alignment.toNat 1 := by
        rw [isAdded]
        simp only
        split
        · rename_i isZero
          rw [isZero]
          rfl
        · rename_i nonzero
          have positive := toNat_pos nonzero
          omega
      have sameSet : Admissible templates.staticTlsSize.toNat memorySize.toNat
          added.alignment.toNat alignmentBias.toNat =
          {candidate | memorySize.toNat ≤ candidate ∧ (∀ template ∈ templates.modules.entries,
              template.staticOffset.toNat + memorySize.toNat ≤ candidate) ∧
            max alignment.toNat 1 ∣ candidate + alignmentBias.toNat} := by
        ext candidate
        simp only [Admissible, Set.mem_ofPred_eq, isAlignment]
        constructor
        · rintro ⟨roomy, congruent⟩
          refine ⟨by omega, fun template member => ?_, congruent⟩
          have behind := UInt64.le_iff_toNat_le.mp (laidOut.behind template member)
          omega
        · rintro ⟨roomy, behindAll, congruent⟩
          refine ⟨?_, congruent⟩
          rcases laidOut.attained with empty | ⟨template, member, isLast⟩
          · rw [empty, UInt64.toNat_zero]
            omega
          · rw [← isLast]
            exact behindAll template member
      rw [← sameSet]
      exact least

/-- Two modules registered from the start. -/
theorem static_layout_of_two_modules : ((Templates.afterAction (Templates.afterAction .start
        (.register 1 [0x11, 0x22] 0x20 0x10 0))
        (.register 2 [0x7A] 0x18 0x20 8)).modules.entries.map
      (ModuleTemplate.block 0x20000)).Pairwise Extent.Separated :=
  ((static_layout (.next (.next (.start rfl) rfl) rfl)).1 0x20000 (by decide)).1

end GuestTlsTemplate
end SharpEmu
