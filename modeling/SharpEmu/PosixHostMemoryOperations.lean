import SharpEmu.PosixHostMemoryTable

/-!
# The operations on the page model

One specification per operation: from a table that represents a page model, it
ends in a table that represents the page model stepped by the same operation,
and after an overflow the page model is unchanged.
-/

namespace SharpEmu
namespace PosixHostMemory

open Faulting Extent

variable {KernelState : Type} {kernel : PosixKernel KernelState}

/-! ## The operations -/

section Operations

variable {laws : KernelLaws kernel} {model : PageModel}

variable {pre : HostState KernelState → Prop}

theorem alignUp_spec (value : UInt64) : Ensures pre (alignUp value pageSize) (fun rounded state =>
        pre state ∧ rounded.toNat = wholePages value.toNat) pre := by
  unfold alignUp
  cases added : Word64.checkedAdd value pageSize with
  | none => exact ensures_throw fun _ holds => holds
  | some sum =>
    refine ensures_pure fun _ holds => ⟨holds, ?_⟩
    obtain ⟨_, sumEq⟩ := Word64.checkedAdd_eq_some.mp added
    have sizeNat : pageSize.toNat = 0x1000 := by decide
    have nonzero : sum ≠ 0 := Word64.toNat_ne_zero.mpr (by omega)
    have predecessor := Word64.toNat_pred nonzero
    change (alignDown (sum - 1) pageSize).toNat = _
    rw [toNat_alignDown, predecessor, sumEq, sizeNat, wholePages]
    rfl

variable {onFault : HostState KernelState → Prop}

theorem readRegions_spec : Ensures pre (readRegions : Program KernelState _)
      (fun regions state => pre state ∧ state.regions = regions) onFault :=
  ensures_modifyGet fun _ holds => ⟨holds, rfl⟩

variable {regions : SortedTable Region.base}

theorem mprotect_spec (start length : UInt64) (protection : UInt32) :
    Ensures (fun state => Simulates laws model state ∧ state.regions = regions)
      (onKernel fun state => kernel.mprotect state start length protection)
      (fun changed state =>
        (Simulates laws model state ∧ state.regions = regions) ∧
          (changed = true → start.toNat + length.toNat < 2 ^ 64)) onFault := by
  refine ensures_modifyGet fun state holds => ⟨⟨?_, holds.2⟩, ?_⟩
  · refine holds.1.onKernel fun region _ point _ backed => ?_
    rw [laws.mprotect_mapped]
    exact backed
  · intro changed
    by_contra tooLong
    rw [laws.mprotect_refuses _ _ _ _ (Nat.le_of_not_lt tooLong)] at changed
    cases changed

variable {existing : Region}

theorem commit_pages (wellFormed : existing.WellFormed)
    {address alignedSize roundedEnd : UInt64} {size : ℕ}
    (contains : existing.extent.Contains address.toNat)
    (sizeEq : alignedSize.toNat = wholePages size)
    (roundedEq : roundedEnd.toNat = wholePages (address + alignedSize).toNat)
    (nonempty : ¬ min existing.end roundedEnd ≤ alignDown address pageSize) :
    ∃ first last, (alignDown address pageSize).toNat = first * 0x1000 ∧
      (min existing.end roundedEnd).toNat = last * 0x1000 ∧ first ≤ last ∧
      existing.base ≤ alignDown address pageSize ∧
      ∀ page, existing.HoldsPage page →
        (Touches address.toNat (address.toNat + wholePages size) page ↔
          first ≤ page ∧ page < last) := by
  obtain ⟨low, high, _, baseEq, endEq, _, pages⟩ := wellFormed.pageRange
  have startEq := toNat_alignDown address
  simp only [Contains, Region.extent] at contains
  rw [UInt64.le_iff_toNat_le] at nonempty
  have alignedBound := alignedSize.toNat_lt
  have addressBound := address.toNat_lt
  have baseBefore : existing.base ≤ alignDown address pageSize := by
    rw [UInt64.le_iff_toNat_le]
    omega
  rw [UInt64.toNat_add] at roundedEq
  -- A sum that wraps rounds to an end at or below the start.
  have minEq : (min existing.end roundedEnd).toNat = min existing.end.toNat roundedEnd.toNat := by
    rcases le_total existing.end roundedEnd with below | above
    · rw [min_eq_left below, min_eq_left (UInt64.le_iff_toNat_le.mp below)]
    · rw [min_eq_right above, min_eq_right (UInt64.le_iff_toNat_le.mp above)]
  have fits : address.toNat + alignedSize.toNat < 2 ^ 64 := by
    by_contra wraps
    apply nonempty
    rw [minEq]
    refine Nat.le_trans (Nat.min_le_right _ _) ?_
    unfold wholePages at *
    omega
  rw [Nat.mod_eq_of_lt fits, sizeEq] at roundedEq
  refine ⟨address.toNat / 0x1000,
    min high ((address.toNat + wholePages size + 0xFFF) / 0x1000), startEq,
    ?_, ?_, baseBefore, ?_⟩
  · rw [minEq, endEq, roundedEq]
    unfold wholePages
    omega
  · rw [minEq, endEq, roundedEq, startEq] at nonempty
    unfold wholePages at *
    omega
  · intro page held
    have range := (pages page).mp held
    unfold Touches
    omega

variable {result : UInt64}

theorem step_committed {address size : UInt64} {allocationType protect : UInt32} {base : UInt64}
    (committed : model.committedBase address allocationType = some base) :
    model.step (.alloc address size allocationType protect) (.allocated (some result)) =
      model.reprotect (fun page pageBase => pageBase = base ∧
        Touches address.toNat (address.toNat + wholePages size.toNat) page)
        protect := by
  simp only [PageModel.step, committed]

theorem step_mapped {address size : UInt64} {allocationType protect : UInt32}
    (notCommitted : model.committedBase address allocationType = none) :
    model.step (.alloc address size allocationType protect) (.allocated (some result)) =
      model.addBlock result size.toNat protect := by
  simp only [PageModel.step, notCommitted]

theorem commitInside_spec {address size alignedSize : UInt64} {allocationType protect : UInt32}
    (found : tryFindRegion regions address = some existing)
    (sizeEq : alignedSize.toNat = wholePages size.toNat)
    (committed : model.committedBase address allocationType = some existing.base) :
    Ensures (fun state => Simulates laws model state ∧ state.regions = regions)
      (commitInside kernel existing address alignedSize protect)
      (fun result => Simulates laws (model.step
        (.alloc address size allocationType protect) (.allocated result)))
      (Simulates laws model) := by
  unfold commitInside
  apply ((alignUp_spec _).imp (fun _ holds => holds) (fun _ _ holds => holds)
    fun _ holds => holds.1).bind
  intro roundedEnd
  refine Ensures.assuming (fun state holds => holds.2) fun roundedEq => ?_
  refine Ensures.ite (fun _ => ensures_pure fun _ holds => holds.1.1)
    fun nonempty => ?_
  apply ((mprotect_spec _ _ _).ofPre fun _ holds => holds.1).bind
  intro changed
  refine Ensures.ite (fun _ => ?_) fun _ => ensures_pure fun _ holds => holds.1.1
  refine Ensures.answering (ensures_modify fun state holds => ?_)
  obtain ⟨⟨simulates, regionsEq⟩, _⟩ := holds
  subst regionsEq
  obtain ⟨member, contains⟩ := simulates.tracked.tryFindRegion_some found
  obtain ⟨first, last, startEq, endEq, ordered, baseBefore, touched⟩ :=
    commit_pages (simulates.tracked.wellFormed existing member) contains sizeEq roundedEq nonempty
  rw [step_committed committed]
  refine simulates.reprotect member startEq endEq ordered baseBefore (min_le_left _ _) ?_ ?_
  · intro page held
    simp [touched page held]
  · intro other _ different page _
    simp [different]

def JustMapped (laws : KernelLaws kernel) (model : PageModel) (block : Extent)
    (state : HostState KernelState) : Prop :=
  ∃ before, Simulates laws model before ∧ state.regions = before.regions ∧
    MapsFresh (laws.mapped before.kernel) (laws.mapped state.kernel) block

theorem mmap_spec {address length : UInt64} {protection flags : UInt32}
    (aligned : 0x1000 ∣ length.toNat) (notFixed : flags &&& mapFixed = 0) :
    Ensures (Simulates laws model)
      (onKernel fun state => kernel.mmap state address length protection flags)
      (fun result state => match result with
        | none => Simulates laws model state
        | some mapped =>
          JustMapped laws model ⟨mapped.toNat, length.toNat⟩ state)
      onFault := by
  refine ensures_modifyGet fun state simulates => ?_
  rcases called : kernel.mmap state.kernel address length protection flags with
    ⟨_ | mapped, after⟩
  all_goals simp only [called]
  · refine simulates.onKernel fun region _ point _ backed => ?_
    rw [laws.mmap_none _ _ _ _ _ _ called]
    exact backed
  · exact ⟨state, simulates, rfl, laws.mmap_some _ _ _ _ _ _ _ aligned notFixed called⟩

theorem munmap_spec (mapped length : UInt64) :
    Ensures (JustMapped laws model ⟨mapped.toNat, length.toNat⟩)
      (onKernel fun state => kernel.munmap state mapped length)
      (fun _ => Simulates laws model) onFault := by
  refine ensures_modifyGet fun state justMapped => ?_
  obtain ⟨before, simulates, regionsEq, fresh⟩ := justMapped
  obtain ⟨regions, kernelState⟩ := state
  subst regionsEq
  refine simulates.onKernel fun region _ point _ backed => ?_
  have outside : ¬ Contains ⟨mapped.toNat, length.toNat⟩ point :=
    fun inBlock => fresh.fresh point inBlock backed
  rw [laws.munmap_outside _ _ _ _ outside]
  exact (fresh.grown point).mpr (.inl backed)

section Mapping

variable {address size alignedSize : UInt64} {allocationType protect : UInt32}

theorem recordMapping_spec {mapped : UInt64} (positive : 0 < size.toNat)
    (sizeEq : alignedSize.toNat = wholePages size.toNat)
    (notCommitted : model.committedBase address allocationType = none) :
    Ensures (JustMapped laws model ⟨mapped.toNat, alignedSize.toNat⟩) (do
        onRegions fun regions => regions.set ⟨mapped, alignedSize, protect, none⟩
        pure (some mapped))
      (fun result => Simulates laws (model.step
        (.alloc address size allocationType protect) (.allocated result)))
      (Simulates laws model) := by
  refine Ensures.answering (ensures_modify fun state justMapped => ?_)
  obtain ⟨before, simulates, regionsEq, fresh⟩ := justMapped
  obtain ⟨regions, kernelState⟩ := state
  subst regionsEq
  rw [step_mapped notCommitted]
  exact simulates.addRegion fresh positive sizeEq

theorem notFixed_flags (platform : PosixPlatform) (allocationType : UInt32) :
    let flags :=
      if allocationType &&& memCommit = 0 then
        (mapPrivate ||| platform.mapAnon) ||| platform.mapNoReserve
      else mapPrivate ||| platform.mapAnon
    flags &&& mapFixed = 0 ∧ (if platform.isMacOS then flags else flags ||| mapFixedNoReplace) &&&
        mapFixed = 0 := by
  obtain ⟨_ | _⟩ := platform <;> split <;> decide

theorem mapNew_spec (platform : PosixPlatform) (positive : 0 < size.toNat)
    (sizeEq : alignedSize.toNat = wholePages size.toNat)
    (notCommitted : model.committedBase address allocationType = none) :
    Ensures (Simulates laws model)
      (mapNew platform kernel address alignedSize allocationType protect)
      (fun result => Simulates laws (model.step
        (.alloc address size allocationType protect) (.allocated result)))
      (Simulates laws model) := by
  have aligned : 0x1000 ∣ alignedSize.toNat :=
    ⟨_, by rw [sizeEq, wholePages, Nat.mul_comm]⟩
  obtain ⟨notFixed, exactNotFixed⟩ := notFixed_flags platform allocationType
  have unchanged : Ensures (Simulates laws model) (pure none : Program KernelState (Option UInt64))
      (fun result => Simulates laws (model.step
        (.alloc address size allocationType protect) (.allocated result)))
      (Simulates laws model) := ensures_pure fun _ holds => holds
  unfold mapNew
  refine Ensures.ite (fun _ => ?_) fun _ => ?_
  · apply (readRegions_spec.toPost fun _ _ holds => holds.1).bind
    intro regions
    refine Ensures.ite (fun _ => unchanged) fun _ => ?_
    apply (mmap_spec aligned exactNotFixed).bind
    intro result
    cases result with
    | none => exact unchanged
    | some mapped =>
      refine Ensures.ite (fun _ => ?_) fun _ =>
        recordMapping_spec positive sizeEq notCommitted
      exact (munmap_spec _ _).bind fun _ => unchanged
  · apply (mmap_spec aligned notFixed).bind
    intro result
    cases result with
    | none => exact unchanged
    | some mapped => exact recordMapping_spec positive sizeEq notCommitted

end Mapping

theorem alloc_spec (platform : PosixPlatform) (address size : UInt64)
    (allocationType protect : UInt32) :
    Ensures (Simulates laws model) (alloc platform kernel address size allocationType protect)
      (fun result => Simulates laws (model.step
        (.alloc address size allocationType protect) (.allocated result)))
      (Simulates laws model) := by
  refine Ensures.ite (fun _ => ensures_pure fun _ holds => holds)
    fun nonzero => ?_
  apply (alignUp_spec size).bind
  intro alignedSize
  refine Ensures.assuming (fun state holds => holds.2) fun sizeEq => ?_
  apply (readRegions_spec.ofPre fun _ holds => holds.1).bind
  intro regions
  have baseEq : ∀ state, Simulates laws model state ∧ state.regions = regions →
      model.committedBase address allocationType = (if allocationType = memCommit ∧ address ≠ 0 then
          tryFindRegion regions address else none).map Region.base := by
    rintro state ⟨simulates, rfl⟩
    unfold PageModel.committedBase
    split
    · exact simulates.allocationBase_eq address
    · rfl
  refine Ensures.assuming baseEq fun committed => ?_
  cases existing : (if allocationType = memCommit ∧ address ≠ 0 then
      tryFindRegion regions address else none) with
  | some existing =>
    rw [existing] at committed
    refine commitInside_spec ?_ sizeEq committed
    split at existing
    · exact existing
    · cases existing
  | none =>
    rw [existing] at committed
    refine Ensures.ite (fun _ => ensures_pure fun _ holds => holds.1) fun _ => ?_
    exact (mapNew_spec platform (Word64.toNat_pos nonzero) sizeEq
      committed).ofPre fun _ holds => holds.1

theorem free_spec (address : UInt64) : Ensures (Simulates laws model) (free kernel address)
      (fun answer => Simulates laws (model.step (.free address) (.freed answer)))
      (Simulates laws model) := by
  apply readRegions_spec.bind
  intro regions
  cases found : regions.get? address with
  | none =>
    refine ensures_pure fun state holds => ?_
    obtain ⟨simulates, rfl⟩ := holds
    have removed := simulates.removeRegion address
    rw [SortedTable.remove_of_absent (SortedTable.get?_eq_none.mp found)] at removed
    exact removed
  | some region =>
    obtain ⟨member, rfl⟩ := SortedTable.get?_eq_some.mp found
    have removed : Ensures (fun state => Simulates laws model state ∧ state.regions = regions)
        (onRegions fun regions => regions.remove region.base)
        (fun _ state => Simulates laws (model.dropBlock region.base) state ∧
          ∀ other ∈ state.regions.entries, other.extent.Separated region.extent)
        (Simulates laws model) := by
      refine ensures_modify fun state holds => ?_
      obtain ⟨simulates, rfl⟩ := holds
      refine ⟨simulates.removeRegion region.base, ?_⟩
      intro other otherMem
      obtain ⟨stored, different⟩ := SortedTable.mem_remove.mp otherMem
      exact simulates.tracked.apart other stored region member different
    apply removed.bind
    intro _
    refine ensures_modifyGet fun state holds => ?_
    refine holds.1.onKernel fun other otherMem point contains backed => ?_
    have outside := (holds.2 other otherMem).not_contains contains
    exact (laws.munmap_outside _ _ _ _ outside).mpr backed

theorem protect_pages {region : Region} (wellFormed : region.WellFormed)
    {address rangeEnd : UInt64} {finish : ℕ}
    (contains : region.extent.Contains (alignDown address pageSize).toNat)
    (roundedEq : rangeEnd.toNat = wholePages finish)
    (inRegion : rangeEnd ≤ region.end)
    (fits : (alignDown address pageSize).toNat +
      (rangeEnd - alignDown address pageSize).toNat < 2 ^ 64) :
    ∃ first last, (alignDown address pageSize).toNat = first * 0x1000 ∧
      rangeEnd.toNat = last * 0x1000 ∧ first ≤ last ∧
      region.base ≤ alignDown address pageSize ∧
      (∀ page, Touches address.toNat finish page ↔ first ≤ page ∧ page < last) ∧
      ∀ page, first ≤ page → page < last → region.HoldsPage page := by
  obtain ⟨low, high, _, baseEq, endEq, _, pages⟩ := wellFormed.pageRange
  have startEq := toNat_alignDown address
  simp only [Contains, Region.extent] at contains
  rw [UInt64.le_iff_toNat_le] at inRegion
  have startBound := (alignDown address pageSize).toNat_lt
  have endBound := rangeEnd.toNat_lt
  rw [UInt64.toNat_sub] at fits
  unfold wholePages at roundedEq
  refine ⟨address.toNat / 0x1000, (finish + 0xFFF) / 0x1000, startEq, roundedEq,
    by omega, ?_, ?_, ?_⟩
  · rw [UInt64.le_iff_toNat_le]
    exact contains.1
  · intro page
    unfold Touches
    omega
  · intro page above below
    refine (pages page).mpr ?_
    omega

theorem protect_spec (address size : UInt64) (newProtect : UInt32) :
    Ensures (Simulates laws model) (protect kernel address size newProtect)
      (fun answer => Simulates laws (model.step
        (.protect address size newProtect) (.reprotected answer.1 answer.2)))
      (Simulates laws model) := by
  refine Ensures.ite (fun _ => ensures_pure fun _ holds => holds) fun _ => ?_
  apply (alignUp_spec (address + size)).bind
  intro rangeEnd
  refine Ensures.assuming (fun state holds => holds.2) fun roundedEq => ?_
  apply (readRegions_spec.ofPre fun _ holds => holds.1).bind
  intro regions
  cases found : tryFindRegion regions (alignDown address pageSize) with
  | none => exact ensures_pure fun _ holds => holds.1
  | some region =>
    refine Ensures.ite (fun _ => ensures_pure fun _ holds => holds.1)
      fun inRegion => ?_
    apply (mprotect_spec _ _ _).bind
    intro changed
    refine Ensures.ite (fun isChanged => ?_) fun _ =>
      ensures_pure fun _ holds => holds.1.1
    refine Ensures.answering (ensures_modify fun state holds => ?_)
    obtain ⟨⟨simulates, rfl⟩, fits⟩ := holds
    obtain ⟨member, contains⟩ := simulates.tracked.tryFindRegion_some found
    obtain ⟨first, last, startEq, endEq, ordered, baseBefore, touched, inside⟩ :=
      protect_pages (simulates.tracked.wellFormed region member) contains
        roundedEq (not_lt.mp inRegion) (fits isChanged)
    change Simulates laws (model.reprotect (fun page _ =>
      Touches address.toNat (address + size).toNat page) newProtect) _
    refine simulates.reprotect member startEq endEq ordered baseBefore (not_lt.mp inRegion) ?_ ?_
    · intro page _
      rw [decide_eq_true_iff]
      exact touched page
    · intro other otherMem different page held isChosen
      have range := (touched page).mp (of_decide_eq_true isChosen)
      have same := simulates.tracked.eq_of_holdsPage member otherMem
        (inside page range.1 range.2) held
      exact different (congrArg Region.base same).symm

end Operations

end PosixHostMemory
end SharpEmu
