import SharpEmu.PosixHostMemoryPages

/-!
# The region table and the page model

What is relied on of the kernel, the page model's operations, and the relation
that says a region table represents a page model.  The kernel only has to place
fresh mappings where nothing is mapped and to leave memory outside a call's
range alone.  Each change of the table that the operations make is matched by a
change of the page model.
-/

namespace SharpEmu
namespace PosixHostMemory

open Faulting Extent

variable {KernelState : Type}

/-! ## The kernel -/

/-- A call has mapped a block of whole pages where nothing was mapped. -/
structure MapsFresh (before after : ℕ → Prop) (block : Extent) : Prop where
  aligned : 0x1000 ∣ block.start
  bounded : block.start + block.length < 2 ^ 64
  fresh : ∀ point, block.Contains point → ¬ before point
  grown : ∀ point, after point ↔ before point ∨ block.Contains point

/-- What is relied on of `mmap` without `MAP_FIXED`, `munmap` and `mprotect`. -/
structure KernelLaws (kernel : PosixKernel KernelState) where
  mapped : KernelState → ℕ → Prop
  mmap_none : ∀ state address length protection flags after,
    kernel.mmap state address length protection flags = (none, after) →
      mapped after = mapped state
  mmap_some : ∀ state address length protection flags result after,
    0x1000 ∣ length.toNat → flags &&& mapFixed = 0 →
    kernel.mmap state address length protection flags = (some result, after) →
      MapsFresh (mapped state) (mapped after) ⟨result.toNat, length.toNat⟩
  munmap_outside : ∀ state address length point,
    ¬ Contains ⟨address.toNat, length.toNat⟩ point →
      (mapped (kernel.munmap state address length).2 point ↔
        mapped state point)
  mprotect_mapped : ∀ state address length protection,
    mapped (kernel.mprotect state address length protection).2 = mapped state
  mprotect_refuses : ∀ state address length protection,
    2 ^ 64 ≤ address.toNat + length.toNat →
      (kernel.mprotect state address length protection).1 = false

/-! ## The page model's operations -/

inductive HostOperation
  | alloc (address size : UInt64) (allocationType protect : UInt32)
  | free (address : UInt64)
  | protect (address size : UInt64) (newProtect : UInt32)
deriving DecidableEq, Repr

inductive HostAnswer
  | allocated (result : Option UInt64)
  | freed (succeeded : Bool)
  | reprotected (succeeded : Bool) (oldProtect : UInt32)
deriving DecidableEq, Repr

def Touches (start finish page : ℕ) : Prop :=
  start < (page + 1) * 0x1000 ∧ page * 0x1000 < finish

instance (start finish page : ℕ) : Decidable (Touches start finish page) :=
  inferInstanceAs (Decidable (_ ∧ _))

def wholePages (size : ℕ) : ℕ := (size + 0xFFF) / 0x1000 * 0x1000

def PageModel.reprotect (model : PageModel) (chosen : ℕ → UInt64 → Bool)
    (protect : UInt32) : PageModel := fun page =>
  (model page).map fun entry =>
    if chosen page entry.allocationBase then ⟨entry.allocationBase, protect⟩
    else entry

def PageModel.addBlock (model : PageModel) (base : UInt64) (length : ℕ)
    (protect : UInt32) : PageModel := fun page =>
  if Touches base.toNat (base.toNat + length) page then some ⟨base, protect⟩
  else model page

def PageModel.dropBlock (model : PageModel) (base : UInt64) : PageModel :=
  fun page => (model page).filter fun entry => entry.allocationBase ≠ base

def PageModel.committedBase (model : PageModel) (address : UInt64)
    (allocationType : UInt32) : Option UInt64 :=
  if allocationType = memCommit ∧ address ≠ 0 then
    (model (address.toNat / 0x1000)).map PageEntry.allocationBase
  else none

/-- Each operation on the pages it touches, given what it answered.  A commit
covers whole pages from its address on but stays in its allocation; the end of
a protection range is the word the caller's address and size add up to. -/
def PageModel.step (model : PageModel) : HostOperation → HostAnswer → PageModel
  | .alloc address size allocationType protect, .allocated (some result) =>
      match model.committedBase address allocationType with
      | some base =>
          model.reprotect (fun page pageBase => pageBase = base ∧
            Touches address.toNat (address.toNat + wholePages size.toNat) page)
            protect
      | none => model.addBlock result size.toNat protect
  | .free address, .freed _ => model.dropBlock address
  | .protect address size newProtect, .reprotected true _ =>
      model.reprotect (fun page _ =>
        Touches address.toNat (address + size).toNat page) newProtect
  | _, _ => model

/-! ## The relation between table and pages -/

variable {kernel : PosixKernel KernelState}

def Region.entryAt (region : Region) (page : ℕ) : PageEntry :=
  ⟨region.base, region.protectAt (pageWord page)⟩

def Represents (regions : SortedTable Region.base) (model : PageModel) : Prop :=
  ∀ page entry, model page = some entry ↔ ∃ region ∈ regions.entries, region.HoldsPage page ∧
      region.entryAt page = entry

/-- Tracked regions are well formed, apart from each other and mapped. -/
structure Tracked (laws : KernelLaws kernel) (state : HostState KernelState) :
    Prop where
  wellFormed : ∀ region ∈ state.regions.entries, region.WellFormed
  apart : ApartTable Region.extent state.regions
  backed : ∀ region ∈ state.regions.entries, ∀ point,
    region.extent.Contains point → laws.mapped state.kernel point

structure Simulates (laws : KernelLaws kernel) (model : PageModel)
    (state : HostState KernelState) : Prop where
  tracked : Tracked laws state
  represents : Represents state.regions model

theorem Tracked.pairwise {laws : KernelLaws kernel}
    {state : HostState KernelState} (tracked : Tracked laws state) :
    (state.regions.entries.map Region.extent).Pairwise Separated := by
  exact tracked.apart.pairwise

theorem Region.WellFormed.end_toNat {region : Region} (wellFormed : region.WellFormed) :
    region.end.toNat = region.base.toNat + region.size.toNat :=
  Word64.toNat_add_of_lt wellFormed.bounded

theorem Region.WellFormed.holdsPage_div {region : Region}
    (wellFormed : region.WellFormed) (address : ℕ) :
    region.HoldsPage (address / 0x1000) ↔ region.extent.Contains address := by
  obtain ⟨first, last, _, baseEq, endEq, _, pages⟩ := wellFormed.pageRange
  rw [wellFormed.end_toNat] at endEq
  rw [pages]
  simp only [Contains, Region.extent]
  omega

section Lookup

variable {laws : KernelLaws kernel} {state : HostState KernelState}
variable {model : PageModel} {region : Region}

theorem passesPrefix_base (regions : SortedTable Region.base) (address : UInt64) :
    PartitionSearch.PassesPrefix (fun region => region.base ≤ address)
      regions.entries :=
  regions.ascending.imp fun below secondPasses => by
    simp only [decide_eq_true_eq] at secondPasses ⊢
    exact below.le.trans secondPasses

variable {address : UInt64}

theorem Tracked.tryFindRegion_some (tracked : Tracked laws state)
    (found : tryFindRegion state.regions address = some region) :
    region ∈ state.regions.entries ∧ region.extent.Contains address.toNat := by
  obtain ⟨searched, notPast⟩ := Option.filter_eq_some_iff.mp found
  obtain ⟨front, back, split, atOrBelow, _⟩ :=
    PartitionSearch.findLastPassing_split (passesPrefix_base _ _) searched
  have member : region ∈ state.regions.entries := by
    rw [split]
    simp
  have endNat := (tracked.wellFormed region member).end_toNat
  simp only [decide_eq_true_eq, Bool.not_eq_true', decide_eq_false_iff_not,
    ge_iff_le, UInt64.le_iff_toNat_le] at atOrBelow notPast
  refine ⟨member, ?_⟩
  simp only [Contains, Region.extent]
  omega

theorem Tracked.tryFindRegion_none (tracked : Tracked laws state)
    (absent : tryFindRegion state.regions address = none)
    (member : region ∈ state.regions.entries) :
    ¬ region.extent.Contains address.toNat := by
  have prefixed := passesPrefix_base state.regions address
  intro contains
  simp only [Contains, Region.extent] at contains
  cases searched : PartitionSearch.findLastPassing
      (fun region => decide (region.base ≤ address)) state.regions.entries with
  | none =>
    have above := PartitionSearch.findLastPassing_eq_none prefixed searched region member
    simp only [decide_eq_false_iff_not, UInt64.le_iff_toNat_le] at above
    omega
  | some candidate =>
    obtain ⟨front, back, split, atOrBelow, aboveAfter⟩ :=
      PartitionSearch.findLastPassing_split prefixed searched
    have candidateMem : candidate ∈ state.regions.entries := by
      rw [split]
      simp
    have candidateEnd := (tracked.wellFormed candidate candidateMem).end_toNat
    have past : address ≥ candidate.end := by
      rw [tryFindRegion, searched] at absent
      simpa using absent
    simp only [decide_eq_true_eq, ge_iff_le, UInt64.le_iff_toNat_le] at atOrBelow past
    have ascending := state.regions.ascending
    rw [split] at member ascending
    rcases List.mem_append.mp member with inFront | rest
    · have below := (List.pairwise_append.mp ascending).2.2 region inFront
        candidate List.mem_cons_self
      have separated := tracked.apart region (by rw [split]; simp [inFront])
        candidate candidateMem below.ne
      rw [UInt64.lt_iff_toNat_lt] at below
      simp only [Separated, Region.extent] at separated
      omega
    · rcases List.mem_cons.mp rest with rfl | inBack
      · omega
      · have above := aboveAfter region inBack
        simp only [decide_eq_false_iff_not, UInt64.le_iff_toNat_le] at above
        omega

theorem Simulates.allocationBase_eq (simulates : Simulates laws model state) (address : UInt64) :
    (model (address.toNat / 0x1000)).map PageEntry.allocationBase =
      (tryFindRegion state.regions address).map Region.base := by
  cases found : tryFindRegion state.regions address with
  | some region =>
    obtain ⟨member, contains⟩ := simulates.tracked.tryFindRegion_some found
    have held := ((simulates.tracked.wellFormed region member).holdsPage_div _).mpr contains
    rw [(simulates.represents _ _).mpr ⟨region, member, held, rfl⟩]
    rfl
  | none =>
    cases entryEq : model (address.toNat / 0x1000) with
    | none => rfl
    | some entry =>
      obtain ⟨region, member, held, _⟩ :=
        (simulates.represents _ _).mp entryEq
      have contains := ((simulates.tracked.wellFormed region member).holdsPage_div _).mp held
      exact absurd contains (simulates.tracked.tryFindRegion_none found member)

theorem Tracked.eq_of_holdsPage (tracked : Tracked laws state)
    {other : Region} {page : ℕ} (member : region ∈ state.regions.entries)
    (otherMem : other ∈ state.regions.entries) (held : region.HoldsPage page)
    (otherHeld : other.HoldsPage page) : region = other := by
  by_cases sameBase : region.base = other.base
  · exact SortedTable.eq_of_key_eq member otherMem sameBase
  · exact absurd otherHeld ((tracked.apart region member other otherMem sameBase).not_contains held)

end Lookup

/-! ## Changes of the table -/

section Changes

variable {laws : KernelLaws kernel} {state : HostState KernelState}
variable {model : PageModel} {region : Region}

variable {after : KernelState}

theorem Simulates.onKernel (simulates : Simulates laws model state)
    (kept : ∀ region ∈ state.regions.entries, ∀ point,
      region.extent.Contains point → laws.mapped state.kernel point → laws.mapped after point) :
    Simulates laws model { state with kernel := after } where
  tracked :=
    { wellFormed := simulates.tracked.wellFormed
      apart := simulates.tracked.apart
      backed := fun region member point contains =>
        kept region member point contains (simulates.tracked.backed region member point contains) }
  represents := simulates.represents

variable {protect : UInt32}

theorem Simulates.reprotect (simulates : Simulates laws model state)
    (member : region ∈ state.regions.entries) {start rangeEnd : UInt64}
    {first last : ℕ} (startEq : start.toNat = first * 0x1000)
    (endEq : rangeEnd.toNat = last * 0x1000) (ordered : first ≤ last)
    (startsInside : region.base ≤ start) (endsInside : rangeEnd ≤ region.end)
    {chosen : ℕ → UInt64 → Bool}
    (inside : ∀ page, region.HoldsPage page →
      (chosen page region.base = true ↔ first ≤ page ∧ page < last))
    (outside : ∀ other ∈ state.regions.entries, other.base ≠ region.base →
      ∀ page, other.HoldsPage page → ¬ chosen page other.base = true) :
    Simulates laws (model.reprotect chosen protect) { state with
        regions := state.regions.set
          (setProtectRange region start (rangeEnd - start) protect) } := by
  have wellFormed := simulates.tracked.wellFormed region member
  have sumEq : (start + (rangeEnd - start)).toNat = last * 0x1000 := by
    rw [← endEq, UInt64.add_comm, UInt64.sub_add_cancel]
  have sizeEq : start.toNat + (rangeEnd - start).toNat = last * 0x1000 := by
    rw [UInt64.toNat_sub_of_le _ _ (UInt64.le_iff_toNat_le.mpr (by omega))]
    omega
  have changedWellFormed :
      (setProtectRange region start (rangeEnd - start) protect).WellFormed := by
    obtain ⟨low, high, _, baseEq, regionEnd, _, pages⟩ := wellFormed.pageRange
    rw [UInt64.le_iff_toNat_le] at startsInside endsInside
    exact setProtectRange_wellFormed wellFormed startEq sumEq
      fun page above below => (pages page).mpr (by omega)
  have stored (other : Region) : other ∈ (state.regions.set (setProtectRange region start
        (rangeEnd - start) protect)).entries ↔
        other = setProtectRange region start (rangeEnd - start) protect ∨
          other ∈ state.regions.entries ∧ other.base ≠ region.base := by
    rw [SortedTable.mem_set, setProtectRange_base]
  constructor
  · constructor
    · intro other otherMem
      rcases (stored other).mp otherMem with rfl | old
      · exact changedWellFormed
      · exact simulates.tracked.wellFormed other old.1
    · refine simulates.tracked.apart.set fun other otherMem different => ?_
      rw [setProtectRange_base] at different
      rw [setProtectRange_extent]
      exact simulates.tracked.apart other otherMem region member different
    · intro other otherMem point contains
      rcases (stored other).mp otherMem with rfl | old
      · rw [setProtectRange_extent] at contains
        exact simulates.tracked.backed region member point contains
      · exact simulates.tracked.backed other old.1 point contains
  · intro page entry
    have changedEntry (held : region.HoldsPage page) :
        (setProtectRange region start (rangeEnd - start) protect).entryAt page =
          if chosen page region.base then ⟨region.base, protect⟩
          else region.entryAt page := by
      rw [Region.entryAt, setProtectRange_base,
        protectAt_setProtectRange wellFormed startEq sumEq sizeEq held]
      by_cases within : first ≤ page ∧ page < last
      · rw [if_pos within, if_pos ((inside page held).mpr within)]
      · rw [if_neg within, if_neg fun isChosen => within ((inside page held).mp isChosen)]
        rfl
    rw [PageModel.reprotect, Option.map_eq_some_iff]
    constructor
    · rintro ⟨old, modelEq, rfl⟩
      obtain ⟨other, otherMem, held, rfl⟩ := (simulates.represents _ _).mp modelEq
      by_cases sameBase : other.base = region.base
      · obtain rfl := SortedTable.eq_of_key_eq otherMem member sameBase
        exact ⟨_, (stored _).mpr (.inl rfl), setProtectRange_holdsPage.mpr held, changedEntry held⟩
      · refine ⟨other, (stored _).mpr (.inr ⟨otherMem, sameBase⟩), held, ?_⟩
        exact (if_neg (outside other otherMem sameBase page held)).symm
    · rintro ⟨other, otherMem, held, rfl⟩
      rcases (stored _).mp otherMem with rfl | ⟨old, different⟩
      · rw [setProtectRange_holdsPage] at held
        exact ⟨region.entryAt page, (simulates.represents _ _).mpr ⟨region, member, held, rfl⟩,
          (changedEntry held).symm⟩
      · exact ⟨other.entryAt page, (simulates.represents _ _).mpr ⟨other, old, held, rfl⟩,
          if_neg (outside other old different page held)⟩

theorem Simulates.addRegion (simulates : Simulates laws model state)
    {base size : UInt64} {length : ℕ}
    (fresh : MapsFresh (laws.mapped state.kernel) (laws.mapped after) ⟨base.toNat, size.toNat⟩)
    (positive : 0 < length) (sizeEq : size.toNat = wholePages length) :
    Simulates laws (model.addBlock base length protect)
      { regions := state.regions.set ⟨base, size, protect, none⟩
        kernel := after } := by
  have aligned : 0x1000 ∣ base.toNat := fresh.aligned
  have bounded : base.toNat + size.toNat < 2 ^ 64 := fresh.bounded
  unfold wholePages at sizeEq
  have newWellFormed : Region.WellFormed ⟨base, size, protect, none⟩ :=
    { positive := by simp only; omega
      bounded := bounded
      baseAligned := aligned
      sizeAligned := ⟨_, by rw [sizeEq, Nat.mul_comm]⟩
      overrides := by simp }
  have apart (other : Region) (otherMem : other ∈ state.regions.entries) :
      other.extent.Separated ⟨base.toNat, size.toNat⟩ := by
    refine separated_of_no_common_point (simulates.tracked.wellFormed other otherMem).positive
      (by simp only; omega) ?_
    intro point inOther inBlock
    exact fresh.fresh point inBlock (simulates.tracked.backed other otherMem point inOther)
  have baseUnused (other : Region) (otherMem : other ∈ state.regions.entries) :
      other.base ≠ base := by
    rintro rfl
    have separated := apart other otherMem
    have otherPositive :=
      (simulates.tracked.wellFormed other otherMem).positive
    simp only [Separated, Region.extent] at separated
    omega
  have stored (other : Region) : other ∈ (state.regions.set ⟨base, size, protect, none⟩).entries ↔
        other = ⟨base, size, protect, none⟩ ∨ other ∈ state.regions.entries := by
    rw [SortedTable.mem_set]
    constructor
    · rintro (rfl | old)
      · exact .inl rfl
      · exact .inr old.1
    · rintro (rfl | old)
      · exact .inl rfl
      · exact .inr ⟨old, baseUnused other old⟩
  have newHolds (page : ℕ) : (⟨base, size, protect, none⟩ : Region).HoldsPage page ↔
        Touches base.toNat (base.toNat + length) page := by
    simp only [Region.HoldsPage, Contains, Region.extent, Touches]
    omega
  constructor
  · constructor
    · intro other otherMem
      rcases (stored other).mp otherMem with rfl | old
      · exact newWellFormed
      · exact simulates.tracked.wellFormed other old
    · exact simulates.tracked.apart.set fun other otherMem _ =>
        apart other otherMem
    · intro other otherMem point contains
      rcases (stored other).mp otherMem with rfl | old
      · exact (fresh.grown point).mpr (.inr contains)
      · exact (fresh.grown point).mpr (.inl (simulates.tracked.backed other old point contains))
  · intro page entry
    unfold PageModel.addBlock
    split
    case isTrue touched =>
      constructor
      · intro isEntry
        obtain rfl := Option.some.inj isEntry
        exact ⟨_, (stored _).mpr (.inl rfl), (newHolds page).mpr touched, rfl⟩
      · rintro ⟨other, otherMem, held, rfl⟩
        rcases (stored other).mp otherMem with rfl | old
        · rfl
        · exact absurd ((newHolds page).mpr touched) ((apart other old).not_contains held)
    case isFalse untouched =>
      rw [simulates.represents page entry]
      constructor
      · rintro ⟨other, otherMem, held, rfl⟩
        exact ⟨other, (stored other).mpr (.inr otherMem), held, rfl⟩
      · rintro ⟨other, otherMem, held, rfl⟩
        rcases (stored other).mp otherMem with rfl | old
        · exact absurd ((newHolds page).mp held) untouched
        · exact ⟨other, old, held, rfl⟩

theorem Simulates.removeRegion (simulates : Simulates laws model state) (base : UInt64) :
    Simulates laws (model.dropBlock base) { state with regions := state.regions.remove base } := by
  constructor
  · constructor
    · intro region member
      exact simulates.tracked.wellFormed region (SortedTable.mem_remove.mp member).1
    · exact simulates.tracked.apart.remove base
    · intro region member point contains
      exact simulates.tracked.backed region (SortedTable.mem_remove.mp member).1 point contains
  · intro page entry
    rw [PageModel.dropBlock, Option.filter_eq_some_iff, simulates.represents]
    simp only [SortedTable.mem_remove, decide_eq_true_eq]
    constructor
    · rintro ⟨⟨region, member, held, rfl⟩, different⟩
      exact ⟨region, ⟨member, different⟩, held, rfl⟩
    · rintro ⟨region, ⟨member, different⟩, held, rfl⟩
      exact ⟨⟨region, member, held, rfl⟩, different⟩

end Changes

end PosixHostMemory
end SharpEmu
