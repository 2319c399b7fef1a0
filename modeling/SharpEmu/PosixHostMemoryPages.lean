import SharpEmu.PosixHostMemory
import SharpEmu.RangeCoverage

/-!
# The page view of POSIX host memory

A naive model of host memory keeps, for each page number, the base of its
allocation and its protection, and every operation changes pages one at a time.
The region table represents such a page model: protections kept as a default
with sparse overrides read back page by page, and a query reports the page's
entry with the length of the run of equal entries from it on.
-/

namespace SharpEmu
namespace PosixHostMemory

open Faulting Extent

structure PageEntry where
  allocationBase : UInt64
  protect : UInt32
deriving DecidableEq, Repr

abbrev PageModel := ℕ → Option PageEntry

def pageWord (page : ℕ) : UInt64 := UInt64.ofNat (page * 0x1000)

variable {page : ℕ}

theorem toNat_pageWord (bounded : page * 0x1000 < 2 ^ 64) :
    (pageWord page).toNat = page * 0x1000 := by
  rw [pageWord, UInt64.toNat_ofNat', Nat.mod_eq_of_lt bounded]

variable {address : UInt64}

theorem eq_pageWord (startsPage : address.toNat = page * 0x1000) : address = pageWord page := by
  refine Word64.toNat_inj.mpr ?_
  rw [toNat_pageWord (startsPage ▸ address.toNat_lt), startsPage]

theorem toNat_alignDown (address : UInt64) : (alignDown address pageSize).toNat =
      address.toNat / 0x1000 * 0x1000 := by
  have power : Word64.IsPowerOfTwo pageSize := by decide
  rw [Nat.mul_comm]
  exact Word64.toNat_roundDown address power

theorem toNat_add_pageSize {limit : ℕ}
    (startsPage : address.toNat = page * 0x1000) (before : page < limit)
    (bounded : limit * 0x1000 < 2 ^ 64) :
    (address + pageSize).toNat = (page + 1) * 0x1000 := by
  have sizeNat : pageSize.toNat = 0x1000 := by decide
  rw [Word64.toNat_add_of_lt (by rw [sizeNat]; omega), sizeNat]
  omega

/-! ## Regions -/

def Region.extent (region : Region) : Extent :=
  ⟨region.base.toNat, region.size.toNat⟩

def Region.HoldsPage (region : Region) (page : ℕ) : Prop :=
  region.extent.Contains (page * 0x1000)

instance (region : Region) (page : ℕ) : Decidable (region.HoldsPage page) :=
  inferInstanceAs (Decidable (region.extent.Contains _))

/-- A region covers whole pages and records only protections that differ from
its default, for pages of its own. -/
structure Region.WellFormed (region : Region) : Prop where
  positive : 0 < region.size.toNat
  bounded : region.base.toNat + region.size.toNat < 2 ^ 64
  baseAligned : 0x1000 ∣ region.base.toNat
  sizeAligned : 0x1000 ∣ region.size.toNat
  overrides : ∀ overrides, region.pageProtects = some overrides →
    ∀ override ∈ overrides.entries,
      override.protect ≠ region.defaultProtect ∧
        ∃ page, override.page.toNat = page * 0x1000 ∧ region.HoldsPage page

theorem Region.WellFormed.pageRange {region : Region} (wellFormed : region.WellFormed) :
    ∃ first last, first < last ∧ region.base.toNat = first * 0x1000 ∧
      region.end.toNat = last * 0x1000 ∧ last * 0x1000 < 2 ^ 64 ∧
      ∀ page, region.HoldsPage page ↔ first ≤ page ∧ page < last := by
  obtain ⟨first, baseEq⟩ := wellFormed.baseAligned
  obtain ⟨count, sizeEq⟩ := wellFormed.sizeAligned
  have positive := wellFormed.positive
  have bounded := wellFormed.bounded
  have endEq : region.end.toNat = region.base.toNat + region.size.toNat :=
    Word64.toNat_add_of_lt bounded
  refine ⟨first, first + count, by omega, by omega, by omega, by omega, ?_⟩
  intro page
  simp only [Region.HoldsPage, Contains, Region.extent]
  omega

/-! ## Recording protections -/

section Recording

variable {defaultProtect protect : UInt32} {rangeEnd pageAddress : UInt64}
variable {overrides : SortedTable PageProtect.page} {first last : ℕ}

theorem protectPages_get? (defaultProtect protect : UInt32)
    (overrides : SortedTable PageProtect.page) (fuel : ℕ)
    (startEq : pageAddress.toNat = first * 0x1000)
    (endEq : rangeEnd.toNat = last * 0x1000) (enough : last ≤ first + fuel)
    {page : ℕ} (bounded : page * 0x1000 < 2 ^ 64) :
    (protectPages defaultProtect protect rangeEnd fuel pageAddress overrides).get? (pageWord page) =
      if first ≤ page ∧ page < last then
        if protect = defaultProtect then none else some ⟨pageWord page, protect⟩
      else overrides.get? (pageWord page) := by
  induction fuel generalizing pageAddress first overrides with
  | zero =>
    rw [if_neg (by omega)]
    rfl
  | succ fuel ih =>
    have endBound := rangeEnd.toNat_lt
    rw [protectPages]
    by_cases before : pageAddress < rangeEnd
    · rw [UInt64.lt_iff_toNat_lt] at before
      have nextEq := toNat_add_pageSize startEq (show first < last by omega) (endEq ▸ endBound)
      rw [if_pos (UInt64.lt_iff_toNat_lt.mpr before), ih _ nextEq (by omega)]
      have samePage : pageWord page = pageAddress ↔ page = first := by
        rw [Word64.toNat_inj, toNat_pageWord bounded]
        omega
      by_cases isDefault : protect = defaultProtect
      · simp only [isDefault, if_true, SortedTable.get?_remove, samePage]
        grind
      · simp only [isDefault, if_false, SortedTable.get?_set, samePage]
        have sameWord : page = first → pageAddress = pageWord page :=
          fun same => (samePage.mpr same).symm
        grind
    · rw [if_neg before]
      rw [UInt64.lt_iff_toNat_lt] at before
      rw [if_neg (by omega)]

theorem mem_protectPages (fuel : ℕ) (startEq : pageAddress.toNat = first * 0x1000)
    (endEq : rangeEnd.toNat = last * 0x1000)
    {override : PageProtect}
    (member : override ∈ (protectPages defaultProtect protect rangeEnd fuel
      pageAddress overrides).entries) :
    override ∈ overrides.entries ∨
      override.protect ≠ defaultProtect ∧ ∃ page, first ≤ page ∧ page < last ∧
        override.page.toNat = page * 0x1000 := by
  induction fuel generalizing pageAddress first overrides with
  | zero => exact .inl member
  | succ fuel ih =>
    have endBound := rangeEnd.toNat_lt
    rw [protectPages] at member
    by_cases before : pageAddress < rangeEnd
    · rw [if_pos before] at member
      rw [UInt64.lt_iff_toNat_lt] at before
      have nextEq := toNat_add_pageSize startEq (show first < last by omega) (endEq ▸ endBound)
      rcases ih nextEq member with changed | recorded
      · by_cases isDefault : protect = defaultProtect
        · rw [if_pos isDefault, SortedTable.mem_remove] at changed
          exact .inl changed.1
        · rw [if_neg isDefault, SortedTable.mem_set] at changed
          rcases changed with rfl | ⟨old, _⟩
          · exact .inr ⟨isDefault, first, Nat.le_refl _, by omega, startEq⟩
          · exact .inl old
      · obtain ⟨differs, page, above, below, pageEq⟩ := recorded
        exact .inr ⟨differs, page, by omega, below, pageEq⟩
    · rw [if_neg before] at member
      exact .inl member

end Recording

section SetProtectRange

variable {region : Region} {start size : UInt64} {protect : UInt32}
variable {first last : ℕ}

@[simp]
theorem setProtectRange_base : (setProtectRange region start size protect).base = region.base := by
  unfold setProtectRange
  split <;> rfl

@[simp]
theorem setProtectRange_size : (setProtectRange region start size protect).size = region.size := by
  unfold setProtectRange
  split <;> rfl

@[simp]
theorem setProtectRange_extent :
    (setProtectRange region start size protect).extent = region.extent := by
  simp [Region.extent]

variable {page : ℕ}

@[simp]
theorem setProtectRange_holdsPage :
    (setProtectRange region start size protect).HoldsPage page ↔ region.HoldsPage page := by
  simp [Region.HoldsPage]

theorem Region.HoldsPage.bounded (wellFormed : region.WellFormed)
    (held : region.HoldsPage page) : page * 0x1000 < 2 ^ 64 := by
  obtain ⟨_, last, _, _, _, bounded, pages⟩ := wellFormed.pageRange
  have below := ((pages page).mp held).2
  exact lt_trans (Nat.mul_lt_mul_of_pos_right below (by decide)) bounded

theorem protectAt_setProtectRange (wellFormed : region.WellFormed)
    (startEq : start.toNat = first * 0x1000)
    (endEq : (start + size).toNat = last * 0x1000)
    (sizeEq : start.toNat + size.toNat = last * 0x1000)
    (held : region.HoldsPage page) :
    (setProtectRange region start size protect).protectAt (pageWord page) =
      if first ≤ page ∧ page < last then protect
      else region.protectAt (pageWord page) := by
  have bounded := held.bounded wellFormed
  unfold setProtectRange
  split
  case isTrue whole =>
    obtain ⟨rfl, covers⟩ := whole
    obtain ⟨low, high, _, baseEq, endsAt, _, pages⟩ := wellFormed.pageRange
    have range := (pages page).mp held
    have regionEnd : region.end.toNat = region.base.toNat + region.size.toNat :=
      Word64.toNat_add_of_lt wellFormed.bounded
    rw [ge_iff_le, UInt64.le_iff_toNat_le] at covers
    rw [if_pos (by omega)]
    rfl
  case isFalse =>
    have sizeNat : pageSize.toNat = 0x1000 := by decide
    have lookup := protectPages_get? region.defaultProtect protect
      (region.pageProtects.getD .empty) (size.toNat / 0x1000 + 1) startEq endEq (by omega) bounded
    have oldLookup : (region.pageProtects.bind fun overrides =>
        overrides.get? (pageWord page)) =
        (region.pageProtects.getD .empty).get? (pageWord page) := by
      cases region.pageProtects <;> rfl
    simp only [Region.protectAt, Option.bind_some, sizeNat, oldLookup]
    rw [lookup]
    by_cases inside : first ≤ page ∧ page < last
    · by_cases isDefault : protect = region.defaultProtect
      · simp [inside, isDefault]
      · simp [inside, isDefault]
    · simp [inside]

theorem setProtectRange_wellFormed (wellFormed : region.WellFormed)
    (startEq : start.toNat = first * 0x1000)
    (endEq : (start + size).toNat = last * 0x1000)
    (inside : ∀ page, first ≤ page → page < last → region.HoldsPage page) :
    (setProtectRange region start size protect).WellFormed := by
  constructor
  · simpa using wellFormed.positive
  · simpa using wellFormed.bounded
  · simpa using wellFormed.baseAligned
  · simpa using wellFormed.sizeAligned
  · intro overrides isOverrides override member
    simp only [setProtectRange_holdsPage]
    unfold setProtectRange at isOverrides ⊢
    split at isOverrides
    case isTrue => simp at isOverrides
    case isFalse notWhole =>
      rw [if_neg notWhole]
      obtain rfl := Option.some.inj isOverrides
      rcases mem_protectPages _ startEq endEq member with old | recorded
      · cases recordedBefore : region.pageProtects with
        | none =>
          rw [recordedBefore] at old
          simp at old
        | some overridesBefore =>
          rw [recordedBefore] at old
          exact wellFormed.overrides _ recordedBefore override old
      · obtain ⟨differs, page, above, below, pageEq⟩ := recorded
        exact ⟨differs, page, pageEq, inside page above below⟩

end SetProtectRange

/-! ## Runs of equal protection -/

section QueryRun

variable {region : Region} {overrides : SortedTable PageProtect.page}

theorem overrideRunEnd_spec (overrides : SortedTable PageProtect.page)
    (protect : UInt32) {regionEnd runEnd : UInt64}
    {current last : ℕ} (fuel : ℕ) (currentEq : runEnd.toNat = current * 0x1000)
    (endEq : regionEnd.toNat = last * 0x1000) (atMost : current ≤ last)
    (enough : last ≤ current + fuel) :
    ∃ stop, current ≤ stop ∧ stop ≤ last ∧
      (overrideRunEnd overrides protect regionEnd fuel runEnd).toNat = stop * 0x1000 ∧
      (∀ page, current ≤ page → page < stop → ∃ override,
        overrides.get? (pageWord page) = some override ∧ override.protect = protect) ∧
      (stop < last → ∀ override, overrides.get? (pageWord stop) = some override →
          override.protect ≠ protect) := by
  induction fuel generalizing runEnd current with
  | zero =>
    refine ⟨current, Nat.le_refl _, atMost, currentEq, ?_, ?_⟩
    · intro page above below
      omega
    · intro before
      omega
  | succ fuel ih =>
    rw [overrideRunEnd]
    split
    case isTrue continues =>
      obtain ⟨before, sameProtect⟩ := continues
      obtain ⟨override, found, isProtect⟩ :=
        (Option.any_eq_true _ _).mp sameProtect
      rw [UInt64.lt_iff_toNat_lt] at before
      have endBound := regionEnd.toNat_lt
      have nextEq := toNat_add_pageSize currentEq (show current < last by omega) (endEq ▸ endBound)
      obtain ⟨stop, above, below, stopEq, matching, atStop⟩ :=
        ih nextEq (by omega) (by omega)
      refine ⟨stop, by omega, below, stopEq, ?_, atStop⟩
      intro page fromCurrent beforeStop
      rcases Nat.eq_or_lt_of_le fromCurrent with rfl | later
      · rw [← eq_pageWord currentEq]
        exact ⟨override, found, by simpa using isProtect⟩
      · exact matching page later beforeStop
    case isFalse stops =>
      refine ⟨current, Nat.le_refl _, atMost, currentEq, ?_, ?_⟩
      · intro page above below
        omega
      · intro before override found isProtect
        apply stops
        constructor
        · rw [UInt64.lt_iff_toNat_lt]
          omega
        · rw [eq_pageWord currentEq, found]
          simpa using isProtect

theorem defaultRunEnd_spec (pageAddress regionEnd : UInt64) (entries : List PageProtect) :
    (defaultRunEnd pageAddress regionEnd entries = regionEnd ∨
      ∃ override ∈ entries, pageAddress < override.page ∧
        defaultRunEnd pageAddress regionEnd entries = override.page) ∧
    defaultRunEnd pageAddress regionEnd entries ≤ regionEnd ∧
    ∀ override ∈ entries, pageAddress < override.page →
      defaultRunEnd pageAddress regionEnd entries ≤ override.page := by
  unfold defaultRunEnd
  induction entries generalizing regionEnd with
  | nil => simp
  | cons head rest ih =>
    rw [List.foldl_cons]
    split
    case isTrue shortens =>
      obtain ⟨isEnd, atMost, least⟩ := ih head.page
      refine ⟨.inr ?_, atMost.trans shortens.2.le, ?_⟩
      · rcases isEnd with atHead | ⟨override, member, later, isOverride⟩
        · exact ⟨head, List.mem_cons_self, shortens.1, atHead⟩
        · exact ⟨override, List.mem_cons_of_mem _ member, later, isOverride⟩
      · intro override member later
        rcases List.mem_cons.mp member with rfl | inRest
        · exact atMost
        · exact least override inRest later
    case isFalse keeps =>
      obtain ⟨isEnd, atMost, least⟩ := ih regionEnd
      refine ⟨?_, atMost, ?_⟩
      · rcases isEnd with atEnd | ⟨override, member, later, isOverride⟩
        · exact .inl atEnd
        · exact .inr ⟨override, List.mem_cons_of_mem _ member, later, isOverride⟩
      · intro override member later
        rcases List.mem_cons.mp member with rfl | inRest
        · have notBelow : ¬ override.page < regionEnd :=
            fun below => keeps ⟨later, below⟩
          exact atMost.trans (not_lt.mp notBelow)
        · exact least override inRest later

/-- What the run of a page is: as many following pages of the region as share
its protection, and no more. -/
structure Region.IsRun (region : Region) (page count : ℕ) : Prop where
  positive : 0 < count
  shared : ∀ index < count, region.HoldsPage (page + index) ∧
    region.protectAt (pageWord (page + index)) =
      region.protectAt (pageWord page)
  maximal : region.HoldsPage (page + count) →
    region.protectAt (pageWord (page + count)) ≠
      region.protectAt (pageWord page)

variable {page : ℕ} {override : PageProtect}

theorem protectAt_of_override (isOverrides : region.pageProtects = some overrides)
    (found : overrides.get? (pageWord page) = some override) :
    region.protectAt (pageWord page) = override.protect := by
  simp [Region.protectAt, isOverrides, found]

theorem protectAt_of_no_override (isOverrides : region.pageProtects = some overrides)
    (absent : overrides.get? (pageWord page) = none) :
    region.protectAt (pageWord page) = region.defaultProtect := by
  simp [Region.protectAt, isOverrides, absent]

theorem Region.WellFormed.override_ne_default (wellFormed : region.WellFormed)
    (isOverrides : region.pageProtects = some overrides)
    (found : overrides.get? (pageWord page) = some override) :
    override.protect ≠ region.defaultProtect :=
  (wellFormed.overrides overrides isOverrides override (SortedTable.get?_eq_some.mp found).1).1

theorem isRun_of_no_overrides (wellFormed : region.WellFormed)
    (noOverrides : ∀ page, region.protectAt (pageWord page) = region.defaultProtect)
    (held : region.HoldsPage page) :
    ∃ count, region.IsRun page count ∧ region.end.toNat = (page + count) * 0x1000 := by
  obtain ⟨first, last, _, _, endEq, _, pages⟩ := wellFormed.pageRange
  have range := (pages page).mp held
  have lastPage : page + (last - page) = last := by omega
  refine ⟨last - page, ⟨by omega, ?_, ?_⟩, by rw [lastPage, endEq]⟩
  · intro index before
    exact ⟨(pages _).mpr (by omega), by rw [noOverrides, noOverrides]⟩
  · intro heldAfter
    have rangeAfter := (pages _).mp heldAfter
    omega

theorem isRun_of_override (wellFormed : region.WellFormed)
    (isOverrides : region.pageProtects = some overrides)
    (held : region.HoldsPage page)
    (found : overrides.get? (pageWord page) = some override) :
    ∃ count, region.IsRun page count ∧ (overrideRunEnd overrides override.protect region.end
        (region.size.toNat / pageSize.toNat) (pageWord page + pageSize)).toNat =
          (page + count) * 0x1000 := by
  obtain ⟨first, last, _, baseEq, endEq, bounded, pages⟩ := wellFormed.pageRange
  have range := (pages page).mp held
  have sizeNat : pageSize.toNat = 0x1000 := by decide
  have regionEnd : region.end.toNat = region.base.toNat + region.size.toNat :=
    Word64.toNat_add_of_lt wellFormed.bounded
  have nextEq := toNat_add_pageSize (toNat_pageWord (held.bounded wellFormed)) range.2 bounded
  obtain ⟨stop, above, below, stopEq, matching, atStop⟩ :=
    overrideRunEnd_spec overrides override.protect
      (region.size.toNat / 0x1000) nextEq endEq (by omega) (by omega)
  have atPage := protectAt_of_override isOverrides found
  have stopPage : page + (stop - page) = stop := by omega
  refine ⟨stop - page, ⟨by omega, ?_, ?_⟩, ?_⟩
  · intro index before
    refine ⟨(pages _).mpr (by omega), ?_⟩
    cases index with
    | zero => rfl
    | succ index =>
      obtain ⟨next, foundNext, isProtect⟩ :=
        matching (page + (index + 1)) (by omega) (by omega)
      rw [atPage, protectAt_of_override isOverrides foundNext, isProtect]
  · rw [stopPage, atPage]
    intro heldAfter
    cases foundAfter : overrides.get? (pageWord stop) with
    | none =>
      rw [protectAt_of_no_override isOverrides foundAfter]
      exact (wellFormed.override_ne_default isOverrides found).symm
    | some next =>
      rw [protectAt_of_override isOverrides foundAfter]
      exact atStop ((pages _).mp heldAfter).2 next foundAfter
  · rw [sizeNat, stopEq, stopPage]

theorem isRun_of_default (wellFormed : region.WellFormed)
    (isOverrides : region.pageProtects = some overrides)
    (held : region.HoldsPage page)
    (absent : overrides.get? (pageWord page) = none) :
    ∃ count, region.IsRun page count ∧
      (defaultRunEnd (pageWord page) region.end overrides.entries).toNat =
        (page + count) * 0x1000 := by
  obtain ⟨first, last, _, baseEq, endEq, bounded, pages⟩ := wellFormed.pageRange
  have range := (pages page).mp held
  have pageEq := toNat_pageWord (held.bounded wellFormed)
  have atPage := protectAt_of_no_override isOverrides absent
  obtain ⟨isEnd, atMost, least⟩ :=
    defaultRunEnd_spec (pageWord page) region.end overrides.entries
  rw [UInt64.le_iff_toNat_le] at atMost
  -- The run ends at a page number after the queried page.
  have endsAtPage : ∃ stop, page < stop ∧
      (defaultRunEnd (pageWord page) region.end overrides.entries).toNat = stop * 0x1000 ∧
      (stop < last → ∃ override, overrides.get? (pageWord stop) = some override) := by
    rcases isEnd with atEnd | ⟨override, member, later, isOverride⟩
    · exact ⟨last, range.2, by rw [atEnd, endEq], fun before => by omega⟩
    · obtain ⟨_, stop, stopEq, _⟩ :=
        wellFormed.overrides overrides isOverrides override member
      rw [UInt64.lt_iff_toNat_lt] at later
      refine ⟨stop, by omega, by rw [isOverride, stopEq], fun _ => ⟨override, ?_⟩⟩
      rw [← eq_pageWord stopEq]
      exact SortedTable.get?_eq_some.mpr ⟨member, rfl⟩
  obtain ⟨stop, afterPage, stopEq, overridden⟩ := endsAtPage
  have stopPage : page + (stop - page) = stop := by omega
  refine ⟨stop - page, ⟨by omega, ?_, ?_⟩, ?_⟩
  · intro index before
    have heldIndex : region.HoldsPage (page + index) :=
      (pages _).mpr (by omega)
    refine ⟨heldIndex, ?_⟩
    rw [atPage]
    refine protectAt_of_no_override isOverrides ?_
    cases foundIndex : overrides.get? (pageWord (page + index)) with
    | none => rfl
    | some override =>
      exfalso
      obtain ⟨member, overridePage⟩ := SortedTable.get?_eq_some.mp foundIndex
      have indexEq := toNat_pageWord (heldIndex.bounded wellFormed)
      have indexPositive : index ≠ 0 := by
        rintro rfl
        rw [Nat.add_zero, absent] at foundIndex
        cases foundIndex
      have leastIndex := least override member (by
        rw [overridePage, UInt64.lt_iff_toNat_lt]
        omega)
      rw [overridePage, UInt64.le_iff_toNat_le] at leastIndex
      omega
  · rw [stopPage, atPage]
    intro heldAfter
    obtain ⟨override, found⟩ := overridden ((pages _).mp heldAfter).2
    rw [protectAt_of_override isOverrides found]
    exact wellFormed.override_ne_default isOverrides found
  · rw [stopEq, stopPage]

theorem queryRun_spec (wellFormed : region.WellFormed) (held : region.HoldsPage page) :
    (region.queryRun (pageWord page)).1 = region.protectAt (pageWord page) ∧
      ∃ count, region.IsRun page count ∧
        (region.queryRun (pageWord page)).2.toNat = (page + count) * 0x1000 := by
  unfold Region.queryRun
  cases isOverrides : region.pageProtects with
  | none =>
    have noOverrides (page : ℕ) : region.protectAt (pageWord page) = region.defaultProtect := by
      simp [Region.protectAt, isOverrides]
    exact ⟨(noOverrides page).symm, isRun_of_no_overrides wellFormed noOverrides held⟩
  | some overrides =>
    simp only
    split
    case isTrue isEmpty =>
      have noOverrides (page : ℕ) : region.protectAt (pageWord page) = region.defaultProtect := by
        refine protectAt_of_no_override isOverrides ?_
        rw [SortedTable.get?, List.eq_nil_of_length_eq_zero isEmpty]
        rfl
      exact ⟨(noOverrides page).symm, isRun_of_no_overrides wellFormed noOverrides held⟩
    case isFalse =>
      cases found : overrides.get? (pageWord page) with
      | none =>
        exact ⟨(protectAt_of_no_override isOverrides found).symm,
          isRun_of_default wellFormed isOverrides held found⟩
      | some override =>
        exact ⟨(protectAt_of_override isOverrides found).symm,
          isRun_of_override wellFormed isOverrides held found⟩

end QueryRun

end PosixHostMemory
end SharpEmu
