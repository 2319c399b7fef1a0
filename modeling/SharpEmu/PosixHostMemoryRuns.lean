import SharpEmu.PosixHostMemoryOperations

/-!
# Runs of POSIX host memory

The region table is compared with the page model along every run: both sides
take the same operations, and a query of the table then reports what the page
model knows.
-/

namespace SharpEmu
namespace PosixHostMemory

open Faulting Extent

variable {KernelState : Type} {kernel : PosixKernel KernelState}

/-! ## Runs -/

/-- One call, with the answer that the page model is given. -/
def HostOperation.perform (platform : PosixPlatform) (kernel : PosixKernel KernelState) :
    HostOperation → Program KernelState HostAnswer
  | .alloc address size allocationType protection => do
      let result ← PosixHostMemory.alloc platform kernel address size allocationType protection
      pure (.allocated result)
  | .free address => do
      let succeeded ← PosixHostMemory.free kernel address
      pure (.freed succeeded)
  | .protect address size newProtect => do
      let answer ← PosixHostMemory.protect kernel address size newProtect
      pure (.reprotected answer.1 answer.2)

/-- Host memory beside the page model it is compared with. -/
structure Comparison (KernelState : Type) where
  host : HostState KernelState
  pages : PageModel

def Comparison.Initial (start : Comparison KernelState) : Prop :=
  start.host.regions = .empty ∧ start.pages = fun _ => none

/-- Both sides take the operation; after an overflow the page model stays. -/
def Comparison.run (platform : PosixPlatform) (kernel : PosixKernel KernelState)
    (before : Comparison KernelState) (operation : HostOperation) :
    Comparison KernelState :=
  let ended := (operation.perform platform kernel).outcome before.host
  { host := ended.2
    pages :=
      match ended.1 with
      | .ok answer => before.pages.step operation answer
      | .error _ => before.pages }

def Comparison.Step (platform : PosixPlatform)
    (kernel : PosixKernel KernelState) (before : Comparison KernelState)
    (operation : HostOperation) (after : Comparison KernelState) : Prop :=
  after = before.run platform kernel operation

theorem reachable_run {platform : PosixPlatform} {before : Comparison KernelState}
    (reachable : Reachable Comparison.Initial
      (Comparison.Step platform kernel) before) (operation : HostOperation) :
    Reachable Comparison.Initial (Comparison.Step platform kernel)
      (before.run platform kernel operation) :=
  have taken : Comparison.Step platform kernel before operation _ := rfl
  reachable.next taken

section Runs

variable {platform : PosixPlatform} {laws : KernelLaws kernel}
variable {model : PageModel}

theorem perform_spec (platform : PosixPlatform) (operation : HostOperation) :
    Ensures (Simulates laws model) (operation.perform platform kernel)
      (fun answer => Simulates laws (model.step operation answer))
      (Simulates laws model) := by
  cases operation with
  | alloc address size allocationType protection =>
    apply (alloc_spec platform address size allocationType protection).bind
    exact fun _ => ensures_pure fun _ holds => holds
  | free address =>
    apply (free_spec address).bind
    exact fun _ => ensures_pure fun _ holds => holds
  | protect address size newProtect =>
    apply (protect_spec address size newProtect).bind
    exact fun _ => ensures_pure fun _ holds => holds

/-- Along every run the table represents the page model. -/
theorem simulates_of_reachable (laws : KernelLaws kernel) {state : Comparison KernelState}
    (reachable : Reachable Comparison.Initial (Comparison.Step platform kernel) state) :
    Simulates laws state.pages state.host := by
  apply reachable.invariant
  · rintro ⟨⟨regions, kernelState⟩, pages⟩ ⟨rfl, rfl⟩
    exact
      { tracked := ⟨by simp, apartTable_empty, by simp⟩
        represents := fun page entry => by simp }
  · rintro before operation after simulates rfl
    obtain ⟨valueEnd, faultEnd⟩ :=
      perform_spec platform operation before.host simulates
    unfold Comparison.run
    rcases ended : (operation.perform platform kernel).outcome before.host with
      ⟨fault | answer, after⟩
    · exact faultEnd _ _ ended
    · exact valueEnd _ _ ended

/-! ## Queries -/

/-- The pages from one on that have its entry: how many there are. -/
structure PageModel.IsRun (model : PageModel) (page count : ℕ) : Prop where
  positive : 0 < count
  shared : ∀ index < count, model (page + index) = model page
  maximal : model (page + count) ≠ model page

structure PageModel.IsFreeRun (model : PageModel) (page count : ℕ) : Prop where
  positive : 0 < count
  free : ∀ index < count, model (page + index) = none
  stops : (model (page + count)).isSome ∨
    count = 1 ∧ ∀ later, page ≤ later → model later = none

def PageModel.Reports (model : PageModel) (address : UInt64) (info : BasicInfo) :
    Prop :=
  let page := address.toNat / 0x1000
  info.baseAddress.toNat = page * 0x1000 ∧
    match model page with
    | some entry =>
        info.state = memCommit ∧ info.allocationBase = entry.allocationBase ∧
          info.protect = entry.protect ∧
          ∃ count, model.IsRun page count ∧ info.regionSize.toNat = count * 0x1000
    | none =>
        info.state = memFreeState ∧ info.allocationBase = 0 ∧ info.protect = pageNoAccess ∧
          ∃ count, model.IsFreeRun page count ∧ info.regionSize.toNat = count * 0x1000

section Reports

variable {state : HostState KernelState} {region : Region} {page : ℕ}

theorem Simulates.entry_of_holdsPage (simulates : Simulates laws model state)
    (member : region ∈ state.regions.entries) (held : region.HoldsPage page) :
    model page = some (region.entryAt page) :=
  (simulates.represents _ _).mpr ⟨region, member, held, rfl⟩

theorem Simulates.isRun (simulates : Simulates laws model state)
    (member : region ∈ state.regions.entries) {count : ℕ}
    (run : region.IsRun page count) : model.IsRun page count := by
  have held := (run.shared 0 run.positive).1
  have atPage := simulates.entry_of_holdsPage member held
  refine ⟨run.positive, ?_, ?_⟩
  · intro index before
    obtain ⟨heldIndex, same⟩ := run.shared index before
    rw [simulates.entry_of_holdsPage member heldIndex]
    rw [Nat.add_zero] at atPage
    rw [atPage, Region.entryAt, same, Region.entryAt]
  · intro same
    rw [Nat.add_zero] at atPage
    rw [atPage, simulates.represents] at same
    obtain ⟨other, otherMem, heldAfter, entryEq⟩ := same
    rw [Region.entryAt, Region.entryAt, PageEntry.mk.injEq] at entryEq
    obtain rfl := SortedTable.eq_of_key_eq otherMem member entryEq.1
    exact run.maximal heldAfter entryEq.2

variable {pageAddress : UInt64}

theorem base_gt_of_untracked (pageEq : pageAddress.toNat = page * 0x1000)
    (untracked : ∀ region ∈ state.regions.entries, ¬ region.extent.Contains pageAddress.toNat)
    (member : region ∈ state.regions.entries) {later : ℕ}
    (follows : page ≤ later) (held : region.HoldsPage later) :
    pageAddress < region.base := by
  have notHere := untracked region member
  simp only [Region.HoldsPage, Contains, Region.extent] at held notHere
  rw [UInt64.lt_iff_toNat_lt]
  omega

theorem Simulates.isFreeRun (simulates : Simulates laws model state)
    (pageEq : pageAddress.toNat = page * 0x1000)
    (untracked : ∀ region ∈ state.regions.entries, ¬ region.extent.Contains pageAddress.toNat)
    (found : (state.regions.entries.find? fun region =>
      region.base > pageAddress) = some region) :
    ∃ count, model.IsFreeRun page count ∧ region.base.toNat = (page + count) * 0x1000 := by
  have tracked := simulates.tracked
  obtain ⟨isAbove, front, back, split, frontAtOrBelow⟩ :=
    List.find?_eq_some_iff_append.mp found
  rw [decide_eq_true_eq, gt_iff_lt, UInt64.lt_iff_toNat_lt] at isAbove
  have member := List.mem_of_find?_eq_some found
  obtain ⟨first, last, nonempty, baseEq, _, _, pages⟩ :=
    (tracked.wellFormed region member).pageRange
  have firstPage : page + (first - page) = first := by omega
  refine ⟨first - page, ⟨by omega, ?_, .inl ?_⟩, by rw [firstPage, baseEq]⟩
  · intro index before
    by_contra isSome
    obtain ⟨entry, isEntry⟩ := Option.ne_none_iff_exists'.mp isSome
    obtain ⟨other, otherMem, held, _⟩ := (simulates.represents _ _).mp isEntry
    have otherAbove := base_gt_of_untracked pageEq untracked otherMem (Nat.le_add_right _ _) held
    have ordered : region.base ≤ other.base := by
      have ascending := state.regions.ascending
      rw [split] at otherMem ascending
      rcases List.mem_append.mp otherMem with inFront | rest
      · have atOrBelow := frontAtOrBelow other inFront
        simp [otherAbove] at atOrBelow
      · rcases List.mem_cons.mp rest with rfl | inBack
        · exact le_rfl
        · exact ((List.pairwise_cons.mp (List.pairwise_append.mp ascending).2.1).1 other inBack).le
    simp only [Region.HoldsPage, Contains, Region.extent] at held
    rw [UInt64.le_iff_toNat_le] at ordered
    omega
  · rw [firstPage, simulates.entry_of_holdsPage member
      ((pages first).mpr ⟨Nat.le_refl _, nonempty⟩)]
    rfl

theorem Simulates.isFreeRun_last (simulates : Simulates laws model state)
    (pageEq : pageAddress.toNat = page * 0x1000)
    (untracked : ∀ region ∈ state.regions.entries, ¬ region.extent.Contains pageAddress.toNat)
    (notFound : (state.regions.entries.find? fun region =>
      region.base > pageAddress) = none) :
    model.IsFreeRun page 1 := by
  have free : ∀ later, page ≤ later → model later = none := by
    intro later follows
    by_contra isSome
    obtain ⟨entry, isEntry⟩ := Option.ne_none_iff_exists'.mp isSome
    obtain ⟨other, otherMem, held, _⟩ := (simulates.represents _ _).mp isEntry
    have notAbove := List.find?_eq_none.mp notFound other otherMem
    simp [base_gt_of_untracked pageEq untracked otherMem follows held] at notAbove
  refine ⟨Nat.one_pos, ?_, .inr ⟨rfl, free⟩⟩
  exact fun index _ => free _ (Nat.le_add_right _ _)

theorem Simulates.reports (simulates : Simulates laws model state) (address : UInt64) :
    model.Reports address (query state.regions address) := by
  have pageEq := toNat_alignDown address
  have isPageWord := eq_pageWord pageEq
  unfold PageModel.Reports query
  generalize alignDown address pageSize = pageAddress at pageEq isPageWord ⊢
  generalize address.toNat / 0x1000 = page at pageEq isPageWord ⊢
  simp only
  cases found : tryFindRegion state.regions pageAddress with
  | some region =>
    obtain ⟨member, contains⟩ := simulates.tracked.tryFindRegion_some found
    have held : region.HoldsPage page := by
      rw [pageEq] at contains
      exact contains
    obtain ⟨protectEq, count, run, endEq⟩ :=
      queryRun_spec (simulates.tracked.wellFormed region member) held
    rw [simulates.entry_of_holdsPage member held, isPageWord]
    rw [isPageWord] at pageEq
    refine ⟨pageEq, rfl, rfl, protectEq, count, simulates.isRun member run, ?_⟩
    change ((region.queryRun (pageWord page)).2 - pageWord page).toNat = _
    rw [UInt64.toNat_sub_of_le _ _ (UInt64.le_iff_toNat_le.mpr (by omega)),
      endEq, pageEq, ← Nat.sub_mul, Nat.add_sub_cancel_left]
  | none =>
    have untracked (region : Region) (member : region ∈ state.regions.entries) :
        ¬ region.extent.Contains pageAddress.toNat :=
      simulates.tracked.tryFindRegion_none found member
    have isFree : model page = none := by
      by_contra isSome
      obtain ⟨entry, isEntry⟩ := Option.ne_none_iff_exists'.mp isSome
      obtain ⟨region, member, held, _⟩ :=
        (simulates.represents _ _).mp isEntry
      exact untracked region member (by rw [pageEq]; exact held)
    rw [isFree]
    refine ⟨pageEq, rfl, rfl, rfl, ?_⟩
    simp only
    cases next : state.regions.entries.find? fun region =>
        region.base > pageAddress with
    | some region =>
      obtain ⟨count, run, baseEq⟩ :=
        simulates.isFreeRun pageEq untracked next
      have notLastWord : region.base ≠ 0xFFFFFFFFFFFFFFFF := by
        rw [Ne, Word64.toNat_inj, baseEq]
        change ¬ _ = 0xFFFFFFFFFFFFFFFF
        omega
      refine ⟨count, run, ?_⟩
      simp only
      rw [if_neg notLastWord, UInt64.toNat_sub_of_le _ _
        (UInt64.le_iff_toNat_le.mpr (by omega)), baseEq, pageEq,
        ← Nat.sub_mul, Nat.add_sub_cancel_left]
    | none =>
      refine ⟨1, simulates.isFreeRun_last pageEq untracked next, ?_⟩
      rw [if_pos rfl, UInt64.add_comm, UInt64.add_sub_cancel]
      rfl

end Reports

/-- The tracked regions are pairwise disjoint, and a query of any address
reports the page model that took the same operations. -/
theorem queries_report_pages (laws : KernelLaws kernel) {state : Comparison KernelState}
    (reachable : Reachable Comparison.Initial (Comparison.Step platform kernel) state) :
    (state.host.regions.entries.map Region.extent).Pairwise Separated ∧
      ∀ address, state.pages.Reports address (query state.host.regions address) := by
  have simulates := simulates_of_reachable laws reachable
  exact ⟨simulates.tracked.pairwise, simulates.reports⟩

end Runs

/-! ## A concrete kernel -/

/-- Where a mapping goes: at the hint, or above all blocks without one. -/
def placement (blocks : List Extent) (address length : UInt64) : Extent :=
  { start :=
      if address = 0 then
        blocks.foldl (fun high block => max high (block.start + block.length)) 0x10000
      else address.toNat
    length := length.toNat }

/-- A kernel whose state is its list of blocks; it maps a block where nothing is
mapped and unmaps whole blocks. -/
def blockKernel : PosixKernel (List Extent) where
  mmap blocks address length _ _ :=
    let block := placement blocks address length
    if 0 < block.length ∧ 0x1000 ∣ block.start ∧ block.start + block.length < 2 ^ 64 ∧
          ∀ other ∈ blocks, other.Separated block then
      (some (UInt64.ofNat block.start), block :: blocks)
    else (none, blocks)
  munmap blocks address length :=
    (true, blocks.filter fun block => block ≠ ⟨address.toNat, length.toNat⟩)
  mprotect blocks address length _ :=
    (address.toNat + length.toNat < 2 ^ 64, blocks)

def blockKernelLaws : KernelLaws blockKernel where
  mapped blocks point := ∃ block ∈ blocks, block.Contains point
  mmap_none blocks address length protection flags after called := by
    unfold blockKernel at called
    simp only at called
    split at called <;> cases called
    rfl
  mmap_some blocks address length protection flags result after _ _ called := by
    unfold blockKernel at called
    simp only at called
    split at called
    case isTrue granted =>
      obtain ⟨positive, aligned, bounded, apart⟩ := granted
      cases called
      have startEq : (UInt64.ofNat (placement blocks address length).start).toNat =
          (placement blocks address length).start := by
        rw [UInt64.toNat_ofNat', Nat.mod_eq_of_lt (by omega)]
      have blockEq : (⟨(UInt64.ofNat (placement blocks address length).start).toNat,
          length.toNat⟩ : Extent) = placement blocks address length := by
        rw [startEq]
        rfl
      rw [blockEq]
      refine ⟨aligned, bounded, ?_, fun point => ?_⟩
      · rintro point inBlock ⟨other, otherMem, inOther⟩
        exact (apart other otherMem).not_contains inOther inBlock
      · simp only [List.mem_cons, exists_eq_or_imp]
        exact Or.comm
    case isFalse => cases called
  munmap_outside blocks address length point outside := by
    simp only [blockKernel, List.mem_filter, decide_eq_true_eq]
    constructor
    · rintro ⟨block, ⟨member, _⟩, contains⟩
      exact ⟨block, member, contains⟩
    · rintro ⟨block, member, contains⟩
      exact ⟨block, ⟨member, fun same => outside (same ▸ contains)⟩, contains⟩
  mprotect_mapped _ _ _ _ := rfl
  mprotect_refuses _ _ _ _ tooLong :=
    decide_eq_false (Nat.not_lt_of_le tooLong)

def protectedMiddle : Comparison (List Extent) :=
  ((⟨⟨.empty, []⟩, fun _ => none⟩ : Comparison (List Extent)).run ⟨false⟩
    blockKernel (.alloc 0 0x2FFF 0x3000 pageReadWrite)).run ⟨false⟩
      blockKernel (.protect 0x11800 0x10 pageReadOnly)

theorem protectedMiddle_reachable :
    Reachable Comparison.Initial (Comparison.Step ⟨false⟩ blockKernel)
      protectedMiddle := by
  have fresh : Reachable Comparison.Initial
      (Comparison.Step ⟨false⟩ blockKernel) ⟨⟨.empty, []⟩, fun _ => none⟩ :=
    .start ⟨rfl, rfl⟩
  exact reachable_run (reachable_run fresh _) _

/-- The middle page is a run of its own. -/
theorem queries_report_pages_protectedMiddle : protectedMiddle.pages.Reports 0x11234
      ⟨0x11000, 0x10000, pageReadWrite, 0x1000, memCommit, pageReadOnly, memPrivate⟩ := by
  have reported := (queries_report_pages blockKernelLaws protectedMiddle_reachable).2 0x11234
  have answer : query protectedMiddle.host.regions 0x11234 =
      ⟨0x11000, 0x10000, pageReadWrite, 0x1000, memCommit, pageReadOnly,
        memPrivate⟩ := by decide +kernel
  rwa [answer] at reported

end PosixHostMemory
end SharpEmu
