import SharpEmu.PhysicalVirtualMemoryFrames

/-!
# Protections of mapped segments

Segments may share pages, so a page's protection is the union of the flags of
the segments that touch it.  The union is recorded page by page; the host is
asked once for each maximal run of pages with equal flags, which protects
every page as if it had been asked for by itself.
-/

namespace SharpEmu
namespace PhysicalVirtualMemory

open Faulting

variable {HostState : Type}
variable {platform : MemoryPlatform} {services : HostMemoryServices HostState}

@[simp]
theorem toNat_pageSize : pageSize.toNat = 4096 := rfl

theorem isPowerOfTwo_pageSize : Word64.IsPowerOfTwo pageSize := by
  unfold Word64.IsPowerOfTwo
  decide

def MemoryState.recordedFlags (memory : MemoryState) (page : UInt64) :
    ProgramHeaderFlags :=
  (memory.pageProtections page).getD flagNone

def PageIn (first stop : UInt64) (page : UInt64) : Prop :=
  4096 ∣ page.toNat ∧ first.toNat ≤ page.toNat ∧ page.toNat < stop.toNat

instance (first stop page : UInt64) : Decidable (PageIn first stop page) :=
  inferInstanceAs (Decidable (_ ∧ _ ∧ _))

theorem not_pageIn_self (first page : UInt64) : ¬ PageIn first first page := by
  unfold PageIn
  omega

structure PageBefore (pageAddress stop : UInt64) : Prop where
  aligned : 4096 ∣ pageAddress.toNat
  stopAligned : 4096 ∣ stop.toNat
  below : pageAddress.toNat < stop.toNat

variable {stop : UInt64}

theorem PageBefore.toNat_next {pageAddress : UInt64} (before : PageBefore pageAddress stop) :
    (pageAddress + pageSize).toNat = pageAddress.toNat + 4096 := by
  obtain ⟨aligned, stopAligned, below⟩ := before
  have bounded := stop.toNat_lt
  exact Word64.toNat_add_of_lt (by rw [toNat_pageSize]; omega)

theorem PageBefore.pageIn_next {first pageAddress page : UInt64}
    (before : PageBefore pageAddress stop)
    (above : first.toNat ≤ pageAddress.toNat) :
    PageIn first (pageAddress + pageSize) page ↔
      PageIn first pageAddress page ∨ page = pageAddress := by
  unfold PageIn
  rw [before.toNat_next, Word64.toNat_inj]
  have aligned := before.aligned
  omega

/-! ## What the page loop records -/

def MergedUpTo (records : UInt64 → ProgramHeaderFlags)
    (flags : ProgramHeaderFlags) (first stop : UInt64)
    (machine : Machine HostState) : Prop :=
  ∀ page, machine.memory.recordedFlags page =
    if PageIn first stop page then records page ||| flags else records page

section Records

variable {records : UInt64 → ProgramHeaderFlags} {flags : ProgramHeaderFlags}
variable {first mapEnd pageAddress : UInt64}

theorem mergedUpTo_start (machine : Machine HostState) :
    MergedUpTo machine.memory.recordedFlags flags first first machine := by
  intro page
  rw [if_neg (not_pageIn_self first page)]

def MemoryState.mergePage (memory : MemoryState) (pageAddress : UInt64)
    (flags : ProgramHeaderFlags) : MemoryState :=
  { memory with
    pageProtections := Function.update memory.pageProtections pageAddress
      (some (memory.recordedFlags pageAddress ||| flags)) }

theorem recordedFlags_mergePage (memory : MemoryState)
    (pageAddress page : UInt64) (flags : ProgramHeaderFlags) :
    (memory.mergePage pageAddress flags).recordedFlags page =
      if page = pageAddress then memory.recordedFlags pageAddress ||| flags
      else memory.recordedFlags page := by
  unfold MemoryState.mergePage MemoryState.recordedFlags
  by_cases same : page = pageAddress
  · simp [same]
  · simp [same, Function.update_of_ne]

theorem MergedUpTo.next {machine : Machine HostState}
    (merged : MergedUpTo records flags first pageAddress machine)
    (before : PageBefore pageAddress mapEnd)
    (above : first.toNat ≤ pageAddress.toNat) :
    MergedUpTo records flags first (pageAddress + pageSize)
      ⟨machine.memory.mergePage pageAddress flags, machine.host⟩ := by
  intro page
  have visited := merged pageAddress
  rw [if_neg (by unfold PageIn; omega)] at visited
  rw [recordedFlags_mergePage, merged page, visited]
  by_cases same : page = pageAddress
  · rw [if_pos same, if_pos ((before.pageIn_next above).mpr (.inr same)), same]
  · simp only [before.pageIn_next above, same, or_false, if_false]

end Records

/-! ## What the host is asked for -/

/-- The protection of each page as the host keeps it: a granted request for
whole pages gives each of them the requested protection and leaves every other
page alone. -/
structure ProtectsPages (services : HostMemoryServices HostState)
    (view : HostState → UInt64 → HostPageProtection) : Prop where
  granted : ∀ host address size protection after, 4096 ∣ address.toNat →
    4096 ∣ size.toNat → address.toNat + size.toNat < 2 ^ 64 →
    services.protect host address size protection = (true, after) →
    ∀ page, 4096 ∣ page.toNat → view after page =
      if PageIn address (address + size) page then protection
      else view host page

def ProtectedUpTo (view : HostState → UInt64 → HostPageProtection)
    (host : HostState) (first stop : UInt64) (machine : Machine HostState) :
    Prop :=
  ∀ page, 4096 ∣ page.toNat → view machine.host page =
    if PageIn first stop page then
      hostProtectionOf (machine.memory.recordedFlags page)
    else view host page

section Runs

variable {view : HostState → UInt64 → HostPageProtection} {host : HostState}
variable {flags : ProgramHeaderFlags} {first mapEnd pageAddress : UInt64}

theorem protectedUpTo_start (machine : Machine HostState) :
    ProtectedUpTo view machine.host first first machine := by
  intro page aligned
  rw [if_neg (not_pageIn_self first page)]

variable {machine : Machine HostState}

theorem ProtectedUpTo.mergePage {stop : UInt64}
    (isProtected : ProtectedUpTo view host first stop machine)
    (beyond : stop.toNat ≤ pageAddress.toNat) :
    ProtectedUpTo view host first stop
      ⟨machine.memory.mergePage pageAddress flags, machine.host⟩ := by
  intro page aligned
  rw [isProtected page aligned]
  by_cases inside : PageIn first stop page
  · have different : page ≠ pageAddress := by
      rintro rfl
      unfold PageIn at inside
      omega
    rw [if_pos inside, if_pos inside, recordedFlags_mergePage, if_neg different]
  · rw [if_neg inside, if_neg inside]

theorem setProtection_run (first runStart stop : UInt64)
    (runFlags : ProgramHeaderFlags) (aligned : 4096 ∣ runStart.toNat)
    (above : first.toNat ≤ runStart.toNat)
    (before : PageBefore runStart stop) (memory : MemoryState) :
    Ensures (fun machine : Machine HostState => machine.memory = memory ∧
        (∀ page, PageIn runStart stop page → memory.recordedFlags page = runFlags) ∧
        ∀ view, ProtectsPages services view → ProtectedUpTo view host first runStart machine)
      (setProtection services runStart (stop - runStart) runFlags)
      (fun _ machine => machine.memory = memory ∧ ∀ view, ProtectsPages services view →
          ProtectedUpTo view host first stop machine)
      (fun machine => machine.memory = memory) := by
  have difference : (stop - runStart).toNat = stop.toNat - runStart.toNat :=
    UInt64.toNat_sub_of_le _ _ (UInt64.le_iff_toNat_le.mpr (Nat.le_of_lt before.below))
  have rejoined : runStart + (stop - runStart) = stop := by
    rw [UInt64.add_comm, UInt64.sub_add_cancel]
  obtain ⟨_, stopAligned, below⟩ := before
  have bounded := stop.toNat_lt
  rintro machine ⟨rfl, sameFlags, isProtected⟩
  unfold setProtection
  rcases asked : services.protect machine.host runStart (stop - runStart)
    (hostProtectionOf runFlags) with ⟨changed, after⟩
  rw [outcome_bind, onHost, outcome_modifyGet, asked]
  cases changed with
  | false =>
    constructor
    · rintro _ _ ⟨⟩
    · rintro _ _ ⟨⟩
      rfl
  | true =>
    constructor
    · rintro _ _ ⟨⟩
      refine ⟨rfl, fun view lawful page pageAligned => ?_⟩
      have granted := lawful.granted _ _ _ _ _ aligned (by omega) (by omega) asked page pageAligned
      rw [rejoined] at granted
      change view after page = _
      rw [granted, isProtected view lawful page pageAligned]
      by_cases inRun : PageIn runStart stop page
      · have inside : PageIn first stop page :=
          ⟨pageAligned, Nat.le_trans above inRun.2.1, inRun.2.2⟩
        rw [if_pos inRun, if_pos inside, sameFlags page inRun]
      · have split : PageIn first stop page ↔ PageIn first runStart page := by
          unfold PageIn at inRun ⊢
          omega
        simp only [if_neg inRun, split]
    · rintro _ _ ⟨⟩

/-! ## The page loop -/

/-- The flags have been merged into the pages up to some stop. -/
def StoppedEarly (start : Machine HostState) (flags : ProgramHeaderFlags)
    (first mapEnd : UInt64) (machine : Machine HostState) : Prop :=
  ∃ stop : UInt64, stop.toNat ≤ mapEnd.toNat ∧
    MergedUpTo start.memory.recordedFlags flags first stop machine

def runStart (pageAddress : UInt64) : Option ProtectionRun → UInt64
  | none => pageAddress
  | some run => run.start

/-- What holds when the loop stands at a page: the pages before it are merged,
those of the open run share its flags, and those before the run are
protected. -/
structure PageLoop (services : HostMemoryServices HostState)
    (start : Machine HostState) (flags : ProgramHeaderFlags)
    (first pageAddress : UInt64) (run : Option ProtectionRun)
    (machine : Machine HostState) : Prop where
  merged : MergedUpTo start.memory.recordedFlags flags first pageAddress machine
  started : run = none → pageAddress = first
  ordered : first.toNat ≤ (runStart pageAddress run).toNat ∧
    (runStart pageAddress run).toNat ≤ pageAddress.toNat
  nonempty : ∀ current, run = some current →
    PageBefore current.start pageAddress
  sameFlags : ∀ current, run = some current →
    ∀ page, PageIn current.start pageAddress page →
      machine.memory.recordedFlags page = current.flags
  isProtected : ∀ view, ProtectsPages services view → ProtectedUpTo view
    start.host first (runStart pageAddress run) machine

variable {start : Machine HostState} {run : Option ProtectionRun}

theorem pageLoop_start : PageLoop services start flags first first none start where
  merged := mergedUpTo_start start
  started _ := rfl
  ordered := ⟨Nat.le_refl _, Nat.le_refl _⟩
  nonempty := by rintro _ ⟨⟩
  sameFlags := by rintro _ ⟨⟩
  isProtected _ _ := protectedUpTo_start start

theorem PageLoop.first_le (loop : PageLoop services start flags first pageAddress run machine) :
    first.toNat ≤ pageAddress.toNat :=
  Nat.le_trans loop.ordered.1 loop.ordered.2

theorem pageLoop_opened
    (merged : MergedUpTo start.memory.recordedFlags flags first (pageAddress + pageSize) machine)
    (isProtected : ∀ view, ProtectsPages services view →
      ProtectedUpTo view start.host first pageAddress machine)
    (before : PageBefore pageAddress mapEnd)
    (above : first.toNat ≤ pageAddress.toNat) :
    PageLoop services start flags first (pageAddress + pageSize)
      (some ⟨pageAddress, machine.memory.recordedFlags pageAddress⟩)
      machine where
  merged := merged
  started := by rintro ⟨⟩
  ordered := by
    have next := before.toNat_next
    simp only [runStart]
    omega
  nonempty := by
    rintro _ ⟨⟩
    change PageBefore pageAddress (pageAddress + pageSize)
    have next := before.toNat_next
    have aligned := before.aligned
    exact ⟨aligned, by omega, by omega⟩
  sameFlags := by
    rintro _ ⟨⟩ page inside
    have isPage := ((before.pageIn_next (Nat.le_refl _)).mp inside).resolve_left
      (not_pageIn_self _ _)
    rw [isPage]
  isProtected := isProtected

variable {current : ProtectionRun}

theorem PageLoop.extended
    (loop : PageLoop services start flags first pageAddress (some current) machine)
    (before : PageBefore pageAddress mapEnd)
    (same : machine.memory.recordedFlags pageAddress ||| flags = current.flags) :
    PageLoop services start flags first (pageAddress + pageSize) (some current)
      ⟨machine.memory.mergePage pageAddress flags, machine.host⟩ where
  merged := loop.merged.next before loop.first_le
  started := by rintro ⟨⟩
  ordered := by
    have next := before.toNat_next
    have ordered := loop.ordered
    simp only [runStart] at ordered ⊢
    omega
  nonempty := by
    rintro _ ⟨⟩
    have next := before.toNat_next
    obtain ⟨aligned, stopAligned, below⟩ := loop.nonempty _ rfl
    exact ⟨aligned, by omega, by omega⟩
  sameFlags := by
    rintro _ ⟨⟩ page inside
    rw [recordedFlags_mergePage]
    by_cases isPage : page = pageAddress
    · rw [if_pos isPage, same]
    · have earlier := ((before.pageIn_next loop.ordered.2).mp inside).resolve_right isPage
      rw [if_neg isPage, loop.sameFlags _ rfl page earlier]
  isProtected view lawful := by
    have isProtected := loop.isProtected view lawful
    change ProtectedUpTo view start.host first current.start _ at isProtected ⊢
    exact isProtected.mergePage loop.ordered.2

def Visited (services : HostMemoryServices HostState)
    (start : Machine HostState) (flags : ProgramHeaderFlags)
    (first pageAddress : UInt64) (run : Option ProtectionRun)
    (memory : MemoryState) (machine : Machine HostState) : Prop :=
  machine.memory = memory.mergePage pageAddress flags ∧
    PageLoop services start flags first pageAddress run ⟨memory, machine.host⟩

variable {memory : MemoryState}

theorem Visited.merged (visited : Visited services start flags first pageAddress run memory
      machine) (before : PageBefore pageAddress mapEnd) :
    MergedUpTo start.memory.recordedFlags flags first (pageAddress + pageSize)
      machine := by
  obtain ⟨isMemory, loop⟩ := visited
  have merged := loop.merged.next before loop.first_le
  rw [← isMemory] at merged
  exact merged

theorem Visited.opened (visited : Visited services start flags first pageAddress none memory
      machine) (before : PageBefore pageAddress mapEnd) :
    PageLoop services start flags first (pageAddress + pageSize)
      (some ⟨pageAddress, memory.recordedFlags pageAddress ||| flags⟩)
      machine := by
  have merged := visited.merged before
  obtain ⟨isMemory, loop⟩ := visited
  have isFlags : machine.memory.recordedFlags pageAddress =
      memory.recordedFlags pageAddress ||| flags := by
    rw [isMemory, recordedFlags_mergePage, if_pos rfl]
  rw [← isFlags]
  refine pageLoop_opened merged (fun view lawful => ?_) before loop.first_le
  have isProtected : ProtectedUpTo view start.host first pageAddress
      ⟨memory.mergePage pageAddress flags, machine.host⟩ :=
    (loop.isProtected view lawful).mergePage (Nat.le_refl _)
  rw [← isMemory] at isProtected
  exact isProtected

theorem setProtection_visited (before : PageBefore pageAddress mapEnd) :
    Ensures (Visited services start flags first pageAddress (some current) memory)
      (setProtection services current.start (pageAddress - current.start) current.flags)
      (fun _ => PageLoop services start flags first (pageAddress + pageSize)
        (some ⟨pageAddress, memory.recordedFlags pageAddress ||| flags⟩))
      (StoppedEarly start flags first mapEnd) := by
  intro machine visited
  have merged := visited.merged before
  obtain ⟨isMemory, loop⟩ := visited
  have isFlags : machine.memory.recordedFlags pageAddress =
      memory.recordedFlags pageAddress ||| flags := by
    rw [isMemory, recordedFlags_mergePage, if_pos rfl]
  have sameFlags : ∀ page, PageIn current.start pageAddress page →
      machine.memory.recordedFlags page = current.flags := by
    intro page inside
    have different : page ≠ pageAddress := by
      rintro rfl
      unfold PageIn at inside
      omega
    rw [isMemory, recordedFlags_mergePage, if_neg different]
    exact loop.sameFlags current rfl page inside
  have isProtected : ∀ view, ProtectsPages services view →
      ProtectedUpTo view start.host first current.start machine := by
    intro view lawful
    have earlier : ProtectedUpTo view start.host first current.start
        ⟨memory.mergePage pageAddress flags, machine.host⟩ :=
      (loop.isProtected view lawful).mergePage loop.ordered.2
    rw [← isMemory] at earlier
    exact earlier
  have nonempty := loop.nonempty current rfl
  have finished := setProtection_run first current.start pageAddress
    current.flags nonempty.aligned loop.ordered.1 nonempty machine.memory
    machine ⟨rfl, sameFlags, isProtected⟩
  refine ⟨fun _ after ended => ?_, fun _ after ended => ?_⟩
  · obtain ⟨unchanged, nowProtected⟩ := finished.1 _ _ ended
    have stillMerged : MergedUpTo start.memory.recordedFlags flags first
        (pageAddress + pageSize) after := by
      intro page
      rw [unchanged, merged page]
    have opened := pageLoop_opened stillMerged nowProtected before loop.first_le
    rwa [unchanged, isFlags] at opened
  · have next := before.toNat_next
    obtain ⟨aligned, stopAligned, below⟩ := before
    refine ⟨pageAddress + pageSize, by omega, fun page => ?_⟩
    rw [finished.2 _ _ ended, merged page]

theorem applySegmentPages_loop (stopAligned : 4096 ∣ mapEnd.toNat)
    (pages : ℕ) (aligned : 4096 ∣ pageAddress.toNat)
    (within : pageAddress.toNat ≤ mapEnd.toNat)
    (enough : (mapEnd.toNat - pageAddress.toNat) / 4096 < pages) :
    Ensures (PageLoop services start flags first pageAddress run)
      (applySegmentPages services mapEnd flags pages pageAddress run)
      (fun lastRun => PageLoop services start flags first mapEnd lastRun)
      (StoppedEarly start flags first mapEnd) := by
  induction pages generalizing pageAddress run with
  | zero => omega
  | succ pages ih =>
    refine Ensures.ite (fun isBefore => ?_) fun isLast => ?_
    · have before : PageBefore pageAddress mapEnd :=
        ⟨aligned, stopAligned, UInt64.lt_iff_toNat_lt.mp isBefore⟩
      have next := before.toNat_next
      have below := before.below
      have onwards (nextRun : Option ProtectionRun) : Ensures
          (PageLoop services start flags first (pageAddress + pageSize) nextRun)
          (applySegmentPages services mapEnd flags pages (pageAddress + pageSize) nextRun)
          (fun lastRun => PageLoop services start flags first mapEnd lastRun)
          (StoppedEarly start flags first mapEnd) :=
        ih (by omega) (by omega) (by omega)
      have looked : Ensures (PageLoop services start flags first pageAddress run)
          (readMemory : Program HostState MemoryState)
          (fun memory machine => machine.memory = memory ∧
            PageLoop services start flags first pageAddress run machine)
          (StoppedEarly start flags first mapEnd) :=
        ensures_modifyGet fun _ loop => ⟨rfl, loop⟩
      apply looked.bind
      intro memory
      have recorded : Ensures (fun machine => machine.memory = memory ∧
            PageLoop services start flags first pageAddress run machine)
          (onMemory fun memory' => { memory' with
            pageProtections := Function.update memory'.pageProtections pageAddress
              (some ((memory.pageProtections pageAddress).getD flagNone ||| flags)) })
          (fun _ => Visited services start flags first pageAddress run memory)
          (StoppedEarly start flags first mapEnd) := by
        apply ensures_modify
        rintro machine ⟨rfl, loop⟩
        exact ⟨rfl, loop⟩
      apply recorded.bind
      rintro ⟨⟩
      cases run with
      | none =>
        exact (onwards _).ofPre fun machine visited =>
          visited.opened before
      | some current =>
        refine Ensures.ite (fun _ => ?_) fun same => ?_
        · exact (setProtection_visited before).bind fun _ => onwards _
        · refine (onwards _).ofPre fun machine visited => ?_
          obtain ⟨isMemory, loop⟩ := visited
          have extended := loop.extended before (not_not.mp same)
          rw [← isMemory] at extended
          exact extended
    · have isEnd : pageAddress = mapEnd := by
        rw [Word64.toNat_inj]
        rw [UInt64.lt_iff_toNat_lt] at isLast
        omega
      rw [isEnd]
      exact ensures_pure fun _ loop => loop

def PagesApplied (services : HostMemoryServices HostState)
    (start : Machine HostState) (flags : ProgramHeaderFlags)
    (first stop : UInt64) (machine : Machine HostState) : Prop :=
  MergedUpTo start.memory.recordedFlags flags first stop machine ∧
    ∀ view, ProtectsPages services view → ProtectedUpTo view start.host first stop machine

theorem applySegmentProtection_spec (aligned : 4096 ∣ first.toNat)
    (stopAligned : 4096 ∣ mapEnd.toNat)
    (within : first.toNat ≤ mapEnd.toNat) :
    Ensures (fun machine => machine = start) (applySegmentProtection services first mapEnd flags)
      (fun _ => PagesApplied services start flags first mapEnd)
      (StoppedEarly start flags first mapEnd) := by
  have visited : Ensures (PageLoop services start flags first first none)
      (applySegmentPages services mapEnd flags
        ((mapEnd.toNat - first.toNat) / pageSize.toNat + 1) first none)
      (fun lastRun => PageLoop services start flags first mapEnd lastRun)
      (StoppedEarly start flags first mapEnd) :=
    applySegmentPages_loop stopAligned _ aligned within (Nat.lt_succ_self _)
  refine (visited.ofPre ?_).bind fun lastRun => ?_
  · rintro _ rfl
    exact pageLoop_start
  · cases lastRun with
    | none =>
      refine ensures_pure fun machine loop => ?_
      have isEnd := loop.started rfl
      refine ⟨loop.merged, fun view lawful => ?_⟩
      have isProtected := loop.isProtected view lawful
      exact isProtected
    | some current =>
      intro machine loop
      have nonempty := loop.nonempty current rfl
      have finished := setProtection_run first current.start mapEnd
        current.flags nonempty.aligned loop.ordered.1 nonempty machine.memory
        machine ⟨rfl, loop.sameFlags current rfl, loop.isProtected⟩
      refine ⟨fun _ after ended => ?_, fun _ after ended => ?_⟩
      · obtain ⟨unchanged, nowProtected⟩ := finished.1 _ _ ended
        refine ⟨fun page => ?_, nowProtected⟩
        rw [unchanged, loop.merged page]
      · refine ⟨mapEnd, Nat.le_refl _, fun page => ?_⟩
        rw [finished.2 _ _ ended, loop.merged page]

/-! ## Protecting each page separately -/

def protectEachPage (services : HostMemoryServices HostState)
    (mapEnd : UInt64) (flags : ProgramHeaderFlags) :
    ℕ → UInt64 → Program HostState Unit
  | 0, _ => pure ()
  | pages + 1, pageAddress =>
      if pageAddress < mapEnd then do
        let memory ← readMemory
        onMemory fun memory => memory.mergePage pageAddress flags
        setProtection services pageAddress pageSize (memory.recordedFlags pageAddress ||| flags)
        protectEachPage services mapEnd flags pages (pageAddress + pageSize)
      else pure ()

def applyEachPage (services : HostMemoryServices HostState)
    (mapStart mapEnd : UInt64) (flags : ProgramHeaderFlags) :
    Program HostState Unit :=
  protectEachPage services mapEnd flags
    ((mapEnd.toNat - mapStart.toNat) / pageSize.toNat + 1) mapStart

theorem setProtection_page (before : PageBefore pageAddress mapEnd)
    (above : first.toNat ≤ pageAddress.toNat) :
    Ensures (fun machine => machine.memory = memory.mergePage pageAddress flags ∧
        PagesApplied services start flags first pageAddress ⟨memory, machine.host⟩)
      (setProtection services pageAddress pageSize (memory.recordedFlags pageAddress ||| flags))
      (fun _ => PagesApplied services start flags first (pageAddress + pageSize))
      (fun _ => True) := by
  have next := before.toNat_next
  have aligned := before.aligned
  have onePage : PageBefore pageAddress (pageAddress + pageSize) :=
    ⟨aligned, by omega, by omega⟩
  have distance : pageAddress + pageSize - pageAddress = pageSize := by
    rw [UInt64.add_comm, UInt64.add_sub_cancel]
  rintro machine ⟨isMemory, merged, isProtected⟩
  have nowMerged := merged.next before above
  have sameFlags : ∀ page, PageIn pageAddress (pageAddress + pageSize) page →
      (memory.mergePage pageAddress flags).recordedFlags page =
        memory.recordedFlags pageAddress ||| flags := by
    intro page inside
    have isPage := ((onePage.pageIn_next (Nat.le_refl _)).mp
      inside).resolve_left (not_pageIn_self _ _)
    rw [recordedFlags_mergePage, if_pos isPage]
  have earlier : ∀ view, ProtectsPages services view →
      ProtectedUpTo view start.host first pageAddress machine := by
    intro view lawful
    have kept : ProtectedUpTo view start.host first pageAddress
        ⟨memory.mergePage pageAddress flags, machine.host⟩ :=
      (isProtected view lawful).mergePage (Nat.le_refl _)
    rw [← isMemory] at kept
    exact kept
  have finished := setProtection_run first pageAddress
    (pageAddress + pageSize) _ aligned above onePage _ machine
    ⟨isMemory, sameFlags, earlier⟩
  rw [distance] at finished
  refine ⟨fun _ after ended => ?_, fun _ _ _ => trivial⟩
  obtain ⟨unchanged, nowProtected⟩ := finished.1 _ _ ended
  refine ⟨fun page => ?_, nowProtected⟩
  rw [unchanged]
  exact nowMerged page

theorem protectEachPage_spec (stopAligned : 4096 ∣ mapEnd.toNat)
    (pages : ℕ) (aligned : 4096 ∣ pageAddress.toNat)
    (above : first.toNat ≤ pageAddress.toNat)
    (within : pageAddress.toNat ≤ mapEnd.toNat)
    (enough : (mapEnd.toNat - pageAddress.toNat) / 4096 < pages) :
    Ensures (PagesApplied services start flags first pageAddress)
      (protectEachPage services mapEnd flags pages pageAddress)
      (fun _ => PagesApplied services start flags first mapEnd)
      (fun _ => True) := by
  induction pages generalizing pageAddress with
  | zero => omega
  | succ pages ih =>
    refine Ensures.ite (fun isBefore => ?_) fun isLast => ?_
    · have before : PageBefore pageAddress mapEnd :=
        ⟨aligned, stopAligned, UInt64.lt_iff_toNat_lt.mp isBefore⟩
      have next := before.toNat_next
      have below := before.below
      have onwards : Ensures (PagesApplied services start flags first (pageAddress + pageSize))
          (protectEachPage services mapEnd flags pages (pageAddress + pageSize))
          (fun _ => PagesApplied services start flags first mapEnd)
          (fun _ => True) :=
        ih (by omega) (by omega) (by omega) (by omega)
      have looked : Ensures (PagesApplied services start flags first pageAddress)
          (readMemory : Program HostState MemoryState)
          (fun memory machine => machine.memory = memory ∧
            PagesApplied services start flags first pageAddress machine)
          (fun _ => True) :=
        ensures_modifyGet fun _ applied => ⟨rfl, applied⟩
      apply looked.bind
      intro memory
      have recorded : Ensures (fun machine => machine.memory = memory ∧
            PagesApplied services start flags first pageAddress machine)
          (onMemory fun memory => memory.mergePage pageAddress flags)
          (fun _ machine =>
            machine.memory = memory.mergePage pageAddress flags ∧
            PagesApplied services start flags first pageAddress ⟨memory, machine.host⟩)
          (fun _ => True) := by
        apply ensures_modify
        rintro machine ⟨rfl, applied⟩
        exact ⟨rfl, applied⟩
      apply recorded.bind
      rintro ⟨⟩
      exact (setProtection_page before above).bind fun _ => onwards
    · have isEnd : pageAddress = mapEnd := by
        rw [Word64.toNat_inj]
        rw [UInt64.lt_iff_toNat_lt] at isLast
        omega
      rw [isEnd]
      exact ensures_pure fun _ known => known

end Runs

/-! ## Calls of `Map` -/

/-- The arguments of one call of `Map`; of its file data only the length. -/
structure SegmentRequest where
  virtualAddress : UInt64
  memorySize : UInt64
  fileLength : UInt64
  protection : ProgramHeaderFlags
deriving DecidableEq, Repr

def SegmentRequest.map (platform : MemoryPlatform)
    (services : HostMemoryServices HostState) (segment : SegmentRequest) :
    Program HostState Unit :=
  PhysicalVirtualMemory.map platform services segment.virtualAddress
    segment.memorySize segment.fileLength segment.protection

def SegmentRequest.Touches (segment : SegmentRequest) (page : UInt64) : Prop :=
  4096 ∣ page.toNat ∧ segment.virtualAddress.toNat < page.toNat + 4096 ∧
    page.toNat < segment.virtualAddress.toNat + segment.memorySize.toNat

instance (segment : SegmentRequest) (page : UInt64) : Decidable (segment.Touches page) :=
  inferInstanceAs (Decidable (_ ∧ _ ∧ _))

/-- The end of a page, rounded up without overflow. -/
structure MapRange (segment : SegmentRequest) (mapEnd : UInt64) : Prop where
  stopAligned : 4096 ∣ mapEnd.toNat
  above : segment.virtualAddress.toNat + segment.memorySize.toNat ≤
    mapEnd.toNat
  below : mapEnd.toNat <
    segment.virtualAddress.toNat + segment.memorySize.toNat + 4096

variable {segment : SegmentRequest}

theorem mapRange_of_rounded {segmentEnd mapEnd : UInt64}
    (added : Word64.checkedAdd segment.virtualAddress segment.memorySize = some segmentEnd)
    (rounded : Word64.checkedRoundUp segmentEnd pageSize = some mapEnd) :
    MapRange segment mapEnd := by
  obtain ⟨_, isSum⟩ := Word64.checkedAdd_eq_some.mp added
  have isRounded := Word64.toNat_of_checkedRoundUp isPowerOfTwo_pageSize rounded
  rw [toNat_pageSize] at isRounded
  exact ⟨by omega, by omega, by omega⟩

theorem toNat_alignDown_pageSize (value : UInt64) :
    (alignDown value pageSize).toNat = 4096 * (value.toNat / 4096) :=
  Word64.toNat_roundDown value isPowerOfTwo_pageSize

theorem MapRange.pageIn_iff {mapEnd : UInt64} (range : MapRange segment mapEnd) (page : UInt64) :
    PageIn (alignDown segment.virtualAddress pageSize) mapEnd page ↔ segment.Touches page := by
  unfold PageIn SegmentRequest.Touches
  rw [toNat_alignDown_pageSize]
  obtain ⟨stopAligned, above, below⟩ := range
  omega

def RecordedUpTo (records : UInt64 → ProgramHeaderFlags)
    (segment : SegmentRequest) (stop : ℕ) (machine : Machine HostState) :
    Prop :=
  ∀ page, machine.memory.recordedFlags page =
    if segment.Touches page ∧ page.toNat < stop then
      records page ||| segment.protection
    else records page

theorem placementBlind_records (records : UInt64 → ProgramHeaderFlags) :
    PlacementBlind fun machine : Machine HostState =>
      machine.memory.recordedFlags = records where
  host _ _ _ holds := holds
  regions _ _ _ holds := holds

theorem PlacementBlind.keeps_setProtection
    {property : Machine HostState → Prop} (blind : PlacementBlind property)
    (address size : UInt64) (flags : ProgramHeaderFlags) :
    Keeps property (setProtection services address size flags) :=
  (keeps_onHost fun _ _ holds => blind.host _ _ _ holds).bind fun _ =>
    Keeps.ite (fun _ => keeps_pure _) fun _ => keeps_throw _

theorem recordedUpTo_zero {records : UInt64 → ProgramHeaderFlags} {machine : Machine HostState}
    (unchanged : machine.memory.recordedFlags = records) :
    RecordedUpTo records segment 0 machine := by
  intro page
  rw [unchanged, if_neg (by omega)]

theorem applySegmentProtection_records (records : UInt64 → ProgramHeaderFlags)
    {mapEnd : UInt64} (range : MapRange segment mapEnd) :
    Ensures (fun machine => machine.memory.recordedFlags = records) (applySegmentProtection services
        (alignDown segment.virtualAddress pageSize) mapEnd segment.protection)
      (fun _ => RecordedUpTo records segment (segment.virtualAddress.toNat +
        segment.memorySize.toNat))
      (fun machine => ∃ stop, RecordedUpTo records segment stop machine) := by
  have mapStart := toNat_alignDown_pageSize segment.virtualAddress
  obtain ⟨stopAligned, above, below⟩ := range
  rintro machine rfl
  have applied : Ensures (fun other => other = machine) (applySegmentProtection services
        (alignDown segment.virtualAddress pageSize) mapEnd segment.protection)
      (fun _ => PagesApplied services machine segment.protection
        (alignDown segment.virtualAddress pageSize) mapEnd)
      (StoppedEarly machine segment.protection
        (alignDown segment.virtualAddress pageSize) mapEnd) :=
    applySegmentProtection_spec (by omega) stopAligned (by omega)
  obtain ⟨returned, threw⟩ := applied machine rfl
  refine ⟨fun _ after ended page => ?_, fun fault after ended => ?_⟩
  · rw [(returned _ _ ended).1 page]
    have touches := MapRange.pageIn_iff ⟨stopAligned, above, below⟩ page
    have untilEnd : segment.Touches page ∧ page.toNat <
        segment.virtualAddress.toNat + segment.memorySize.toNat ↔
          segment.Touches page := and_iff_left_of_imp fun touched => touched.2.2
    simp only [touches, untilEnd]
  · obtain ⟨stop, atMost, merged⟩ := threw _ _ ended
    refine ⟨stop.toNat, fun page => ?_⟩
    rw [merged page]
    have recorded : PageIn (alignDown segment.virtualAddress pageSize) stop
        page ↔ segment.Touches page ∧ page.toNat < stop.toNat := by
      rw [← MapRange.pageIn_iff ⟨stopAligned, above, below⟩]
      unfold PageIn
      omega
    simp only [recorded]

theorem map_records (records : UInt64 → ProgramHeaderFlags) (segment : SegmentRequest) :
    Ensures (fun machine => machine.memory.recordedFlags = records) (segment.map platform services)
      (fun _ => RecordedUpTo records segment (segment.virtualAddress.toNat +
        segment.memorySize.toNat))
      (fun machine => ∃ stop, RecordedUpTo records segment stop machine) := by
  have nothing : ∀ machine : Machine HostState, machine.memory.recordedFlags = records →
        ∃ stop, RecordedUpTo records segment stop machine :=
    fun _ unchanged => ⟨0, recordedUpTo_zero unchanged⟩
  refine Ensures.ite (fun _ => ensures_throw nothing) fun _ => ?_
  refine Ensures.ite (fun _ => ensures_throw nothing) fun _ => ?_
  unfold checkedSum
  cases added : Word64.checkedAdd segment.virtualAddress segment.memorySize with
  | none => exact ensures_throw nothing
  | some segmentEnd =>
  simp only [pure_bind]
  unfold alignUp
  cases rounded : Word64.checkedRoundUp segmentEnd pageSize with
  | none => exact ensures_throw nothing
  | some mapEnd =>
  simp only [pure_bind]
  have staged (mapSize : UInt64) (flags : ProgramHeaderFlags) : Ensures
      (fun machine => machine.memory.recordedFlags = records)
      (setProtection services (alignDown segment.virtualAddress pageSize) mapSize flags >>= fun _ =>
        applySegmentProtection services (alignDown segment.virtualAddress pageSize) mapEnd
          segment.protection)
      (fun _ => RecordedUpTo records segment (segment.virtualAddress.toNat +
        segment.memorySize.toNat))
      (fun machine => ∃ stop, RecordedUpTo records segment stop machine) :=
    (((placementBlind_records records).keeps_setProtection _ _ _).imp
      (fun _ unchanged => unchanged) (fun _ _ unchanged => unchanged)
        nothing).bind fun _ => applySegmentProtection_records records
          (mapRange_of_rounded added rounded)
  refine ((keeps_checkedDifference _ _).imp (fun _ unchanged => unchanged)
    (fun _ _ unchanged => unchanged) nothing).bind fun mapSize => ?_
  refine (keeps_readMemory.imp (fun _ unchanged => unchanged)
    (fun _ _ unchanged => unchanged) nothing).bind fun memory => ?_
  refine Ensures.ite (fun _ => ?_) fun _ => staged _ _
  exact (((placementBlind_records records).keeps_allocateAt _ _ _ _).imp
    (fun _ unchanged => unchanged) (fun _ _ unchanged => unchanged)
      nothing).bind fun _ => staged _ _

/-! ## Sequences of calls -/

abbrev MapCall := SegmentRequest × Except MemoryFault Unit

def mapSegments (platform : MemoryPlatform) (services : HostMemoryServices HostState) :
    List SegmentRequest → Machine HostState → List MapCall × Machine HostState
  | [], machine => ([], machine)
  | segment :: rest, machine =>
      let ended := (segment.map platform services).outcome machine
      let others := mapSegments platform services rest ended.2
      ((segment, ended.1) :: others.1, others.2)

def unionOfFlags (page : UInt64) : List (SegmentRequest × ℕ) → ProgramHeaderFlags
  | [] => flagNone
  | (segment, stop) :: rest =>
      (if segment.Touches page ∧ page.toNat < stop then segment.protection
        else flagNone) ||| unionOfFlags page rest

def StopsFor (call : MapCall) (stop : ℕ) : Prop :=
  call.2 = .ok () → call.1.virtualAddress.toNat + call.1.memorySize.toNat ≤ stop

def flagsTouching (page : UInt64) : List SegmentRequest → ProgramHeaderFlags
  | [] => flagNone
  | segment :: rest =>
      (if segment.Touches page then segment.protection else flagNone) ||| flagsTouching page rest

variable (platform services) in
theorem map_stops (segment : SegmentRequest) (machine : Machine HostState) : ∃ stop, StopsFor
        (segment, ((segment.map platform services).outcome machine).1) stop ∧
      RecordedUpTo machine.memory.recordedFlags segment stop
        ((segment.map platform services).outcome machine).2 := by
  have specified : Ensures (fun other => other.memory.recordedFlags = machine.memory.recordedFlags)
      (segment.map platform services) _ _ := map_records _ segment
  obtain ⟨returned, threw⟩ := specified machine rfl
  rcases ended : (segment.map platform services).outcome machine with
    ⟨fault | ⟨⟩, after⟩
  · obtain ⟨stop, recorded⟩ := threw _ _ ended
    exact ⟨stop, by rintro ⟨⟩, recorded⟩
  · exact ⟨_, fun _ => Nat.le_refl _, returned _ _ ended⟩

variable (platform services) in
theorem mapSegments_records (segments : List SegmentRequest) (machine : Machine HostState) :
    ∃ stops, List.Forall₂ StopsFor (mapSegments platform services segments machine).1 stops ∧
      ∀ page, (mapSegments platform services segments machine).2.memory.recordedFlags page =
        machine.memory.recordedFlags page ||| unionOfFlags page (segments.zip stops) := by
  induction segments generalizing machine with
  | nil => exact ⟨[], .nil, fun page => UInt32.or_zero.symm⟩
  | cons segment rest ih =>
    obtain ⟨stop, accounts, recorded⟩ :=
      map_stops platform services segment machine
    obtain ⟨stops, restAccounts, restRecorded⟩ := ih
      ((segment.map platform services).outcome machine).2
    refine ⟨stop :: stops, .cons accounts restAccounts, fun page => ?_⟩
    change (mapSegments platform services rest ((segment.map platform services).outcome
        machine).2).2.memory.recordedFlags page = _
    rw [restRecorded page, recorded page, List.zip_cons_cons, unionOfFlags, ← UInt32.or_assoc]
    split <;> simp [flagNone]

variable (platform services) in
theorem mapSegments_segments (segments : List SegmentRequest) (machine : Machine HostState) :
    (mapSegments platform services segments machine).1.map Prod.fst =
      segments := by
  induction segments generalizing machine with
  | nil => rfl
  | cons segment rest ih =>
    exact congrArg (segment :: ·) (ih _)

theorem unionOfFlags_of_returned {calls : List MapCall} {stops : List ℕ}
    (accounts : List.Forall₂ StopsFor calls stops)
    (returned : ∀ call ∈ calls, call.2 = .ok ()) (page : UInt64) :
    unionOfFlags page ((calls.map Prod.fst).zip stops) =
      flagsTouching page (calls.map Prod.fst) := by
  induction accounts with
  | nil => rfl
  | cons accountsFor rest ih =>
    rename_i call stop calls stops
    have whole := accountsFor (returned call List.mem_cons_self)
    have counted : call.1.Touches page ∧ page.toNat < stop ↔
        call.1.Touches page := and_iff_left_of_imp fun touched => by
      have inside := touched.2.2
      omega
    have others := ih (List.forall_mem_cons.mp returned).2
    simp only [List.map_cons, List.zip_cons_cons, unionOfFlags, flagsTouching, counted, others]

/-! ## The protections of mapped segments -/

/-- After any sequence of `Map` calls the protection recorded for a page is the
union of the flags of the segments that touch it, and the host is asked for it. -/
theorem segment_protections_are_unions {view : HostState → UInt64 → HostPageProtection}
    (lawful : ProtectsPages services view) :
    (∀ segments machine calls after,
      mapSegments platform services segments machine = (calls, after) →
      (∃ stops, List.Forall₂ StopsFor calls stops ∧ ∀ page, after.memory.recordedFlags page =
          machine.memory.recordedFlags page ||| unionOfFlags page (segments.zip stops)) ∧
      ((∀ call ∈ calls, call.2 = .ok ()) → ∀ page, after.memory.recordedFlags page =
          machine.memory.recordedFlags page ||| flagsTouching page segments)) ∧
    ∀ mapStart mapEnd flags machine after, 4096 ∣ mapStart.toNat →
      4096 ∣ mapEnd.toNat → mapStart.toNat ≤ mapEnd.toNat →
      (applySegmentProtection services mapStart mapEnd flags).outcome machine = (.ok (), after) →
      (∀ page, 4096 ∣ page.toNat → view after.host page =
        if PageIn mapStart mapEnd page then
          hostProtectionOf (after.memory.recordedFlags page)
        else view machine.host page) ∧
      ∀ separate, (applyEachPage services mapStart mapEnd flags).outcome machine =
          (.ok (), separate) →
        separate.memory.recordedFlags = after.memory.recordedFlags ∧
        ∀ page, 4096 ∣ page.toNat → view separate.host page = view after.host page := by
  constructor
  · intro segments machine calls after ended
    obtain ⟨stops, accounts, recorded⟩ :=
      mapSegments_records platform services segments machine
    have isSegments := mapSegments_segments platform services segments machine
    rw [ended] at accounts recorded isSegments
    refine ⟨⟨stops, accounts, recorded⟩, fun returned page => ?_⟩
    have whole := unionOfFlags_of_returned accounts returned page
    rw [isSegments] at whole
    rw [recorded page, whole]
  · intro mapStart mapEnd flags machine after aligned stopAligned within ended
    have batched : Ensures (fun other => other = machine)
        (applySegmentProtection services mapStart mapEnd flags)
        (fun _ => PagesApplied services machine flags mapStart mapEnd)
        (StoppedEarly machine flags mapStart mapEnd) :=
      applySegmentProtection_spec aligned stopAligned within
    obtain ⟨merged, isProtected⟩ := (batched machine rfl).1 _ _ ended
    refine ⟨isProtected view lawful, fun separate separated => ?_⟩
    have eachPage : Ensures (PagesApplied services machine flags mapStart mapStart)
        (applyEachPage services mapStart mapEnd flags)
        (fun _ => PagesApplied services machine flags mapStart mapEnd)
        (fun _ => True) :=
      protectEachPage_spec stopAligned _ aligned (Nat.le_refl _) within (Nat.lt_succ_self _)
    obtain ⟨mergedToo, protectedToo⟩ := (eachPage machine
      ⟨mergedUpTo_start machine, fun _ _ => protectedUpTo_start machine⟩).1
        _ _ separated
    have sameRecords : separate.memory.recordedFlags =
        after.memory.recordedFlags := by
      ext page
      rw [mergedToo page, merged page]
    refine ⟨sameRecords, fun page pageAligned => ?_⟩
    rw [protectedToo view lawful page pageAligned,
      isProtected view lawful page pageAligned, sameRecords]

def pageTableHost : HostMemoryServices (UInt64 → HostPageProtection) where
  allocate host desiredAddress _ _ := (desiredAddress, host)
  reserve host desiredAddress _ _ := (desiredAddress, host)
  commit host _ _ _ := (true, host)
  free host _ := host
  protect host address size protection :=
    (true, fun page =>
      if PageIn address (address + size) page then protection else host page)

theorem protectsPages_pageTableHost : ProtectsPages pageTableHost id where
  granted := by
    rintro host address size protection _ _ _ _ ⟨⟩ page _
    rfl

def sharedPageSegments : List SegmentRequest :=
  [⟨0x400000, 0x1800, 0x1800, flagRead ||| flagExecute⟩,
    ⟨0x401800, 0x1800, 0x800, flagRead ||| flagWrite⟩]

theorem segment_protections_are_unions_sharedPage :
    (mapSegments linuxPlatform pageTableHost sharedPageSegments
      ⟨.initial, fun _ => .noAccess⟩).2.memory.recordedFlags 0x401000 =
      flagNone ||| flagsTouching 0x401000 sharedPageSegments :=
  ((segment_protections_are_unions protectsPages_pageTableHost).1
    sharedPageSegments ⟨.initial, fun _ => .noAccess⟩ _ _ rfl).2 (by decide +kernel) 0x401000

end PhysicalVirtualMemory
end SharpEmu
