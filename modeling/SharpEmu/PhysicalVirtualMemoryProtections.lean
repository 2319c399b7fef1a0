import SharpEmu.PhysicalVirtualMemoryFrames
import SharpEmu.PhysicalVirtualMemoryWrites
import SharpEmu.PosixHostMemoryRuns

/-!
# Page protections across a write

A write that has to change protections puts one protection back on the whole range,
the one that the range's first page had.  It leaves the host's record of protections
as it was when all pages of the range had that one.
-/

namespace SharpEmu

/-! ## Protection calls of the host -/

namespace PosixHostMemory

open Faulting Extent

variable {KernelState : Type} {kernel : PosixKernel KernelState}
variable {host : HostState KernelState} {address size : UInt64} {newProtect : UInt32}
variable {region : Region}

def roundedEnd (address size : UInt64) : UInt64 :=
  (address + size + pageSize - 1) &&& ~~~(pageSize - 1)

structure Grants (kernel : PosixKernel KernelState) (host : HostState KernelState)
    (address size : UInt64) (newProtect : UInt32) (region : Region) : Prop where
  nonempty : size ≠ 0
  fits : (address + size).toNat + pageSize.toNat < 2 ^ 64
  found : tryFindRegion host.regions (alignDown address pageSize) = some region
  inside : roundedEnd address size ≤ region.end
  changed : (kernel.mprotect host.kernel (alignDown address pageSize)
    (roundedEnd address size - alignDown address pageSize)
    (toPosixProtect newProtect)).1 = true

def HostState.protected (kernel : PosixKernel KernelState)
    (host : HostState KernelState) (address size : UInt64) (newProtect : UInt32)
    (region : Region) : HostState KernelState where
  regions := host.regions.set (setProtectRange region (alignDown address pageSize)
    (roundedEnd address size - alignDown address pageSize) newProtect)
  kernel := (kernel.mprotect host.kernel (alignDown address pageSize)
    (roundedEnd address size - alignDown address pageSize)
    (toPosixProtect newProtect)).2

theorem outcome_alignUp (fits : (address + size).toNat + pageSize.toNat < 2 ^ 64) :
    (alignUp (address + size) pageSize : Program KernelState UInt64).outcome host =
      (.ok (roundedEnd address size), host) := by
  unfold alignUp
  rw [Word64.checkedAdd_isSome fits]
  rfl

theorem outcome_alignUp_overflow {value : UInt64} (long : ¬ value.toNat + pageSize.toNat < 2 ^ 64) :
    (alignUp value pageSize : Program KernelState UInt64).outcome host =
      (.error .overflow, host) := by
  unfold alignUp
  cases added : Word64.checkedAdd value pageSize with
  | none => rfl
  | some sum => exact absurd (Word64.checkedAdd_eq_some.mp added).1 long

theorem protect_of_grants (grants : Grants kernel host address size newProtect region) :
    (protect kernel address size newProtect).outcome host =
      (.ok (true, region.protectAt (alignDown address pageSize)),
        host.protected kernel address size newProtect region) := by
  obtain ⟨nonempty, fits, found, inside, changed⟩ := grants
  unfold protect
  rw [if_neg nonempty]
  dsimp only
  rw [outcome_bind, outcome_alignUp fits]
  simp only [outcome_bind, readRegions, outcome_modifyGet, found, onKernel, onRegions]
  rw [if_neg (not_lt.mpr inside)]
  simp only [outcome_bind, outcome_modifyGet]
  rw [if_pos changed]
  rfl

theorem protect_refused (refused : ∀ region, ¬ Grants kernel host address size newProtect region) :
    ∃ answer after, (protect kernel address size newProtect).outcome host =
        (answer, { host with kernel := after }) ∧
      ∀ oldProtect, answer ≠ .ok (true, oldProtect) := by
  unfold protect
  by_cases isEmpty : size = 0
  · rw [if_pos isEmpty]
    exact ⟨_, host.kernel, rfl, fun _ impossible => by cases impossible⟩
  rw [if_neg isEmpty]
  dsimp only
  by_cases fits : (address + size).toNat + pageSize.toNat < 2 ^ 64
  · rw [outcome_bind, outcome_alignUp fits]
    simp only [outcome_bind, readRegions, outcome_modifyGet]
    cases found : tryFindRegion host.regions (alignDown address pageSize) with
    | none => exact ⟨_, host.kernel, rfl, fun _ impossible => by cases impossible⟩
    | some region =>
      dsimp only
      by_cases outside : roundedEnd address size > region.end
      · rw [if_pos outside]
        exact ⟨_, host.kernel, rfl, fun _ impossible => by cases impossible⟩
      · have denied := mt (fun changed =>
          ({ nonempty := isEmpty
             fits
             found
             inside := not_lt.mp outside
             changed } : Grants kernel host address size newProtect region))
          (refused region)
        rw [if_neg outside]
        simp only [outcome_bind, onKernel, outcome_modifyGet]
        rw [if_neg denied]
        exact ⟨_, _, rfl, fun _ impossible => by cases impossible⟩
  · rw [outcome_bind, outcome_alignUp_overflow fits]
    exact ⟨_, host.kernel, rfl, fun _ impossible => by cases impossible⟩

/-! ## Protecting a range again -/

section Restoring

variable {laws : KernelLaws kernel} {model : PageModel} {oldProtect : UInt32}

def PageModel.firstProtect (model : PageModel) (address : UInt64) : UInt32 :=
  ((model (address.toNat / 0x1000)).map PageEntry.protect).getD pageNoAccess

/-- The pages of a range that the host knows all have one protection. -/
def PageModel.AllHave (model : PageModel) (address size : UInt64) (protect : UInt32) :
    Prop :=
  ∀ page entry, Touches address.toNat (address + size).toNat page →
    model page = some entry → entry.protect = protect

theorem represents_iff_eq {regions : SortedTable Region.base} {other : PageModel}
    (represents : Represents regions model) :
    Represents regions other ↔ model = other := by
  constructor
  · intro alsoRepresents
    funext page
    apply Option.ext
    intro entry
    rw [represents, alsoRepresents]
  · rintro rfl
    exact represents

theorem reprotect_eq_self_iff {protect : UInt32} :
    model.reprotect (fun page _ => Touches address.toNat (address + size).toNat page)
        protect = model ↔ model.AllHave address size protect := by
  unfold PageModel.reprotect PageModel.AllHave
  constructor
  · intro same page entry touched isEntry
    have here := congrFun same page
    simp only [isEntry, Option.map_some, Option.some.injEq, touched, decide_true, if_true] at here
    rw [← here]
  · intro allHave
    funext page
    cases isEntry : model page with
    | none => rfl
    | some entry =>
      rw [Option.map_some, Option.some.injEq]
      split
      · rename_i touched
        rw [← allHave page entry (of_decide_eq_true touched) isEntry]
      · rfl

/-- A protection replaces the one before it. -/
theorem reprotect_reprotect {chosen : ℕ → UInt64 → Bool} {first second : UInt32} :
    (model.reprotect chosen first).reprotect chosen second = model.reprotect chosen second := by
  funext page
  unfold PageModel.reprotect
  cases model page with
  | none => rfl
  | some entry =>
    rw [Option.map_some, Option.map_some, Option.map_some, Option.some.injEq]
    cases isChosen : chosen page entry.allocationBase with
    | false => simp [isChosen]
    | true => simp [isChosen]

theorem firstProtect_of_grants (simulates : Simulates laws model host)
    (grants : Grants kernel host address size newProtect region) :
    model.firstProtect address = region.protectAt (alignDown address pageSize) := by
  obtain ⟨member, contains⟩ := simulates.tracked.tryFindRegion_some grants.found
  have isStart := toNat_alignDown address
  have held := ((simulates.tracked.wellFormed region member).holdsPage_div _).mpr contains
  rw [isStart, Nat.mul_div_cancel _ (by decide)] at held
  unfold PageModel.firstProtect
  rw [(simulates.represents _ _).mpr ⟨region, member, held, rfl⟩, eq_pageWord isStart]
  rfl

theorem simulates_protected (simulates : Simulates laws model host)
    (grants : Grants kernel host address size newProtect region) :
    Simulates laws (model.reprotect
        (fun page _ => Touches address.toNat (address + size).toNat page) newProtect)
      (host.protected kernel address size newProtect region) :=
  (protect_spec address size newProtect host simulates).1 _ _ (protect_of_grants grants)

theorem grants_protected_iff (simulates : Simulates laws model host)
    (grants : Grants kernel host address size newProtect region) :
    (∃ again, Grants kernel (host.protected kernel address size newProtect region)
        address size oldProtect again) ↔
      (kernel.mprotect (host.protected kernel address size newProtect region).kernel
        (alignDown address pageSize)
        (roundedEnd address size - alignDown address pageSize)
        (toPosixProtect oldProtect)).1 = true := by
  constructor
  · rintro ⟨again, regrants⟩
    exact regrants.changed
  · intro changed
    have after := simulates_protected simulates grants
    obtain ⟨member, -⟩ := simulates.tracked.tryFindRegion_some grants.found
    have isBase : (tryFindRegion (host.protected kernel address size newProtect region).regions
        (alignDown address pageSize)).map Region.base = some region.base := by
      have before := simulates.allocationBase_eq (alignDown address pageSize)
      rw [grants.found, Option.map_some] at before
      rw [← after.allocationBase_eq, ← before]
      unfold PageModel.reprotect
      cases model ((alignDown address pageSize).toNat / 0x1000) with
      | none => rfl
      | some entry =>
        rw [Option.map_some, Option.map_some, Option.map_some]
        split <;> rfl
    obtain ⟨again, foundAgain, sameBase⟩ := Option.map_eq_some_iff.mp isBase
    obtain ⟨stored, -⟩ := after.tracked.tryFindRegion_some foundAgain
    rcases SortedTable.mem_set.mp stored with rfl | ⟨-, otherBase⟩
    · refine ⟨_, grants.nonempty, grants.fits, foundAgain, ?_, changed⟩
      unfold Region.end
      rw [setProtectRange_base, setProtectRange_size]
      exact grants.inside
    · rw [setProtectRange_base] at otherBase
      exact absurd sameBase otherBase

end Restoring

end PosixHostMemory
/-! ## Writes -/

namespace PhysicalVirtualMemory

open Faulting PosixHostMemory

variable {KernelState Value : Type} {environment : WriteEnvironment KernelState}
variable {machine : PosixMachine KernelState} {address length : UInt64}

theorem outcome_onPosixHost {program : PosixHostMemory.Program KernelState Value}
    {value : Value} {host : HostState KernelState}
    (ended : program.outcome machine.host = (.ok value, host)) :
    (onPosixHost program).outcome machine = (.ok value, { machine with host }) := by
  change onPosixHost program machine = _
  unfold onPosixHost
  rw [ended]

theorem outcome_onPosixHost_eq (program : PosixHostMemory.Program KernelState Value) :
    (onPosixHost program).outcome machine =
      match program.outcome machine.host with
      | (.ok value, host) => (.ok value, { machine with host })
      | (.error .overflow, host) => (.error .overflow, { machine with host }) :=
  rfl

theorem host_onPosixHost (program : PosixHostMemory.Program KernelState Value)
    (machine : PosixMachine KernelState) :
    ((onPosixHost program).outcome machine).2.host = (program.outcome machine.host).2 := by
  change (onPosixHost program machine).2.host = _
  unfold onPosixHost
  rcases program.outcome machine.host with ⟨⟨_⟩ | value, host⟩ <;> rfl

/-! ### The checks -/

theorem hostRegionState_query (regions : SortedTable Region.base) (address : UInt64) :
    hostRegionState (query regions address).state ≠ .reserved := by
  unfold query
  dsimp only
  split
  · change hostRegionState memCommit ≠ .reserved
    decide
  · change hostRegionState memFreeState ≠ .reserved
    decide

theorem keeps_commitPages (platform : PosixPlatform)
    (kernel : PosixKernel KernelState) (commitProtection : UInt32) (endPage : UInt64)
    (turns : ℕ) (pageAddress : UInt64) :
    Keeps (fun after => after = machine)
      (commitPages platform kernel commitProtection endPage turns pageAddress) := by
  induction turns generalizing pageAddress with
  | zero => exact keeps_pure true
  | succ turns ih =>
    rw [commitPages]
    refine Keeps.ite (fun _ => ?_) fun _ => keeps_pure true
    have asked : Ensures (fun after => after = machine) (onPosixHost do
          let regions ← readRegions
          pure (query regions pageAddress) : PosixProgram KernelState BasicInfo)
        (fun info after => after = machine ∧ hostRegionState info.state ≠ .reserved)
        fun after => after = machine := by
      intro state isMachine
      rw [isMachine]
      have ended : (do
          let regions ← readRegions
          pure (query regions pageAddress) :
            PosixHostMemory.Program KernelState BasicInfo).outcome machine.host =
          (.ok (query machine.host.regions pageAddress), machine.host) := rfl
      rw [outcome_onPosixHost ended]
      constructor
      · rintro _ _ ⟨⟩
        exact ⟨rfl, hostRegionState_query _ _⟩
      · rintro _ _ ⟨⟩
    apply asked.bind
    intro info
    refine Ensures.ite (fun _ => ensures_pure fun _ holds => holds.1) fun _ => ?_
    refine Ensures.assuming (fun _ holds => holds.2) fun notReserved => ?_
    cases state : hostRegionState info.state with
    | free => exact ensures_pure fun _ holds => holds.1
    | reserved => exact absurd state notReserved
    | committed => exact (ih _).ofPre fun _ holds => holds.1

theorem keeps_ensureRangeCommitted (address size : UInt64) (region : MemoryRegion) :
    Keeps (fun after => after = machine)
      (ensureRangeCommitted environment address size region) := by
  unfold ensureRangeCommitted
  refine Keeps.ite (fun _ => keeps_pure true) fun _ => ?_
  apply (keeps_alignUp _ _).bind
  intro endPage
  exact Keeps.ite (fun _ => keeps_pure true) fun _ => keeps_commitPages _ _ _ _ _ _

theorem keeps_canWriteWithoutProtectionChange (address size : UInt64) (region : MemoryRegion) :
    Keeps (fun after => after = machine) (canWriteWithoutProtectionChange address size region :
        PosixProgram KernelState Bool) := by
  unfold canWriteWithoutProtectionChange
  apply (keeps_alignUp _ _).bind
  intro endPage
  apply keeps_readMemory.bind
  intro memory
  exact keeps_pure _

theorem outcome_of_keeps {program : PosixProgram KernelState Value}
    (keeps : Keeps (fun after => after = machine) program) :
    program.outcome machine = ((program.outcome machine).1, machine) := by
  have kept : (program.outcome machine).2 = machine := Ensures.after keeps rfl
  exact Prod.ext rfl kept

/-! ### The path that changes protections -/

/-- Whether the kernel protects a range again right after it made it writable. -/
def restoreGranted (kernel : PosixKernel KernelState) (state : KernelState)
    (address length : UInt64) (oldProtect : UInt32) : Bool :=
  let start := PosixHostMemory.alignDown address PosixHostMemory.pageSize
  let size := roundedEnd address length - start
  (kernel.mprotect (kernel.mprotect state start size
      (toPosixProtect PosixHostMemory.pageExecuteReadWrite)).2
    start size (toPosixProtect oldProtect)).1

/-- The protection that a write leaves on its range when it had to change it. -/
def protectionLeft (kernel : PosixKernel KernelState) (state : KernelState)
    (pages : PageModel) (address length : UInt64) : UInt32 :=
  if restoreGranted kernel state address length (pages.firstProtect address) then
    pages.firstProtect address
  else PosixHostMemory.pageExecuteReadWrite

theorem represents_writeElevated {laws : KernelLaws environment.kernel}
    {pages : PageModel} (simulates : Simulates laws pages machine.host)
    {region : Region}
    (grants : Grants environment.kernel machine.host address length
      PosixHostMemory.pageExecuteReadWrite region) :
    Represents ((writeElevated environment address length).outcome machine).2.host.regions
      (pages.reprotect (fun page _ => Touches address.toNat (address + length).toNat page)
        (protectionLeft environment.kernel machine.host.kernel pages address length)) := by
  have raised := simulates_protected simulates grants
  unfold writeElevated
  rw [outcome_bind, outcome_onPosixHost (protect_of_grants grants)]
  dsimp only
  rw [if_pos rfl, state_outcome_answering, host_onPosixHost,
    ← firstProtect_of_grants simulates grants]
  dsimp only
  have isGranted : (∃ again, Grants environment.kernel
        (machine.host.protected environment.kernel address length
          PosixHostMemory.pageExecuteReadWrite region) address length
        (pages.firstProtect address) again) ↔
      restoreGranted environment.kernel machine.host.kernel address length
        (pages.firstProtect address) = true :=
    grants_protected_iff simulates grants
  generalize machine.host.protected environment.kernel address length
    PosixHostMemory.pageExecuteReadWrite region = host at raised isGranted ⊢
  unfold protectionLeft
  by_cases again : ∃ again, Grants environment.kernel host address length
      (pages.firstProtect address) again
  · rw [if_pos (isGranted.mp again), ← reprotect_reprotect]
    obtain ⟨found, regranted⟩ := again
    rw [protect_of_grants regranted]
    exact (simulates_protected raised regranted).represents
  · rw [if_neg (mt isGranted.mpr again)]
    obtain ⟨answer, after, ended, -⟩ :=
      protect_refused fun found regranted => again ⟨found, regranted⟩
    rw [ended]
    exact raised.represents

theorem regions_writeElevated_refused
    (refused : ∀ region, ¬ Grants environment.kernel machine.host address length
      PosixHostMemory.pageExecuteReadWrite region) :
    ((writeElevated environment address length).outcome machine).2.host.regions =
      machine.host.regions := by
  obtain ⟨answer, after, ended, notChanged⟩ := protect_refused refused
  unfold writeElevated
  rw [outcome_bind, outcome_onPosixHost_eq, ended]
  rcases answer with ⟨⟨⟩⟩ | ⟨_ | _, oldProtect⟩
  · rfl
  · rfl
  · exact absurd rfl (notChanged oldProtect)

theorem represents_writeElevated_iff {laws : KernelLaws environment.kernel}
    {pages : PageModel} (simulates : Simulates laws pages machine.host) :
    Represents ((writeElevated environment address length).outcome machine).2.host.regions pages ↔
      ((∃ region, Grants environment.kernel machine.host address length
          PosixHostMemory.pageExecuteReadWrite region) →
        pages.AllHave address length (protectionLeft environment.kernel
          machine.host.kernel pages address length)) := by
  by_cases granted : ∃ region, Grants environment.kernel machine.host address length
      PosixHostMemory.pageExecuteReadWrite region
  · obtain ⟨region, grants⟩ := granted
    rw [represents_iff_eq (represents_writeElevated simulates grants), reprotect_eq_self_iff]
    exact ⟨fun allHave _ => allHave, fun allHave => allHave ⟨region, grants⟩⟩
  · rw [regions_writeElevated_refused fun region grants => granted ⟨region, grants⟩]
    exact ⟨fun _ isGranted => absurd isGranted granted, fun _ => simulates.represents⟩

/-! ### The whole call -/

def WriteEnvironment.visited (environment : WriteEnvironment KernelState)
    (machine : PosixMachine KernelState) (address length : UInt64) :
    PosixMachine KernelState :=
  { machine with
    host :=
      { machine.host with
        kernel := environment.notifyManagedWrite address length machine.host.kernel } }

/-- A write to a range of a region that is committed and not writable as it is. -/
structure NeedsElevation (environment : WriteEnvironment KernelState)
    (machine : PosixMachine KernelState) (address length : UInt64)
    (region : MemoryRegion) : Prop where
  nonempty : length ≠ 0
  destination : writeDestination machine.memory address length = some (region, address)
  committed : ((ensureRangeCommitted environment address length region).outcome
    machine).1 = .ok true
  unwritable : ((canWriteWithoutProtectionChange address length region).outcome
    machine).1 = .ok false

theorem writeDestination_address {memory : MemoryState} {region : MemoryRegion}
    {destination : UInt64}
    (found : writeDestination memory address length = some (region, destination)) :
    destination = address := by
  unfold writeDestination at found
  obtain ⟨candidate, -, resolved⟩ := Option.bind_eq_some_iff.mp found
  obtain ⟨offset, isOffset, same⟩ := Option.map_eq_some_iff.mp resolved
  cases same
  unfold tryResolveRegionOffset at isOffset
  split at isOffset
  · cases isOffset
  · dsimp only at isOffset
    split at isOffset
    · cases isOffset
    · split at isOffset
      · cases isOffset
      · cases isOffset
        rw [UInt64.add_comm, UInt64.sub_add_cancel]

theorem tryWriteExclusive_of_needsElevation {region : MemoryRegion}
    (needs : NeedsElevation environment machine address length region) :
    (tryWriteExclusive environment address length).outcome machine =
      (writeElevated environment address length).outcome machine := by
  unfold tryWriteExclusive
  rw [outcome_bind]
  dsimp only [readMemory, outcome_modifyGet]
  rw [needs.destination]
  dsimp only
  rw [outcome_bind, outcome_of_keeps (keeps_ensureRangeCommitted _ _ _), needs.committed]
  dsimp only
  rw [if_pos rfl, outcome_bind,
    outcome_of_keeps (keeps_canWriteWithoutProtectionChange _ _ _), needs.unwritable]
  rfl

theorem outcome_commitForWrite (region : MemoryRegion) : (if region.isReservedOnly then
        ensureRangeCommitted environment address length region
      else pure true : PosixProgram KernelState Bool).outcome machine =
      (((ensureRangeCommitted environment address length region).outcome machine).1, machine) := by
  cases isReservedOnly : region.isReservedOnly with
  | false =>
    have answers : ensureRangeCommitted environment address length region =
        pure true := by
      unfold ensureRangeCommitted
      rw [if_pos (.inr isReservedOnly)]
    rw [answers]
    rfl
  | true => exact outcome_of_keeps (keeps_ensureRangeCommitted _ _ _)

theorem outcome_tryWrite : (tryWrite environment address length).outcome machine =
      ((match writeDestination machine.memory address length with
        | none => pure false
        | some (region, destination) =>
          if length = 0 then pure true
          else do
            let committed ←
              (if region.isReservedOnly then
                ensureRangeCommitted environment destination length region
              else pure true)
            if committed then do
              let writable ← canWriteWithoutProtectionChange destination length region
              if writable then pure true
              else tryWriteExclusive environment address length
            else pure false : PosixProgram KernelState Bool)).outcome
        (environment.visited machine address length) := rfl

theorem tryWrite_cases (environment : WriteEnvironment KernelState)
    (machine : PosixMachine KernelState) (address length : UInt64) :
    (∃ region, NeedsElevation environment
        (environment.visited machine address length) address length region ∧
      (tryWrite environment address length).outcome machine =
        (writeElevated environment address length).outcome
          (environment.visited machine address length)) ∨
    (¬ ∃ region, NeedsElevation environment
        (environment.visited machine address length) address length region) ∧
      ((tryWrite environment address length).outcome machine).2 =
        environment.visited machine address length := by
  rw [outcome_tryWrite]
  generalize visitedEq : environment.visited machine address length = visited
  have sameMemory : visited.memory = machine.memory := by rw [← visitedEq]; rfl
  rw [← sameMemory]
  cases found : writeDestination visited.memory address length with
  | none =>
    right
    constructor
    · rintro ⟨region, needs⟩
      rw [needs.destination] at found
      cases found
    · rfl
  | some place =>
    obtain ⟨region, destination⟩ := place
    obtain rfl := writeDestination_address found
    have onlyRegion : ∀ other, NeedsElevation environment visited destination length
        other → other = region := by
      intro other needs
      rw [needs.destination] at found
      cases found
      rfl
    dsimp only
    by_cases isEmpty : length = 0
    · right
      rw [if_pos isEmpty]
      exact ⟨fun ⟨_, needs⟩ => needs.nonempty isEmpty, rfl⟩
    rw [if_neg isEmpty, outcome_bind, outcome_commitForWrite]
    rcases committed : ((ensureRangeCommitted environment destination length
      region).outcome visited).1 with fault | _ | _
    · right
      refine ⟨?_, rfl⟩
      rintro ⟨other, needs⟩
      have answer := needs.committed
      rw [onlyRegion other needs, committed] at answer
      cases answer
    · right
      refine ⟨?_, rfl⟩
      rintro ⟨other, needs⟩
      have answer := needs.committed
      rw [onlyRegion other needs, committed] at answer
      cases answer
    · dsimp only
      rw [if_pos rfl, outcome_bind, outcome_of_keeps (keeps_canWriteWithoutProtectionChange _ _ _)]
      rcases writable : ((canWriteWithoutProtectionChange destination length
        region).outcome visited).1 with fault | _ | _
      · right
        refine ⟨?_, rfl⟩
        rintro ⟨other, needs⟩
        have answer := needs.unwritable
        rw [onlyRegion other needs, writable] at answer
        cases answer
      · left
        have needs : NeedsElevation environment visited destination length region :=
          ⟨isEmpty, found, committed, writable⟩
        exact ⟨region, needs, tryWriteExclusive_of_needsElevation needs⟩
      · right
        refine ⟨?_, rfl⟩
        rintro ⟨other, needs⟩
        have answer := needs.unwritable
        rw [onlyRegion other needs, writable] at answer
        cases answer

/-- A write that has to make its range writable leaves the protections as they
were exactly when all pages of the range have the one that it leaves on them. -/
theorem write_keeps_protections_iff (environment : WriteEnvironment KernelState)
    (laws : KernelLaws environment.kernel) {pages : PageModel}
    (simulates : Simulates laws pages machine.host)
    (address length : UInt64)
    (visitKeeps : ∀ state, laws.mapped
      (environment.notifyManagedWrite address length state) = laws.mapped state) :
    Represents ((tryWrite environment address length).outcome machine).2.host.regions pages ↔
      ((∃ guestRegion, NeedsElevation environment
          (environment.visited machine address length) address length guestRegion) →
        (∃ region, Grants environment.kernel
          (environment.visited machine address length).host address length
            PosixHostMemory.pageExecuteReadWrite region) →
        pages.AllHave address length (protectionLeft environment.kernel
          (environment.visited machine address length).host.kernel pages address length)) := by
  have visited : Simulates laws pages (environment.visited machine address length).host := by
    refine simulates.onKernel fun region _ point _ backed => ?_
    rw [visitKeeps]
    exact backed
  rcases tryWrite_cases environment machine address length with
    ⟨region, needs, ended⟩ | ⟨unneeded, ended⟩
  · rw [ended, represents_writeElevated_iff visited]
    exact ⟨fun holds _ => holds, fun holds => holds ⟨region, needs⟩⟩
  · rw [ended]
    exact ⟨fun _ needed => absurd needed unneeded, fun _ => visited.represents⟩

def readOnlyMiddle : PosixMachine (List Extent) where
  memory :=
    { MemoryState.initial with
      regions := [⟨0x10000, 0x3000, false, false, pageReadWrite⟩]
      pageProtections := fun page => if page = 0x11000 then some flagRead else none }
  host := protectedMiddle.host

def blockEnvironment : WriteEnvironment (List Extent) where
  platform := ⟨false⟩
  kernel := blockKernel
  committedRangeCache _ _ := false
  notifyManagedWrite _ _ state := state

theorem write_keeps_protections_iff_middle :
    Represents ((tryWrite blockEnvironment 0x11000 8).outcome
      readOnlyMiddle).2.host.regions protectedMiddle.pages := by
  have simulates : Simulates blockKernelLaws protectedMiddle.pages
      readOnlyMiddle.host :=
    simulates_of_reachable blockKernelLaws protectedMiddle_reachable
  refine (write_keeps_protections_iff blockEnvironment blockKernelLaws simulates
    0x11000 8 fun _ => rfl).mpr ?_
  rintro - - page entry touched isEntry
  have isMiddle : page = 0x11 := by
    simp only [Touches] at touched
    have start : (0x11000 : UInt64).toNat = 0x11000 := by decide
    have finish : ((0x11000 : UInt64) + 8).toNat = 0x11008 := by decide
    omega
  subst isMiddle
  have middleEntry : protectedMiddle.pages 0x11 = some ⟨0x10000, 0x02⟩ := by
    decide +kernel
  rw [middleEntry] at isEntry
  cases isEntry
  decide +kernel

/-- A write across the border of the read-only page leaves that page writable. -/
theorem straddling_write_changes_protection :
    ((tryWrite blockEnvironment 0x10FF8 16).outcome readOnlyMiddle).1.toOption = some true ∧
      (query readOnlyMiddle.host.regions 0x11000).protect = pageReadOnly ∧
      (query ((tryWrite blockEnvironment 0x10FF8 16).outcome
        readOnlyMiddle).2.host.regions 0x11000).protect = pageReadWrite := by
  decide +kernel

end PhysicalVirtualMemory
end SharpEmu
