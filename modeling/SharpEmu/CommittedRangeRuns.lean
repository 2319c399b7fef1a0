import SharpEmu.CommittedRegions

/-!
# Runs of `EnsureRangeCommitted`

Threads make sure of ranges while they hold the allocator's lock shared, so
their walks interleave with each other and with host requests made outside the
lock.  Forgetting a region and clearing need the lock exclusively.  A walk takes
one host answer at a time; what it has walked is committed, and what a cache
remembers for the present generation is committed, in every reachable state.
-/

namespace SharpEmu
namespace PhysicalVirtualMemory

open Faulting CommittedRangeCache

variable {HostState Thread Owner : Type} [DecidableEq Thread]
variable [DecidableEq Owner]

/-- `GetCommitProtection`. -/
def hostCommitProtection (region : MemoryRegion) : HostPageProtection :=
  if region.isExecutable then .readWriteExecute else .readWrite

structure CommitCall where
  address : UInt64
  size : UInt64
  region : MemoryRegion
  mappingGeneration : ℕ
  startPage : UInt64
  endPage : UInt64
  pageAddress : UInt64
deriving DecidableEq, Repr

/-- A thread outside a call, at the head of the page walk, or about to commit
up to the end of a reserved range. -/
inductive CommitPhase
  | idle
  | walking (call : CommitCall)
  | committing (call : CommitCall) (rangeEnd : UInt64)
deriving DecidableEq, Repr

structure CommitSystem (HostState Thread Owner : Type) where
  machine : Machine HostState
  mappingGeneration : ℕ
  caches : Thread → CommittedRangeCache Owner
  phases : Thread → CommitPhase

inductive CommitAnswer
  | underWay
  | returned (address size : UInt64) (committed : Bool)
  | overflowed
deriving DecidableEq, Repr

structure CommitEnvironment (HostState Owner : Type) where
  platform : MemoryPlatform
  services : HostMemoryServices HostState
  query : HostState → UInt64 → Option HostRegionInfo
  owner : Owner

namespace CommitSystem

variable (environment : CommitEnvironment HostState Owner)

def setPhase (thread : Thread) (phase : CommitPhase)
    (system : CommitSystem HostState Thread Owner) :
    CommitSystem HostState Thread Owner :=
  { system with phases := Function.update system.phases thread phase }

def setHost (host : HostState) (system : CommitSystem HostState Thread Owner) :
    CommitSystem HostState Thread Owner :=
  { system with machine := ⟨system.machine.memory, host⟩ }

def cacheCommittedRange (thread : Thread) (startPage endPage : UInt64)
    (mappingGeneration : ℕ) (system : CommitSystem HostState Thread Owner) :
    CommitSystem HostState Thread Owner :=
  { system with
    caches := Function.update system.caches thread
      ((system.caches thread).add environment.owner mappingGeneration startPage endPage) }

def finish (thread : Thread) (call : CommitCall) (committed : Bool)
    (system : CommitSystem HostState Thread Owner) :
    CommitAnswer × CommitSystem HostState Thread Owner :=
  (.returned call.address call.size committed, system.setPhase thread .idle)

def advance (thread : Thread) (call : CommitCall) (rangeStart rememberedEnd rangeEnd : UInt64)
    (system : CommitSystem HostState Thread Owner) :
    CommitAnswer × CommitSystem HostState Thread Owner :=
  (.underWay, (system.cacheCommittedRange environment thread rangeStart
    rememberedEnd call.mappingGeneration).setPhase thread
      (.walking { call with pageAddress := rangeEnd }))

def queriedEnd (info : HostRegionInfo) : UInt64 :=
  if info.regionSize > 0xFFFFFFFFFFFFFFFF - info.baseAddress then
    0xFFFFFFFFFFFFFFFF
  else info.baseAddress + info.regionSize

/-- The start of `EnsureRangeCommitted`, up to its page walk. -/
def enter (thread : Thread) (address size : UInt64) (region : MemoryRegion)
    (system : CommitSystem HostState Thread Owner) :
    CommitAnswer × CommitSystem HostState Thread Owner :=
  if size = 0 ∨ region.isReservedOnly = false then
    (.returned address size true, system)
  else
    let startPage := alignDown address pageSize
    match Word64.checkedRoundUp (address + size) pageSize with
    | none => (.overflowed, system)
    | some endPage =>
        if (system.caches thread).contains environment.owner
            system.mappingGeneration startPage endPage then
          (.returned address size true, system)
        else
          (.underWay, system.setPhase thread (.walking
            { address, size, region
              mappingGeneration := system.mappingGeneration
              startPage, endPage
              pageAddress := startPage }))

/-- One turn of the page walk, up to the commit it may need. -/
def visit (thread : Thread) (call : CommitCall) (system : CommitSystem HostState Thread Owner) :
    CommitAnswer × CommitSystem HostState Thread Owner :=
  if call.pageAddress < call.endPage then
    match environment.query system.machine.host call.pageAddress with
    | none => system.finish thread call false
    | some info =>
        let rangeEnd := min call.endPage (queriedEnd info)
        if rangeEnd ≤ call.pageAddress then system.finish thread call false
        else
          match info.state with
          | .committed =>
              system.advance environment thread call info.baseAddress (queriedEnd info) rangeEnd
          | .reserved =>
              (.underWay, system.setPhase thread (.committing call rangeEnd))
          | .free => system.finish thread call false
  else
    (system.cacheCommittedRange environment thread call.startPage call.endPage
      call.mappingGeneration).finish thread call true

def commit (thread : Thread) (call : CommitCall) (rangeEnd : UInt64)
    (system : CommitSystem HostState Thread Owner) :
    CommitAnswer × CommitSystem HostState Thread Owner :=
  let answer := environment.services.commit system.machine.host
    call.pageAddress (rangeEnd - call.pageAddress)
    (hostCommitProtection call.region)
  if answer.1 then
    (system.setHost answer.2).advance environment thread call call.pageAddress rangeEnd rangeEnd
  else (system.setHost answer.2).finish thread call false

/-- The next step of a thread's call. -/
def proceed (thread : Thread) (system : CommitSystem HostState Thread Owner) :
    CommitAnswer × CommitSystem HostState Thread Owner :=
  match system.phases thread with
  | .idle => (.underWay, system)
  | .walking call => system.visit environment thread call
  | .committing call rangeEnd => system.commit environment thread call rangeEnd

end CommitSystem

/-- What may happen.  `forget` and `release` are the two halves of
`ReleaseUntrackedAllocation`; `useElsewhere` is another allocator's use of a
thread's cache. -/
inductive CommitEvent (Thread Owner : Type)
  | operate (operation : MemoryOperation)
  | forget (address : UInt64)
  | release (address : UInt64)
  | clear
  | useElsewhere (thread : Thread) (cache : CommittedRangeCache Owner)
  | enter (thread : Thread) (address size : UInt64) (region : MemoryRegion)
  | proceed (thread : Thread)

namespace CommitSystem

variable (environment : CommitEnvironment HostState Owner)

/-- No thread holds the lock shared. -/
def Unshared (system : CommitSystem HostState Thread Owner) : Prop :=
  ∀ thread, system.phases thread = .idle

/-- When an event may happen: a call is made for a range of a tracked region,
and an address is given back once no region is tracked there. -/
def Permitted (system : CommitSystem HostState Thread Owner) : CommitEvent Thread Owner → Prop
  | .operate operation => operation.KeepsGeneration environment.platform
  | .forget _ => system.Unshared
  | .release address => ∀ region ∈ system.machine.memory.regions,
      region.virtualAddress ≠ address
  | .clear => system.Unshared
  | .useElsewhere thread cache =>
      system.phases thread = .idle ∧ cache.owner ≠ some environment.owner
  | .enter thread address size region =>
      system.phases thread = .idle ∧ region ∈ system.machine.memory.regions ∧
          Resolves address size region = true
  | .proceed _ => True

def perform (system : CommitSystem HostState Thread Owner) : CommitEvent Thread Owner →
      CommitAnswer × CommitSystem HostState Thread Owner
  | .operate operation =>
      (.underWay, { system with
        machine := ((operation.run environment.platform
          environment.services).outcome system.machine).2 })
  | .forget address =>
      (.underWay, { system with
        machine :=
          ⟨{ system.machine.memory with
              regions := system.machine.memory.regions.eraseP fun region =>
                region.virtualAddress = address },
            system.machine.host⟩ })
  | .release address =>
      (.underWay, { system.setHost
          (environment.services.free system.machine.host address) with
        mappingGeneration := system.mappingGeneration + 1 })
  | .clear =>
      (.underWay, { system with
        machine := ((PhysicalVirtualMemory.clear environment.services).outcome system.machine).2
        mappingGeneration := system.mappingGeneration + 1 })
  | .useElsewhere thread cache =>
      (.underWay, { system with
        caches := Function.update system.caches thread cache })
  | .enter thread address size region =>
      system.enter environment thread address size region
  | .proceed thread => system.proceed environment thread

/-- Before the first operation no thread has used its cache. -/
def Initial (system : CommitSystem HostState Thread Owner) : Prop :=
  system.machine.memory = .initial ∧ (∀ thread, system.caches thread = .initial) ∧ system.Unshared

def Step (before : CommitSystem HostState Thread Owner) (event : CommitEvent Thread Owner)
    (after : CommitSystem HostState Thread Owner) : Prop :=
  before.Permitted environment event ∧ (before.perform environment event).2 = after

/-! ## The invariant -/

section Invariant

variable {environment : CommitEnvironment HostState Owner}
variable {view : HostView HostState}

def Committed (view : HostView HostState) (host : HostState) (byte : ℕ) :
    Prop :=
  view.committed host byte ∧ ∃ base, view.blockOf host byte = some base

def CommittedIn (view : HostView HostState) (host : HostState)
    (region : MemoryRegion) (byte : ℕ) : Prop :=
  view.committed host byte ∧ view.blockOf host byte = some region.virtualAddress

structure CallSound (view : HostView HostState) (machine : Machine HostState)
    (mappingGeneration : ℕ) (call : CommitCall) : Prop where
  tracked : call.region ∈ machine.memory.regions
  notAhead : call.mappingGeneration ≤ mappingGeneration
  startsInside : call.region.virtualAddress.toNat ≤ call.startPage.toNat
  endsInside : call.endPage.toNat ≤
    call.region.virtualAddress.toNat + call.region.size.toNat
  startCovers : call.startPage.toNat ≤ 4096 * (call.address.toNat / 4096)
  endCovers : call.address.toNat + call.size.toNat ≤ call.endPage.toNat
  endAligned : 4096 ∣ call.endPage.toNat
  started : call.startPage.toNat ≤ call.pageAddress.toNat
  walked : AllBetween (CommittedIn view machine.host call.region)
    call.startPage call.pageAddress

def PhaseSound (view : HostView HostState) (machine : Machine HostState)
    (mappingGeneration : ℕ) : CommitPhase → Prop
  | .idle => True
  | .walking call => CallSound view machine mappingGeneration call
  | .committing call rangeEnd => CallSound view machine mappingGeneration call ∧
      call.pageAddress.toNat < rangeEnd.toNat ∧ rangeEnd.toNat ≤ call.endPage.toNat

structure CacheSound (view : HostView HostState) (owner : Owner)
    (host : HostState) (mappingGeneration : ℕ)
    (cache : CommittedRangeCache Owner) : Prop where
  notAhead : cache.owner = some owner → cache.generation ≤ mappingGeneration
  current : cache.IsCurrent owner mappingGeneration →
    HoldsOnly (Committed view host) cache.ranges

structure CommitInvariant (view : HostView HostState)
    (environment : CommitEnvironment HostState Owner)
    (system : CommitSystem HostState Thread Owner) : Prop where
  held : RegionsHeld view system.machine.host system.machine.memory.regions
  caches : ∀ thread, CacheSound view environment.owner system.machine.host
    system.mappingGeneration (system.caches thread)
  phases : ∀ thread, PhaseSound view system.machine system.mappingGeneration
    (system.phases thread)

variable {before after : HostState} {byte : ℕ}

theorem committed_of_kept (kept : view.Kept before after)
    (isCommitted : Committed view before byte) :
    Committed view after byte := by
  obtain ⟨wasCommitted, base, inBlock⟩ := isCommitted
  obtain ⟨stillInBlock, stillCommitted⟩ := kept byte base inBlock (by simp)
  exact ⟨stillCommitted wasCommitted, base, stillInBlock⟩

variable {region : MemoryRegion} {excepted : Option UInt64}

theorem committedIn_of_kept (kept : view.KeptExcept excepted before after)
    (different : some region.virtualAddress ≠ excepted)
    (isCommitted : CommittedIn view before region byte) :
    CommittedIn view after region byte := by
  obtain ⟨wasCommitted, inBlock⟩ := isCommitted
  obtain ⟨stillInBlock, stillCommitted⟩ := kept byte _ inBlock different
  exact ⟨stillCommitted wasCommitted, stillInBlock⟩

theorem holdsOnly_mono {good better : ℕ → Prop}
    (implies : ∀ byte, good byte → better byte) {ranges : List CommittedRange}
    (holds : HoldsOnly good ranges) : HoldsOnly better ranges :=
  fun range member byte above below =>
    implies byte (holds range member byte above below)

variable {generation laterGeneration : ℕ} {call : CommitCall}

theorem CallSound.kept {before after : Machine HostState}
    (sound : CallSound view before generation call)
    (tracked : call.region ∈ after.memory.regions)
    (kept : view.KeptExcept excepted before.host after.host)
    (different : some call.region.virtualAddress ≠ excepted)
    (later : generation ≤ laterGeneration) :
    CallSound view after laterGeneration call :=
  { sound with
    tracked := tracked
    notAhead := Nat.le_trans sound.notAhead later
    walked := fun byte above below =>
      committedIn_of_kept kept different (sound.walked byte above below) }

theorem PhaseSound.kept {before after : Machine HostState} {phase : CommitPhase}
    (sound : PhaseSound view before generation phase)
    (tracked : before.memory.regions ⊆ after.memory.regions)
    (kept : view.KeptExcept excepted before.host after.host)
    (different : ∀ region ∈ before.memory.regions, some region.virtualAddress ≠ excepted)
    (later : generation ≤ laterGeneration) :
    PhaseSound view after laterGeneration phase := by
  cases phase with
  | idle => trivial
  | walking call =>
    exact CallSound.kept sound (tracked sound.tracked) kept (different _ sound.tracked) later
  | committing call rangeEnd =>
    obtain ⟨callSound, bounds⟩ := sound
    exact ⟨callSound.kept (tracked callSound.tracked) kept
      (different _ callSound.tracked) later, bounds⟩

variable {system : CommitSystem HostState Thread Owner} {machine : Machine HostState}

omit [DecidableEq Thread] [DecidableEq Owner] in
theorem CommitInvariant.grow (invariant : CommitInvariant view environment system)
    (grown : GrownFrom view system.machine machine) :
    CommitInvariant view environment { system with machine } where
  held := grown.held
  caches thread :=
    { notAhead := (invariant.caches thread).notAhead
      current := fun isCurrent => holdsOnly_mono (fun _ => committed_of_kept grown.kept)
          ((invariant.caches thread).current isCurrent) }
  phases thread := (invariant.phases thread).kept grown.tracked grown.kept
    (fun _ _ => by simp) (Nat.le_refl _)

variable {host : HostState}

omit [DecidableEq Thread] [DecidableEq Owner] in
theorem CommitInvariant.setHost (invariant : CommitInvariant view environment system)
    (kept : view.Kept system.machine.host host) :
    CommitInvariant view environment (system.setHost host) :=
  invariant.grow ((grownFrom_refl invariant.held).onHost kept)

omit [DecidableEq Owner] in
theorem CommitInvariant.setPhase
    (invariant : CommitInvariant view environment system) (thread : Thread)
    (phase : CommitPhase)
    (sound : PhaseSound view system.machine system.mappingGeneration phase) :
    CommitInvariant view environment (system.setPhase thread phase) where
  held := invariant.held
  caches := invariant.caches
  phases other := by
    change PhaseSound view system.machine system.mappingGeneration
      (Function.update system.phases thread phase other)
    by_cases same : other = thread
    · rw [same, Function.update_self]
      exact sound
    · rw [Function.update_of_ne same]
      exact invariant.phases other

omit [DecidableEq Owner] in
theorem CacheSound.outdated {owner : Owner} {later : HostState} {cache : CommittedRangeCache Owner}
    (sound : CacheSound view owner host generation cache) :
    CacheSound view owner later (generation + 1) cache where
  notAhead isOwner := Nat.le_succ_of_le (sound.notAhead isOwner)
  current isCurrent := by
    have notAhead := sound.notAhead isCurrent.1
    rw [isCurrent.2] at notAhead
    omega

theorem CommitInvariant.remember
    (invariant : CommitInvariant view environment system) (thread : Thread)
    {startPage endPage : UInt64}
    (notAhead : generation ≤ system.mappingGeneration)
    (added : AllBetween (Committed view system.machine.host) startPage endPage) :
    CommitInvariant view environment (system.cacheCommittedRange environment
      thread startPage endPage generation) where
  held := invariant.held
  phases := invariant.phases
  caches other := by
    change CacheSound view environment.owner system.machine.host
      system.mappingGeneration (Function.update system.caches thread _ other)
    by_cases same : other = thread
    · rw [same, Function.update_self]
      have isCurrent := add_isCurrent (system.caches thread) environment.owner
        generation startPage endPage
      refine ⟨fun _ => Nat.le_trans (Nat.le_of_eq isCurrent.2) notAhead,
        fun isPresent => ?_⟩
      have sameGeneration : generation = system.mappingGeneration :=
        isCurrent.2.symm.trans isPresent.2
      apply holdsOnly_add added
      rw [sameGeneration]
      exact (invariant.caches thread).current
    · rw [Function.update_of_ne same]
      exact invariant.caches other

/-! ## Steps of a call -/

theorem CallSound.inRegion (sound : CallSound view machine generation call)
    (held : RegionsHeld view machine.host machine.memory.regions)
    (above : call.pageAddress.toNat ≤ byte)
    (below : byte < call.endPage.toNat) :
    view.blockOf machine.host byte = some call.region.virtualAddress := by
  have startsInside := sound.startsInside
  have endsInside := sound.endsInside
  have started := sound.started
  exact ((held.held _ sound.tracked).held byte (by omega) (by omega)).1

variable {rangeEnd : UInt64}

theorem CallSound.advanced (sound : CallSound view machine generation call)
    (further : call.pageAddress.toNat ≤ rangeEnd.toNat)
    (found : AllBetween (CommittedIn view machine.host call.region) call.pageAddress rangeEnd) :
    CallSound view machine generation { call with pageAddress := rangeEnd } :=
  { sound with
    started := Nat.le_trans sound.started further
    walked := fun byte above below => by
      by_cases walked : byte < call.pageAddress.toNat
      · exact sound.walked byte above walked
      · exact found byte (by omega) below }

theorem CommitInvariant.advance
    (invariant : CommitInvariant view environment system) (thread : Thread)
    (sound : CallSound view system.machine system.mappingGeneration call)
    {rangeStart rememberedEnd : UInt64}
    (further : call.pageAddress.toNat ≤ rangeEnd.toNat)
    (remembered : AllBetween (Committed view system.machine.host) rangeStart rememberedEnd)
    (found : AllBetween (CommittedIn view system.machine.host call.region)
      call.pageAddress rangeEnd) :
    CommitInvariant view environment (system.advance environment thread call
      rangeStart rememberedEnd rangeEnd).2 := by
  have isRemembered := invariant.remember thread sound.notAhead remembered
  exact isRemembered.setPhase thread (.walking { call with pageAddress := rangeEnd })
    (sound.advanced further found)

omit [DecidableEq Owner] in
theorem CommitInvariant.finish
    (invariant : CommitInvariant view environment system) (thread : Thread)
    (call : CommitCall) (committed : Bool) :
    CommitInvariant view environment (system.finish thread call committed).2 :=
  invariant.setPhase thread .idle trivial

theorem toNat_queriedEnd_le (info : HostRegionInfo) : (queriedEnd info).toNat ≤
      info.baseAddress.toNat + info.regionSize.toNat := by
  have room : (0xFFFFFFFFFFFFFFFF - info.baseAddress).toNat = 2 ^ 64 - 1 - info.baseAddress.toNat :=
    UInt64.toNat_sub_of_le _ _ (UInt64.le_iff_toNat_le.mpr
      (Nat.le_pred_of_lt info.baseAddress.toNat_lt))
  have bounded := info.baseAddress.toNat_lt
  unfold queriedEnd
  split
  · rename_i capped
    rw [gt_iff_lt, UInt64.lt_iff_toNat_lt, room] at capped
    have last : (0xFFFFFFFFFFFFFFFF : UInt64).toNat = 2 ^ 64 - 1 := rfl
    omega
  · rw [UInt64.toNat_add]
    exact Nat.mod_le _ _

omit [DecidableEq Thread] [DecidableEq Owner] in
theorem queried_committedIn (contract : CommitContract environment.services environment.query view)
    (held : RegionsHeld view system.machine.host system.machine.memory.regions)
    (sound : CallSound view system.machine system.mappingGeneration call)
    (below : call.pageAddress.toNat < call.endPage.toNat)
    {info : HostRegionInfo}
    (answered : environment.query system.machine.host call.pageAddress =
      some info) (isCommitted : info.state = .committed) :
    AllBetween (CommittedIn view system.machine.host call.region)
      info.baseAddress (queriedEnd info) := by
  intro byte above beforeEnd
  have capped := toNat_queriedEnd_le info
  obtain ⟨committed, sameBlock⟩ := contract.queryCommitted _ _ _ answered
    isCommitted byte above (by omega)
  rw [sound.inRegion held (Nat.le_refl _) below] at sameBlock
  exact ⟨committed, sameBlock⟩

theorem committed_of_committedIn (isCommitted : CommittedIn view host region byte) :
    Committed view host byte :=
  ⟨isCommitted.1, _, isCommitted.2⟩

def PagesCommitted (view : HostView HostState) (host : HostState) (address size : UInt64) : Prop :=
  ∀ byte, 4096 * (address.toNat / 4096) ≤ byte →
    byte / 4096 * 4096 < address.toNat + size.toNat → 0 < size.toNat → view.committed host byte

structure CallStep (view : HostView HostState)
    (environment : CommitEnvironment HostState Owner)
    (result : CommitAnswer × CommitSystem HostState Thread Owner) : Prop where
  invariant : CommitInvariant view environment result.2
  committed : ∀ address size, result.1 = .returned address size true →
    PagesCommitted view result.2.machine.host address size

omit [DecidableEq Owner] in
theorem callStep_failed (invariant : CommitInvariant view environment system) (thread : Thread)
    (call : CommitCall) :
    CallStep view environment (system.finish thread call false) where
  invariant := invariant.finish thread call false
  committed := by rintro _ _ ⟨⟩

theorem callStep_visit (contract : CommitContract environment.services environment.query view)
    (invariant : CommitInvariant view environment system) (thread : Thread)
    (sound : CallSound view system.machine system.mappingGeneration call) :
    CallStep view environment (system.visit environment thread call) := by
  unfold visit
  split
  · rename_i below
    rw [UInt64.lt_iff_toNat_lt] at below
    cases answered : environment.query system.machine.host call.pageAddress with
    | none => exact callStep_failed invariant thread call
    | some info =>
      simp only
      split
      · exact callStep_failed invariant thread call
      · rename_i further
        rw [not_le, UInt64.lt_iff_toNat_lt, Word64.toNat_min] at further
        cases isState : info.state with
        | free => exact callStep_failed invariant thread call
        | reserved =>
          refine ⟨invariant.setPhase thread (.committing call (min call.endPage (queriedEnd info)))
            ⟨sound, ?_, ?_⟩, by rintro _ _ ⟨⟩⟩
          · rw [Word64.toNat_min]
            exact further
          · rw [Word64.toNat_min]
            exact Nat.min_le_left _ _
        | committed =>
          have found := queried_committedIn contract invariant.held sound below answered isState
          have startsBefore := contract.queryStart _ _ _ answered
          refine ⟨invariant.advance thread sound ?_ (fun byte above beforeEnd =>
              committed_of_committedIn (found byte above beforeEnd))
            (fun byte above beforeEnd => ?_), by rintro _ _ ⟨⟩⟩
          · rw [Word64.toNat_min]
            omega
          · rw [Word64.toNat_min] at beforeEnd
            exact found byte (by omega) (by omega)
  · rename_i atEnd
    rw [UInt64.lt_iff_toNat_lt] at atEnd
    have covered : AllBetween (CommittedIn view system.machine.host call.region)
        call.startPage call.endPage :=
      fun byte above beforeEnd => sound.walked byte above (by omega)
    refine ⟨(invariant.remember thread sound.notAhead fun byte above beforeEnd =>
      committed_of_committedIn (covered byte above beforeEnd)).finish thread call true, ?_⟩
    rintro _ _ ⟨⟩ byte above below _
    have startCovers := sound.startCovers
    have endCovers := sound.endCovers
    have endAligned := sound.endAligned
    exact (covered byte (by omega) (by omega)).1

theorem callStep_commit (contract : CommitContract environment.services environment.query view)
    (invariant : CommitInvariant view environment system) (thread : Thread)
    (sound : PhaseSound view system.machine system.mappingGeneration (.committing call rangeEnd)) :
    CallStep view environment (system.commit environment thread call rangeEnd) := by
  obtain ⟨callSound, further, within⟩ := sound
  have kept := contract.commit system.machine.host call.pageAddress
    (rangeEnd - call.pageAddress) (hostCommitProtection call.region)
  have committed := contract.committed system.machine.host call.pageAddress
    (rangeEnd - call.pageAddress) (hostCommitProtection call.region)
  have length : (rangeEnd - call.pageAddress).toNat = rangeEnd.toNat - call.pageAddress.toNat :=
    UInt64.toNat_sub_of_le _ _ (UInt64.le_iff_toNat_le.mpr further.le)
  have nowInvariant := invariant.setHost kept
  unfold CommitSystem.commit
  simp only
  split
  · rename_i granted
    have found : AllBetween (CommittedIn view
        (environment.services.commit system.machine.host call.pageAddress
          (rangeEnd - call.pageAddress) (hostCommitProtection call.region)).2
        call.region) call.pageAddress rangeEnd := by
      intro byte above beforeEnd
      have inBlock := callSound.inRegion invariant.held above (by omega)
      exact ⟨committed granted byte above (by omega), (kept byte _ inBlock (by simp)).1⟩
    refine ⟨nowInvariant.advance thread (callSound.kept callSound.tracked kept
      (by simp) (Nat.le_refl _)) further.le (fun byte above beforeEnd =>
        committed_of_committedIn (found byte above beforeEnd)) found,
      by rintro _ _ ⟨⟩⟩
  · exact callStep_failed nowInvariant thread call

variable {address : UInt64}

theorem callStep_enter (contract : CommitContract environment.services environment.query view)
    (invariant : CommitInvariant view environment system) (thread : Thread)
    {size : UInt64}
    (tracked : region ∈ system.machine.memory.regions)
    (resolves : Resolves address size region = true) :
    CallStep view environment (system.enter environment thread address size region) := by
  have isHeld := invariant.held.held region tracked
  have aligned := isHeld.aligned
  have sizeAligned := isHeld.sizeAligned
  have nonempty := isHeld.nonempty
  obtain ⟨startsInside, endsInside⟩ := resolves_iff.mp resolves
  have bounded := contract.bounded _ _ _ (isHeld.held
    (region.virtualAddress.toNat + region.size.toNat - 1) (by omega) (by omega)).1
  unfold enter
  split
  · rename_i trivially
    refine ⟨invariant, ?_⟩
    rintro _ _ ⟨⟩ byte above below sizePositive
    have notReserved : region.isReservedOnly = false := by
      refine trivially.resolve_left fun isEmpty => ?_
      rw [isEmpty] at sizePositive
      exact absurd sizePositive (by decide)
    exact (isHeld.held byte (by omega) (by omega)).2 notReserved
  · rename_i walks
    have sizePositive : 0 < size.toNat :=
      Word64.toNat_pos fun isEmpty => walks (.inl isEmpty)
    have isSum : (address + size).toNat = address.toNat + size.toNat :=
      Word64.toNat_add_of_lt (by omega)
    have startPage : (alignDown address pageSize).toNat = 4096 * (address.toNat / 4096) :=
      Word64.toNat_roundDown address ⟨by decide, by decide⟩
    cases rounded : Word64.checkedRoundUp (address + size) pageSize with
    | none => exact ⟨invariant, by rintro _ _ ⟨⟩⟩
    | some endPage =>
      have endEq : endPage.toNat = 4096 * ((address.toNat + size.toNat + 4095) / 4096) := by
        have isRounded := Word64.toNat_of_checkedRoundUp ⟨by decide, by decide⟩ rounded
        rwa [isSum] at isRounded
      simp only
      split
      · rename_i hit
        refine ⟨invariant, ?_⟩
        rintro _ _ ⟨⟩ byte above below _
        exact (contains_allBetween (invariant.caches thread).current hit byte
          (by omega) (by omega)).1
      · refine ⟨invariant.setPhase thread (.walking _) ?_,
          by rintro _ _ ⟨⟩⟩
        exact
          { tracked := tracked
            notAhead := Nat.le_refl _
            startsInside := by simp only; omega
            endsInside := by simp only; omega
            startCovers := by simp only; omega
            endCovers := by simp only; omega
            endAligned := by simp only; omega
            started := Nat.le_refl _
            walked := fun byte above below => by
              simp only at above below
              omega }

/-! ## Every event -/

omit [DecidableEq Thread] [DecidableEq Owner] in
theorem CommitInvariant.shrink (invariant : CommitInvariant view environment system)
    (unshared : system.Unshared) {memory : MemoryState}
    (fewer : memory.regions.Sublist system.machine.memory.regions) :
    CommitInvariant view environment { system with machine := ⟨memory, system.machine.host⟩ } where
  held := ⟨invariant.held.distinct.sublist (fewer.map _),
    fun region member => invariant.held.held region (fewer.subset member)⟩
  caches := invariant.caches
  phases thread := by
    change PhaseSound view _ _ (system.phases thread)
    rw [unshared thread]
    trivial

omit [DecidableEq Thread] [DecidableEq Owner] in
theorem CommitInvariant.release (invariant : CommitInvariant view environment system)
    (kept : view.KeptExcept (some address) system.machine.host host)
    (untracked : ∀ region ∈ system.machine.memory.regions, region.virtualAddress ≠ address) :
    CommitInvariant view environment
      { system.setHost host with
        mappingGeneration := system.mappingGeneration + 1 } where
  held := ⟨invariant.held.distinct, fun region member =>
    (invariant.held.held region member).kept kept (by simpa using untracked region member)⟩
  caches thread := (invariant.caches thread).outdated
  phases thread := (invariant.phases thread).kept (List.Subset.refl _) kept
    (fun region member => by simpa using untracked region member)
    (Nat.le_succ _)

theorem callStep_perform (contract : CommitContract environment.services environment.query view)
    (invariant : CommitInvariant view environment system)
    (event : CommitEvent Thread Owner)
    (permitted : system.Permitted environment event) :
    CallStep view environment (system.perform environment event) := by
  cases event with
  | operate operation =>
    have grown := (keepsGrown_run contract operation permitted).after
      (grownFrom_refl invariant.held)
    exact ⟨invariant.grow grown, by rintro _ _ ⟨⟩⟩
  | forget address =>
    exact ⟨invariant.shrink permitted List.eraseP_sublist, by rintro _ _ ⟨⟩⟩
  | release address =>
    exact ⟨invariant.release (contract.free _ _) permitted,
      by rintro _ _ ⟨⟩⟩
  | clear =>
    refine ⟨?_, by rintro _ _ ⟨⟩⟩
    exact
      { held := ⟨List.nodup_nil, fun _ member => by cases member⟩
        caches := fun thread => (invariant.caches thread).outdated
        phases := fun thread => by
          change PhaseSound view _ _ (system.phases thread)
          rw [permitted thread]
          trivial }
  | useElsewhere thread cache =>
    refine ⟨?_, by rintro _ _ ⟨⟩⟩
    refine { held := invariant.held, phases := invariant.phases, caches := ?_ }
    intro other
    change CacheSound view environment.owner system.machine.host
      system.mappingGeneration (Function.update system.caches thread cache other)
    by_cases same : other = thread
    · rw [same, Function.update_self]
      exact ⟨fun isOwner => absurd isOwner permitted.2,
        fun isCurrent => absurd isCurrent.1 permitted.2⟩
    · rw [Function.update_of_ne same]
      exact invariant.caches other
  | enter thread address size region =>
    exact callStep_enter contract invariant thread permitted.2.1 permitted.2.2
  | proceed thread =>
    have sound := invariant.phases thread
    change CallStep view environment (system.proceed environment thread)
    unfold proceed
    cases isPhase : system.phases thread with
    | idle => exact ⟨invariant, by rintro _ _ ⟨⟩⟩
    | walking call =>
      rw [isPhase] at sound
      exact callStep_visit contract invariant thread sound
    | committing call rangeEnd =>
      rw [isPhase] at sound
      exact callStep_commit contract invariant thread sound

omit [DecidableEq Thread] [DecidableEq Owner] in
theorem commitInvariant_of_initial (isInitial : system.Initial) :
    CommitInvariant view environment system := by
  obtain ⟨isMemory, noCaches, unshared⟩ := isInitial
  refine ⟨?_, fun thread => ?_, fun thread => ?_⟩
  · rw [isMemory]
    exact ⟨List.nodup_nil, fun _ member => by cases member⟩
  · rw [noCaches thread]
    exact ⟨by rintro ⟨⟩, by rintro ⟨⟨⟩, _⟩⟩
  · rw [unshared thread]
    trivial

theorem commitInvariant_of_reachable
    (contract : CommitContract environment.services environment.query view)
    (reachable : Reachable Initial (Step environment) system) :
    CommitInvariant view environment system := by
  apply reachable.invariant
  · exact fun _ => commitInvariant_of_initial
  · rintro before event _ invariant ⟨permitted, rfl⟩
    exact (callStep_perform contract invariant event permitted).invariant

theorem reachable_perform (reachable : Reachable Initial (Step environment) system)
    (event : CommitEvent Thread Owner)
    (permitted : system.Permitted environment event) :
    Reachable Initial (Step environment) (system.perform environment event).2 :=
  reachable.next ⟨permitted, rfl⟩

/-! ## Soundness of `EnsureRangeCommitted` -/

def HostRefuses (environment : CommitEnvironment HostState Owner)
    (system : CommitSystem HostState Thread Owner) (call : CommitCall) :
    CommitPhase → Prop
  | .idle => False
  | .walking other => other = call ∧ call.pageAddress < call.endPage ∧
      environment.query system.machine.host call.pageAddress = none
  | .committing other rangeEnd => other = call ∧
      (environment.services.commit system.machine.host call.pageAddress
        (rangeEnd - call.pageAddress)
        (hostCommitProtection call.region)).1 = false

theorem perform_refused {thread : Thread}
    (refuses : HostRefuses environment system call (system.phases thread)) :
    (system.perform environment (.proceed thread)).1 = .returned call.address call.size false ∧
      (system.perform environment (.proceed thread)).2.caches =
        system.caches := by
  change (system.proceed environment thread).1 = _ ∧
    (system.proceed environment thread).2.caches = _
  unfold proceed
  cases isPhase : system.phases thread with
  | idle =>
    rw [isPhase] at refuses
    exact refuses.elim
  | walking other =>
    rw [isPhase] at refuses
    obtain ⟨rfl, below, unanswered⟩ := refuses
    simp only [visit, if_pos below, unanswered]
    exact ⟨rfl, rfl⟩
  | committing other rangeEnd =>
    rw [isPhase] at refuses
    obtain ⟨rfl, refused⟩ := refuses
    simp only [CommitSystem.commit, refused, Bool.false_eq_true, if_false]
    exact ⟨rfl, rfl⟩

/-- What a thread's cache remembers for the present generation is committed; a
call that returns true leaves every page of its range committed, and a refused
one remembers nothing. -/
theorem ensureRangeCommitted_sound
    (contract : CommitContract environment.services environment.query view)
    {system : CommitSystem HostState Thread Owner}
    (reachable : Reachable Initial (Step environment) system) :
    (∀ thread, (system.caches thread).IsCurrent environment.owner system.mappingGeneration →
      ∀ range ∈ (system.caches thread).ranges, ∀ byte,
        range.start.toNat ≤ byte → byte < range.stop.toNat →
          view.committed system.machine.host byte) ∧
    (∀ event address size, system.Permitted environment event →
      (system.perform environment event).1 = .returned address size true → PagesCommitted view
          (system.perform environment event).2.machine.host address size) ∧
    ∀ thread call, HostRefuses environment system call (system.phases thread) →
      (system.perform environment (.proceed thread)).1 = .returned call.address call.size false ∧
      (system.perform environment (.proceed thread)).2.caches =
        system.caches := by
  have invariant := commitInvariant_of_reachable contract reachable
  refine ⟨fun thread isCurrent range member byte above below => ?_,
    fun event address size permitted isTrue => ?_,
    fun thread call refuses => perform_refused refuses⟩
  · exact ((invariant.caches thread).current isCurrent range member byte above below).1
  · exact (callStep_perform contract invariant event permitted).committed address size isTrue

end Invariant

/-! ## A host with one block -/

def oneBlockServices : HostMemoryServices HostRegionState where
  allocate host _ _ _ := (0, host)
  reserve host _ size _ :=
    if host = .free ∧ size = 0x2000 then (0x10000, .reserved) else (0, host)
  commit host address size _ :=
    if host ≠ .free ∧ address = 0x10000 ∧ size = 0x2000 then (true, .committed)
    else (false, host)
  free host address := if address = 0x10000 then .free else host
  protect host _ _ _ := (true, host)

def oneBlockQuery (host : HostRegionState) (address : UInt64) :
    Option HostRegionInfo :=
  if 0x10000 ≤ address ∧ address < 0x12000 then some ⟨0x10000, 0x2000, host⟩
  else none

def InOneBlock (byte : ℕ) : Prop := 0x10000 ≤ byte ∧ byte < 0x12000

instance (byte : ℕ) : Decidable (InOneBlock byte) :=
  inferInstanceAs (Decidable (_ ∧ _))

def oneBlockView : HostView HostRegionState where
  blockOf host byte :=
    if host ≠ .free ∧ InOneBlock byte then some 0x10000 else none
  committed host byte := host = .committed ∧ InOneBlock byte

variable {byte : ℕ}

theorem oneBlockView_blockOf {host : HostRegionState} {base : UInt64} :
    oneBlockView.blockOf host byte = some base ↔
      (host ≠ .free ∧ InOneBlock byte) ∧ 0x10000 = base := by
  unfold oneBlockView
  simp only [Option.ite_none_right_eq_some, Option.some.injEq]

theorem oneBlock_keptExcept {excepted : Option UInt64} {before after : HostRegionState}
    (stays : before ≠ .free → some 0x10000 ≠ excepted →
      after ≠ .free ∧ (before = .committed → after = .committed)) :
    oneBlockView.KeptExcept excepted before after := by
  intro byte base inBlock different
  obtain ⟨⟨placed, inside⟩, rfl⟩ := oneBlockView_blockOf.mp inBlock
  obtain ⟨stillPlaced, stillCommitted⟩ := stays placed different
  exact ⟨oneBlockView_blockOf.mpr ⟨⟨stillPlaced, inside⟩, rfl⟩,
    fun wasCommitted => ⟨stillCommitted wasCommitted.1, inside⟩⟩

theorem inOneBlock_of_between (above : (0x10000 : UInt64).toNat ≤ byte)
    (below : byte < (0x10000 : UInt64).toNat + (0x2000 : UInt64).toNat) :
    InOneBlock byte := by
  have start : (0x10000 : UInt64).toNat = 0x10000 := rfl
  have length : (0x2000 : UInt64).toNat = 0x2000 := rfl
  unfold InOneBlock
  omega

theorem oneBlock_contract : CommitContract oneBlockServices oneBlockQuery oneBlockView where
  bounded host byte base inBlock := by
    have inside := (oneBlockView_blockOf.mp inBlock).1.2
    unfold InOneBlock at inside
    omega
  allocate host _ size _ :=
    { kept := HostView.kept_refl host
      aligned := fun nonzero => absurd rfl nonzero
      fresh := fun nonzero => absurd rfl nonzero
      placed := fun nonzero => absurd rfl nonzero }
  reserve host desiredAddress size protection := by
    unfold oneBlockServices
    by_cases granted : host = .free ∧ size = 0x2000
    · obtain ⟨rfl, rfl⟩ := granted
      simp only [true_and, if_true]
      refine ⟨oneBlock_keptExcept (by simp), by decide, ?_, ?_⟩
      · intro _ byte inBlock
        exact (oneBlockView_blockOf.mp inBlock).1.1 rfl
      · intro _ byte above below
        exact ⟨oneBlockView_blockOf.mpr ⟨⟨by decide, inOneBlock_of_between above below⟩, rfl⟩,
            by rintro ⟨⟩⟩
    · simp only [if_neg granted]
      exact
        { kept := HostView.kept_refl host
          aligned := fun nonzero => absurd rfl nonzero
          fresh := fun nonzero => absurd rfl nonzero
          placed := fun nonzero => absurd rfl nonzero }
  commit host address size protection := by
    apply oneBlock_keptExcept
    intro placed _
    unfold oneBlockServices
    simp only
    split
    · simp
    · exact ⟨placed, id⟩
  committed host address size protection granted byte above below := by
    unfold oneBlockServices at granted ⊢
    simp only at granted ⊢
    split at granted
    · rename_i asked
      obtain ⟨placed, rfl, rfl⟩ := asked
      rw [if_pos ⟨placed, rfl, rfl⟩]
      exact ⟨rfl, inOneBlock_of_between above below⟩
    · cases granted
  free host address := by
    apply oneBlock_keptExcept
    intro placed different
    have isOther : address ≠ 0x10000 := by
      rintro rfl
      exact different rfl
    unfold oneBlockServices
    simp only [if_neg isOther]
    exact ⟨placed, id⟩
  protect host _ _ _ := HostView.kept_refl host
  queryStart host address info answered := by
    unfold oneBlockQuery at answered
    split at answered
    · rename_i inside
      cases answered
      exact UInt64.le_iff_toNat_le.mp inside.1
    · cases answered
  queryCommitted host address info answered isCommitted byte above below := by
    unfold oneBlockQuery at answered
    split at answered
    · rename_i inside
      cases answered
      change host = .committed at isCommitted
      subst isCommitted
      have here : InOneBlock address.toNat :=
        ⟨UInt64.le_iff_toNat_le.mp inside.1, UInt64.lt_iff_toNat_lt.mp inside.2⟩
      have there := inOneBlock_of_between above below
      have blockThere : oneBlockView.blockOf .committed byte = some 0x10000 :=
        oneBlockView_blockOf.mpr ⟨⟨by decide, there⟩, rfl⟩
      have blockHere : oneBlockView.blockOf .committed address.toNat =
          some 0x10000 :=
        oneBlockView_blockOf.mpr ⟨⟨by decide, here⟩, rfl⟩
      exact ⟨⟨rfl, there⟩, blockThere.trans blockHere.symm⟩
    · cases answered

def oneBlockEnvironment : CommitEnvironment HostRegionState Unit where
  platform := linuxPlatform
  services := oneBlockServices
  query := oneBlockQuery
  owner := ()

/-- Nothing has happened, and the block is free. -/
def unusedSystem : CommitSystem HostRegionState Unit Unit where
  machine := ⟨.initial, .free⟩
  mappingGeneration := 0
  caches _ := .initial
  phases _ := .idle

def reservedRegion : MemoryRegion :=
  ⟨0x10000, 0x2000, false, true, pageReadWrite⟩

/-- The two pages are placed as a reserved region, and one thread starts to
make sure of a range over both of them. -/
def walkingSystem : CommitSystem HostRegionState Unit Unit :=
  let placed := (unusedSystem.perform oneBlockEnvironment
    (.operate (.allocateAt 0x10000 0x2000 false true))).2
  let entered := (placed.perform oneBlockEnvironment (.enter () 0x10800 0x1000 reservedRegion)).2
  (entered.perform oneBlockEnvironment (.proceed ())).2

theorem walkingSystem_reachable : Reachable Initial (Step oneBlockEnvironment) walkingSystem := by
  have fresh : Reachable Initial (Step oneBlockEnvironment) unusedSystem :=
    .start ⟨rfl, fun _ => rfl, fun _ => rfl⟩
  have placed := reachable_perform fresh (.operate (.allocateAt 0x10000 0x2000 false true)) trivial
  have entered := reachable_perform placed (.enter () 0x10800 0x1000 reservedRegion)
    ⟨rfl, by decide +kernel, by decide⟩
  exact reachable_perform entered (.proceed ()) trivial

theorem ensureRangeCommitted_sound_oneBlock : PagesCommitted oneBlockView
      (walkingSystem.perform oneBlockEnvironment (.proceed ())).2.machine.host 0x10800 0x1000 :=
  (ensureRangeCommitted_sound oneBlock_contract walkingSystem_reachable).2.1
    (.proceed ()) 0x10800 0x1000 trivial rfl

end CommitSystem

end PhysicalVirtualMemory
end SharpEmu
