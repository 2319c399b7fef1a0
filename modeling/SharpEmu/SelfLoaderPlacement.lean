import Mathlib.Data.Finset.Dedup
import Mathlib.Data.Finset.Max
import SharpEmu.PhysicalVirtualMemoryPlacement
import SharpEmu.SelfLoaderRuns

/-!
# Where an image is placed

Before its segments are mapped an image is given a range of addresses: its size is
the distance from the lowest segment to the end of the highest one, and its base
is fixed for the main image and searched for the others.  The segments are then
mapped at their own addresses counted from that base.
-/

namespace SharpEmu
namespace SelfLoader

open PhysicalVirtualMemory (MemoryRegion PhysicalGuest Program allocateAt
  tryAllocateAtExact readMemory onMachine alignedRequestSize physicalMemory)
open Faulting

def pageSize : UInt64 := 0x1000
def ps5MainImageBase : UInt64 := 0x0000000800000000
def ps4MainImageBase : UInt64 := 0x0000000000400000
def ps5ModuleSearchStart : UInt64 := 0x0000000804000000
def ps5ModuleSearchEnd : UInt64 := 0x0000000900000000
def ps4ModuleSearchStart : UInt64 := 0x0000000002000000
def ps4ModuleSearchEnd : UInt64 := 0x0000000040000000
def modulePlacementStep : UInt64 := 0x00200000

/-! ## The size of an image -/

/-- The variables of the loop over the headers. -/
structure AddressBounds where
  minAddr : UInt64
  maxAddr : UInt64
deriving DecidableEq, Repr

/-- One turn of the loop; the end of a segment is not checked. -/
def AddressBounds.include (bounds : AddressBounds) (header : ProgramHeader) :
    AddressBounds :=
  if header.IsLoadable then
    let endAddr := header.virtualAddress + header.memorySize
    { minAddr :=
        if header.virtualAddress < bounds.minAddr then header.virtualAddress
        else bounds.minAddr
      maxAddr := if endAddr > bounds.maxAddr then endAddr else bounds.maxAddr }
  else bounds

def calculateTotalImageSize (headers : List ProgramHeader) : UInt64 :=
  let bounds := headers.foldl AddressBounds.include ⟨0xFFFFFFFFFFFFFFFF, 0⟩
  if bounds.minAddr = 0xFFFFFFFFFFFFFFFF then 0
  else bounds.maxAddr - bounds.minAddr

/-! ## The base of an image -/

/-- The loader's own rounding, which is not checked. -/
def alignUp (value alignment : UInt64) : UInt64 :=
  Word64.wrappingRoundUp value alignment

def getModuleSearchRange (isNextGen : Bool) : UInt64 × UInt64 :=
  if isNextGen then (ps5ModuleSearchStart, ps5ModuleSearchEnd)
  else (ps4ModuleSearchStart, ps4ModuleSearchEnd)

def candidateBehind (searchStart searchEnd candidate : UInt64) (region : MemoryRegion) : UInt64 :=
  if region.virtualAddress ≥ searchEnd then candidate
  else
    let regionEnd := region.virtualAddress + region.size
    if regionEnd ≤ searchStart then candidate
    else
      let regionAlignedEnd := alignUp (regionEnd + modulePlacementStep) pageSize
      if regionAlignedEnd > candidate then regionAlignedEnd else candidate

def alignedImageSize (totalImageSize : UInt64) : UInt64 :=
  alignUp (max totalImageSize pageSize) pageSize

def determineRequestedImageBase (regions : List MemoryRegion)
    (totalImageSize : UInt64) (isNextGen clearVirtualMemory : Bool) : UInt64 :=
  if clearVirtualMemory then
    if isNextGen then ps5MainImageBase else ps4MainImageBase
  else
    let (searchStart, searchEnd) := getModuleSearchRange isNextGen
    let alignedSize := alignedImageSize totalImageSize
    let behind := regions.foldl (candidateBehind searchStart searchEnd) searchStart
    let fromStart := if behind < searchStart then searchStart else behind
    let candidate :=
      if fromStart + alignedSize > searchEnd then searchStart else fromStart
    alignUp candidate pageSize

variable {HostState : Type}

def tryBasesFrom (services : HostMemoryServices HostState)
    (preferredBase alignedSize searchEnd : UInt64) :
    ℕ → ℕ → Program HostState (Option UInt64)
  | 0, _ => pure none
  | remaining + 1, attempt =>
      let candidate :=
        alignUp (preferredBase + .ofNat attempt * modulePlacementStep) pageSize
      if candidate + alignedSize > searchEnd then pure none
      else do
        match ← tryAllocateAtExact services candidate alignedSize true with
        | some allocatedBase => pure (some allocatedBase)
        | none =>
            tryBasesFrom services preferredBase alignedSize searchEnd remaining (attempt + 1)

def tryAllocateAdditionalImageAtExact (services : HostMemoryServices HostState)
    (preferredBase totalImageSize : UInt64) (isNextGen : Bool) :
    Program HostState (Option UInt64) :=
  let (searchStart, searchEnd) := getModuleSearchRange isNextGen
  let alignedSize := alignedImageSize totalImageSize
  let base :=
    if preferredBase < searchStart ∨ preferredBase + alignedSize > searchEnd
    then searchStart else preferredBase
  tryBasesFrom services base alignedSize searchEnd 256 0

def imageRegion (allocatedBase size : UInt64) : MemoryRegion where
  virtualAddress := allocatedBase
  size := alignedRequestSize size
  isExecutable := true
  isReservedOnly := false
  protection := PhysicalVirtualMemory.pageExecuteReadWrite

/-- Allocate the image's range.  A failed search for an additional image has set
the requested base to zero.  What the host says about an address it refused is its
own text. -/
def allocateImage (platform : MemoryPlatform) (services : HostMemoryServices HostState)
    (describeAddressForDiagnostics : UInt64 → String) (headers : List ProgramHeader)
    (isNextGen clearVirtualMemory : Bool) :
    Faulting LoadFault (PhysicalGuest HostState) MemoryRegion := do
  let totalImageSize := calculateTotalImageSize headers
  let memory ← onMachine readMemory
  let imageBase := determineRequestedImageBase memory.regions totalImageSize
    isNextGen clearVirtualMemory
  if clearVirtualMemory then
    match ← onMachine
        (tryAllocateAtExact services imageBase totalImageSize true) with
    | some allocatedBase => pure (imageRegion allocatedBase totalImageSize)
    | none => throw (.invalidOperation <|
        "Could not allocate main image at required base 0x" ++
        upperHex 16 imageBase.toNat ++ " (size=0x" ++
        upperHex 0 totalImageSize.toNat ++ "): " ++
        describeAddressForDiagnostics imageBase ++ ".")
  else
    match ← onMachine (tryAllocateAdditionalImageAtExact services imageBase
        totalImageSize isNextGen) with
    | some allocatedBase =>
        pure (imageRegion allocatedBase (alignedImageSize totalImageSize))
    | none => do
        let allocatedBase ← onMachine (allocateAt platform services 0 totalImageSize true true)
        pure (imageRegion allocatedBase totalImageSize)

def placeImage (platform : MemoryPlatform) (services : HostMemoryServices HostState)
    (describeAddressForDiagnostics : UInt64 → String) (image : ImageData)
    (context : LoadContext) (headers : List ProgramHeader)
    (isNextGen clearVirtualMemory : Bool) :
    Loader (PhysicalGuest HostState) MemoryRegion := do
  let region ← onMemory (allocateImage platform services describeAddressForDiagnostics
    headers isNextGen clearVirtualMemory)
  mapLoadSegments (physicalMemory platform services) image context region.virtualAddress headers 0
  pure region

/-! ## The bounds of the segments -/

def ProgramHeader.endAddress (header : ProgramHeader) : ℕ :=
  header.virtualAddress.toNat + header.memorySize.toNat

structure IsLowest (headers : List ProgramHeader) (lowest : ProgramHeader) :
    Prop where
  member : lowest ∈ headers
  loadable : lowest.IsLoadable
  below : ∀ header ∈ headers, header.IsLoadable →
    lowest.virtualAddress.toNat ≤ header.virtualAddress.toNat

structure IsHighest (headers : List ProgramHeader) (highest : ProgramHeader) :
    Prop where
  member : highest ∈ headers
  loadable : highest.IsLoadable
  above : ∀ header ∈ headers, header.IsLoadable →
    header.endAddress ≤ highest.endAddress

/-- No end of a loadable segment needs a 65th bit. -/
def EndsFit (headers : List ProgramHeader) : Prop :=
  ∀ header ∈ headers, header.IsLoadable → header.endAddress < 2 ^ 64

/-- The bounds lie around the segments, and each is one of the segments' own or
the one the loop has started with. -/
structure BoundsOf (headers : List ProgramHeader) (first last : AddressBounds) :
    Prop where
  minBelow : ∀ header ∈ headers, header.IsLoadable →
    last.minAddr.toNat ≤ header.virtualAddress.toNat
  minLe : last.minAddr.toNat ≤ first.minAddr.toNat
  minReached : last.minAddr = first.minAddr ∨ ∃ header ∈ headers,
    header.IsLoadable ∧ last.minAddr = header.virtualAddress
  maxAbove : ∀ header ∈ headers, header.IsLoadable →
    header.endAddress ≤ last.maxAddr.toNat
  maxLe : first.maxAddr.toNat ≤ last.maxAddr.toNat
  maxReached : last.maxAddr = first.maxAddr ∨ ∃ header ∈ headers,
    header.IsLoadable ∧ last.maxAddr.toNat = header.endAddress

variable {header : ProgramHeader}

theorem boundsOf_include (fits : header.IsLoadable → header.endAddress < 2 ^ 64)
    (bounds : AddressBounds) :
    BoundsOf [header] bounds (bounds.include header) := by
  unfold AddressBounds.include
  by_cases loadable : header.IsLoadable
  case neg =>
    rw [if_neg loadable]
    constructor <;> simp [loadable]
  have endEq : (header.virtualAddress + header.memorySize).toNat =
      header.endAddress := Word64.toNat_add_of_lt (fits loadable)
  simp only [if_pos loadable, gt_iff_lt, UInt64.lt_iff_toNat_lt, endEq]
  constructor
  · simp only [List.mem_singleton, forall_eq]
    split <;> omega
  · dsimp only
    split <;> omega
  · dsimp only
    split
    · exact .inr ⟨header, List.mem_cons_self, loadable, rfl⟩
    · exact .inl rfl
  · simp only [List.mem_singleton, forall_eq]
    split <;> omega
  · dsimp only
    split <;> omega
  · dsimp only
    split
    · exact .inr ⟨header, List.mem_cons_self, loadable, endEq⟩
    · exact .inl rfl

variable {headers : List ProgramHeader} {first last : AddressBounds}

theorem BoundsOf.append {others : List ProgramHeader}
    {middle : AddressBounds} (front : BoundsOf headers first middle)
    (back : BoundsOf others middle last) :
    BoundsOf (headers ++ others) first last where
  minBelow header member loadable := by
    rcases List.mem_append.mp member with inFront | inBack
    · exact Nat.le_trans back.minLe (front.minBelow header inFront loadable)
    · exact back.minBelow header inBack loadable
  minLe := Nat.le_trans back.minLe front.minLe
  minReached := by
    rcases back.minReached with kept | ⟨header, member, reached⟩
    · rw [kept]
      rcases front.minReached with started | ⟨header, member, reached⟩
      · exact .inl started
      · exact .inr ⟨header, List.mem_append_left _ member, reached⟩
    · exact .inr ⟨header, List.mem_append_right _ member, reached⟩
  maxAbove header member loadable := by
    rcases List.mem_append.mp member with inFront | inBack
    · exact Nat.le_trans (front.maxAbove header inFront loadable) back.maxLe
    · exact back.maxAbove header inBack loadable
  maxLe := Nat.le_trans front.maxLe back.maxLe
  maxReached := by
    rcases back.maxReached with kept | ⟨header, member, reached⟩
    · rw [kept]
      rcases front.maxReached with started | ⟨header, member, reached⟩
      · exact .inl started
      · exact .inr ⟨header, List.mem_append_left _ member, reached⟩
    · exact .inr ⟨header, List.mem_append_right _ member, reached⟩

theorem boundsOf_foldl (fits : EndsFit headers) (bounds : AddressBounds) :
    BoundsOf headers bounds (headers.foldl AddressBounds.include bounds) := by
  induction headers generalizing bounds with
  | nil => constructor <;> simp
  | cons header rest ih =>
    have step := boundsOf_include (fits header List.mem_cons_self) bounds
    exact step.append (ih (List.forall_mem_cons.mp fits).2 _)

variable {lowest : ProgramHeader}

theorem IsLowest.eq_of_boundsOf (isLowest : IsLowest headers lowest) (fits : EndsFit headers)
    (bounds : BoundsOf headers first last)
    (started : first.minAddr = 0xFFFFFFFFFFFFFFFF) :
    last.minAddr = lowest.virtualAddress := by
  have below := bounds.minBelow lowest isLowest.member isLowest.loadable
  have endFits := fits lowest isLowest.member isLowest.loadable
  have positive := Word64.toNat_pos isLowest.loadable.2
  unfold ProgramHeader.endAddress at endFits
  apply Word64.toNat_inj.mpr
  rcases bounds.minReached with kept | ⟨header, member, loadable, reached⟩
  · rw [kept, started] at below
    change 18446744073709551615 ≤ _ at below
    omega
  · have atMost := isLowest.below header member loadable
    rw [reached] at below ⊢
    omega

variable {highest : ProgramHeader}

theorem IsHighest.eq_of_boundsOf (isHighest : IsHighest headers highest)
    (bounds : BoundsOf headers first last)
    (started : first.maxAddr = 0) :
    last.maxAddr.toNat = highest.endAddress := by
  have above := bounds.maxAbove highest isHighest.member isHighest.loadable
  have positive := Word64.toNat_pos isHighest.loadable.2
  unfold ProgramHeader.endAddress at above ⊢
  rcases bounds.maxReached with kept | ⟨header, member, loadable, reached⟩
  · rw [kept, started] at above
    change _ ≤ 0 at above
    omega
  · have atLeast := isHighest.above header member loadable
    unfold ProgramHeader.endAddress at atLeast reached
    omega

theorem toNat_calculateTotalImageSize (fits : EndsFit headers) (isLowest : IsLowest headers lowest)
    (isHighest : IsHighest headers highest) :
    (calculateTotalImageSize headers).toNat = highest.endAddress - lowest.virtualAddress.toNat := by
  have bounds := boundsOf_foldl fits ⟨0xFFFFFFFFFFFFFFFF, 0⟩
  have isMin := isLowest.eq_of_boundsOf fits bounds rfl
  have isMax := isHighest.eq_of_boundsOf bounds rfl
  have lowestFits := fits lowest isLowest.member isLowest.loadable
  have positive := Word64.toNat_pos isLowest.loadable.2
  have ordered := isHighest.above lowest isLowest.member isLowest.loadable
  unfold ProgramHeader.endAddress at lowestFits ordered
  have reached : (headers.foldl AddressBounds.include
      ⟨0xFFFFFFFFFFFFFFFF, 0⟩).minAddr ≠ 0xFFFFFFFFFFFFFFFF := by
    rw [isMin]
    intro isTop
    rw [isTop] at lowestFits
    change 18446744073709551615 + _ < _ at lowestFits
    omega
  unfold calculateTotalImageSize
  simp only [if_neg reached]
  have minLeMax : (headers.foldl AddressBounds.include
      ⟨0xFFFFFFFFFFFFFFFF, 0⟩).minAddr ≤ (headers.foldl AddressBounds.include
        ⟨0xFFFFFFFFFFFFFFFF, 0⟩).maxAddr := by
    rw [UInt64.le_iff_toNat_le, isMax, isMin]
    unfold ProgramHeader.endAddress
    omega
  rw [UInt64.toNat_sub_of_le _ _ minLeMax, isMax, isMin]

/-! ## The range that is allocated -/

structure GrantsBelowTop (services : HostMemoryServices HostState) : Prop where
  allocate : ∀ host desiredAddress size protection,
    (services.allocate host desiredAddress size protection).1 ≠ 0 →
      (services.allocate host desiredAddress size protection).1.toNat +
        size.toNat < 2 ^ 64
  reserve : ∀ host desiredAddress size protection,
    (services.reserve host desiredAddress size protection).1 ≠ 0 →
      (services.reserve host desiredAddress size protection).1.toNat +
        size.toNat < 2 ^ 64

def Granted (size allocatedBase : UInt64) : Prop :=
  allocatedBase.toNat + (alignedRequestSize size).toNat < 2 ^ 64

section Granting

variable {platform : MemoryPlatform} {services : HostMemoryServices HostState}

theorem GrantsBelowTop.service (grants : GrantsBelowTop services)
    (request : PhysicalVirtualMemory.PlacementRequest) (alignedSize : UInt64)
    (host : HostState)
    (isGranted : (request.service services alignedSize host).1 ≠ 0) :
    (request.service services alignedSize host).1.toNat + alignedSize.toNat < 2 ^ 64 := by
  unfold PhysicalVirtualMemory.PlacementRequest.service at isGranted ⊢
  cases isKind : request.kind with
  | reserve =>
    simp only [isKind] at isGranted ⊢
    exact grants.reserve _ _ _ _ isGranted
  | allocate protection =>
    simp only [isKind] at isGranted ⊢
    exact grants.allocate _ _ _ _ isGranted

theorem returns_tryAllocateAtExact (grants : GrantsBelowTop services)
    (desiredAddress size : UInt64) :
    Returns (fun placed => ∀ allocatedBase, placed = some allocatedBase →
        Granted size allocatedBase)
      (tryAllocateAtExact services desiredAddress size true) := by
  have refused : Returns (fun placed => ∀ allocatedBase,
      placed = some allocatedBase → Granted size allocatedBase)
      (pure none : Program HostState (Option UInt64)) :=
    ensures_pure fun _ _ _ isNone => nomatch isNone
  refine Ensures.ite (fun _ => refused) fun _ => ?_
  have asked : Ensures (fun _ => True)
      (PhysicalVirtualMemory.onHost fun host => services.allocate host
        desiredAddress (alignedRequestSize size) .readWriteExecute)
      (fun result _ => result ≠ 0 → Granted size result) fun _ => True :=
    ensures_modifyGet fun machine _ nonzero => grants.allocate _ _ _ _ nonzero
  refine asked.bind fun result => ?_
  refine Ensures.ite (fun _ => refused.ofPre fun _ _ => trivial)
    fun nonzero => ?_
  refine Ensures.ite (fun _ => ?_) fun _ => ?_
  · exact (ensures_true _).bind fun _ => refused
  · refine Ensures.assuming (fun _ granted => granted nonzero) fun granted => ?_
    refine (ensures_true _).bind fun _ => ?_
    refine ensures_pure fun _ _ allocatedBase isBase => ?_
    obtain rfl := Option.some.inj isBase
    exact granted

theorem returns_tryBasesFrom (grants : GrantsBelowTop services)
    (preferredBase alignedSize searchEnd : UInt64) (remaining attempt : ℕ) :
    Returns (fun placed => ∀ allocatedBase, placed = some allocatedBase →
        Granted alignedSize allocatedBase)
      (tryBasesFrom services preferredBase alignedSize searchEnd remaining attempt) := by
  induction remaining generalizing attempt with
  | zero => exact ensures_pure fun _ _ _ isNone => nomatch isNone
  | succ remaining ih =>
    refine Ensures.ite (fun _ => ensures_pure fun _ _ _ isNone => nomatch isNone) fun _ => ?_
    refine (returns_tryAllocateAtExact grants _ _).bind fun placed => ?_
    cases placed with
    | none =>
      exact (ih (attempt + 1)).ofPre fun _ _ => trivial
    | some base => exact ensures_pure fun _ granted => granted

theorem returns_firstPlacement (grants : GrantsBelowTop services) (alignedSize : UInt64)
    (requests : List PhysicalVirtualMemory.PlacementRequest) :
    Returns (fun placed => ∀ answer, placed = some answer →
        answer.1.toNat + alignedSize.toNat < 2 ^ 64)
      (PhysicalVirtualMemory.firstPlacement services alignedSize requests) := by
  induction requests with
  | nil => exact ensures_pure fun _ _ _ isNone => nomatch isNone
  | cons request rest ih =>
    have asked : Ensures (fun _ => True)
        (PhysicalVirtualMemory.onHost (request.service services alignedSize))
        (fun result _ => result ≠ 0 → result.toNat + alignedSize.toNat < 2 ^ 64) fun _ => True :=
      ensures_modifyGet fun machine _ nonzero =>
        grants.service request alignedSize machine.host nonzero
    refine asked.bind fun result => ?_
    refine Ensures.ite (fun nonzero => ?_) fun _ =>
      ih.ofPre fun _ _ => trivial
    refine ensures_pure fun _ granted answer isAnswer => ?_
    obtain rfl := Option.some.inj isAnswer
    exact granted nonzero

theorem returns_allocateAt (grants : GrantsBelowTop services) (desiredAddress size : UInt64) :
    Returns (Granted size) (allocateAt platform services desiredAddress size true true) := by
  refine Ensures.ite (fun _ => ensures_throw fun _ _ => trivial) fun _ => ?_
  refine (returns_firstPlacement grants _ _).bind fun placed => ?_
  cases placed with
  | none => exact ensures_throw fun _ _ => trivial
  | some answer =>
    refine Ensures.assuming (fun _ granted => granted answer rfl)
      fun granted => ?_
    have recorded (region : MemoryRegion) : Ensures (fun _ => True) (do
            PhysicalVirtualMemory.onMemory fun memory => { memory with
              regions := PhysicalVirtualMemory.insertRegionSorted region memory.regions }
            pure answer.1 : Program HostState UInt64)
          (fun base _ => Granted size base) fun _ => True :=
      (ensures_true _).bind fun _ => ensures_pure fun _ _ => granted
    refine Ensures.ite (fun _ => ?_) fun _ =>
      (recorded _).ofPre fun _ _ => trivial
    exact (ensures_true _).bind fun _ => recorded _

theorem returns_onMachine {Value : Type} {values : Value → Prop}
    {program : Program HostState Value} (returned : Returns values program) :
    Returns values (onMachine program) := by
  intro guest _
  constructor
  · intro value after ended
    obtain ⟨inner, isInner, _⟩ := within_eq_ok ended
    exact (returned guest.machine trivial).1 value inner isInner
  · exact fun _ _ _ => trivial

def RequestedSize (totalImageSize size : UInt64) : Prop :=
  size = totalImageSize ∨ size = alignedImageSize totalImageSize

theorem returns_allocateImage (grants : GrantsBelowTop services)
    (describe : UInt64 → String) (headers : List ProgramHeader) (isNextGen clearVirtualMemory : Bool) :
    Returns (fun region => ∃ size, RequestedSize (calculateTotalImageSize headers) size ∧
        region.size = alignedRequestSize size ∧
        region.virtualAddress.toNat + region.size.toNat < 2 ^ 64)
      (allocateImage platform services describe headers isNextGen clearVirtualMemory) := by
  refine (ensures_true _).bind fun memory => ?_
  refine Ensures.ite (fun _ => ?_) fun _ => ?_
  · refine (returns_onMachine (returns_tryAllocateAtExact grants _ _)).bind
      fun placed => ?_
    cases placed with
    | none => exact ensures_throw fun _ _ => trivial
    | some base =>
      exact ensures_pure fun _ granted =>
        ⟨_, .inl rfl, rfl, granted base rfl⟩
  · refine (returns_onMachine (returns_tryBasesFrom grants _ _ _ _ _)).bind
      fun placed => ?_
    cases placed with
    | none =>
      refine Ensures.bind ((returns_onMachine
        (returns_allocateAt grants _ _)).ofPre fun _ _ => trivial)
          fun base => ?_
      exact ensures_pure fun _ granted => ⟨_, .inl rfl, rfl, granted⟩
    | some base =>
      exact ensures_pure fun _ granted =>
        ⟨_, .inr rfl, rfl, granted base rfl⟩

end Granting

/-! ## Rounding sizes to pages -/

def pageCeil (size : ℕ) : ℕ :=
  4096 * ((size + 4095) / 4096)

theorem toNat_roundedToPage (size : UInt64) : (Word64.wrappingRoundUp size pageSize).toNat =
      4096 * ((size.toNat + 4095) % 2 ^ 64 / 4096) := by
  have power : Word64.IsPowerOfTwo pageSize := by decide
  have mask : (pageSize - 1).toNat = 4095 := by decide
  have isPage : pageSize.toNat = 4096 := by decide
  rw [Word64.wrappingRoundUp, Word64.toNat_roundDown _ power, UInt64.toNat_add, mask, isPage]

theorem toNat_alignedRequestSize (size : UInt64) : (alignedRequestSize size).toNat =
      4096 * ((size.toNat + 4095) % 2 ^ 64 / 4096) := by
  rw [PhysicalVirtualMemory.alignedRequestSize_eq]
  exact toNat_roundedToPage size

theorem toNat_alignedImageSize (totalImageSize : UInt64) : (alignedImageSize totalImageSize).toNat =
      4096 * ((max totalImageSize.toNat 4096 + 4095) % 2 ^ 64 / 4096) := by
  rw [alignedImageSize, alignUp, toNat_roundedToPage, Word64.toNat_max]
  rfl

variable {size : UInt64}

theorem RequestedSize.rounded {totalImageSize : UInt64}
    (requested : RequestedSize totalImageSize size)
    (positive : 0 < totalImageSize.toNat) :
    (alignedRequestSize size).toNat ≤ pageCeil totalImageSize.toNat ∧
      (totalImageSize.toNat ≤ 2 ^ 64 - 4096 →
        (alignedRequestSize size).toNat = pageCeil totalImageSize.toNat) := by
  have small := totalImageSize.toNat_lt
  unfold pageCeil
  rw [toNat_alignedRequestSize]
  rcases requested with rfl | rfl
  · omega
  · rw [toNat_alignedImageSize]
    omega

/-! ## Segments inside the image's range -/

/-- The range holds the segment's addresses, counted from its start, and no
64-bit sum of them wraps. -/
structure SegmentInside (region : MemoryRegion) (header : ProgramHeader) :
    Prop where
  noWrap : region.virtualAddress.toNat + header.virtualAddress.toNat +
    header.memorySize.toNat < 2 ^ 64
  below : region.virtualAddress.toNat + header.virtualAddress.toNat +
    header.memorySize.toNat ≤ region.virtualAddress.toNat + region.size.toNat

/-- The highest end is not beyond its distance from the lowest start, rounded up
to pages, and does not reach into the last page of the address space. -/
def SpanReachesEnd (headers : List ProgramHeader) : Prop :=
  ∀ lowest highest, IsLowest headers lowest → IsHighest headers highest → highest.endAddress ≤
      pageCeil (highest.endAddress - lowest.virtualAddress.toNat) ∧
    highest.endAddress ≤ 2 ^ 64 - 4096

theorem exists_lowest_highest (member : header ∈ headers) (loadable : header.IsLoadable) :
    (∃ lowest, IsLowest headers lowest) ∧ ∃ highest, IsHighest headers highest := by
  have nonempty : ((headers.filter (·.IsLoadable)).toFinset : Finset _).Nonempty :=
    ⟨header, by simp [member, loadable]⟩
  obtain ⟨lowest, isMember, below⟩ := Finset.exists_min_image _
    (fun other => other.virtualAddress.toNat) nonempty
  obtain ⟨highest, alsoMember, above⟩ := Finset.exists_max_image _ ProgramHeader.endAddress nonempty
  simp only [List.mem_toFinset, List.mem_filter, decide_eq_true_eq, and_imp]
    at isMember below alsoMember above
  exact ⟨⟨lowest, isMember.1, isMember.2, below⟩, ⟨highest, alsoMember.1, alsoMember.2, above⟩⟩

theorem segmentsInside_iff {region : MemoryRegion}
    (requested : RequestedSize (calculateTotalImageSize headers) size)
    (isSize : region.size = alignedRequestSize size)
    (granted : region.virtualAddress.toNat + region.size.toNat < 2 ^ 64) :
    (∀ header ∈ headers, header.IsLoadable → SegmentInside region header) ↔
      SpanReachesEnd headers := by
  constructor
  · intro inside lowest highest isLowest isHighest
    have fits : EndsFit headers := by
      intro header member loadable
      have below := (inside header member loadable).below
      unfold ProgramHeader.endAddress
      omega
    have isTotal := toNat_calculateTotalImageSize fits isLowest isHighest
    have positive := Word64.toNat_pos isLowest.loadable.2
    have ordered := isHighest.above lowest isLowest.member isLowest.loadable
    have below := (inside highest isHighest.member isHighest.loadable).below
    rw [isSize] at below
    have rounded := (requested.rounded (by
      unfold ProgramHeader.endAddress at isTotal ordered
      omega)).1
    rw [isTotal] at rounded
    have isMultiple := toNat_alignedRequestSize size
    unfold ProgramHeader.endAddress at rounded ⊢
    omega
  · intro reaches header member loadable
    obtain ⟨⟨lowest, isLowest⟩, highest, isHighest⟩ :=
      exists_lowest_highest member loadable
    obtain ⟨reached, belowTop⟩ := reaches lowest highest isLowest isHighest
    have fits : EndsFit headers := by
      intro other isMember isLoadable
      have atMost := isHighest.above other isMember isLoadable
      omega
    have isTotal := toNat_calculateTotalImageSize fits isLowest isHighest
    have positive := Word64.toNat_pos isLowest.loadable.2
    have ordered := isHighest.above lowest isLowest.member isLowest.loadable
    have atMost := isHighest.above header member loadable
    have rounded := (requested.rounded (by
      unfold ProgramHeader.endAddress at isTotal ordered
      omega)).2 (by omega)
    rw [isTotal, ← isSize] at rounded
    rw [← rounded] at reached
    unfold ProgramHeader.endAddress at atMost reached
    constructor
    · omega
    · omega

/-- An accepted image's range holds every loadable segment exactly when the
rounded distance from the lowest start to the highest end reaches that end. -/
theorem image_range_holds_segments_iff
    {services : HostMemoryServices HostState} (grants : GrantsBelowTop services)
    {platform : MemoryPlatform} {describeAddressForDiagnostics : UInt64 → String}
    {image : ImageData} {context : LoadContext} {headers : List ProgramHeader} {isNextGen clearVirtualMemory : Bool}
    {before after : LoaderState (PhysicalGuest HostState)}
    {region : MemoryRegion}
    (accepted : (placeImage platform services describeAddressForDiagnostics image context headers
      isNextGen clearVirtualMemory).outcome before = (.ok region, after)) :
    (∀ header ∈ headers, header.IsLoadable → SegmentInside region header) ↔
      SpanReachesEnd headers := by
  rw [placeImage, outcome_bind] at accepted
  rcases placed : (onMemory (allocateImage platform services
    describeAddressForDiagnostics headers isNextGen clearVirtualMemory)).outcome before with ⟨fault | result, middle⟩
  · rw [placed] at accepted
    cases accepted
  rw [placed] at accepted
  obtain ⟨inner, isInner, _⟩ := within_eq_ok placed
  obtain ⟨size, requested, isSize, granted⟩ := (returns_allocateImage grants _
    headers isNextGen clearVirtualMemory before.memory trivial).1 _ _ isInner
  have isRegion : result = region := by
    simp only [outcome_bind] at accepted
    rcases mapped : (mapLoadSegments (physicalMemory platform services) image
      context result.virtualAddress headers 0).outcome middle with
      ⟨fault | ⟨⟩, last⟩
    · rw [mapped] at accepted
      cases accepted
    · rw [mapped] at accepted
      exact Except.ok.inj (Prod.mk.inj accepted).1
  subst isRegion
  exact segmentsInside_iff requested isSize granted

/-! ## Concrete images -/

def userHalfAnswer (desiredAddress size : UInt64) : UInt64 :=
  if desiredAddress.toNat + size.toNat < 2 ^ 47 then desiredAddress else 0

def userHalfHost : HostMemoryServices Unit where
  allocate _ desiredAddress size _ := (userHalfAnswer desiredAddress size, ())
  reserve _ desiredAddress size _ := (userHalfAnswer desiredAddress size, ())
  commit _ _ _ _ := (true, ())
  free _ _ := ()
  protect _ _ _ _ := (true, ())

theorem userHalfAnswer_below {desiredAddress : UInt64}
    (nonzero : userHalfAnswer desiredAddress size ≠ 0) :
    (userHalfAnswer desiredAddress size).toNat + size.toNat < 2 ^ 64 := by
  unfold userHalfAnswer at nonzero ⊢
  split at nonzero
  case isTrue fits =>
    rw [if_pos fits]
    omega
  case isFalse => exact absurd rfl nonzero

theorem grantsBelowTop_userHalfHost : GrantsBelowTop userHalfHost where
  allocate _ _ _ _ := userHalfAnswer_below
  reserve _ _ _ _ := userHalfAnswer_below

def zeroPageAt (virtualAddress : UInt64) : ProgramHeader :=
  ⟨1, 6, 0, virtualAddress, 0, 0, 0x1000, 0x1000⟩

def zeroPageImage (pages : UInt8) : ImageData where
  bytes := plainElfHeader 1 ++ [1, 0, 0, 0] ++ [6, 0, 0, 0] ++
    List.replicate 8 0 ++ (0 :: pages * 16 :: List.replicate 6 0) ++
    List.replicate 16 0 ++ (0 :: 0x10 :: List.replicate 6 0) ++
    (0 :: 0x10 :: List.replicate 6 0)
  length_le := by
    simp [plainElfHeader, intMaxValue]

/-- The image is placed and mapped as a main image on that host. -/
def zeroPagePlacement (pages : UInt8) (headers : List ProgramHeader) :
    Except LoadFault MemoryRegion × LoaderState (PhysicalGuest Unit) :=
  (placeImage PhysicalVirtualMemory.linuxPlatform userHalfHost (fun _ => "")
    (zeroPageImage pages) ⟨false, 0, 0, []⟩ headers true true).outcome (.start freshGuest)

theorem image_range_holds_segments_zeroPages :
    (∀ header ∈ [zeroPageAt 0, zeroPageAt 0x2000], header.IsLoadable →
      SegmentInside (imageRegion 0x800000000 0x3000) header) ↔
        SpanReachesEnd [zeroPageAt 0, zeroPageAt 0x2000] := by
  let placement := zeroPagePlacement 0 [zeroPageAt 0, zeroPageAt 0x2000]
  have returns : placement.1 = .ok (imageRegion 0x800000000 0x3000) := by
    decide +kernel
  have accepted : placement = (.ok (imageRegion 0x800000000 0x3000), placement.2) := by
    rw [← returns]
  exact image_range_holds_segments_iff grantsBelowTop_userHalfHost accepted

/-- An image whose lowest segment starts four pages above its base is accepted,
with its segment mapped behind the range allocated for it. -/
theorem segment_lies_behind_image_range :
    ((parseImage (zeroPageImage 4)).outcome (.start freshGuest)).1.map
        ParsedImage.programHeaders = .ok [zeroPageAt 0x4000] ∧
      (zeroPagePlacement 4 [zeroPageAt 0x4000]).1 = .ok (imageRegion 0x800000000 0x1000) ∧
      ¬ ∀ header ∈ [zeroPageAt 0x4000], header.IsLoadable →
        SegmentInside (imageRegion 0x800000000 0x1000) header := by
  refine ⟨by decide +kernel, by decide +kernel, fun inside => ?_⟩
  have below := (inside (zeroPageAt 0x4000) List.mem_cons_self (by decide)).below
  exact absurd below (by decide)

end SelfLoader
end SharpEmu
