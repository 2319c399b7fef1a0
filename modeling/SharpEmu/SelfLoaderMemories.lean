import SharpEmu.SegmentProtections
import SharpEmu.SelfLoader
import SharpEmu.VirtualMemoryRuns

/-!
# The memories an image can be loaded into

Both implementations of the loader's memory interface: `PhysicalVirtualMemory`,
whose bytes are those of the host at the same addresses, and `VirtualMemory`,
which keeps a buffer for each region.  Only the latter refuses to map a range
twice.
-/

namespace SharpEmu

open SelfLoader (LoadFault IVirtualMemory mappedContents)
open Overlays Faulting

theorem offset_lt_iff {address start size : UInt64} (noWrap : start.toNat + size.toNat ≤ 2 ^ 64) :
    (address - start).toNat < size.toNat ↔ start.toNat ≤ address.toNat ∧
        address.toNat < start.toNat + size.toNat := by
  have addressSmall := address.toNat_lt
  have startSmall := start.toNat_lt
  rw [UInt64.toNat_sub]
  omega

/-! ## Bytes at host addresses -/

namespace PhysicalVirtualMemory

variable {HostState : Type}

/-- The allocator and the bytes of the address space it shares with the host. -/
structure PhysicalGuest (HostState : Type) where
  machine : Machine HostState
  bytes : UInt64 → UInt8

def loadFaultOf : MemoryFault → LoadFault
  | .argumentOutOfRange _ _ => .argumentOutOfRange
  | .exactMappingFailed desiredAddress alignedSize =>
      .invalidOperation <| "Failed to allocate exact mapping at 0x" ++
        SelfLoader.upperHex 16 desiredAddress.toNat ++ " (" ++
        toString alignedSize ++ " bytes)"
  | .outOfMemory _ => .outOfMemory
  | .setProtectionFailed address =>
      .invalidOperation <| "Failed to set memory protection at 0x" ++
        SelfLoader.upperHex 16 address.toNat
  | .overflow => .overflow

/-- Run a program of the allocator beside the bytes. -/
def onMachine {Value : Type} (program : Program HostState Value) :
    Faulting LoadFault (PhysicalGuest HostState) Value :=
  within PhysicalGuest.machine (fun machine guest => { guest with machine }) loadFaultOf program

/-- The part of `Map` before the bytes are copied; it answers the page range. -/
def stageSegment (platform : MemoryPlatform) (services : HostMemoryServices HostState)
    (virtualAddress memorySize fileLength : UInt64)
    (protection : ProgramHeaderFlags) : Program HostState (UInt64 × UInt64) :=
  if memorySize = 0 then throw (.argumentOutOfRange "memorySize" "")
  else if fileLength > memorySize then
    throw (.argumentOutOfRange "fileData" "File size cannot exceed memory size")
  else do
    let mapStart := alignDown virtualAddress pageSize
    let segmentEnd ← checkedSum virtualAddress memorySize
    let mapEnd ← alignUp segmentEnd pageSize
    let mapSize ← checkedDifference mapEnd mapStart
    let memory ← readMemory
    if findRegion memory.regions mapStart mapSize = none then
      let _ ← allocateAt platform services mapStart mapSize (protection &&& flagExecute ≠ 0) false
    setProtection services mapStart mapSize (if protection &&& flagExecute ≠ 0 then
        flagRead ||| flagWrite ||| flagExecute
      else flagRead ||| flagWrite)
    pure (mapStart, mapEnd)

theorem map_eq_stageSegment (platform : MemoryPlatform) (services : HostMemoryServices HostState)
    (virtualAddress memorySize fileLength : UInt64)
    (protection : ProgramHeaderFlags) :
    map platform services virtualAddress memorySize fileLength protection = (do
        let (mapStart, mapEnd) ← stageSegment platform services virtualAddress
          memorySize fileLength protection
        applySegmentProtection services mapStart mapEnd protection) := by
  unfold map stageSegment
  split
  case isTrue => rfl
  split
  case isTrue => rfl
  simp only [bind_assoc]
  refine bind_congr fun segmentEnd => bind_congr fun mapEnd =>
    bind_congr fun mapSize => bind_congr fun memory => ?_
  split <;> simp only [bind_assoc, pure_bind]

def copySegment (bytes : UInt64 → UInt8) (virtualAddress memorySize : UInt64)
    (fileData : List UInt8) : UInt64 → UInt8 :=
  let copied := fun address =>
    if (address - virtualAddress).toNat < fileData.length then
      fileData.getD (address - virtualAddress).toNat 0
    else bytes address
  let fileLength := UInt64.ofNat fileData.length
  let zeroFillSize := memorySize - fileLength
  fun address =>
    if (address - (virtualAddress + fileLength)).toNat < zeroFillSize.toNat then
      0
    else copied address

def mapBytes (platform : MemoryPlatform) (services : HostMemoryServices HostState)
    (virtualAddress memorySize : UInt64) (fileData : List UInt8)
    (protection : ProgramHeaderFlags) :
    Faulting LoadFault (PhysicalGuest HostState) Unit := do
  let (mapStart, mapEnd) ← onMachine (stageSegment platform services
    virtualAddress memorySize (.ofNat fileData.length) protection)
  modify fun guest => { guest with
    bytes := copySegment guest.bytes virtualAddress memorySize fileData }
  onMachine (applySegmentProtection services mapStart mapEnd protection)

variable (platform : MemoryPlatform) (services : HostMemoryServices HostState)

theorem mapBytes_machine (virtualAddress memorySize : UInt64)
    (fileData : List UInt8) (protection : ProgramHeaderFlags)
    (guest : PhysicalGuest HostState) :
    let ended := (mapBytes platform services virtualAddress memorySize fileData
      protection).outcome guest
    let mapped := (map platform services virtualAddress memorySize
      (.ofNat fileData.length) protection).outcome guest.machine
    ended.1 = mapped.1.mapError loadFaultOf ∧ ended.2.machine = mapped.2 := by
  simp only [map_eq_stageSegment, mapBytes, onMachine, outcome_bind, outcome_within]
  rcases (stageSegment platform services virtualAddress memorySize
    (.ofNat fileData.length) protection).outcome guest.machine with
    ⟨fault | ⟨mapStart, mapEnd⟩, after⟩
  · exact ⟨rfl, rfl⟩
  · exact ⟨rfl, rfl⟩

/-! ### Exceptions of `Map` -/

/-- The exceptions by which the allocator reports that the host refused. -/
def MemoryFault.HostRefused : MemoryFault → Prop
  | .exactMappingFailed _ _ | .setProtectionFailed _ => True
  | .argumentOutOfRange _ _ | .outOfMemory _ | .overflow => False

theorem MemoryFault.HostRefused.declared {fault : MemoryFault}
    (refused : fault.HostRefused) : (loadFaultOf fault).Declared := by
  cases fault with
  | exactMappingFailed desiredAddress alignedSize => trivial
  | setProtectionFailed address => trivial
  | argumentOutOfRange parameterName message => exact refused
  | outOfMemory alignedSize => exact refused
  | overflow => exact refused

variable {platform} {services}

variable {faults : MemoryFault → Prop}

theorem throwsOnly_onHost {Value : Type} (service : HostState → Value × HostState) :
    ThrowsOnly faults (onHost service) :=
  throwsOnly_modifyGet _

theorem throwsOnly_firstPlacement (alignedSize : UInt64) (requests : List PlacementRequest) :
    ThrowsOnly faults (firstPlacement services alignedSize requests) := by
  induction requests with
  | nil => exact throwsOnly_pure _
  | cons request rest ih =>
    exact (throwsOnly_onHost _).bind fun result =>
      ThrowsOnly.ite (fun _ => throwsOnly_pure _) fun _ => ih

theorem throwsOnly_primeLazyRegion
    (actualAddress primeBytes : UInt64) (chunks : ℕ) (committedBytes : UInt64) :
    ThrowsOnly faults (primeLazyRegion services actualAddress primeBytes chunks
        committedBytes) := by
  induction chunks generalizing committedBytes with
  | zero => exact throwsOnly_pure _
  | succ chunks ih =>
    refine ThrowsOnly.ite (fun _ => ?_) fun _ => throwsOnly_pure _
    exact (throwsOnly_onHost _).bind fun committed =>
      ThrowsOnly.ite (fun _ => ih _)
        fun _ => throwsOnly_pure _

theorem throwsOnly_allocateAt (desiredAddress : UInt64) {size : UInt64}
    (positive : size ≠ 0) (executable : Bool) :
    ThrowsOnly MemoryFault.HostRefused
      (allocateAt platform services desiredAddress size executable false) := by
  refine ThrowsOnly.ite (fun isZero => absurd isZero positive) fun _ => ?_
  refine (throwsOnly_firstPlacement _ _).bind fun placed => ?_
  cases placed with
  | none => exact throwsOnly_throw trivial
  | some answer =>
    have recorded (region : MemoryRegion) : ThrowsOnly MemoryFault.HostRefused (do
          onMemory fun memory => { memory with
            regions := insertRegionSorted region memory.regions }
          pure answer.1 : Program HostState UInt64) :=
      (throwsOnly_modify _).bind fun _ => throwsOnly_pure _
    refine ThrowsOnly.ite (fun _ => ?_) fun _ => recorded _
    exact (throwsOnly_primeLazyRegion _ _ _ _).bind fun _ => recorded _

theorem throwsOnly_setProtection (address size : UInt64) (flags : ProgramHeaderFlags) :
    ThrowsOnly MemoryFault.HostRefused (setProtection services address size flags) :=
  (throwsOnly_onHost _).bind fun _ =>
    ThrowsOnly.ite (fun _ => throwsOnly_pure _) fun _ => throwsOnly_throw trivial

theorem throwsOnly_applySegmentPages (mapEnd : UInt64)
    (flags : ProgramHeaderFlags) (pages : ℕ) (pageAddress : UInt64)
    (run : Option ProtectionRun) :
    ThrowsOnly MemoryFault.HostRefused
      (applySegmentPages services mapEnd flags pages pageAddress run) := by
  induction pages generalizing pageAddress run with
  | zero => exact throwsOnly_pure _
  | succ pages ih =>
    refine ThrowsOnly.ite (fun _ => ?_) fun _ => throwsOnly_pure _
    refine (throwsOnly_modifyGet _).bind fun memory => ?_
    refine (throwsOnly_modify _).bind fun _ => ?_
    cases run with
    | none => exact ih _ _
    | some current =>
      refine ThrowsOnly.ite (fun _ => ?_) fun _ => ih _ _
      exact (throwsOnly_setProtection _ _ _).bind
        fun _ => ih _ _

theorem throwsOnly_applySegmentProtection (mapStart mapEnd : UInt64) (flags : ProgramHeaderFlags) :
    ThrowsOnly MemoryFault.HostRefused (applySegmentProtection services mapStart mapEnd flags) := by
  refine (throwsOnly_applySegmentPages _ _ _ _ _).bind fun lastRun => ?_
  cases lastRun with
  | none => exact throwsOnly_pure _
  | some run => exact throwsOnly_setProtection _ _ _

def PageRangeOverflows (virtualAddress memorySize : UInt64) : Prop :=
  2 ^ 64 ≤ virtualAddress.toNat + memorySize.toNat + 0xFFF

instance (virtualAddress memorySize : UInt64) :
    Decidable (PageRangeOverflows virtualAddress memorySize) :=
  inferInstanceAs (Decidable (_ ≤ _))

variable {fileLength : UInt64}

theorem map_overflows {virtualAddress memorySize : UInt64}
    {protection : ProgramHeaderFlags} (positive : memorySize ≠ 0)
    (fileFits : fileLength ≤ memorySize)
    (overflows : PageRangeOverflows virtualAddress memorySize) :
    map platform services virtualAddress memorySize fileLength protection = throw .overflow := by
  unfold PageRangeOverflows at overflows
  rw [map, if_neg positive, if_neg (UInt64.not_lt.mpr fileFits), checkedSum]
  cases added : Word64.checkedAdd virtualAddress memorySize with
  | none => rfl
  | some segmentEnd =>
    obtain ⟨below, isSum⟩ := Word64.checkedAdd_eq_some.mp added
    simp only [pure_bind, alignUp]
    cases rounded : Word64.checkedRoundUp segmentEnd pageSize with
    | none => rfl
    | some mapEnd =>
      obtain ⟨fits, _⟩ := Word64.checkedRoundUp_eq_some.mp rounded
      rw [isSum] at fits
      have mask : (pageSize - 1).toNat = 0xFFF := by decide
      omega

theorem throwsOnly_onMachine {Value : Type} {program : Program HostState Value}
    (refused : ThrowsOnly MemoryFault.HostRefused program) :
    ThrowsOnly LoadFault.Declared (onMachine program) :=
  throwsOnly_within refused fun _ isRefused => isRefused.declared

theorem throwsOnly_map {virtualAddress memorySize : UInt64}
    {protection : ProgramHeaderFlags} (positive : memorySize ≠ 0)
    (fileFits : fileLength ≤ memorySize)
    (fits : ¬ PageRangeOverflows virtualAddress memorySize) :
    ThrowsOnly MemoryFault.HostRefused (map platform services virtualAddress memorySize fileLength
        protection) := by
  unfold PageRangeOverflows at fits
  have memoryPositive := Word64.toNat_pos positive
  rw [map, if_neg positive, if_neg (UInt64.not_lt.mpr fileFits), checkedSum]
  have added : Word64.checkedAdd virtualAddress memorySize = some (virtualAddress + memorySize) :=
    Word64.checkedAdd_isSome (by omega)
  have isSum : (virtualAddress + memorySize).toNat = virtualAddress.toNat + memorySize.toNat :=
    Word64.toNat_add_of_lt (by omega)
  have mask : (pageSize - 1).toNat = 0xFFF := by decide
  have rounded : Word64.checkedRoundUp (virtualAddress + memorySize) pageSize =
      some (Word64.wrappingRoundUp (virtualAddress + memorySize) pageSize) :=
    Word64.checkedRoundUp_eq_some.mpr ⟨by omega, rfl⟩
  have stopsAbove := Word64.le_of_checkedRoundUp (by decide) rounded
  have startsBelow : (alignDown virtualAddress pageSize).toNat ≤
      virtualAddress.toNat := Word64.roundDown_le _ _
  rw [UInt64.le_iff_toNat_le] at stopsAbove
  have ascending : ¬ Word64.wrappingRoundUp (virtualAddress + memorySize)
      pageSize < alignDown virtualAddress pageSize := by
    rw [UInt64.lt_iff_toNat_lt]
    omega
  have sizePositive : Word64.wrappingRoundUp (virtualAddress + memorySize)
      pageSize - alignDown virtualAddress pageSize ≠ 0 := by
    intro isZero
    have noBytes := congrArg UInt64.toNat isZero
    rw [UInt64.toNat_sub_of_le _ _ (UInt64.not_lt.mp ascending)] at noBytes
    change _ = 0 at noBytes
    omega
  simp only [added, pure_bind, alignUp, rounded, checkedDifference, if_neg ascending]
  refine (throwsOnly_modifyGet _).bind fun memory => ?_
  have protecting (flags : ProgramHeaderFlags) (mapStart mapEnd mapSize : UInt64) :
      ThrowsOnly MemoryFault.HostRefused (setProtection services mapStart mapSize flags >>= fun _ =>
          applySegmentProtection services mapStart mapEnd protection) :=
    (throwsOnly_setProtection _ _ _).bind fun _ =>
      throwsOnly_applySegmentProtection _ _ _
  refine ThrowsOnly.ite (fun _ => ?_) fun _ => protecting _ _ _ _
  exact (throwsOnly_allocateAt _ sizePositive _).bind
    fun _ => protecting _ _ _ _

/-! ### The bytes `Map` leaves -/

theorem toNat_fileLength {memorySize : UInt64} {fileData : List UInt8}
    (fits : fileData.length ≤ memorySize.toNat) :
    (UInt64.ofNat fileData.length).toNat = fileData.length :=
  UInt64.toNat_ofNat_of_lt' (Nat.lt_of_le_of_lt fits memorySize.toNat_lt)

theorem copySegment_eq {virtualAddress memorySize : UInt64}
    {fileData : List UInt8} (bytes : UInt64 → UInt8)
    (noWrap : virtualAddress.toNat + memorySize.toNat < 2 ^ 64)
    (fits : fileData.length ≤ memorySize.toNat) :
    (fun address => some (copySegment bytes virtualAddress memorySize fileData address)) =
      overlay (mappedContents virtualAddress memorySize fileData)
        fun address => some (bytes address) := by
  have fileLength := toNat_fileLength fits
  have zeroStart : (virtualAddress + .ofNat fileData.length).toNat =
      virtualAddress.toNat + fileData.length := by
    rw [Word64.toNat_add_of_lt (by omega), fileLength]
  have zeroSize : (memorySize - .ofNat fileData.length).toNat =
      memorySize.toNat - fileData.length := by
    rw [UInt64.toNat_sub_of_le _ _ (by
      rw [UInt64.le_iff_toNat_le, fileLength]
      exact fits), fileLength]
  ext1 address
  have inSegment : (address - virtualAddress).toNat < memorySize.toNat ↔
      virtualAddress.toNat ≤ address.toNat ∧
        address.toNat < virtualAddress.toNat + memorySize.toNat :=
    offset_lt_iff (Nat.le_of_lt noWrap)
  have inZeros : (address - (virtualAddress + .ofNat fileData.length)).toNat <
        (memorySize - .ofNat fileData.length).toNat ↔
      virtualAddress.toNat + fileData.length ≤ address.toNat ∧
        address.toNat < virtualAddress.toNat + memorySize.toNat := by
    rw [offset_lt_iff (by omega), zeroStart, zeroSize]
    omega
  have isOffset : virtualAddress.toNat ≤ address.toNat → (address - virtualAddress).toNat =
        address.toNat - virtualAddress.toNat := fun above =>
    UInt64.toNat_sub_of_le _ _ above
  unfold copySegment overlay mappedContents
  simp only [inZeros, inSegment]
  by_cases inside : virtualAddress.toNat ≤ address.toNat ∧
      address.toNat < virtualAddress.toNat + memorySize.toNat
  · rw [if_pos inside, Option.some_or, isOffset inside.1]
    by_cases isCopied : address.toNat - virtualAddress.toNat < fileData.length
    · rw [if_neg (by omega), if_pos isCopied]
    · rw [if_pos (by omega), List.getD_eq_getElem?_getD, List.getElem?_eq_none (by omega)]
      rfl
  · have notCopied : ¬ (address - virtualAddress).toNat < fileData.length :=
      fun copied => inside (inSegment.mp (Nat.lt_of_lt_of_le copied fits))
    rw [if_neg inside, Option.none_or, if_neg (by omega), if_neg notCopied]

section Laws

variable {virtualAddress memorySize : UInt64} {fileData : List UInt8}
variable {protection : ProgramHeaderFlags}

theorem ofNat_fileLength_le (fits : fileData.length ≤ memorySize.toNat) :
    UInt64.ofNat fileData.length ≤ memorySize := by
  rw [UInt64.le_iff_toNat_le, toNat_fileLength fits]
  exact fits

theorem throwsDeclared_mapBytes (positive : memorySize ≠ 0)
    (fits : fileData.length ≤ memorySize.toNat)
    (noOverflow : ¬ PageRangeOverflows virtualAddress memorySize) :
    ThrowsOnly LoadFault.Declared (mapBytes platform services virtualAddress memorySize fileData
        protection) := by
  intro guest fault ended
  have refused : ThrowsOnly LoadFault.Declared
      (onMachine (map platform services virtualAddress memorySize
        (.ofNat fileData.length) protection)) :=
    throwsOnly_onMachine (throwsOnly_map positive (ofNat_fileLength_le fits) noOverflow)
  have sameEnd := (mapBytes_machine platform services virtualAddress memorySize
    fileData protection guest).1
  rw [sameEnd] at ended
  exact refused guest fault ended

theorem mapBytes_overflows (positive : memorySize ≠ 0) (fits : fileData.length ≤ memorySize.toNat)
    (overflows : PageRangeOverflows virtualAddress memorySize)
    (guest : PhysicalGuest HostState) :
    ((mapBytes platform services virtualAddress memorySize fileData
      protection).outcome guest).1 = .error .overflow := by
  have sameEnd := (mapBytes_machine platform services virtualAddress memorySize
    fileData protection guest).1
  rw [sameEnd, map_overflows positive (ofNat_fileLength_le fits) overflows]
  rfl

variable {before after : PhysicalGuest HostState}

theorem bytes_mapBytes (mapped : (mapBytes platform services virtualAddress memorySize fileData
      protection).outcome before = (.ok (), after)) :
    after.bytes = copySegment before.bytes virtualAddress memorySize fileData := by
  simp only [mapBytes, onMachine, outcome_bind, outcome_within] at mapped
  rcases staged : (stageSegment platform services virtualAddress memorySize
    (.ofNat fileData.length) protection).outcome before.machine with
    ⟨fault | ⟨mapStart, mapEnd⟩, inner⟩
  · rw [staged] at mapped
    cases mapped
  · rw [staged] at mapped
    obtain ⟨_, rfl⟩ := Prod.mk.inj mapped
    rfl

theorem byteAt_mapBytes (positive : memorySize ≠ 0) (fits : fileData.length ≤ memorySize.toNat)
    (mapped : (mapBytes platform services virtualAddress memorySize fileData
      protection).outcome before = (.ok (), after)) :
    (fun address => some (after.bytes address)) =
      overlay (mappedContents virtualAddress memorySize fileData)
        fun address => some (before.bytes address) := by
  have noOverflow : ¬ PageRangeOverflows virtualAddress memorySize := by
    intro overflows
    have ended : ((mapBytes platform services virtualAddress memorySize fileData
        protection).outcome before).1 = .error .overflow :=
      mapBytes_overflows positive fits overflows before
    rw [mapped] at ended
    cases ended
  unfold PageRangeOverflows at noOverflow
  rw [bytes_mapBytes mapped]
  exact copySegment_eq before.bytes (by omega) fits

end Laws

def physicalMemory (platform : MemoryPlatform) (services : HostMemoryServices HostState) :
    IVirtualMemory (PhysicalGuest HostState) where
  map virtualAddress memorySize _ fileData protection :=
    mapBytes platform services virtualAddress memorySize fileData protection
  byteAt guest address := some (guest.bytes address)
  RangeOverflows := PageRangeOverflows
  throws positive fits noOverflow :=
    throwsDeclared_mapBytes positive fits noOverflow
  overflows positive fits overflows :=
    mapBytes_overflows positive fits overflows
  byteAt_map positive fits _ _ mapped := byteAt_mapBytes positive fits mapped

end PhysicalVirtualMemory

/-! ## Bytes in managed buffers -/

namespace VirtualMemory

def loadFaultOf : MemoryFault → LoadFault
  | .argumentOutOfRange => .argumentOutOfRange
  | .notSupported => .notSupported
      "Virtual memory regions larger than 2 GB are not currently supported."
  | .overflow => .overflow
  | .invalidOperation =>
      .invalidOperation "Attempted to map an overlapping virtual memory region."

abbrev OrderedRegions := {regions : List MappedRegion // Ordered regions}

def mapOrdered (virtualAddress memorySize fileOffset : UInt64)
    (fileData : List UInt8) (protection : ProgramHeaderFlags) :
    Faulting LoadFault OrderedRegions Unit := fun before =>
  match succeeds : map before.val virtualAddress memorySize fileOffset fileData
      protection with
  | .ok mapped => (.ok (), ⟨mapped, before.property.map succeeds⟩)
  | .error fault => (.error (loadFaultOf fault), before)

def ManagedRangeOverflows (virtualAddress memorySize : UInt64) : Prop :=
  memorySize ≤ intMaxValue ∧ 2 ^ 64 ≤ virtualAddress.toNat + memorySize.toNat

section Laws

variable {virtualAddress memorySize fileOffset : UInt64}
variable {fileData : List UInt8} {protection : ProgramHeaderFlags}

variable {before after : OrderedRegions}

theorem outcome_mapOrdered_ok (mapped : (mapOrdered virtualAddress memorySize fileOffset fileData
      protection).outcome before = (.ok (), after)) :
    map before.val virtualAddress memorySize fileOffset fileData protection = .ok after.val := by
  simp only [mapOrdered, outcome] at mapped
  split at mapped
  case h_1 regions succeeds =>
    obtain ⟨_, rfl⟩ := Prod.mk.inj mapped
    exact succeeds
  case h_2 => cases mapped

theorem outcome_mapOrdered_error {fault : LoadFault}
    (threw : ((mapOrdered virtualAddress memorySize fileOffset fileData
      protection).outcome before).1 = .error fault) :
    ∃ thrown, map before.val virtualAddress memorySize fileOffset fileData
      protection = .error thrown ∧ fault = loadFaultOf thrown := by
  simp only [mapOrdered, outcome] at threw
  split at threw
  case h_1 => cases threw
  case h_2 thrown fails =>
    obtain rfl := Except.error.inj threw
    exact ⟨thrown, fails, rfl⟩

theorem throwsDeclared_mapOrdered (positive : memorySize ≠ 0)
    (fits : fileData.length ≤ memorySize.toNat)
    (noOverflow : ¬ ManagedRangeOverflows virtualAddress memorySize) :
    ThrowsOnly LoadFault.Declared
      (mapOrdered virtualAddress memorySize fileOffset fileData protection) := by
  intro before fault threw
  obtain ⟨thrown, fails, rfl⟩ := outcome_mapOrdered_error threw
  rw [VirtualMemory.map, if_neg positive, if_neg (Nat.not_lt.mpr fits)] at fails
  split at fails
  case isTrue =>
    obtain rfl := Except.error.inj fails
    trivial
  case isFalse small =>
    have added : Word64.checkedAdd virtualAddress memorySize = some (virtualAddress + memorySize) :=
      Word64.checkedAdd_isSome (Nat.lt_of_not_le fun beyond =>
        noOverflow ⟨UInt64.not_lt.mp small, beyond⟩)
    simp only [added] at fails
    split at fails
    case isTrue =>
      obtain rfl := Except.error.inj fails
      trivial
    case isFalse => cases fails

theorem mapOrdered_overflows (positive : memorySize ≠ 0) (fits : fileData.length ≤ memorySize.toNat)
    (overflows : ManagedRangeOverflows virtualAddress memorySize)
    (before : OrderedRegions) :
    ((mapOrdered virtualAddress memorySize fileOffset fileData
      protection).outcome before).1 = .error .overflow := by
  obtain ⟨small, beyond⟩ := overflows
  have fails : map before.val virtualAddress memorySize fileOffset fileData
      protection = .error .overflow := by
    rw [VirtualMemory.map, if_neg positive, if_neg (Nat.not_lt.mpr fits),
      if_neg (UInt64.not_lt.mpr small)]
    cases added : Word64.checkedAdd virtualAddress memorySize with
    | none => rfl
    | some endAddress =>
      obtain ⟨below, _⟩ := Word64.checkedAdd_eq_some.mp added
      omega
  simp only [mapOrdered, outcome]
  split
  case h_1 succeeds =>
    rw [fails] at succeeds
    cases succeeds
  case h_2 thrown threw =>
    rw [fails] at threw
    obtain rfl := Except.error.inj threw
    rfl

variable {regions : List MappedRegion}

theorem Ordered.byteAt_of_mem (ordered : Ordered regions) {mapped : MappedRegion}
    (member : mapped ∈ regions) {point : ℕ}
    (contains : mapped.extent.Contains point) :
    byteAt regions point = mapped.backingMemory[point - mapped.extent.start]? := by
  induction regions with
  | nil => cases member
  | cons head rest ih =>
    rcases List.mem_cons.mp member with rfl | inRest
    · rw [byteAt, if_pos contains]
    · have starts := ordered.starts_after inRest
      have above := contains.1
      rw [ordered.byteAt_of_le (Nat.le_trans starts above)]
      exact ih ordered.tail inRest

theorem map_inserts {after : List MappedRegion}
    (succeeds : map regions virtualAddress memorySize fileOffset fileData protection = .ok after) :
    virtualAddress.toNat + memorySize.toNat < 2 ^ 64 ∧
    ∃ inserted : MappedRegion, inserted.extent = ⟨virtualAddress.toNat, memorySize.toNat⟩ ∧
      inserted.backingMemory = fileData ++ List.replicate (memorySize.toNat - fileData.length) 0 ∧
      after.Perm (inserted :: regions) := by
  unfold VirtualMemory.map at succeeds
  split at succeeds
  case isTrue => cases succeeds
  split at succeeds
  case isTrue => cases succeeds
  split at succeeds
  case isTrue => cases succeeds
  cases added : Word64.checkedAdd virtualAddress memorySize with
  | none =>
    rw [added] at succeeds
    cases succeeds
  | some endAddress =>
    obtain ⟨below, _⟩ := Word64.checkedAdd_eq_some.mp added
    simp only [added] at succeeds
    split at succeeds
    case isTrue => cases succeeds
    case isFalse =>
      obtain rfl := Except.ok.inj succeeds
      exact ⟨below, _, rfl, rfl, PartitionSearch.insertAtPartition_perm _ _ _⟩

/-- A buffer filled up with zeros. -/
theorem getElem?_padded (bytes : List UInt8) {size offset : ℕ} (inside : offset < size) :
    (bytes ++ List.replicate (size - bytes.length) 0)[offset]? = some (bytes.getD offset 0) := by
  rw [List.getElem?_append, List.getD_eq_getElem?_getD]
  split
  case isTrue isByte => rw [List.getElem?_eq_getElem isByte, Option.getD_some]
  case isFalse isZero =>
    rw [List.getElem?_replicate, if_pos (by omega),
      List.getElem?_eq_none (Nat.not_lt.mp isZero), Option.getD_none]

theorem byteAt_mapOrdered (mapped : (mapOrdered virtualAddress memorySize fileOffset fileData
      protection).outcome before = (.ok (), after)) :
    (fun address : UInt64 => byteAt after.val address.toNat) =
      overlay (mappedContents virtualAddress memorySize fileData)
        fun address => byteAt before.val address.toNat := by
  obtain ⟨noWrap, inserted, isExtent, isBacked, isPerm⟩ :=
    map_inserts (outcome_mapOrdered_ok mapped)
  ext1 address
  have inSegment : (address - virtualAddress).toNat < memorySize.toNat ↔
      virtualAddress.toNat ≤ address.toNat ∧
        address.toNat < virtualAddress.toNat + memorySize.toNat :=
    offset_lt_iff (Nat.le_of_lt noWrap)
  have inserting : inserted.extent.Contains address.toNat ↔
      (address - virtualAddress).toNat < memorySize.toNat := by
    rw [isExtent, inSegment]
    rfl
  unfold overlay mappedContents
  by_cases inside : (address - virtualAddress).toNat < memorySize.toNat
  · have isOffset : (address - virtualAddress).toNat = address.toNat - virtualAddress.toNat :=
      UInt64.toNat_sub_of_le _ _ (inSegment.mp inside).1
    rw [isOffset] at inside
    rw [isOffset, if_pos inside, Option.some_or,
      after.property.byteAt_of_mem (isPerm.mem_iff.mpr List.mem_cons_self)
        (inserting.mpr (isOffset ▸ inside)), isBacked, isExtent]
    exact getElem?_padded fileData inside
  · rw [if_neg inside, Option.none_or]
    change byteAt after.val address.toNat = byteAt before.val address.toNat
    by_cases covered : ∃ other ∈ before.val, other.extent.Contains address.toNat
    · obtain ⟨other, member, contains⟩ := covered
      rw [before.property.byteAt_of_mem member contains, after.property.byteAt_of_mem
          (isPerm.mem_iff.mpr (List.mem_cons_of_mem _ member)) contains]
    · have nothing : ∀ other ∈ before.val, ¬ other.extent.Contains address.toNat :=
        fun other member contains => covered ⟨other, member, contains⟩
      rw [byteAt_eq_none nothing, byteAt_eq_none]
      intro other member contains
      rcases List.mem_cons.mp (isPerm.mem_iff.mp member) with rfl | isOld
      · exact inside (inserting.mp contains)
      · exact nothing other isOld contains

end Laws

def managedMemory : IVirtualMemory OrderedRegions where
  map := mapOrdered
  byteAt regions address := byteAt regions.val address.toNat
  RangeOverflows := ManagedRangeOverflows
  throws positive fits noOverflow :=
    throwsDeclared_mapOrdered positive fits noOverflow
  overflows positive fits overflows :=
    mapOrdered_overflows positive fits overflows
  byteAt_map _ _ _ _ mapped := byteAt_mapOrdered mapped

end VirtualMemory
end SharpEmu
