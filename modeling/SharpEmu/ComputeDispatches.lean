import SharpEmu.ExactTilings

/-!
# Recording a compute dispatch in chunks

The presenter validates a guest dispatch against the device, cuts its Z axis
into batches of eight slices, one queue submission each, and records every batch
as direct dispatch commands of at most 4096 workgroups, walking X, Y and Z in
chunks whose lengths follow from the budget the outer axes leave.
-/

namespace SharpEmu.ComputeDispatches

open ExactTilings

structure DeviceLimits where
  maxComputeWorkGroupCountX : UInt32
  maxComputeWorkGroupCountY : UInt32
  maxComputeWorkGroupCountZ : UInt32
  maxComputeWorkGroupSizeX : UInt32
  maxComputeWorkGroupSizeY : UInt32
  maxComputeWorkGroupSizeZ : UInt32
  maxComputeWorkGroupInvocations : UInt32

structure VulkanComputeGuestDispatch where
  baseGroupX : UInt32
  baseGroupY : UInt32
  baseGroupZ : UInt32
  groupCountX : UInt32
  groupCountY : UInt32
  groupCountZ : UInt32
  localSizeX : UInt32
  localSizeY : UInt32
  localSizeZ : UInt32
  isIndirect : Bool

/-- A `CmdDispatchBase`: the first workgroup and the counts on each axis. -/
structure DispatchCommand where
  baseX : ℕ
  baseY : ℕ
  baseZ : ℕ
  countX : ℕ
  countY : ℕ
  countZ : ℕ
  deriving DecidableEq, Repr

/-- What can escape from the recording loops: an overflowing checked addition,
or a loop that takes more turns than its axis has workgroups. -/
inductive DispatchFault
  | overflow
  | stuck
  deriving DecidableEq, Repr

/-- Unchecked 32-bit arithmetic. -/
def uint (value : ℕ) : ℕ := value % 2 ^ 32

def checkedAdd (left right : ℕ) : Except DispatchFault ℕ :=
  if left + right < 2 ^ 32 then .ok (left + right) else .error .overflow

def maxComputeZSlicesPerSubmission : ℕ := 8

def maxCredibleGuestWorkgroupsPerDispatch : ℕ := 16 * 1024 * 1024

def maxWorkgroupsPerCommand : ℕ := 4096

variable (limits : DeviceLimits) (work : VulkanComputeGuestDispatch)

def localInvocations : ℕ :=
  work.localSizeX.toNat * work.localSizeY.toNat % 2 ^ 64 * work.localSizeZ.toNat % 2 ^ 64

/-- The checked product of the group counts. -/
def totalWorkgroups : Option ℕ :=
  let plane := work.groupCountX.toNat * work.groupCountY.toNat
  let total := plane * work.groupCountZ.toNat
  if plane < 2 ^ 64 ∧ total < 2 ^ 64 then some total else none

def triple (x y z : ℕ) : String := s!"{x}x{y}x{z}"

def tryValidateComputeDispatch : Except String Unit :=
  if work.localSizeX = 0 ∨ work.localSizeY = 0 ∨ work.localSizeZ = 0 then
    .error "zero-local-size"
  else if limits.maxComputeWorkGroupSizeX < work.localSizeX ∨
      limits.maxComputeWorkGroupSizeY < work.localSizeY ∨
      limits.maxComputeWorkGroupSizeZ < work.localSizeZ then
    let size := triple work.localSizeX.toNat work.localSizeY.toNat work.localSizeZ.toNat
    let most := triple limits.maxComputeWorkGroupSizeX.toNat limits.maxComputeWorkGroupSizeY.toNat
      limits.maxComputeWorkGroupSizeZ.toNat
    .error s!"local-size-exceeds-device({size}>{most})"
  else if limits.maxComputeWorkGroupInvocations.toNat < localInvocations work then
    let count := localInvocations work
    let most := limits.maxComputeWorkGroupInvocations.toNat
    .error s!"local-invocations-exceed-device({count}>{most})"
  else if limits.maxComputeWorkGroupCountX.toNat < work.baseGroupX.toNat + work.groupCountX.toNat ∨
      limits.maxComputeWorkGroupCountY.toNat < work.baseGroupY.toNat + work.groupCountY.toNat ∨
      limits.maxComputeWorkGroupCountZ.toNat < work.baseGroupZ.toNat + work.groupCountZ.toNat then
    let base := triple work.baseGroupX.toNat work.baseGroupY.toNat work.baseGroupZ.toNat
    let count := triple work.groupCountX.toNat work.groupCountY.toNat work.groupCountZ.toNat
    let most := triple limits.maxComputeWorkGroupCountX.toNat limits.maxComputeWorkGroupCountY.toNat
      limits.maxComputeWorkGroupCountZ.toNat
    .error s!"group-range-exceeds-device(base={base},count={count},limit={most})"
  else if work.isIndirect then
    match totalWorkgroups work with
    | none => .error "indirect-workgroup-count-overflow"
    | some total =>
        if maxCredibleGuestWorkgroupsPerDispatch < total then
          let most := maxCredibleGuestWorkgroupsPerDispatch
          .error s!"poisoned-indirect-workgroup-count({total}>{most})"
        else .ok ()
  else .ok ()

def maxChunk (extent limit budget : ℕ) : ℕ :=
  max 1 (min extent (min limit budget))

def recordCommand (zStart x countX y countY z countZ : ℕ) :
    Except DispatchFault (List DispatchCommand) := do
  let baseX ← checkedAdd work.baseGroupX.toNat x
  let baseY ← checkedAdd work.baseGroupY.toNat y
  let baseZ ← checkedAdd work.baseGroupZ.toNat zStart
  let baseZ ← checkedAdd baseZ z
  return [⟨baseX, baseY, baseZ, countX, countY, countZ⟩]

def recordZ (zStart zCount x countX y countY xyBudget : ℕ) :
    Except DispatchFault (List DispatchCommand) :=
  let xyzBudget := max (xyBudget / countY) 1
  chunkLoop uint .stuck zCount (maxChunk zCount limits.maxComputeWorkGroupCountZ.toNat xyzBudget)
    (recordCommand work zStart x countX y countY) zCount 0

def recordY (zStart zCount x countX : ℕ) : Except DispatchFault (List DispatchCommand) :=
  let xyBudget := max (maxWorkgroupsPerCommand / countX) 1
  chunkLoop uint .stuck work.groupCountY.toNat (maxChunk work.groupCountY.toNat
      limits.maxComputeWorkGroupCountY.toNat xyBudget)
    (fun y countY => recordZ limits work zStart zCount x countX y countY xyBudget)
    work.groupCountY.toNat 0

def recordChunkedComputeDispatch (zStart zCount : ℕ) :
    Except DispatchFault (List DispatchCommand) :=
  chunkLoop uint .stuck work.groupCountX.toNat (maxChunk work.groupCountX.toNat
      limits.maxComputeWorkGroupCountX.toNat maxWorkgroupsPerCommand)
    (recordY limits work zStart zCount) work.groupCountX.toNat 0

/-- The quotient is exact as a double, so the ceiling is the rounded-up
quotient. -/
def batchCount : ℕ :=
  max 1 ((work.groupCountZ.toNat + 7) / maxComputeZSlicesPerSubmission)

def recordBatch (batchIndex : ℕ) : Except DispatchFault (List DispatchCommand) :=
  let zStart := uint (batchIndex * maxComputeZSlicesPerSubmission)
  let zCount := min maxComputeZSlicesPerSubmission (uint (work.groupCountZ.toNat + 2 ^ 32 - zStart))
  recordChunkedComputeDispatch limits work zStart zCount

def recordBatches : ℕ → Except DispatchFault (List DispatchCommand)
  | 0 => .ok []
  | count + 1 => do
      let before ← recordBatches count
      let batch ← recordBatch limits work count
      return before ++ batch

def executeComputeDispatchCore : Except DispatchFault (Except String (List DispatchCommand)) :=
  match tryValidateComputeDispatch limits work with
  | .error message => .ok (.error message)
  | .ok () => do
      let commands ← recordBatches limits work (batchCount work)
      return .ok commands

/-! ### Workgroups -/

structure Workgroup where
  x : ℕ
  y : ℕ
  z : ℕ

namespace DispatchCommand

def workgroups (command : DispatchCommand) : Set Workgroup :=
  {group |
    (command.baseX ≤ group.x ∧ group.x < command.baseX + command.countX) ∧
    (command.baseY ≤ group.y ∧ group.y < command.baseY + command.countY) ∧
    (command.baseZ ≤ group.z ∧ group.z < command.baseZ + command.countZ)}

structure Admissible (limits : DeviceLimits) (command : DispatchCommand) :
    Prop where
  positiveX : 0 < command.countX
  positiveY : 0 < command.countY
  positiveZ : 0 < command.countZ
  budget : command.countX * command.countY * command.countZ ≤
    maxWorkgroupsPerCommand
  limitX : command.countX ≤ limits.maxComputeWorkGroupCountX.toNat
  limitY : command.countY ≤ limits.maxComputeWorkGroupCountY.toNat
  limitZ : command.countZ ≤ limits.maxComputeWorkGroupCountZ.toNat

end DispatchCommand

namespace VulkanComputeGuestDispatch

def workgroups (work : VulkanComputeGuestDispatch) : Set Workgroup :=
  {group |
    (work.baseGroupX.toNat ≤ group.x ∧ group.x < work.baseGroupX.toNat + work.groupCountX.toNat) ∧
    (work.baseGroupY.toNat ≤ group.y ∧ group.y < work.baseGroupY.toNat + work.groupCountY.toNat) ∧
    (work.baseGroupZ.toNat ≤ group.z ∧ group.z < work.baseGroupZ.toNat + work.groupCountZ.toNat)}

end VulkanComputeGuestDispatch

/-- The workgroups between two corners. -/
def box (xStart xStop yStart yStop zStart zStop : ℕ) : Set Workgroup :=
  {group |
    (xStart ≤ group.x ∧ group.x < xStop) ∧
    (yStart ≤ group.y ∧ group.y < yStop) ∧
    (zStart ≤ group.z ∧ group.z < zStop)}

theorem box_eq_slab_x (xStart xStop yStart yStop zStart zStop : ℕ) :
    box xStart xStop yStart yStop zStart zStop = slab Workgroup.x
        {group | (yStart ≤ group.y ∧ group.y < yStop) ∧
          (zStart ≤ group.z ∧ group.z < zStop)} xStart xStop := by
  ext group
  simp only [box, slab, Set.mem_ofPred_eq]
  tauto

theorem box_eq_slab_y (xStart xStop yStart yStop zStart zStop : ℕ) :
    box xStart xStop yStart yStop zStart zStop = slab Workgroup.y
        {group | (xStart ≤ group.x ∧ group.x < xStop) ∧
          (zStart ≤ group.z ∧ group.z < zStop)} yStart yStop := by
  ext group
  simp only [box, slab, Set.mem_ofPred_eq]
  tauto

theorem box_eq_slab_z (xStart xStop yStart yStop zStart zStop : ℕ) :
    box xStart xStop yStart yStop zStart zStop = slab Workgroup.z
        {group | (xStart ≤ group.x ∧ group.x < xStop) ∧
          (yStart ≤ group.y ∧ group.y < yStop)} zStart zStop := by
  ext group
  simp only [box, slab, Set.mem_ofPred_eq]
  tauto

/-- What validation promises the recording loops: the group range ends within
the device's limit on each axis. -/
structure WithinDevice (limits : DeviceLimits)
    (work : VulkanComputeGuestDispatch) : Prop where
  x : work.baseGroupX.toNat + work.groupCountX.toNat ≤
    limits.maxComputeWorkGroupCountX.toNat
  y : work.baseGroupY.toNat + work.groupCountY.toNat ≤
    limits.maxComputeWorkGroupCountY.toNat
  z : work.baseGroupZ.toNat + work.groupCountZ.toNat ≤
    limits.maxComputeWorkGroupCountZ.toNat

variable {limits work}

theorem withinDevice_of_validated (valid : tryValidateComputeDispatch limits work = .ok ()) :
    WithinDevice limits work := by
  rw [tryValidateComputeDispatch] at valid
  split at valid
  next => cases valid
  next =>
    split at valid
    next => cases valid
    next =>
      split at valid
      next => cases valid
      next =>
        split at valid
        next => cases valid
        next within =>
          simp only [not_or, Nat.not_lt] at within
          exact ⟨within.1, within.2.1, within.2.2⟩

theorem uint_of_lt {value : ℕ} (small : value < 2 ^ 32) : uint value = value :=
  Nat.mod_eq_of_lt small

theorem checkedAdd_of_lt {left right : ℕ} (small : left + right < 2 ^ 32) :
    checkedAdd left right = .ok (left + right) :=
  if_pos small

theorem maxChunk_pos (extent limit budget : ℕ) : 0 < maxChunk extent limit budget :=
  lt_max_of_lt_left (by decide)

theorem le_of_le_maxChunk {count extent limit budget : ℕ}
    (chunk : count ≤ maxChunk extent limit budget) (room : 0 < limit)
    (positive : 0 < budget) : count ≤ limit ∧ count ≤ budget := by
  simp only [maxChunk] at chunk
  omega

namespace WithinDevice

variable (within : WithinDevice limits work)
include within

variable {zStart x countX y countY : ℕ}

theorem recordCommand_tiles {z countZ : ℕ}
    (positiveX : 0 < countX) (positiveY : 0 < countY) (positiveZ : 0 < countZ)
    (fitsX : x + countX ≤ work.groupCountX.toNat)
    (fitsY : y + countY ≤ work.groupCountY.toNat)
    (fitsZ : zStart + z + countZ ≤ work.groupCountZ.toNat)
    (budget : countX * countY * countZ ≤ maxWorkgroupsPerCommand) :
    TilesWith (DispatchCommand.Admissible limits) DispatchCommand.workgroups
      (recordCommand work zStart x countX y countY z countZ)
      (box (work.baseGroupX.toNat + x) (work.baseGroupX.toNat + (x + countX))
        (work.baseGroupY.toNat + y) (work.baseGroupY.toNat + (y + countY))
        (work.baseGroupZ.toNat + zStart + z)
        (work.baseGroupZ.toNat + zStart + (z + countZ))) := by
  have x32 := limits.maxComputeWorkGroupCountX.toNat_lt
  have y32 := limits.maxComputeWorkGroupCountY.toNat_lt
  have z32 := limits.maxComputeWorkGroupCountZ.toNat_lt
  have endX := within.x
  have endY := within.y
  have endZ := within.z
  let command : DispatchCommand :=
    ⟨work.baseGroupX.toNat + x, work.baseGroupY.toNat + y,
      work.baseGroupZ.toNat + zStart + z, countX, countY, countZ⟩
  refine ⟨[command], ?_, ?_, ?_⟩
  · rw [recordCommand, checkedAdd_of_lt (by omega), checkedAdd_of_lt (by omega),
      checkedAdd_of_lt (show work.baseGroupZ.toNat + zStart < 2 ^ 32 by omega)]
    simp only [bind, Except.bind]
    rw [checkedAdd_of_lt (by omega)]
    rfl
  · have covers : Tiles DispatchCommand.workgroups [command]
        command.workgroups := Tiles.singleton command
    simpa only [box, DispatchCommand.workgroups, command, Nat.add_assoc] using covers
  · intro tile member
    obtain rfl := List.mem_singleton.mp member
    exact ⟨positiveX, positiveY, positiveZ, budget, by simp only [command]; omega,
      by simp only [command]; omega, by simp only [command]; omega⟩

variable {zCount : ℕ}

theorem recordZ_tiles {xyBudget : ℕ} (positiveX : 0 < countX) (positiveY : 0 < countY)
    (fitsX : x + countX ≤ work.groupCountX.toNat)
    (fitsY : y + countY ≤ work.groupCountY.toNat)
    (fitsZ : zStart + zCount ≤ work.groupCountZ.toNat)
    (budgetX : countX * xyBudget ≤ maxWorkgroupsPerCommand)
    (budgetY : countY ≤ xyBudget) :
    TilesWith (DispatchCommand.Admissible limits) DispatchCommand.workgroups
      (recordZ limits work zStart zCount x countX y countY xyBudget)
      (box (work.baseGroupX.toNat + x) (work.baseGroupX.toNat + (x + countX))
        (work.baseGroupY.toNat + y) (work.baseGroupY.toNat + (y + countY))
        (work.baseGroupZ.toNat + zStart)
        (work.baseGroupZ.toNat + zStart + zCount)) := by
  have z32 := work.groupCountZ.toNat_lt
  rw [box_eq_slab_z]
  refine chunkLoop_tiles (maxChunk_pos _ _ _)
    (fun _ le => uint_of_lt (by omega)) ?_ (Nat.le_add_left _ _) (Nat.zero_le _)
  intro z countZ positiveZ chunk fits
  have endZ := within.z
  have share : countZ ≤ xyBudget / countY := by
    have fromBudget := (le_of_le_maxChunk chunk (by omega) (lt_max_of_lt_right Nat.one_pos)).2
    rwa [max_eq_left (Nat.div_pos budgetY positiveY)] at fromBudget
  rw [← box_eq_slab_z]
  refine within.recordCommand_tiles positiveX positiveY positiveZ fitsX fitsY (by omega) ?_
  calc countX * countY * countZ = countX * (countY * countZ) := Nat.mul_assoc _ _ _
    _ ≤ countX * (countY * (xyBudget / countY)) :=
        Nat.mul_le_mul_left _ (Nat.mul_le_mul_left _ share)
    _ ≤ countX * xyBudget :=
        Nat.mul_le_mul_left _ (Nat.mul_div_le _ _)
    _ ≤ maxWorkgroupsPerCommand := budgetX

theorem recordY_tiles (positiveX : 0 < countX) (small : countX ≤ maxWorkgroupsPerCommand)
    (fitsX : x + countX ≤ work.groupCountX.toNat)
    (fitsZ : zStart + zCount ≤ work.groupCountZ.toNat) :
    TilesWith (DispatchCommand.Admissible limits) DispatchCommand.workgroups
      (recordY limits work zStart zCount x countX)
      (box (work.baseGroupX.toNat + x) (work.baseGroupX.toNat + (x + countX)) work.baseGroupY.toNat
        (work.baseGroupY.toNat + work.groupCountY.toNat)
        (work.baseGroupZ.toNat + zStart)
        (work.baseGroupZ.toNat + zStart + zCount)) := by
  have y32 := work.groupCountY.toNat_lt
  have budget : max (maxWorkgroupsPerCommand / countX) 1 = maxWorkgroupsPerCommand / countX :=
    max_eq_left (Nat.div_pos small positiveX)
  rw [box_eq_slab_y]
  refine chunkLoop_tiles (maxChunk_pos _ _ _)
    (fun _ le => uint_of_lt (by omega)) ?_ (Nat.le_add_left _ _) (Nat.zero_le _)
  intro y countY positiveY chunk fits
  have endY := within.y
  have share := (le_of_le_maxChunk chunk (by omega) (lt_max_of_lt_right Nat.one_pos)).2
  rw [← box_eq_slab_y]
  refine within.recordZ_tiles positiveX positiveY fitsX fits fitsZ ?_ share
  rw [budget]
  exact Nat.mul_div_le _ _

theorem recordChunkedComputeDispatch_tiles (fitsZ : zStart + zCount ≤ work.groupCountZ.toNat) :
    TilesWith (DispatchCommand.Admissible limits) DispatchCommand.workgroups
      (recordChunkedComputeDispatch limits work zStart zCount)
      (box work.baseGroupX.toNat (work.baseGroupX.toNat + work.groupCountX.toNat)
        work.baseGroupY.toNat
        (work.baseGroupY.toNat + work.groupCountY.toNat)
        (work.baseGroupZ.toNat + zStart)
        (work.baseGroupZ.toNat + (zStart + zCount))) := by
  have x32 := work.groupCountX.toNat_lt
  rw [box_eq_slab_x]
  refine chunkLoop_tiles (maxChunk_pos _ _ _)
    (fun _ le => uint_of_lt (by omega)) ?_ (Nat.le_add_left _ _) (Nat.zero_le _)
  intro x countX positiveX chunk fits
  have endX := within.x
  have small := (le_of_le_maxChunk chunk (by omega) (by decide)).2
  rw [← box_eq_slab_x, ← Nat.add_assoc work.baseGroupZ.toNat]
  exact within.recordY_tiles positiveX small fits fitsZ

theorem recordBatches_tiles {count : ℕ} (fits : count ≤ batchCount work) :
    TilesWith (DispatchCommand.Admissible limits) DispatchCommand.workgroups
      (recordBatches limits work count)
      (box work.baseGroupX.toNat (work.baseGroupX.toNat + work.groupCountX.toNat)
        work.baseGroupY.toNat
        (work.baseGroupY.toNat + work.groupCountY.toNat)
        work.baseGroupZ.toNat
        (work.baseGroupZ.toNat + min (8 * count) work.groupCountZ.toNat)) := by
  have z32 := work.groupCountZ.toNat_lt
  induction count with
  | zero =>
    refine ⟨[], rfl, ?_, by simp⟩
    rw [box_eq_slab_z, Nat.mul_zero, Nat.zero_min, Nat.add_zero, slab_self]
    exact Tiles.nil
  | succ count ih =>
    obtain ⟨before, ran, tiles, kind⟩ := ih (by omega)
    have start : 8 * count ≤ work.groupCountZ.toNat := by
      simp only [batchCount, maxComputeZSlicesPerSubmission] at fits
      omega
    have zStart : uint (count * maxComputeZSlicesPerSubmission) = 8 * count := by
      rw [maxComputeZSlicesPerSubmission, uint_of_lt (by omega), Nat.mul_comm]
    have zCount : min maxComputeZSlicesPerSubmission
        (uint (work.groupCountZ.toNat + 2 ^ 32 - 8 * count)) =
          min (8 * (count + 1)) work.groupCountZ.toNat - 8 * count := by
      simp only [maxComputeZSlicesPerSubmission, uint]
      omega
    obtain ⟨batch, went, batchTiles, batchKind⟩ :=
      within.recordChunkedComputeDispatch_tiles
        (show 8 * count + (min (8 * (count + 1)) work.groupCountZ.toNat -
          8 * count) ≤ work.groupCountZ.toNat by omega)
    refine ⟨before ++ batch, ?_, ?_, ?_⟩
    · simp only [recordBatches, recordBatch, zStart, zCount, ran, went]
      rfl
    · rw [min_eq_left start] at tiles
      rw [Nat.add_sub_cancel' (by omega)] at batchTiles
      rw [box_eq_slab_z] at tiles batchTiles ⊢
      exact tiles.append_slabs batchTiles (by omega) (by omega)
    · intro tile member
      rcases List.mem_append.mp member with early | late
      · exact kind tile early
      · exact batchKind tile late

end WithinDevice

/-- The commands recorded for a valid dispatch tile the box of workgroups the
guest asked for, within the budget and the device's limits, and no addition
overflows on the way. -/
theorem dispatch_commands_tile_groups (valid : tryValidateComputeDispatch limits work = .ok ()) :
    ∃ commands, executeComputeDispatchCore limits work = .ok (.ok commands) ∧
      (∀ group ∈ work.workgroups, ∃! index : Fin commands.length,
        group ∈ (commands.get index).workgroups) ∧
      (∀ command ∈ commands, command.workgroups ⊆ work.workgroups) ∧
      ∀ command ∈ commands, command.Admissible limits := by
  have within := withinDevice_of_validated valid
  obtain ⟨commands, recorded, tiles, admissible⟩ :=
    within.recordBatches_tiles le_rfl
  have all : min (8 * batchCount work) work.groupCountZ.toNat =
      work.groupCountZ.toNat := by
    simp only [batchCount, maxComputeZSlicesPerSubmission]
    omega
  rw [all] at tiles
  refine ⟨commands, ?_, fun group member => tiles.existsUnique_index member,
    tiles.inside, admissible⟩
  simp only [executeComputeDispatchCore, valid, recorded]
  rfl

def smallDevice : DeviceLimits := ⟨5000, 4, 20, 8, 8, 1, 64⟩

def tallDispatch : VulkanComputeGuestDispatch :=
  ⟨0, 1, 2, 5000, 3, 18, 8, 8, 1, false⟩

theorem dispatch_commands_tile_groups_tall : ∃ commands,
      executeComputeDispatchCore smallDevice tallDispatch = .ok (.ok commands) ∧
      (∀ group ∈ tallDispatch.workgroups, ∃! index : Fin commands.length,
        group ∈ (commands.get index).workgroups) ∧
      (∀ command ∈ commands, command.workgroups ⊆ tallDispatch.workgroups) ∧
      ∀ command ∈ commands, command.Admissible smallDevice :=
  dispatch_commands_tile_groups (by decide +kernel)

end SharpEmu.ComputeDispatches
