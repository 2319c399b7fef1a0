import Mathlib.Data.Nat.Bitwise
import SharpEmu.ShRegisterPackets

/-!
# The threads of a compute dispatch

A dispatch packet gives end coordinates on three axes, in workgroups or in
threads.  The parser turns them into workgroup counts and thread bounds; the
shader numbers its threads in 32 bits and leaves out those at or behind the
bound.  The bound of a dispatch in workgroups is the largest 32-bit number.
-/

namespace SharpEmu.Agc.ComputeThreads

open Addressed PacketBuilders

inductive Axis
  | x | y | z
  deriving DecidableEq, Repr

def Axis.any (test : Axis → Bool) : Bool := test .x || test .y || test .z

def itDispatchDirect : UInt32 := 0x15
def itDispatchIndirect : UInt32 := 0x16

def computeStart : Axis → UInt32
  | .x => 0x204
  | .y => 0x205
  | .z => 0x206

def computeNumThread : Axis → UInt32
  | .x => 0x207
  | .y => 0x208
  | .z => 0x209

structure DispatchArguments where
  dimensionsAddress : UInt64
  initiator : UInt32
  dispatchEnd : Axis → UInt32

structure ComputeDispatch where
  groupCount : Axis → UInt32
  baseGroup : Axis → UInt32
  waveLaneCount : UInt32
  isIndirect : Bool
  threadCount : Axis → UInt32

def dispatchSource (memory : GuardedMemory)
    (indirectArgsAddress packetAddress : UInt64) (packetLength opcode : UInt32) :
    Option (UInt64 × UInt32) :=
  if opcode = itDispatchDirect then
    if packetLength < 5 then none
    else
      (tryReadUInt32 memory (packetAddress + 16)).map fun initiator =>
        (packetAddress + 4, initiator)
  else if 4 ≤ packetLength then do
    let dimensionsAddress ← memory.tryReadUInt64 (packetAddress + 4)
    let initiator ← tryReadUInt32 memory (packetAddress + 12)
    return (dimensionsAddress, initiator)
  else if packetLength < 3 ∨ indirectArgsAddress = 0 then none
  else do
    let dataOffset ← tryReadUInt32 memory (packetAddress + 4)
    let initiator ← tryReadUInt32 memory (packetAddress + 8)
    return (indirectArgsAddress + dataOffset.toUInt64, initiator)

def readDispatchArguments (memory : GuardedMemory)
    (indirectArgsAddress packetAddress : UInt64) (packetLength opcode : UInt32) :
    Option DispatchArguments := do
  let (dimensionsAddress, initiator) ← dispatchSource memory
    indirectArgsAddress packetAddress packetLength opcode
  let shaderEnabled ← if initiator &&& 1 = 0 then none else some initiator
  let endX ← tryReadUInt32 memory dimensionsAddress
  let endY ← tryReadUInt32 memory (dimensionsAddress + 4)
  let endZ ← tryReadUInt32 memory (dimensionsAddress + 8)
  return ⟨dimensionsAddress, shaderEnabled,
    fun | .x => endX | .y => endY | .z => endZ⟩

def getComputeLocalSize (registers : RegisterFile) (register : UInt32) : UInt32 :=
  match registers register with
  | some value => max (value &&& 0xFFFF) 1
  | none => 1

def getComputePartialSize (registers : RegisterFile) (register : UInt32) :
    UInt32 :=
  match registers register with
  | some value => value >>> 16
  | none => 0

namespace DispatchArguments

variable (arguments : DispatchArguments) (registers : RegisterFile) (axis : Axis)

def partialThreadGroupEnabled : Bool := arguments.initiator &&& 2 ≠ 0
def forceStartAtZero : Bool := arguments.initiator &&& 4 ≠ 0
def useThreadDimensions : Bool := arguments.initiator &&& 0x20 ≠ 0

def baseGroup : UInt32 :=
  if arguments.forceStartAtZero then 0
  else (registers (computeStart axis)).getD 0

def localSize : UInt32 := getComputeLocalSize registers (computeNumThread axis)

def partialSize : UInt32 :=
  getComputePartialSize registers (computeNumThread axis)

def startThread : UInt64 :=
  (arguments.baseGroup registers axis).toUInt64 * (localSize registers axis).toUInt64

/-- The end of the axis does not lie behind its start. -/
def isEmpty : Bool :=
  if arguments.useThreadDimensions then
    (arguments.dispatchEnd axis).toUInt64 ≤ arguments.startThread registers axis
  else arguments.dispatchEnd axis ≤ arguments.baseGroup registers axis

end DispatchArguments

/-- A checked conversion to 32 bits fails. -/
structure Overflow

def ceilDivide (value : UInt64) (divisor : UInt32) : Except Overflow UInt32 :=
  let quotient := (value + divisor.toUInt64 - 1) / divisor.toUInt64
  if 0xFFFFFFFF < quotient then .error ⟨⟩ else .ok quotient.toUInt32

def DispatchArguments.groupCount (arguments : DispatchArguments)
    (registers : RegisterFile) (axis : Axis) : Except Overflow UInt32 :=
  if arguments.useThreadDimensions then
    ceilDivide ((arguments.dispatchEnd axis).toUInt64 - arguments.startThread registers axis)
      (DispatchArguments.localSize registers axis)
  else
    .ok (arguments.dispatchEnd axis - arguments.baseGroup registers axis)

def DispatchArguments.rejectsPartial (arguments : DispatchArguments)
    (registers : RegisterFile) : Bool :=
  let size := DispatchArguments.localSize registers
  let partialSize := DispatchArguments.partialSize registers
  arguments.partialThreadGroupEnabled &&
    (Axis.any (fun axis => partialSize axis = 0 || size axis < partialSize axis) ||
      Axis.any fun axis => partialSize axis ≠ size axis)

/-- The dispatch, and the address to wait for when an indirect dispatch has no
dimensions yet. -/
structure ReadDispatch where
  dispatch : Option ComputeDispatch
  indirectDimsRetryAddress : UInt64

def DispatchArguments.computeDispatch (arguments : DispatchArguments)
    (registers : RegisterFile) (opcode : UInt32) : Except Overflow ReadDispatch :=
  if Axis.any fun axis => arguments.dispatchEnd axis = 0 then
    .ok ⟨none, if opcode = itDispatchIndirect then arguments.dimensionsAddress
      else 0⟩
  else if Axis.any (arguments.isEmpty registers) then .ok ⟨none, 0⟩
  else do
    let countX ← arguments.groupCount registers .x
    let countY ← arguments.groupCount registers .y
    let countZ ← arguments.groupCount registers .z
    return ⟨if arguments.rejectsPartial registers then none
      else some
        { groupCount := fun | .x => countX | .y => countY | .z => countZ
          baseGroup := arguments.baseGroup registers
          waveLaneCount := if arguments.initiator &&& 0x8000 ≠ 0 then 32 else 64
          isIndirect := opcode = itDispatchIndirect
          threadCount := fun axis =>
            if arguments.useThreadDimensions then arguments.dispatchEnd axis
            else 0xFFFFFFFF },
      0⟩

def tryReadComputeDispatch (memory : GuardedMemory) (registers : RegisterFile)
    (indirectArgsAddress packetAddress : UInt64) (packetLength opcode : UInt32) :
    Except Overflow ReadDispatch :=
  match readDispatchArguments memory indirectArgsAddress packetAddress
      packetLength opcode with
  | none => .ok ⟨none, 0⟩
  | some arguments => arguments.computeDispatch registers opcode

/-! ### The threads that run and those prescribed -/

/-- A workgroup and a local id on each axis. -/
structure Invocation where
  group : Axis → ℕ
  localId : Axis → ℕ

def Invocation.thread (invocation : Invocation) (localSize : Axis → UInt32) (axis : Axis) : ℕ :=
  invocation.group axis * (localSize axis).toNat + invocation.localId axis

/-- The invocation belongs to a dispatched workgroup and passes the shader's
comparison of its 32-bit number with the bound. -/
def ComputeDispatch.Runs (dispatch : ComputeDispatch) (localSize : Axis → UInt32)
    (invocation : Invocation) : Prop :=
  ∀ axis, (dispatch.baseGroup axis).toNat ≤ invocation.group axis ∧ invocation.group axis <
        (dispatch.baseGroup axis).toNat + (dispatch.groupCount axis).toNat ∧
      invocation.localId axis < (localSize axis).toNat ∧
      UInt32.ofNat (invocation.group axis) * localSize axis +
        UInt32.ofNat (invocation.localId axis) < dispatch.threadCount axis

/-! ### The dispatch as prescribed

The fields of the registers and the initiator, read as numbers. -/

def groupSize (registers : RegisterFile) (axis : Axis) : ℕ :=
  max (((registers (computeNumThread axis)).getD 0).toNat % 2 ^ 16) 1

def lastGroupSize (registers : RegisterFile) (axis : Axis) : ℕ :=
  ((registers (computeNumThread axis)).getD 0).toNat / 2 ^ 16

def DispatchArguments.firstGroup (arguments : DispatchArguments) (registers : RegisterFile)
    (axis : Axis) : ℕ :=
  if arguments.initiator.toNat.testBit 2 then 0
  else ((registers (computeStart axis)).getD 0).toNat

/-- The threads of an axis: from the start group on, up to the end in threads,
or to the end group, the last one of the partial size when that is enabled. -/
def DispatchArguments.Prescribes (arguments : DispatchArguments)
    (registers : RegisterFile) (axis : Axis) (thread : ℕ) : Prop :=
  let size := groupSize registers axis
  let stop := (arguments.dispatchEnd axis).toNat
  arguments.firstGroup registers axis * size ≤ thread ∧ thread <
      if arguments.initiator.toNat.testBit 5 then stop
      else (stop - 1) * size +
        if arguments.initiator.toNat.testBit 1 then lastGroupSize registers axis else size

def RunsPrescribed (arguments : DispatchArguments) (registers : RegisterFile)
    (dispatch : ComputeDispatch) : Prop :=
  let localSize := DispatchArguments.localSize registers
  (∀ thread : Axis → ℕ, (∀ axis, arguments.Prescribes registers axis (thread axis)) →
      ∃! invocation, dispatch.Runs localSize invocation ∧ invocation.thread localSize = thread) ∧
    ∀ invocation, dispatch.Runs localSize invocation → ∀ axis,
      arguments.Prescribes registers axis (invocation.thread localSize axis)

/-- The 32-bit numbers of the threads do not go past the largest one: in threads
the end rounded up to whole groups is at most 2^32, and in groups no multiple of
2^32 is passed. -/
def DispatchArguments.NumbersFit (arguments : DispatchArguments)
    (registers : RegisterFile) (axis : Axis) : Prop :=
  let size := (DispatchArguments.localSize registers axis).toNat
  let stop := (arguments.dispatchEnd axis).toNat
  if arguments.useThreadDimensions then
    (stop + size - 1) / size * size ≤ 2 ^ 32
  else
    (arguments.baseGroup registers axis).toNat * size / 2 ^ 32 = stop * size / 2 ^ 32

/-! ### One axis -/

/-- The thread lies in one of the groups, and its 32-bit number below the
bound. -/
def RunsOnAxis (start count size bound thread : ℕ) : Prop :=
  start ≤ thread / size ∧ thread / size < start + count ∧ thread % 2 ^ 32 < bound

variable {start stop size : ℕ}

theorem groups_exact_iff (positive : 0 < size) (less : start < stop) :
    (∀ thread, start * size ≤ thread ∧ thread < stop * size ↔
      RunsOnAxis start (stop - start) size 0xFFFFFFFF thread) ↔
      start * size / 2 ^ 32 = stop * size / 2 ^ 32 := by
  have inGroups (thread : ℕ) : RunsOnAxis start (stop - start) size 0xFFFFFFFF
      thread ↔ (start * size ≤ thread ∧ thread < stop * size) ∧ thread % 2 ^ 32 < 0xFFFFFFFF := by
    rw [RunsOnAxis, Nat.add_sub_cancel' less.le, Nat.le_div_iff_mul_le positive,
      Nat.div_lt_iff_lt_mul positive, and_assoc]
  have ordered : start * size ≤ stop * size := Nat.mul_le_mul_right _ less.le
  simp only [inGroups, iff_self_and, and_imp]
  generalize start * size = first at ordered ⊢
  generalize stop * size = last at ordered ⊢
  constructor
  · intro below
    by_contra passed
    have atMultiple := below (last / 2 ^ 32 * 2 ^ 32 - 1) (by omega) (by omega)
    omega
  · intro same thread low high
    omega

theorem threads_exact_iff (positive : 0 < size)
    (less : start * size < stop) (small : stop < 2 ^ 32) :
    (∀ thread, start * size ≤ thread ∧ thread < stop ↔
      RunsOnAxis start ((stop - start * size + size - 1) / size) size stop thread) ↔
      (stop + size - 1) / size * size ≤ 2 ^ 32 := by
  have rounded : start + (stop - start * size + size - 1) / size = (stop + size - 1) / size := by
    rw [Nat.add_comm, ← Nat.add_mul_div_right _ _ positive]
    congr 1
    omega
  have inGroups (thread : ℕ) : RunsOnAxis start
      ((stop - start * size + size - 1) / size) size stop thread ↔
      start * size ≤ thread ∧ thread < (stop + size - 1) / size * size ∧
        thread % 2 ^ 32 < stop := by
    rw [RunsOnAxis, rounded, Nat.le_div_iff_mul_le positive, Nat.div_lt_iff_lt_mul positive]
  have covers : stop ≤ (stop + size - 1) / size * size := by
    have remainder := Nat.div_add_mod (stop + size - 1) size
    have below := Nat.mod_lt (stop + size - 1) positive
    rw [Nat.mul_comm] at remainder
    omega
  simp only [inGroups]
  generalize (stop + size - 1) / size * size = last at covers ⊢
  constructor
  · intro same
    by_contra past
    have wrapped := (same (2 ^ 32)).mpr ⟨by omega, by omega, by omega⟩
    omega
  · intro fits thread
    constructor
    · rintro ⟨low, high⟩
      exact ⟨low, by omega, by omega⟩
    · rintro ⟨low, high, below⟩
      exact ⟨low, by omega⟩

theorem toNat_localSize (registers : RegisterFile) (axis : Axis) :
    (DispatchArguments.localSize registers axis).toNat = groupSize registers axis := by
  have isMax (value : UInt32) : (max value 1).toNat = max value.toNat 1 := by
    change (if value ≤ 1 then 1 else value).toNat = _
    split
    next small => exact (Nat.max_eq_right (UInt32.le_iff_toNat_le.mp small)).symm
    next large =>
      rw [UInt32.le_iff_toNat_le, Nat.not_le] at large
      exact (Nat.max_eq_left (Nat.le_of_lt large)).symm
  unfold DispatchArguments.localSize getComputeLocalSize groupSize
  cases registers (computeNumThread axis) with
  | none => rfl
  | some value =>
    simp only [isMax, UInt32.toNat_and, Option.getD_some]
    exact congrArg (max · 1) (Nat.and_two_pow_sub_one_eq_mod value.toNat 16)

theorem toNat_partialSize (registers : RegisterFile) (axis : Axis) :
    (DispatchArguments.partialSize registers axis).toNat = lastGroupSize registers axis := by
  unfold DispatchArguments.partialSize getComputePartialSize lastGroupSize
  cases registers (computeNumThread axis) with
  | none => rfl
  | some value => exact (UInt32.toNat_shiftRight value 16).trans (Nat.shiftRight_eq_div_pow _ 16)

theorem and_ne_zero_eq_testBit (word mask : UInt32) (bit : ℕ) (isBit : mask.toNat = 2 ^ bit) :
    decide (word &&& mask ≠ 0) = word.toNat.testBit bit := by
  have isZero : word &&& mask = 0 ↔ word.toNat &&& 2 ^ bit = 0 := by
    rw [← UInt32.toNat_inj, UInt32.toNat_and, isBit]
    rfl
  rw [Nat.and_two_pow] at isZero
  have isClear : word &&& mask = 0 ↔ word.toNat.testBit bit = false :=
    isZero.trans (by simp)
  simp [isClear]

theorem toNat_baseGroup (arguments : DispatchArguments) (registers : RegisterFile) (axis : Axis) :
    (arguments.baseGroup registers axis).toNat = arguments.firstGroup registers axis := by
  unfold DispatchArguments.baseGroup DispatchArguments.firstGroup
  rw [DispatchArguments.forceStartAtZero, and_ne_zero_eq_testBit _ 4 2 rfl]
  split <;> rfl

theorem localSize_pos (registers : RegisterFile) (axis : Axis) :
    0 < (DispatchArguments.localSize registers axis).toNat :=
  Nat.lt_of_lt_of_eq (Nat.le_max_right _ _) (toNat_localSize registers axis).symm

theorem ceilDivide_eq {value : UInt64} {divisor : UInt32}
    (small : value.toNat < 2 ^ 32) (positive : 0 < divisor.toNat) :
    ∃ count, ceilDivide value divisor = .ok count ∧
      count.toNat = (value.toNat + divisor.toNat - 1) / divisor.toNat := by
  have divisorLt := divisor.toNat_lt
  have one : (1 : UInt64).toNat = 1 := rfl
  have quotient : ((value + divisor.toUInt64 - 1) / divisor.toUInt64).toNat =
      (value.toNat + divisor.toNat - 1) / divisor.toNat := by
    rw [UInt64.toNat_div, UInt64.toNat_sub_of_le, UInt64.toNat_add,
      UInt32.toNat_toUInt64, one, Nat.mod_eq_of_lt (by omega)]
    rw [UInt64.le_iff_toNat_le, UInt64.toNat_add, UInt32.toNat_toUInt64, one,
      Nat.mod_eq_of_lt (by omega)]
    omega
  have fits : (value.toNat + divisor.toNat - 1) / divisor.toNat < 2 ^ 32 := by
    rw [Nat.div_lt_iff_lt_mul positive]
    omega
  refine ⟨_, if_neg ?_, ?_⟩
  · rw [UInt64.lt_iff_toNat_lt, quotient]
    change ¬0xFFFFFFFF < _
    omega
  · rw [UInt64.toNat_toUInt32, quotient, Nat.mod_eq_of_lt fits]

/-! ### The dispatch -/

theorem toNat_number (group localId : ℕ) (size : UInt32) :
    (UInt32.ofNat group * size + UInt32.ofNat localId).toNat =
      (group * size.toNat + localId) % 2 ^ 32 := by
  rw [UInt32.toNat_add, UInt32.toNat_mul, UInt32.toNat_ofNat',
    UInt32.toNat_ofNat', Nat.mod_mul_mod, ← Nat.add_mod]

variable {dispatch : ComputeDispatch}

theorem runs_iff {localSize : Axis → UInt32}
    (positive : ∀ axis, 0 < (localSize axis).toNat) (invocation : Invocation)
    (thread : Axis → ℕ) :
    (dispatch.Runs localSize invocation ∧ invocation.thread localSize = thread) ↔
      invocation = ⟨fun axis => thread axis / (localSize axis).toNat,
          fun axis => thread axis % (localSize axis).toNat⟩ ∧
        ∀ axis, RunsOnAxis (dispatch.baseGroup axis).toNat
          (dispatch.groupCount axis).toNat (localSize axis).toNat
          (dispatch.threadCount axis).toNat (thread axis) := by
  constructor
  · rintro ⟨runs, rfl⟩
    have group (axis : Axis) : invocation.thread localSize axis /
        (localSize axis).toNat = invocation.group axis := by
      rw [Invocation.thread, Nat.mul_comm, Nat.mul_add_div (positive axis),
        Nat.div_eq_of_lt (runs axis).2.2.1, Nat.add_zero]
    have localId (axis : Axis) : invocation.thread localSize axis %
        (localSize axis).toNat = invocation.localId axis := by
      rw [Invocation.thread, Nat.mul_comm, Nat.mul_add_mod, Nat.mod_eq_of_lt (runs axis).2.2.1]
    refine ⟨by simp only [group, localId], fun axis => ?_⟩
    obtain ⟨first, last, -, below⟩ := runs axis
    rw [UInt32.lt_iff_toNat_lt, toNat_number] at below
    exact ⟨by rw [group]; exact first, by rw [group]; exact last, below⟩
  · rintro ⟨rfl, runs⟩
    have number (axis : Axis) : thread axis / (localSize axis).toNat *
        (localSize axis).toNat + thread axis % (localSize axis).toNat =
        thread axis := by
      rw [Nat.mul_comm]
      exact Nat.div_add_mod _ _
    refine ⟨fun axis => ?_, funext number⟩
    obtain ⟨first, last, below⟩ := runs axis
    refine ⟨first, last, Nat.mod_lt _ (positive axis), ?_⟩
    rw [UInt32.lt_iff_toNat_lt, toNat_number, number]
    exact below

/-- Exactness on all axes is exactness on each. -/
theorem runsPrescribed_iff {arguments : DispatchArguments} {registers : RegisterFile}
    (nonempty : ∀ axis, ∃ thread, arguments.Prescribes registers axis thread) :
    RunsPrescribed arguments registers dispatch ↔
      ∀ axis thread, arguments.Prescribes registers axis thread ↔
        RunsOnAxis (dispatch.baseGroup axis).toNat (dispatch.groupCount axis).toNat
          (DispatchArguments.localSize registers axis).toNat
          (dispatch.threadCount axis).toNat thread := by
  have runs (invocation : Invocation) (thread : Axis → ℕ) :
      (dispatch.Runs (DispatchArguments.localSize registers) invocation ∧
        invocation.thread (DispatchArguments.localSize registers) = thread) ↔ _ :=
    runs_iff (fun axis =>
      localSize_pos registers axis) _ _
  constructor
  · rintro ⟨all, only⟩ axis thread
    have onAxes {threads : Axis → ℕ}
        (prescribed : ∀ axis, arguments.Prescribes registers axis (threads axis)) :=
      ((runs _ threads).mp (all threads prescribed).exists.choose_spec).2
    choose other isOther using nonempty
    have elsewhere {property : Axis → ℕ → Prop} (here : property axis thread)
        (others : ∀ axis, property axis (other axis)) (place : Axis) :
        property place (Function.update other axis thread place) := by
      by_cases same : place = axis
      · rw [same, Function.update_self]
        exact here
      · rw [Function.update_of_ne same]
        exact others place
    constructor
    · intro prescribed
      have atAxis := onAxes (elsewhere prescribed isOther) axis
      rw [Function.update_self] at atAxis
      exact atAxis
    · intro onAxis
      have invoked := (runs _ (Function.update other axis thread)).mpr
        ⟨rfl, elsewhere onAxis (onAxes isOther)⟩
      have prescribed := only _ invoked.1 axis
      rw [invoked.2, Function.update_self] at prescribed
      exact prescribed
  · intro exact'
    constructor
    · intro thread prescribed
      refine ⟨_, (runs _ thread).mpr ⟨rfl, fun axis => (exact' axis _).mp (prescribed axis)⟩, ?_⟩
      intro invocation invoked
      exact ((runs invocation thread).mp invoked).1
    · intro invocation invoked axis
      exact (exact' axis _).mpr (((runs invocation _).mp ⟨invoked, rfl⟩).2 axis)

theorem Axis.any_eq_false {test : Axis → Bool} (none : ¬Axis.any test = true)
    (axis : Axis) : test axis = false := by
  simp only [Axis.any, Bool.or_eq_true, not_or, Bool.not_eq_true] at none
  cases axis with
  | x => exact none.1.1
  | y => exact none.1.2
  | z => exact none.2

section Axes

variable {arguments : DispatchArguments} {registers : RegisterFile} {axis : Axis}

theorem toNat_startThread : (arguments.startThread registers axis).toNat =
      (arguments.baseGroup registers axis).toNat *
        (DispatchArguments.localSize registers axis).toNat := by
  have product := Nat.mul_lt_mul'' (arguments.baseGroup registers axis).toNat_lt
    (DispatchArguments.localSize registers axis).toNat_lt
  rw [DispatchArguments.startThread, UInt64.toNat_mul, UInt32.toNat_toUInt64, UInt32.toNat_toUInt64]
  exact Nat.mod_eq_of_lt product

theorem groupCount_eq (notEmpty : arguments.isEmpty registers axis = false) :
    ∃ count, arguments.groupCount registers axis = .ok count ∧
      if arguments.useThreadDimensions then
        (arguments.baseGroup registers axis).toNat *
            (DispatchArguments.localSize registers axis).toNat <
          (arguments.dispatchEnd axis).toNat ∧
        count.toNat = ((arguments.dispatchEnd axis).toNat -
          (arguments.baseGroup registers axis).toNat *
            (DispatchArguments.localSize registers axis).toNat +
          (DispatchArguments.localSize registers axis).toNat - 1) /
            (DispatchArguments.localSize registers axis).toNat
      else
        (arguments.baseGroup registers axis).toNat < (arguments.dispatchEnd axis).toNat ∧
        count.toNat = (arguments.dispatchEnd axis).toNat -
          (arguments.baseGroup registers axis).toNat := by
  have endLt := (arguments.dispatchEnd axis).toNat_lt
  rw [DispatchArguments.isEmpty] at notEmpty
  rw [DispatchArguments.groupCount]
  cases threads : arguments.useThreadDimensions with
  | true =>
    simp only [threads, if_true, decide_eq_false_iff_not, UInt64.not_le] at notEmpty ⊢
    have value : ((arguments.dispatchEnd axis).toUInt64 -
        arguments.startThread registers axis).toNat =
        (arguments.dispatchEnd axis).toNat - (arguments.baseGroup registers axis).toNat *
            (DispatchArguments.localSize registers axis).toNat := by
      rw [UInt64.toNat_sub_of_le _ _ (UInt64.le_of_lt notEmpty),
        toNat_startThread, UInt32.toNat_toUInt64]
    rw [UInt64.lt_iff_toNat_lt, toNat_startThread, UInt32.toNat_toUInt64] at notEmpty
    obtain ⟨count, isCount, countValue⟩ := ceilDivide_eq
      (show ((arguments.dispatchEnd axis).toUInt64 -
        arguments.startThread registers axis).toNat < 2 ^ 32 by omega)
      (localSize_pos registers axis)
    rw [value] at countValue
    exact ⟨count, isCount, notEmpty, countValue⟩
  | false =>
    simp only [threads, Bool.false_eq_true, if_false, decide_eq_false_iff_not,
      UInt32.not_le] at notEmpty ⊢
    refine ⟨_, rfl, UInt32.lt_iff_toNat_lt.mp notEmpty, ?_⟩
    exact UInt32.toNat_sub_of_le _ _ (UInt32.le_of_lt notEmpty)

theorem prescribes_iff (whole : arguments.rejectsPartial registers = false)
    (positive : 0 < (arguments.dispatchEnd axis).toNat) (thread : ℕ) :
    arguments.Prescribes registers axis thread ↔ (arguments.baseGroup registers axis).toNat *
          (DispatchArguments.localSize registers axis).toNat ≤ thread ∧
        thread < if arguments.useThreadDimensions then
            (arguments.dispatchEnd axis).toNat
          else (arguments.dispatchEnd axis).toNat *
            (DispatchArguments.localSize registers axis).toNat := by
  have last : (if arguments.partialThreadGroupEnabled then
      (DispatchArguments.partialSize registers axis).toNat
      else (DispatchArguments.localSize registers axis).toNat) =
      (DispatchArguments.localSize registers axis).toNat := by
    split
    next enabled =>
      simp only [DispatchArguments.rejectsPartial, enabled, Bool.true_and,
        Bool.or_eq_false_iff] at whole
      have same := Axis.any_eq_false (Bool.eq_false_iff.mp whole.2) axis
      exact congrArg UInt32.toNat (by simpa using same)
    next => rfl
  rw [toNat_partialSize, toNat_localSize, DispatchArguments.partialThreadGroupEnabled,
    and_ne_zero_eq_testBit _ 2 1 rfl] at last
  rw [DispatchArguments.useThreadDimensions, and_ne_zero_eq_testBit _ 0x20 5 rfl,
    toNat_baseGroup, toNat_localSize]
  simp only [DispatchArguments.Prescribes, last]
  rw [← Nat.succ_mul, Nat.succ_eq_add_one, Nat.sub_add_cancel positive]

end Axes

theorem computeDispatch_eq (arguments : DispatchArguments)
    (registers : RegisterFile) (opcode : UInt32) :
    ∃ read, arguments.computeDispatch registers opcode = .ok read ∧
      ∀ dispatch, read.dispatch = some dispatch → ∀ axis,
        dispatch.baseGroup axis = arguments.baseGroup registers axis ∧
        arguments.isEmpty registers axis = false ∧
        arguments.groupCount registers axis = .ok (dispatch.groupCount axis) ∧
        (dispatch.threadCount axis =
          if arguments.useThreadDimensions then arguments.dispatchEnd axis
          else 0xFFFFFFFF) ∧
        arguments.rejectsPartial registers = false := by
  rw [DispatchArguments.computeDispatch]
  split
  next => exact ⟨_, rfl, fun _ isSome => nomatch isSome⟩
  next =>
    split
    next => exact ⟨_, rfl, fun _ isSome => nomatch isSome⟩
    next someAxis =>
      have notEmpty := Axis.any_eq_false someAxis
      obtain ⟨countX, isX, -⟩ := groupCount_eq (notEmpty .x)
      obtain ⟨countY, isY, -⟩ := groupCount_eq (notEmpty .y)
      obtain ⟨countZ, isZ, -⟩ := groupCount_eq (notEmpty .z)
      rw [isX, isY, isZ]
      refine ⟨_, rfl, fun dispatch isSome axis => ?_⟩
      dsimp only at isSome
      split at isSome
      next => cases isSome
      next whole =>
        cases isSome
        refine ⟨rfl, notEmpty axis, ?_, rfl, Bool.eq_false_iff.mpr whole⟩
        cases axis with
        | x => exact isX
        | y => exact isY
        | z => exact isZ

/-- A direct packet at 0x100: 0x4000000, 1 and 1 groups from zero on. -/
def fullPacketMemory : GuardedMemory where
  bytes := fun address =>
    if address < 0x200 then
      some (if address = 0x107 then 4
        else if address = 0x108 then 1 else if address = 0x10C then 1
        else if address = 0x110 then 5 else 0)
    else none
  writable := fun _ => true

/-- Groups of 64 threads. -/
def fullRegisters : RegisterFile := fun register =>
  if register = 0x207 then some 64 else none

def fullArguments : DispatchArguments :=
  ⟨0x104, 5, fun | .x => 0x4000000 | .y => 1 | .z => 1⟩

def fullDispatch : ComputeDispatch where
  groupCount := fun | .x => 0x4000000 | .y => 1 | .z => 1
  baseGroup := fullArguments.baseGroup fullRegisters
  waveLaneCount := 64
  isIndirect := false
  threadCount := fun _ => 0xFFFFFFFF

theorem fullPacket_arguments : readDispatchArguments fullPacketMemory 0 0x100 5 itDispatchDirect =
      some fullArguments := by
  have x : tryReadUInt32 fullPacketMemory 0x104 = some 0x4000000 := by
    decide +kernel
  have y : tryReadUInt32 fullPacketMemory (0x104 + 4) = some 1 := by
    decide +kernel
  have z : tryReadUInt32 fullPacketMemory (0x104 + 8) = some 1 := by
    decide +kernel
  have source : dispatchSource fullPacketMemory 0 0x100 5 itDispatchDirect = some (0x104, 5) := by
    decide +kernel
  simp only [readDispatchArguments, source, Option.bind_eq_bind, Option.bind_some]
  rw [if_neg (by decide)]
  simp only [Option.bind_some, x, y, z]
  rfl

theorem fullPacket_read : tryReadComputeDispatch fullPacketMemory fullRegisters 0 0x100 5
      itDispatchDirect = .ok ⟨some fullDispatch, 0⟩ := by
  rw [tryReadComputeDispatch, fullPacket_arguments]
  rfl

end SharpEmu.Agc.ComputeThreads
