import SharpEmu.Gen5SpirvWords

/-!
# Lanes remapped by DPP controls

The code that both backends emit for the first source of an instruction with a
DPP control, and for the mask of the lanes that it writes.  A wave has 32 lanes,
and emitted code runs once for each of them.
-/

namespace SharpEmu.Gen5Spirv.Dpp

open Spirv

abbrev Wave (Value : Type) := Fin 32 → Value

def laneWord (lane : Fin 32) : Word := .ofNat 32 lane

/-- Read the value of another lane; undefined beyond the wave. -/
def shuffle {Value : Type} (values : Wave Value) (target : Word) :
    Option Value :=
  if inside : target.toNat < 32 then some (values ⟨target.toNat, inside⟩)
  else none

structure Gen5DppControl where
  control : Word
  fetchInactive : Bool
  boundControl : Bool
  bankMask : Word
  rowMask : Word
deriving DecidableEq

def isSupportedDppControl (control : Word) : Prop :=
  control ≤ 0xFF ∨ (0x101 ≤ control ∧ control ≤ 0x10F) ∨ (0x111 ≤ control ∧ control ≤ 0x11F) ∨
    (0x121 ≤ control ∧ control ≤ 0x12F) ∨ control = 0x140 ∨
    control = 0x141 ∨ (0x150 ≤ control ∧ control ≤ 0x15F) ∨
    (0x160 ≤ control ∧ control ≤ 0x16F)

/-! ## The first backend -/

/-- The selector of a quad permutation for a lane, by comparing with each
position. -/
def quadSelector (dpp quadLane : Word) : Word :=
  [1, 2, 3].foldl (fun selected index => select (quadLane = .ofNat 32 index)
      ((dpp >>> (index * 2)) &&& 3) selected)
    (dpp &&& 3)

def getDppSourceLane (dpp lane : Word) : Word × Bool :=
  let rowBase := lane &&& 0xFFFFFFF0
  let rowLane := lane &&& 15
  if dpp ≤ 0xFF then
    ((lane &&& 0xFFFFFFFC) + quadSelector dpp (lane &&& 3), true)
  else if 0x101 ≤ dpp ∧ dpp ≤ 0x10F then
    let shifted := rowLane + (dpp &&& 15)
    (rowBase + (shifted &&& 15), shifted < 16)
  else if 0x111 ≤ dpp ∧ dpp ≤ 0x11F then
    (rowBase + ((rowLane - (dpp &&& 15)) &&& 15), (dpp &&& 15) ≤ rowLane)
  else if 0x121 ≤ dpp ∧ dpp ≤ 0x12F then
    (rowBase + ((rowLane - (dpp &&& 15)) &&& 15), true)
  else if dpp = 0x140 then
    (rowBase + (15 - rowLane), true)
  else if dpp = 0x141 then
    ((lane &&& 0xFFFFFFF8) + (7 - (lane &&& 7)), true)
  else if 0x150 ≤ dpp ∧ dpp ≤ 0x15F then
    (rowBase + (dpp &&& 15), true)
  else if 0x160 ≤ dpp ∧ dpp ≤ 0x16F then
    (rowBase + (rowLane ^^^ (dpp &&& 15)), true)
  else (lane, true)

/-- The lane that is read executes. -/
def shuffledActive (exec : Wave Bool) (safeTarget : Word) : Option Bool := do
  let shuffled ← shuffle (fun lane => select (exec lane) (1 : Word) 0) safeTarget
  return shuffled ≠ 0

def isSourceAvailable (control : Gen5DppControl) (exec : Wave Bool)
    (inRange : Bool) (safeTarget : Word) : Option Bool :=
  if control.fetchInactive then some inRange
  else (shuffledActive exec safeTarget).map (inRange && ·)

def applyDppSource (control : Gen5DppControl) (exec : Wave Bool)
    (values : Wave Word) (lane : Fin 32) : Option Word := do
  let (targetLane, inRange) := getDppSourceLane control.control (laneWord lane)
  let safeTarget := select inRange targetLane (laneWord lane) &&& 31
  let shuffled ← shuffle values safeTarget
  let sourceAvailable ← isSourceAvailable control exec inRange safeTarget
  return select sourceAvailable shuffled 0

def isDppWriteEnabled (control : Gen5DppControl) (lane : Fin 32) :
    Option Bool := do
  let inRange := (getDppSourceLane control.control (laneWord lane)).2
  let row ← shiftRightLogical (laneWord lane) 4
  let bank := laneWord lane &&& 3
  let rowEnabled : Bool := control.rowMask &&& (← shiftLeftLogical 1 row) ≠ 0
  let bankEnabled : Bool :=
    control.bankMask &&& (← shiftLeftLogical 1 bank) ≠ 0
  let sourceAllowsWrite := if control.boundControl then true else inRange
  return rowEnabled && (bankEnabled && sourceAllowsWrite)

def emitDppResult (control : Gen5DppControl) (exec : Wave Bool)
    (values : Wave Word) (lane : Fin 32) : Option (Option Word) := do
  let source ← applyDppSource control exec values lane
  let writeEnabled ← isDppWriteEnabled control lane
  return if exec lane && writeEnabled then some source else none

/-! ## The second backend, for compute shaders -/

namespace Metal

def emitDppSourceLane (dpp lane : Word) : Word × Bool :=
  if dpp ≤ 0xFF then
    let selected := (dpp >>> ((lane &&& 3) * 2).toNat) &&& 3
    ((lane &&& 0xFFFFFFFC) + selected, true)
  else if 0x101 ≤ dpp ∧ dpp ≤ 0x10F then
    let shifted := (lane &&& 15) + (dpp &&& 15)
    ((lane &&& 0xFFFFFFF0) + (shifted &&& 15), shifted < 16)
  else if 0x111 ≤ dpp ∧ dpp ≤ 0x11F then
    ((lane &&& 0xFFFFFFF0) + (((lane &&& 15) - (dpp &&& 15)) &&& 15), (dpp &&& 15) ≤ (lane &&& 15))
  else if 0x121 ≤ dpp ∧ dpp ≤ 0x12F then
    ((lane &&& 0xFFFFFFF0) + (((lane &&& 15) - (dpp &&& 15)) &&& 15), true)
  else if dpp = 0x140 then
    ((lane &&& 0xFFFFFFF0) + (15 - (lane &&& 15)), true)
  else if dpp = 0x141 then
    ((lane &&& 0xFFFFFFF8) + (7 - (lane &&& 7)), true)
  else if 0x150 ≤ dpp ∧ dpp ≤ 0x15F then
    ((lane &&& 0xFFFFFFF0) + (dpp &&& 15), true)
  else if 0x160 ≤ dpp ∧ dpp ≤ 0x16F then
    ((lane &&& 0xFFFFFFF0) + ((lane &&& 15) ^^^ (dpp &&& 15)), true)
  else (lane, true)

def applyDppSource (control : Gen5DppControl) (exec : Wave Bool)
    (values : Wave Word) (lane : Fin 32) : Option Word := do
  let (targetLane, inRange) := emitDppSourceLane control.control (laneWord lane)
  let safeTarget := (if inRange then targetLane else laneWord lane) &&& 31
  let shuffled ← shuffle values safeTarget
  if control.fetchInactive then return shuffled
  else
    let sourceActive ← shuffle exec safeTarget
    return if inRange && sourceActive then shuffled else 0

def emitDppWriteEnabled (control : Gen5DppControl) (lane : Fin 32) : Bool :=
  let inRange := (emitDppSourceLane control.control (laneWord lane)).2
  let rowEnabled : Bool :=
    (control.rowMask >>> (laneWord lane >>> 4).toNat) &&& 1 ≠ 0
  let bankEnabled : Bool :=
    (control.bankMask >>> (laneWord lane &&& 3).toNat) &&& 1 ≠ 0
  let sourceAllows := if control.boundControl then true else inRange
  rowEnabled && bankEnabled && sourceAllows

def emitDppResult (control : Gen5DppControl) (exec : Wave Bool)
    (values : Wave Word) (lane : Fin 32) : Option (Option Word) := do
  let source ← applyDppSource control exec values lane
  return if exec lane && emitDppWriteEnabled control lane then some source
    else none

end Metal

end SharpEmu.Gen5Spirv.Dpp
