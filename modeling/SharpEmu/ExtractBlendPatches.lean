import Mathlib.Data.Fintype.Basic
import Mathlib.Tactic.Common

/-!
# The patch of a bit-field extraction and a blend

Hosts without the bit-field instructions cannot run EXTRQ, so the loader rewrites
one idiom of it: an extraction of the low forty bits of a vector register and the
blend of their upper dword into another one become a byte extraction and a dword
insertion.  The new pair does not mask the source register and does not clear the
upper half of the destination.
-/

namespace SharpEmu.Sse4aExtrqBlendPatch

/-! ### The bytes -/

def sequenceLength : ℕ := 12

/-- The registers of the blend's destination and of the extraction. -/
def tryMatch (source : List UInt8) : Option (UInt32 × UInt32) :=
  match source with
  | b0 :: b1 :: b2 :: b3 :: b4 :: b5 :: b6 :: b7 :: b8 :: b9 :: b10 :: b11 ::
      _ =>
      if b0 ≠ 0x66 ∨ b1 ≠ 0x0F ∨ b2 ≠ 0x78 ∨ b3 &&& 0xF8 ≠ 0xC0 ∨ b4 ≠ 0x28 ∨ b5 ≠ 0x00 then none
      else
        let n := b3 &&& 0x07
        if b6 ≠ 0xC4 ∨ b7 ≠ 0xE3 ∨ b8 &&& 0x87 ≠ 0x01 ∨ b9 ≠ 0x02 ∨ b11 ≠ 0x02 then none
        else
          let d := ~~~(b8 >>> 3) &&& 0x0F
          if 7 < d then none
          else if b10 ≠ (0xC0 : UInt8) ||| (d <<< 3) ||| n then none
          else some (d.toUInt32, n.toUInt32)
  | _ => none

def tryEncode (destRegister srcRegister : UInt32) (destination : List UInt8) :
    Option (List UInt8) :=
  if 7 < destRegister ∨ 7 < srcRegister ∨ destination.length < sequenceLength then none
  else
    some (([0x66, 0x0F, 0x3A, 0x14, ((0xC0 : UInt32) ||| (srcRegister <<< 3)).toUInt8, 0x04,
      0x66, 0x0F, 0x3A, 0x22, ((0xC0 : UInt32) ||| (destRegister <<< 3)).toUInt8, 0x01] :
      List UInt8) ++ destination.drop sequenceLength)

/-! ### The instructions -/

abbrev VectorRegister := Fin 8 → BitVec 32

structure Registers where
  vector : Fin 16 → VectorRegister
  general : Fin 16 → BitVec 64

def rax : Fin 16 := 0

inductive Instruction
  | extrq (destination : Fin 16) (length index : UInt8)
  | vpblendd (destination first second : Fin 16) (mask : UInt8)
  | pextrb (destination source : Fin 16) (index : UInt8)
  | pinsrd (destination source : Fin 16) (lane : UInt8)
  deriving DecidableEq, Repr

def isValidBitField (length index : ℕ) : Bool :=
  let len := length &&& 0x3F
  let idx := index &&& 0x3F
  (len ≠ 0 || idx = 0) && (if len = 0 then idx = 0 else idx + len ≤ 64)

def extractBitField (value : BitVec 64) (length index : ℕ) : BitVec 64 :=
  let len := length &&& 0x3F
  let idx := index &&& 0x3F
  if ¬isValidBitField length index then 0
  else if len = 0 then value
  else
    let mask : BitVec 64 := if len = 64 then BitVec.allOnes 64 else (1 <<< len) - 1
    (value >>> idx) &&& mask

def registerOf (bits : UInt8) : Fin 16 := Fin.ofNat 16 (bits &&& 7).toNat

/-- The six-byte instructions between registers. -/
def decode (b0 b1 b2 b3 b4 b5 : UInt8) : Option Instruction :=
  if b0 = 0x66 ∧ b1 = 0x0F ∧ b2 = 0x78 ∧ b3 &&& 0xF8 = 0xC0 then
    some (.extrq (registerOf b3) b4 b5)
  else if b0 = 0x66 ∧ b1 = 0x0F ∧ b2 = 0x3A ∧ b4 &&& 0xC0 = 0xC0 then
    if b3 = 0x14 then
      some (.pextrb (registerOf b4) (registerOf (b4 >>> 3)) b5)
    else if b3 = 0x22 then
      some (.pinsrd (registerOf (b4 >>> 3)) (registerOf b4) b5)
    else none
  else if b0 = 0xC4 ∧ b1 = 0xE3 ∧ b2 &&& 0x87 = 0x01 ∧ b3 = 0x02 ∧ b4 &&& 0xC0 = 0xC0 then
    some (.vpblendd (registerOf (b4 >>> 3))
      (Fin.ofNat 16 (~~~(b2 >>> 3) &&& 0x0F).toNat) (registerOf b4) b5)
  else none

def Registers.setVector (registers : Registers) (name : Fin 16)
    (value : VectorRegister) : Registers :=
  { registers with vector := Function.update registers.vector name value }

def Registers.setGeneral (registers : Registers) (name : Fin 16) (value : BitVec 64) : Registers :=
  { registers with general := Function.update registers.general name value }

@[simp]
theorem Registers.setVector_self (registers : Registers) (name : Fin 16)
    (value : VectorRegister) : (registers.setVector name value).vector name = value :=
  Function.update_self _ _ _

variable {value : VectorRegister}

theorem Registers.setVector_of_ne {registers : Registers} {name other : Fin 16}
    (apart : other ≠ name) :
    (registers.setVector name value).vector other = registers.vector other :=
  Function.update_of_ne apart _ _

/-- The extraction is the one of the software emulation, which clears the bits
that the architecture leaves undefined; the other instructions are the host's. -/
def Instruction.execute (registers : Registers) : Instruction → Option Registers
  | .extrq destination length index =>
      let value := registers.vector destination
      if isValidBitField length.toNat index.toNat then
        let field := extractBitField (value 1 ++ value 0) length.toNat index.toNat
        some (registers.setVector destination fun lane =>
          if lane = 0 then field.setWidth 32
          else if lane = 1 then (field >>> 32).setWidth 32
          else if lane < 4 then 0 else value lane)
      else none
  | .vpblendd destination first second mask =>
      some (registers.setVector destination fun lane =>
        if 4 ≤ lane then 0
        else if mask.toNat.testBit lane then registers.vector second lane
        else registers.vector first lane)
  | .pextrb destination source index =>
      let place := index.toNat % 16
      some (registers.setGeneral destination
        (((registers.vector source (Fin.ofNat 8 (place / 4))) >>>
          (8 * (place % 4))).setWidth 8 |>.setWidth 64))
  | .pinsrd destination source lane =>
      some (registers.setVector destination (Function.update (registers.vector destination)
          (Fin.ofNat 8 (lane.toNat % 4))
          ((registers.general source).setWidth 32)))

def execute : List UInt8 → Registers → Option Registers
  | [], registers => some registers
  | b0 :: b1 :: b2 :: b3 :: b4 :: b5 :: rest, registers =>
      (decode b0 b1 b2 b3 b4 b5).bind fun instruction =>
        (instruction.execute registers).bind (execute rest)
  | _, _ => none

/-! ### The idiom -/

def idiom (dest src : Fin 8) : List UInt8 :=
  let d := UInt8.ofNat dest
  let s := UInt8.ofNat src
  let modRm : UInt8 := 0xC0
  [0x66, 0x0F, 0x78, modRm ||| s, 0x28, 0x00, 0xC4, 0xE3, ((~~~d &&& 0x0F) <<< 3) ||| 0x01, 0x02,
    modRm ||| (d <<< 3) ||| s, 0x02]

def wide (register : Fin 8) : Fin 16 := register.castLE (by decide)

theorem forall_byte {property : UInt8 → Prop}
    (every : ∀ value : Fin 256, property (UInt8.ofNat value)) (byte : UInt8) :
    property byte := by
  have atByte := every ⟨byte.toNat, byte.toNat_lt⟩
  rw [UInt8.ofNat_toNat] at atByte
  exact atByte

theorem extrq_byte (byte : UInt8) (isRegister : byte &&& 0xF8 = 0xC0) :
    byte = (0xC0 : UInt8) ||| (byte &&& 7) := by
  revert byte
  exact forall_byte (by decide +kernel)

theorem vex_byte (byte : UInt8) (fixed : byte &&& 0x87 = 0x01) :
    byte = ((~~~(~~~(byte >>> 3) &&& 0x0F) &&& 0x0F) <<< 3) ||| 0x01 := by
  revert byte
  exact forall_byte (by decide +kernel)

theorem and_seven_lt (byte : UInt8) : (byte &&& 7).toNat < 8 := by
  rw [UInt8.toNat_and]
  exact Nat.lt_of_le_of_lt Nat.and_le_right (by decide)

theorem toUInt32_eq (byte : UInt8) : byte.toUInt32 = UInt32.ofNat byte.toNat := by
  apply UInt32.toNat_inj.mp
  have byteLt := byte.toNat_lt
  rw [UInt8.toNat_toUInt32, UInt32.toNat_ofNat', Nat.mod_eq_of_lt (by omega)]

theorem tryMatch_eq_some {source : List UInt8} {destRegister srcRegister : UInt32}
    (matched : tryMatch source = some (destRegister, srcRegister))
    (length : source.length = sequenceLength) :
    ∃ dest src : Fin 8, destRegister = UInt32.ofNat dest ∧
      srcRegister = UInt32.ofNat src ∧ source = idiom dest src := by
  unfold tryMatch at matched
  split at matched
  next b0 b1 b2 b3 b4 b5 b6 b7 b8 b9 b10 b11 rest =>
    obtain rfl : rest = [] := by simpa [sequenceLength] using length
    split at matched
    next => cases matched
    next isExtrq =>
      dsimp only at matched
      split at matched
      next => cases matched
      next isBlend =>
        split at matched
        next => cases matched
        next low =>
          split at matched
          next => cases matched
          next isModRm =>
            simp only [not_or, ne_eq, Decidable.not_not] at isExtrq isBlend isModRm
            obtain ⟨rfl, rfl, rfl, mask3, rfl, rfl⟩ := isExtrq
            obtain ⟨rfl, rfl, mask8, rfl, rfl⟩ := isBlend
            simp only [Option.some.injEq, Prod.mk.injEq] at matched
            obtain ⟨rfl, rfl⟩ := matched
            have lowValue : (~~~(b8 >>> 3) &&& 0x0F).toNat < 8 := by
              rw [UInt8.lt_iff_toNat_lt, Nat.not_lt] at low
              exact Nat.lt_of_le_of_lt low (by decide)
            refine ⟨⟨_, lowValue⟩, ⟨_, and_seven_lt b3⟩, ?_, ?_, ?_⟩
            · exact toUInt32_eq _
            · exact toUInt32_eq _
            · simp only [idiom, UInt8.ofNat_toNat, ← vex_byte b8 mask8,
                ← extrq_byte b3 mask3, isModRm]
  next => cases matched

theorem decode_idiom (dest src : Fin 8) :
    decode 0x66 0x0F 0x78 ((0xC0 : UInt8) ||| UInt8.ofNat src) 0x28 0x00 =
        some (.extrq (wide src) 0x28 0x00) ∧
      decode 0xC4 0xE3 (((~~~UInt8.ofNat dest &&& 0x0F) <<< 3) ||| 0x01) 0x02
          ((0xC0 : UInt8) ||| (UInt8.ofNat dest <<< 3) ||| UInt8.ofNat src) 0x02 =
        some (.vpblendd (wide dest) (wide dest) (wide src) 0x02) := by
  revert dest src
  decide +kernel

theorem execute_idiom (dest src : Fin 8) (registers : Registers) :
    execute (idiom dest src) registers =
      (Instruction.execute registers (.extrq (wide src) 0x28 0)).bind
        fun between => Instruction.execute between
          (.vpblendd (wide dest) (wide dest) (wide src) 2) := by
  obtain ⟨extract, blend⟩ := decode_idiom dest src
  simp only [idiom, execute, extract, blend, Option.bind_some]
  rfl

/-! ### What the two pairs leave -/

theorem extractBitField_low (high low : BitVec 32) :
    (extractBitField (high ++ low) 0x28 0).setWidth 32 = low ∧
      ((extractBitField (high ++ low) 0x28 0) >>> 32).setWidth 32 =
        (high.setWidth 8).setWidth 32 := by
  have field : extractBitField (high ++ low) 0x28 0 =
      (high ++ low) &&& (BitVec.allOnes 40).setWidth 64 := rfl
  have bits (bit : ℕ) : (extractBitField (high ++ low) 0x28 0).getLsbD bit =
      ((if bit < 32 then low.getLsbD bit else high.getLsbD (bit - 32)) && decide (bit < 40)) := by
    rw [field, BitVec.getLsbD_and, BitVec.getLsbD_append,
      BitVec.getLsbD_setWidth, BitVec.getLsbD_allOnes]
    by_cases inField : bit < 40
    · simp [inField, Nat.lt_trans inField (by decide : 40 < 64)]
    · simp [inField]
  constructor
  · apply BitVec.eq_of_getLsbD_eq
    intro bit inside
    have inField : bit < 40 := by omega
    rw [BitVec.getLsbD_setWidth, bits]
    simp [inside, inField]
  · apply BitVec.eq_of_getLsbD_eq
    intro bit inside
    have above : ¬32 + bit < 32 := by omega
    have inField : 32 + bit < 40 ↔ bit < 8 := by omega
    rw [BitVec.getLsbD_setWidth, BitVec.getLsbD_ushiftRight, bits, if_neg above,
      Nat.add_sub_cancel_left, BitVec.getLsbD_setWidth, BitVec.getLsbD_setWidth,
      decide_eq_decide.mpr inField, Bool.and_comm (high.getLsbD bit)]

def lowFortyBits (value : VectorRegister) : VectorRegister := fun lane =>
  if lane = 0 then value 0
  else if lane = 1 then ((value 1).setWidth 8).setWidth 32
  else if lane < 4 then 0 else value lane

def blended (dest src : VectorRegister) : VectorRegister := fun lane =>
  if 4 ≤ lane then 0
  else if lane = 1 then lowFortyBits src 1 else dest lane

theorem execute_idiom_eq (dest src : Fin 8) (registers : Registers) :
    execute (idiom dest src) registers = some ((registers.setVector (wide src)
          (lowFortyBits (registers.vector (wide src)))).setVector (wide dest)
        (blended (if dest = src then lowFortyBits (registers.vector (wide src))
            else registers.vector (wide dest))
          (registers.vector (wide src)))) := by
  have isWide : wide dest = wide src ↔ dest = src := by
    rw [wide, wide, Fin.castLE_inj]
  obtain ⟨low, high⟩ := extractBitField_low
    (registers.vector (wide src) 1) (registers.vector (wide src) 0)
  have extracted : Instruction.execute registers (.extrq (wide src) 0x28 0) =
      some (registers.setVector (wide src) (lowFortyBits (registers.vector (wide src)))) := by
    rw [Instruction.execute]
    change some _ = some _
    congr 2
    funext lane
    have isLength : (0x28 : UInt8).toNat = 0x28 := rfl
    have isIndex : (0 : UInt8).toNat = 0 := rfl
    simp only [lowFortyBits, isLength, isIndex, low, high]
  rw [execute_idiom, extracted, Option.bind_some, Instruction.execute]
  congr 2
  funext lane
  have selected : ((2 : UInt8).toNat.testBit lane = true) = (lane = 1) := by
    revert lane
    decide
  simp only [blended, selected]
  by_cases same : dest = src
  · subst same
    simp only [Registers.setVector_self, if_pos]
    split
    · rfl
    · split
      next first => rw [first]
      next => rfl
  · have apart : wide dest ≠ wide src := fun equal => same (isWide.mp equal)
    rw [if_neg same, Registers.setVector_self, Registers.setVector_of_ne apart]
    split
    · rfl
    · split
      next first => rw [first]
      next => rfl

def replacement (dest src : Fin 8) : List UInt8 :=
  let modRm : UInt32 := 0xC0
  [0x66, 0x0F, 0x3A, 0x14, (modRm ||| (UInt32.ofNat src <<< 3)).toUInt8, 0x04,
    0x66, 0x0F, 0x3A, 0x22, (modRm ||| (UInt32.ofNat dest <<< 3)).toUInt8, 0x01]

theorem tryEncode_eq (dest src : Fin 8) {buffer : List UInt8}
    (length : buffer.length = sequenceLength) :
    tryEncode (UInt32.ofNat dest) (UInt32.ofNat src) buffer = some (replacement dest src) := by
  have low (register : Fin 8) : ¬7 < UInt32.ofNat register := by
    revert register
    decide
  rw [tryEncode, if_neg (by
      simp only [low, length, Nat.lt_irrefl, or_self, not_false_iff]),
    List.drop_of_length_le length.le, List.append_nil]
  rfl

theorem decode_replacement (dest src : Fin 8) : decode 0x66 0x0F 0x3A 0x14
        ((0xC0 : UInt32) ||| (UInt32.ofNat src <<< 3)).toUInt8 0x04 =
        some (.pextrb rax (wide src) 0x04) ∧
      decode 0x66 0x0F 0x3A 0x22 ((0xC0 : UInt32) ||| (UInt32.ofNat dest <<< 3)).toUInt8 0x01 =
        some (.pinsrd (wide dest) rax 0x01) := by
  revert dest src
  decide +kernel

theorem execute_replacement_eq (dest src : Fin 8) (registers : Registers) :
    execute (replacement dest src) registers = some ((registers.setGeneral rax
          (((registers.vector (wide src) 1).setWidth 8).setWidth 64)).setVector
        (wide dest) (Function.update (registers.vector (wide dest)) 1
          (lowFortyBits (registers.vector (wide src)) 1))) := by
  obtain ⟨extract, insert⟩ := decode_replacement dest src
  have dword : (((registers.vector (wide src) 1).setWidth 8).setWidth 64).setWidth
      32 = lowFortyBits (registers.vector (wide src)) 1 := by
    change _ = ((registers.vector (wide src) 1).setWidth 8).setWidth 32
    rw [BitVec.setWidth_setWidth_of_le _ (by decide)]
  simp only [replacement, execute, extract, insert, Option.bind_some, Instruction.execute]
  rw [← dword]
  rfl

/-! ### When both leave the same -/

/-- The registers after the replacement agree with those after the idiom: the
destination as the emulation of the extraction leaves it, the others where the
architecture defines them, and the general registers but one with those before. -/
structure Agrees (dest src : Fin 16) (before original replaced : Registers) :
    Prop where
  destination : replaced.vector dest = original.vector dest
  others : ∀ register ≠ dest, ∀ lane, (register = src → lane ≠ 2 ∧ lane ≠ 3) →
    replaced.vector register lane = original.vector register lane
  general : ∀ register ≠ rax,
    replaced.general register = before.general register

structure NothingToClear (dest src : Fin 16) (registers : Registers) : Prop where
  upper : ∀ lane, 4 ≤ lane → registers.vector dest lane = 0
  extracted : dest = src →
    registers.vector dest 2 = 0 ∧ registers.vector dest 3 = 0
  masked : dest ≠ src → (registers.vector src 1).toNat < 256

theorem ofNat_register (register : Fin 8) :
    Fin.ofNat 16 (UInt32.ofNat register).toNat = wide register := by
  revert register
  decide

theorem lowByte_eq_iff (value : BitVec 32) :
    value = (value.setWidth 8).setWidth 32 ↔ value.toNat < 256 := by
  have valueLt := value.isLt
  rw [← BitVec.toNat_inj, BitVec.toNat_setWidth, BitVec.toNat_setWidth]
  omega

theorem lowFortyBits_of_masked (masked : (value 1).toNat < 256) {lane : Fin 8}
    (defined : lane ≠ 2 ∧ lane ≠ 3) : lowFortyBits value lane = value lane := by
  have lanes : lane = 0 ∨ lane = 1 ∨ ¬lane < 4 ∧ lane ≠ 0 ∧ lane ≠ 1 := by
    revert lane
    decide
  rcases lanes with rfl | rfl | ⟨high, notFirst, notSecond⟩
  · rfl
  · exact ((lowByte_eq_iff _).mpr masked).symm
  · rw [lowFortyBits, if_neg notFirst, if_neg notSecond, if_neg high]

theorem destination_eq_iff (dest src : Fin 8) (registers : Registers) :
    Function.update (registers.vector (wide dest)) 1
        (lowFortyBits (registers.vector (wide src)) 1) =
      blended (if dest = src then lowFortyBits (registers.vector (wide src))
          else registers.vector (wide dest)) (registers.vector (wide src)) ↔
      (∀ lane, 4 ≤ lane → registers.vector (wide dest) lane = 0) ∧
        (dest = src → registers.vector (wide dest) 2 = 0 ∧ registers.vector (wide dest) 3 = 0) := by
  have other {lane : Fin 8} (notSecond : lane ≠ 1) (value : BitVec 32) :
      Function.update (registers.vector (wide dest)) 1 value lane =
        registers.vector (wide dest) lane :=
    Function.update_of_ne notSecond _ _
  constructor
  · intro same
    constructor
    · intro lane upper
      have atLane := congrFun same lane
      rw [other (by rintro rfl; exact absurd upper (by decide)), blended, if_pos upper] at atLane
      exact atLane
    · rintro rfl
      have cleared (lane : Fin 8) (isCleared : lane = 2 ∨ lane = 3) :
          registers.vector (wide dest) lane = 0 := by
        have atLane := congrFun same lane
        rw [if_pos rfl] at atLane
        rcases isCleared with rfl | rfl
        · rw [other (by decide)] at atLane
          exact atLane
        · rw [other (by decide)] at atLane
          exact atLane
      exact ⟨cleared 2 (Or.inl rfl), cleared 3 (Or.inr rfl)⟩
  · rintro ⟨upper, extracted⟩
    funext lane
    by_cases high : 4 ≤ lane
    · rw [other (by rintro rfl; exact absurd high (by decide)), blended,
        if_pos high, upper lane high]
    · rw [blended, if_neg high]
      by_cases second : lane = 1
      · rw [second, Function.update_self, if_pos rfl]
      · rw [other second, if_neg second]
        by_cases same : dest = src
        · subst same
          have lanes : lane = 0 ∨ lane = 2 ∨ lane = 3 := by
            revert lane
            decide
          rw [if_pos rfl]
          rcases lanes with rfl | rfl | rfl
          · rfl
          · exact (extracted rfl).1
          · exact (extracted rfl).2
        · rw [if_neg same]

/-- For every accepted sequence the replacement agrees with the original exactly
from the registers in which there is nothing to clear. -/
theorem replacement_agrees_iff {source buffer : List UInt8} {destRegister srcRegister : UInt32}
    (matched : tryMatch source = some (destRegister, srcRegister))
    (length : source.length = sequenceLength)
    (room : buffer.length = sequenceLength) :
    let dest : Fin 16 := Fin.ofNat 16 destRegister.toNat
    let src : Fin 16 := Fin.ofNat 16 srcRegister.toNat
    ∃ encoded, tryEncode destRegister srcRegister buffer = some encoded ∧
      ∀ registers, ∃ original replaced, execute source registers = some original ∧
          execute encoded registers = some replaced ∧
          (Agrees dest src registers original replaced ↔ NothingToClear dest src registers) := by
  obtain ⟨dest, src, rfl, rfl, rfl⟩ := tryMatch_eq_some matched length
  intro destWide srcWide
  have isDest : destWide = wide dest := ofNat_register dest
  have isSrc : srcWide = wide src := ofNat_register src
  rw [isDest, isSrc]
  have isWide : wide dest = wide src ↔ dest = src := by
    rw [wide, wide, Fin.castLE_inj]
  refine ⟨replacement dest src, tryEncode_eq dest src room, fun registers =>
    ⟨_, _, execute_idiom_eq dest src registers, execute_replacement_eq dest src registers, ?_⟩⟩
  have destinations := destination_eq_iff dest src registers
  constructor
  · intro agrees
    have same := agrees.destination
    rw [Registers.setVector_self, Registers.setVector_self] at same
    obtain ⟨upper, extracted⟩ := destinations.mp same
    refine ⟨upper, fun equal => extracted (isWide.mp equal), ?_⟩
    intro apart
    have atSecond := agrees.others (wide src) apart.symm 1 fun _ => by decide
    rw [Registers.setVector_of_ne apart.symm,
      Registers.setVector_of_ne apart.symm, Registers.setVector_self] at atSecond
    exact (lowByte_eq_iff _).mp atSecond
  · rintro ⟨upper, extracted, masked⟩
    refine ⟨?_, ?_, ?_⟩
    · rw [Registers.setVector_self, Registers.setVector_self]
      exact destinations.mpr ⟨upper, fun equal => extracted (isWide.mpr equal)⟩
    · intro register notDest lane defined
      rw [Registers.setVector_of_ne notDest, Registers.setVector_of_ne notDest]
      by_cases isSrc : register = wide src
      · subst isSrc
        rw [Registers.setVector_self]
        exact (lowFortyBits_of_masked (masked notDest.symm) (defined rfl)).symm
      · rw [Registers.setVector_of_ne isSrc]
        rfl
    · intro register notRax
      exact Function.update_of_ne notRax _ _

/-! ### A register that is cleared only by the idiom -/

/-- EXTRQ xmm4, 0x28, 0x00 and VPBLENDD xmm3, xmm3, xmm4, 2. -/
def blendThreeFour : List UInt8 :=
  [0x66, 0x0F, 0x78, 0xC4, 0x28, 0x00, 0xC4, 0xE3, 0x61, 0x02, 0xDC, 0x02]

def upperHalfSet : Registers where
  vector := fun register lane => if register = 3 ∧ lane = 4 then 1 else 0
  general := fun _ => 0

theorem blendThreeFour_matched : tryMatch blendThreeFour = some (3, 4) := by
  decide

theorem upperHalf_survives_replacement :
    ¬∀ (source buffer encoded : List UInt8) (destRegister srcRegister : UInt32)
      (registers original replaced : Registers),
      tryMatch source = some (destRegister, srcRegister) →
      source.length = sequenceLength →
      tryEncode destRegister srcRegister buffer = some encoded →
      execute source registers = some original →
      execute encoded registers = some replaced →
      Agrees (Fin.ofNat 16 destRegister.toNat) (Fin.ofNat 16 srcRegister.toNat)
        registers original replaced := by
  intro always
  have agrees := always blendThreeFour (List.replicate 12 0) (replacement 3 4) 3 4
    upperHalfSet _ _ blendThreeFour_matched rfl
    (tryEncode_eq 3 4 rfl) (execute_idiom_eq 3 4 upperHalfSet)
    (execute_replacement_eq 3 4 upperHalfSet)
  have atUpper := congrFun agrees.destination 4
  revert atUpper
  decide

theorem replacement_agrees_iff_blendThreeFour :
    ∃ encoded, tryEncode 3 4 (List.replicate 12 0) = some encoded ∧
      ∀ registers, ∃ original replaced, execute blendThreeFour registers = some original ∧
          execute encoded registers = some replaced ∧
          (Agrees 3 4 registers original replaced ↔ NothingToClear 3 4 registers) :=
  replacement_agrees_iff blendThreeFour_matched rfl rfl

end SharpEmu.Sse4aExtrqBlendPatch
