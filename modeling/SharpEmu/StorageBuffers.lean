import SharpEmu.Gen5SpirvWords

/-!
# Storage buffers

A storage buffer is an array of words, and emitted code accesses the bytes of
guest memory in it by shifts and masks.  Each byte is loaded or stored through
the word that it lies in, so that an access may straddle two words or the end of
the buffer.
-/

namespace SharpEmu.Gen5Spirv

open Spirv

structure StorageBuffer where
  words : List Word
  fits : words.length < 2 ^ 32

namespace StorageBuffer

variable (buffer : StorageBuffer)

def length : Word := .ofNat 32 buffer.words.length

theorem toNat_length : buffer.length.toNat = buffer.words.length := by
  unfold length
  rw [BitVec.toNat_ofNat, Nat.mod_eq_of_lt buffer.fits]

def set (index : ℕ) (value : Word) : StorageBuffer where
  words := buffer.words.set index value
  fits := by
    rw [List.length_set]
    exact buffer.fits

end StorageBuffer

/-! ## Words -/

def isBufferWordInRange (buffer : StorageBuffer) (dwordAddress : Word) : Bool :=
  dwordAddress < buffer.length

/-- Load a word, or zero beyond the end, where reading would give anything. -/
def loadBufferWord (anything : Word) (buffer : StorageBuffer) (dwordAddress : Word) : Word :=
  let inRange := isBufferWordInRange buffer dwordAddress
  let safeAddress := select inRange dwordAddress 0
  let value := buffer.words.getD safeAddress.toNat anything
  select inRange value 0

def storeBufferWord (buffer : StorageBuffer) (dwordAddress value : Word) :
    StorageBuffer :=
  if isBufferWordInRange buffer dwordAddress then
    buffer.set dwordAddress.toNat value
  else buffer

/-! ## Bytes -/

def addressAt (byteAddress : Word) (index : ℕ) : Word :=
  if index = 0 then byteAddress else byteAddress + .ofNat 32 index

def loadBufferByte (anything : Word) (buffer : StorageBuffer)
    (byteAddress result : Word) (index : ℕ) : Option Word := do
  let address := addressAt byteAddress index
  let dwordAddress ← shiftRightLogical address 2
  let bitOffset ← shiftLeftLogical (address &&& 3) 3
  let value := (← shiftRightLogical
    (loadBufferWord anything buffer dwordAddress) bitOffset) &&& 0xFF
  return result ||| (← shiftLeftLogical value (.ofNat 32 (index * 8)))

def loadUnalignedBufferWord (anything : Word) (buffer : StorageBuffer)
    (byteAddress : Word) : Option Word :=
  (List.range 4).foldlM (loadBufferByte anything buffer byteAddress) 0

def storeBufferByte (anything byteAddress value : Word)
    (buffer : StorageBuffer) (index : ℕ) : Option StorageBuffer := do
  let address := addressAt byteAddress index
  let dwordAddress ← shiftRightLogical address 2
  let shift ← shiftLeftLogical (address &&& 3) 3
  let oldValue := loadBufferWord anything buffer dwordAddress
  let byteMask ← shiftLeftLogical 0xFF shift
  let sourceByte :=
    (← shiftRightLogical value (.ofNat 32 (index * 8))) &&& 0xFF
  let updated := (oldValue &&& ~~~byteMask) ||| (← shiftLeftLogical sourceByte shift)
  return storeBufferWord buffer dwordAddress updated

def storeBufferBytes (anything : Word) (buffer : StorageBuffer)
    (byteAddress value : Word) (byteCount : ℕ) (sourceShift : Word) :
    Option StorageBuffer := do
  let value ← shiftRightLogical value sourceShift
  (List.range byteCount).foldlM (storeBufferByte anything byteAddress value) buffer

def extendLoaded (raw : Word) (width : ℕ) (signExtend : Bool) : Option Word :=
  if signExtend then bitFieldSExtract raw 0 (.ofNat 32 width) else some raw

/-- Load the low bytes and extend them, or put them into one half of the
destination. -/
def loadSubdwordBufferValue (anything : Word) (buffer : StorageBuffer)
    (byteAddress previous : Word) (byteCount : ℕ)
    (signExtend d16 d16High : Bool) : Option Word := do
  let width := byteCount * 8
  let word ← loadUnalignedBufferWord anything buffer byteAddress
  let raw := word &&& (if byteCount = 1 then 0xFF else 0xFFFF)
  let raw ← extendLoaded raw width signExtend
  if d16 then
    let half := raw &&& 0xFFFF
    if d16High then
      return (previous &&& 0x0000FFFF) ||| (← shiftLeftLogical half 16)
    else return (previous &&& 0xFFFF0000) ||| half
  else return raw

/-! ## Opcodes -/

/-- The loads of parts of a word, without the kind of memory. -/
inductive SubdwordLoad where
  | ubyte | sbyte | ushort | sshort
  | ubyteD16 | ubyteD16Hi | sbyteD16 | sbyteD16Hi | shortD16 | shortD16Hi
deriving DecidableEq

inductive SubdwordStore where
  | byte | byteD16Hi | short | shortD16Hi
deriving DecidableEq

/-- Instructions on buffers and those on global memory. -/
inductive MemoryKind where
  | buffer | global
deriving DecidableEq

def MemoryKind.name : MemoryKind → String
  | .buffer => "Buffer"
  | .global => "Global"

def SubdwordLoad.name : SubdwordLoad → String
  | .ubyte => "LoadUbyte"
  | .sbyte => "LoadSbyte"
  | .ushort => "LoadUshort"
  | .sshort => "LoadSshort"
  | .ubyteD16 => "LoadUbyteD16"
  | .ubyteD16Hi => "LoadUbyteD16Hi"
  | .sbyteD16 => "LoadSbyteD16"
  | .sbyteD16Hi => "LoadSbyteD16Hi"
  | .shortD16 => "LoadShortD16"
  | .shortD16Hi => "LoadShortD16Hi"

def SubdwordStore.name : SubdwordStore → String
  | .byte => "StoreByte"
  | .byteD16Hi => "StoreByteD16Hi"
  | .short => "StoreShort"
  | .shortD16Hi => "StoreShortD16Hi"

def opcodeContains (opcode text : String) : Bool :=
  text.toList <:+: opcode.toList

def opcodeEndsWith (opcode text : String) : Bool :=
  text.toList <:+ opcode.toList

structure SubdwordLoadInfo where
  byteCount : ℕ
  signExtend : Bool
  d16 : Bool
  d16High : Bool
deriving DecidableEq

def tryGetSubdwordLoadInfo (opcode : String) : Option SubdwordLoadInfo :=
  let info :=
    { byteCount :=
        if opcodeContains (opcode.map Char.toLower) "byte" then 1 else 2
      signExtend := opcodeContains opcode "Sbyte" || opcodeContains opcode "Sshort"
      d16 := opcodeContains opcode "D16"
      d16High := opcodeEndsWith opcode "D16Hi" }
  if opcodeContains opcode "LoadUbyte" || opcodeContains opcode "LoadSbyte" ||
    opcodeContains opcode "LoadUshort" || opcodeContains opcode "LoadSshort" ||
    opcodeContains opcode "LoadShortD16" then some info else none

def tryGetSubdwordStoreInfo (opcode : String) : Option (ℕ × Word) :=
  let byteCount := if opcodeContains opcode "StoreByte" then 1 else 2
  let sourceShift := if opcodeEndsWith opcode "D16Hi" then 16 else 0
  if opcodeContains opcode "StoreByte" || opcodeContains opcode "StoreShort" then
    some (byteCount, sourceShift)
  else none

end SharpEmu.Gen5Spirv
