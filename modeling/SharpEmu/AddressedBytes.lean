import Mathlib.Data.UInt

/-!
# Bytes at 64-bit addresses

A memory gives some addresses a byte.  Ranges of addresses wrap around at the end
of the address space; a range is read or written as a whole, and neither happens
when one of its addresses has no byte.  Words are little endian.
-/

namespace SharpEmu.Addressed

/-- The bytes of the addresses that have one. -/
abbrev Memory := UInt64 → Option UInt8

def bytesOf : ℕ → ℕ → List UInt8
  | 0, _ => []
  | count + 1, value => UInt8.ofNat value :: bytesOf count (value / 256)

def wordOf : List UInt8 → ℕ
  | [] => 0
  | byte :: rest => byte.toNat + 256 * wordOf rest

def readBytes (memory : Memory) (address : UInt64) : ℕ → Option (List UInt8)
  | 0 => some []
  | count + 1 =>
      match memory address, readBytes memory (address + 1) count with
      | some byte, some rest => some (byte :: rest)
      | _, _ => none

def readWord (memory : Memory) (address : UInt64) (count : ℕ) :
    Option UInt64 :=
  (readBytes memory address count).map (UInt64.ofNat <| wordOf ·)

def storeBytes (memory : Memory) (address : UInt64) : List UInt8 → Memory
  | [] => memory
  | byte :: rest =>
      storeBytes (Function.update memory address (some byte)) (address + 1) rest

def tryWrite (memory : Memory) (address : UInt64) (data : List UInt8) :
    Option Memory :=
  if (readBytes memory address data.length).isSome then
    some (storeBytes memory address data)
  else none

def tryWriteUInt32 (memory : Memory) (address : UInt64) (value : ℕ) : Option Memory :=
  tryWrite memory address (bytesOf 4 value)

structure GuardedMemory where
  bytes : Memory
  writable : UInt64 → Bool

namespace GuardedMemory

def tryReadUInt64 (memory : GuardedMemory) (address : UInt64) : Option UInt64 :=
  readWord memory.bytes address 8

def tryWrite (memory : GuardedMemory) (address : UInt64) (data : List UInt8) :
    Option GuardedMemory :=
  if ∀ index < data.length, memory.writable (address + .ofNat index) then
    (Addressed.tryWrite memory.bytes address data).map (⟨·, memory.writable⟩)
  else none

def tryWriteUInt32 (memory : GuardedMemory) (address : UInt64) (value : UInt32) :
    Option GuardedMemory :=
  memory.tryWrite address (bytesOf 4 value.toNat)

def tryWriteUInt64 (memory : GuardedMemory) (address value : UInt64) :
    Option GuardedMemory :=
  memory.tryWrite address (bytesOf 8 value.toNat)

end GuardedMemory

def inRange (start : UInt64) (count : ℕ) (address : UInt64) : Bool :=
  (address - start).toNat < count

def rangesMeet (start : UInt64) (count : ℕ) (other : UInt64) (otherCount : ℕ) : Bool :=
  (0 < otherCount && inRange start count other) || (0 < count && inRange other otherCount start)

theorem add_ofNat_zero (address : UInt64) : address + .ofNat 0 = address :=
  UInt64.add_zero address

theorem add_ofNat_succ (address : UInt64) (index : ℕ) :
    address + .ofNat (index + 1) = address + 1 + .ofNat index := by
  rw [UInt64.ofNat_add, UInt64.add_comm (UInt64.ofNat index), ← UInt64.add_assoc]
  rfl

variable {count : ℕ} {bytes : List UInt8}

theorem length_of_readBytes {memory : Memory} {address : UInt64}
    (isRead : readBytes memory address count = some bytes) :
    bytes.length = count := by
  induction count generalizing address bytes with
  | zero =>
    obtain rfl := Option.some.inj isRead
    rfl
  | succ count ih =>
    rw [readBytes] at isRead
    split at isRead
    · rename_i byte rest isByte isRest
      obtain rfl := Option.some.inj isRead
      rw [List.length_cons, ih isRest]
    · cases isRead

theorem readBytes_take {memory : Memory} {address : UInt64} {fewer : ℕ}
    (isRead : readBytes memory address count = some bytes)
    (inside : fewer ≤ count) :
    readBytes memory address fewer = some (bytes.take fewer) := by
  induction fewer generalizing address count bytes with
  | zero => rfl
  | succ fewer ih =>
    obtain ⟨count, rfl⟩ := Nat.exists_eq_succ_of_ne_zero (by omega : count ≠ 0)
    rw [readBytes] at isRead
    split at isRead
    · rename_i byte rest isByte isRest
      obtain rfl := Option.some.inj isRead
      rw [readBytes, isByte, ih isRest (by omega)]
      rfl
    · cases isRead

theorem readBytes_drop_take {memory : Memory} {address : UInt64} {total position : ℕ}
    (isRead : readBytes memory address total = some bytes)
    (inside : position + count ≤ total) :
    readBytes memory (address + UInt64.ofNat position) count =
      some ((bytes.drop position).take count) := by
  induction position generalizing address total bytes with
  | zero =>
    rw [add_ofNat_zero]
    exact readBytes_take isRead (by omega)
  | succ position ih =>
    obtain ⟨total, rfl⟩ := Nat.exists_eq_succ_of_ne_zero (by omega : total ≠ 0)
    rw [readBytes] at isRead
    split at isRead
    · rename_i byte rest isByte isRest
      obtain rfl := Option.some.inj isRead
      rw [add_ofNat_succ, ih isRest (by omega)]
      rfl
    · cases isRead

/-! ## Stored ranges -/

variable {memory : Memory} {address : UInt64}

theorem storeBytes_append (memory : Memory) (address : UInt64) (data more : List UInt8) :
    storeBytes memory address (data ++ more) =
      storeBytes (storeBytes memory address data) (address + .ofNat data.length) more := by
  induction data generalizing memory address with
  | nil =>
    rw [List.nil_append, List.length_nil, add_ofNat_zero, storeBytes]
  | cons byte data ih =>
    rw [List.cons_append, storeBytes, ih, ← add_ofNat_succ, List.length_cons, storeBytes]

variable {other : UInt64}

theorem isSome_storeBytes (data : List UInt8)
    (present : (memory other).isSome) : (storeBytes memory address data other).isSome := by
  induction data generalizing memory address with
  | nil => exact present
  | cons byte data ih =>
    apply ih
    rw [Function.update_apply]
    split
    · rfl
    · exact present

variable {data : List UInt8}

theorem isSome_storeBytes_eq
    (present : ∀ index < data.length, (memory (address + .ofNat index)).isSome) :
    (storeBytes memory address data other).isSome = (memory other).isSome := by
  induction data generalizing memory address with
  | nil => rfl
  | cons byte data ih =>
    rw [List.length_cons, Nat.forall_lt_succ_left, add_ofNat_zero] at present
    rw [storeBytes, ih]
    · rw [Function.update_apply]
      split
      · next same => rw [same, present.1, Option.isSome_some]
      · rfl
    · intro index inside
      have isPresent := present.2 index inside
      rw [add_ofNat_succ] at isPresent
      rw [Function.update_apply]
      split
      · rfl
      · exact isPresent

theorem isSome_readBytes_iff : (readBytes memory address count).isSome ↔
      ∀ index < count, (memory (address + .ofNat index)).isSome := by
  induction count generalizing address with
  | zero => simp [readBytes]
  | succ count ih =>
    rw [Nat.forall_lt_succ_left, add_ofNat_zero]
    simp only [add_ofNat_succ]
    rw [← ih, readBytes]
    cases memory address <;> cases readBytes memory (address + 1) count <;> simp

theorem storeBytes_frame (outside : inRange address data.length other = false)
    (fits : data.length ≤ 2 ^ 64) :
    storeBytes memory address data other = memory other := by
  induction data generalizing memory address with
  | nil => rfl
  | cons byte data ih =>
    unfold inRange at outside ih
    rw [decide_eq_false_iff_not, List.length_cons] at outside
    rw [List.length_cons] at fits
    have one : (1 : UInt64).toNat = 1 := rfl
    rw [UInt64.toNat_sub] at outside
    have otherBound := other.toNat_lt
    have addressBound := address.toNat_lt
    have different : other ≠ address := by
      rintro rfl
      omega
    rw [storeBytes, ih, Function.update_of_ne different]
    · rw [decide_eq_false_iff_not, UInt64.toNat_sub, UInt64.toNat_add, one]
      rw [ne_eq, ← UInt64.toNat_inj] at different
      omega
    · omega

theorem tryWrite_frame {after : Memory} (written : tryWrite memory address data = some after)
    (outside : inRange address data.length other = false)
    (fits : data.length ≤ 2 ^ 64) : after other = memory other := by
  unfold tryWrite at written
  split at written
  · rw [← Option.some.inj written]
    exact storeBytes_frame outside fits
  · cases written

theorem tryWrite_of_isSome (present : (readBytes memory address data.length).isSome) :
    tryWrite memory address data = some (storeBytes memory address data) := by
  unfold tryWrite
  rw [if_pos present]

theorem getElem?_storeBytes {memory : Memory} {address : UInt64}
    (fits : data.length ≤ 2 ^ 64) {index : ℕ} (inside : index < data.length) :
    storeBytes memory address data (address + .ofNat index) = data[index]? := by
  induction data generalizing memory address index with
  | nil => exact absurd inside (Nat.not_lt_zero _)
  | cons byte data ih =>
    rw [List.length_cons] at fits inside
    rw [storeBytes]
    cases index with
    | zero =>
      have behind : inRange (address + 1) data.length address = false := by
        have one : (1 : UInt64).toNat = 1 := rfl
        unfold inRange
        rw [decide_eq_false_iff_not, UInt64.toNat_sub, UInt64.toNat_add, one]
        omega
      rw [add_ofNat_zero, storeBytes_frame behind (by omega), Function.update_self]
      rfl
    | succ index =>
      rw [add_ofNat_succ, ih (by omega) (by omega), List.getElem?_cons_succ]

theorem readBytes_storeBytes {memory : Memory} {address : UInt64} (fits : data.length ≤ 2 ^ 64) :
    readBytes (storeBytes memory address data) address data.length = some data := by
  induction data generalizing memory address with
  | nil => rfl
  | cons byte data ih =>
    have stored : storeBytes memory address (byte :: data) address = some byte := by
      have first : storeBytes memory address (byte :: data) (address + .ofNat 0) = _ :=
        getElem?_storeBytes fits (Nat.succ_pos _)
      rwa [add_ofNat_zero] at first
    rw [List.length_cons] at fits
    rw [List.length_cons, readBytes, stored, storeBytes, ih (by omega)]

theorem wordOf_bytesOf (count value : ℕ) : wordOf (bytesOf count value) = value % 256 ^ count := by
  induction count generalizing value with
  | zero => rw [Nat.pow_zero, Nat.mod_one, bytesOf, wordOf]
  | succ count ih =>
    rw [bytesOf, wordOf, ih, Nat.pow_succ', Nat.mod_mul, UInt8.toNat_ofNat']

@[simp]
theorem length_bytesOf (count value : ℕ) : (bytesOf count value).length = count := by
  induction count generalizing value with
  | zero => rfl
  | succ count ih => rw [bytesOf, List.length_cons, ih]

theorem tryReadUInt64_of_tryWriteUInt64 {memory after : GuardedMemory}
    {address value : UInt64} (written : memory.tryWriteUInt64 address value = some after) :
    after.tryReadUInt64 address = some value := by
  unfold GuardedMemory.tryWriteUInt64 GuardedMemory.tryWrite tryWrite at written
  split at written
  · split at written
    · cases written
      have stored : readBytes (storeBytes memory.bytes address (bytesOf 8 value.toNat)) _ _ =
          some (bytesOf 8 value.toNat) :=
        readBytes_storeBytes (by rw [length_bytesOf]; decide)
      rw [length_bytesOf] at stored
      unfold GuardedMemory.tryReadUInt64 readWord
      have wordSize : value.toNat < 256 ^ 8 := value.toNat_lt
      rw [stored, Option.map_some, wordOf_bytesOf, Nat.mod_eq_of_lt wordSize, UInt64.ofNat_toNat]
    · cases written
  · cases written

/-! ## Where a guarded memory can be written -/

namespace GuardedMemory

def CanWrite (memory : GuardedMemory) (address : UInt64) (count : ℕ) : Prop :=
  ∀ index < count, memory.writable (address + .ofNat index) ∧
    (memory.bytes (address + .ofNat index)).isSome

instance (memory : GuardedMemory) (address : UInt64) (count : ℕ) :
    Decidable (memory.CanWrite address count) :=
  inferInstanceAs (Decidable (∀ index < count, _))

variable {data : List UInt8}

theorem isSome_tryWrite {memory : GuardedMemory} {address : UInt64} :
    (memory.tryWrite address data).isSome ↔ memory.CanWrite address data.length := by
  unfold tryWrite Addressed.tryWrite CanWrite
  split
  · next writable =>
    rw [Option.isSome_map]
    split
    · next present =>
      exact iff_of_true rfl fun index inside =>
        ⟨writable index inside, isSome_readBytes_iff.mp present index inside⟩
    · next absent =>
      exact iff_of_false Bool.false_ne_true fun both =>
        absent (isSome_readBytes_iff.mpr fun index inside => (both index inside).2)
  · next guarded =>
    exact iff_of_false Bool.false_ne_true fun both =>
      guarded fun index inside => (both index inside).1

structure SameAccess (before after : GuardedMemory) : Prop where
  writable : after.writable = before.writable
  present : ∀ address, (after.bytes address).isSome = (before.bytes address).isSome

theorem SameAccess.refl (memory : GuardedMemory) : SameAccess memory memory :=
  ⟨rfl, fun _ => rfl⟩

variable {before after : GuardedMemory}

theorem SameAccess.trans {between : GuardedMemory}
    (first : SameAccess before between) (second : SameAccess between after) :
    SameAccess before after :=
  ⟨second.writable.trans first.writable, fun address =>
    (second.present address).trans (first.present address)⟩

theorem SameAccess.canWrite_iff (same : SameAccess before after) {address : UInt64} {count : ℕ} :
    after.CanWrite address count ↔ before.CanWrite address count := by
  unfold CanWrite
  simp only [same.writable, same.present]

theorem SameAccess.isSome_tryReadUInt64 (same : SameAccess before after) (address : UInt64) :
    (after.tryReadUInt64 address).isSome = (before.tryReadUInt64 address).isSome := by
  unfold tryReadUInt64 readWord
  rw [Option.isSome_map, Option.isSome_map, Bool.eq_iff_iff, isSome_readBytes_iff,
    isSome_readBytes_iff]
  simp only [same.present]

/-- Writing changes only what bytes there are. -/
theorem sameAccess_of_tryWrite {address : UInt64}
    (written : before.tryWrite address data = some after) :
    SameAccess before after := by
  have canWrite : before.CanWrite address data.length :=
    isSome_tryWrite.mp (Option.isSome_of_eq_some written)
  unfold tryWrite Addressed.tryWrite at written
  split at written
  · split at written
    · cases written
      refine ⟨rfl, fun other => ?_⟩
      exact isSome_storeBytes_eq fun index inside => (canWrite index inside).2
    · cases written
  · cases written

end GuardedMemory

theorem eq_of_storeBytes_eq {memory : Memory} {address : UInt64}
    {other : List UInt8} (sameLength : data.length = other.length)
    (fits : data.length ≤ 2 ^ 64)
    (same : storeBytes memory address data = storeBytes memory address other) :
    data = other := by
  apply List.ext_getElem?
  intro index
  rcases Nat.lt_or_ge index data.length with inside | outside
  · have fromData : storeBytes memory address data (address + .ofNat index) = _ :=
      getElem?_storeBytes fits inside
    rw [← fromData, same, getElem?_storeBytes (by omega) (by omega)]
  · rw [List.getElem?_eq_none outside, List.getElem?_eq_none (by omega)]

end SharpEmu.Addressed
