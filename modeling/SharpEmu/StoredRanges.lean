import SharpEmu.AddressedBytes

/-!
# Stored ranges

A write leaves the ranges that it does not touch as they are, and writing back
what was there undoes it.
-/

namespace SharpEmu.Addressed

def Apart (first : UInt64) (count : ℕ) (second : UInt64) (otherCount : ℕ) :
    Prop :=
  ∀ index < otherCount, inRange first count (second + .ofNat index) = false

variable {first second : UInt64} {count otherCount : ℕ}

theorem apart_of_offsets_lt_half (base : UInt64)
    (apart : first.toNat + count ≤ second.toNat ∨ second.toNat + otherCount ≤ first.toNat)
    (firstSmall : first.toNat + count < 2 ^ 63)
    (secondSmall : second.toNat + otherCount < 2 ^ 63) :
    Apart (base + first) count (base + second) otherCount := by
  intro index inside
  have isIndex : (UInt64.ofNat index).toNat = index := by
    rw [UInt64.toNat_ofNat']
    exact Nat.mod_eq_of_lt (by omega)
  have baseLt := base.toNat_lt
  unfold inRange
  rw [decide_eq_false_iff_not, UInt64.toNat_sub, UInt64.toNat_add,
    UInt64.toNat_add, UInt64.toNat_add, isIndex]
  omega

theorem apart_of_offsets (base : UInt64)
    (apart : first.toNat + count ≤ second.toNat ∨ second.toNat + otherCount ≤ first.toNat)
    (firstSmall : first.toNat + count < 2 ^ 32)
    (secondSmall : second.toNat + otherCount < 2 ^ 32) :
    Apart (base + first) count (base + second) otherCount :=
  apart_of_offsets_lt_half base apart (Nat.lt_trans firstSmall (by decide))
    (Nat.lt_trans secondSmall (by decide))

variable {memory : Memory}

theorem readBytes_congr {other : Memory} {address : UInt64}
    (same : ∀ index < count, memory (address + .ofNat index) = other (address + .ofNat index)) :
    readBytes memory address count = readBytes other address count := by
  induction count generalizing address with
  | zero => rfl
  | succ count ih =>
    rw [Nat.forall_lt_succ_left, add_ofNat_zero] at same
    simp only [add_ofNat_succ] at same
    rw [readBytes, readBytes, same.1, ih same.2]

theorem Apart.offset {offset : UInt64} {part : ℕ} (apart : Apart first count second otherCount)
    (inside : offset.toNat + part ≤ otherCount) :
    Apart first count (second + offset) part := by
  intro index isInside
  have isSum : second + offset + .ofNat index = second + .ofNat (offset.toNat + index) := by
    rw [UInt64.ofNat_add, UInt64.ofNat_toNat, UInt64.add_assoc]
  rw [isSum]
  exact apart _ (by omega)

namespace GuardedMemory

variable {before after : GuardedMemory} {address : UInt64} {data : List UInt8}

theorem bytes_of_tryWrite (written : before.tryWrite address data = some after) :
    after.bytes = storeBytes before.bytes address data := by
  unfold tryWrite Addressed.tryWrite at written
  split at written
  · split at written
    · cases written
      rfl
    · cases written
  · cases written

variable {other : UInt64}

theorem tryWrite_outside (written : before.tryWrite address data = some after)
    (fits : data.length ≤ 2 ^ 64)
    (outside : inRange address data.length other = false) :
    after.bytes other = before.bytes other := by
  rw [bytes_of_tryWrite written]
  exact storeBytes_frame outside fits

theorem readBytes_of_tryWrite_apart (written : before.tryWrite address data = some after)
    (fits : data.length ≤ 2 ^ 64) {count : ℕ}
    (apart : Apart address data.length other count) :
    readBytes after.bytes other count = readBytes before.bytes other count :=
  readBytes_congr fun index inside =>
    tryWrite_outside written fits (apart index inside)

theorem readBytes_of_tryWrite (written : before.tryWrite address data = some after)
    (fits : data.length ≤ 2 ^ 64) :
    readBytes after.bytes address data.length = some data := by
  rw [bytes_of_tryWrite written]
  exact readBytes_storeBytes fits

theorem tryReadUInt64_of_tryWrite_apart (written : before.tryWrite address data = some after)
    (fits : data.length ≤ 2 ^ 64)
    (apart : Apart address data.length other 8) :
    after.tryReadUInt64 other = before.tryReadUInt64 other := by
  unfold tryReadUInt64 readWord
  rw [readBytes_of_tryWrite_apart written fits apart]

end GuardedMemory

/-! ## Bytes of a range -/

theorem exists_index_of_inRange {start other : UInt64} (inside : inRange start count other = true) :
    ∃ index < count, other = start + .ofNat index := by
  unfold inRange at inside
  refine ⟨(other - start).toNat, of_decide_eq_true inside, ?_⟩
  rw [UInt64.ofNat_toNat, UInt64.add_comm, UInt64.sub_add_cancel]

theorem getElem?_of_readBytes {address : UInt64}
    {bytes : List UInt8} (isRead : readBytes memory address count = some bytes)
    {index : ℕ} (inside : index < count) :
    memory (address + .ofNat index) = bytes[index]? := by
  induction count generalizing address bytes index with
  | zero => exact absurd inside (Nat.not_lt_zero _)
  | succ count ih =>
    rw [readBytes] at isRead
    split at isRead
    · next byte rest isByte isRest =>
      cases isRead
      cases index with
      | zero =>
        rw [add_ofNat_zero]
        exact isByte
      | succ index =>
        rw [add_ofNat_succ]
        exact ih isRest (by omega)
    · cases isRead

theorem bytes_of_tryWrite_back {before between after : GuardedMemory}
    {address : UInt64} {data other : List UInt8}
    (wasThere : readBytes before.bytes address data.length = some data)
    (written : before.tryWrite address other = some between)
    (back : between.tryWrite address data = some after)
    (sameLength : other.length = data.length) (fits : data.length ≤ 2 ^ 64) :
    after.bytes = before.bytes := by
  funext place
  cases inside : inRange address data.length place with
  | false =>
    rw [GuardedMemory.tryWrite_outside back fits inside,
      GuardedMemory.tryWrite_outside written (by omega) (by rw [sameLength]; exact inside)]
  | true =>
    obtain ⟨index, indexLt, rfl⟩ := exists_index_of_inRange inside
    rw [getElem?_of_readBytes (GuardedMemory.readBytes_of_tryWrite back fits)
      indexLt, getElem?_of_readBytes wasThere indexLt]

theorem wordOf_lt (bytes : List UInt8) : wordOf bytes < 256 ^ bytes.length := by
  induction bytes with
  | nil => exact Nat.one_pos
  | cons byte rest ih =>
    have byteLt := byte.toNat_lt
    rw [wordOf, List.length_cons, Nat.pow_succ]
    omega

theorem bytesOf_wordOf (bytes : List UInt8) : bytesOf bytes.length (wordOf bytes) = bytes := by
  induction bytes with
  | nil => rfl
  | cons byte rest ih =>
    have byteLt := byte.toNat_lt
    have isByte : UInt8.ofNat (byte.toNat + 256 * wordOf rest) = byte := by
      apply UInt8.toNat_inj.mp
      rw [UInt8.toNat_ofNat']
      omega
    have isRest : (byte.toNat + 256 * wordOf rest) / 256 = wordOf rest := by
      omega
    rw [List.length_cons, wordOf, bytesOf, isByte, isRest, ih]

/-! ## Lists of ranges -/

abbrev Ranges := List (UInt64 × List UInt8)

/-- Writes in turn, none of which may fail. -/
def GuardedMemory.tryWriteAll (memory : GuardedMemory) : Ranges → Option GuardedMemory
  | [] => some memory
  | range :: rest =>
      (memory.tryWrite range.1 range.2).bind (tryWriteAll · rest)

theorem GuardedMemory.sameAccess_of_tryWriteAll {before after : GuardedMemory}
    {ranges : Ranges} (written : before.tryWriteAll ranges = some after) :
    SameAccess before after := by
  induction ranges generalizing before with
  | nil =>
    cases written
    exact .refl _
  | cons range rest ih =>
    obtain ⟨between, first, isRest⟩ := Option.bind_eq_some_iff.mp written
    exact (sameAccess_of_tryWrite first).trans (ih isRest)

end SharpEmu.Addressed
