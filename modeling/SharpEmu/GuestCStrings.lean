import SharpEmu.AddressedBytes
import SharpEmu.MachineWords
import Mathlib.Data.List.TakeWhile
import Mathlib.Data.UInt

/-!
# Reading strings of guest memory

A string is read in chunks that do not cross a page, and byte by byte where a chunk
cannot be read.  Bytes that guest memory does not know are read from the host.
-/

namespace SharpEmu.Printf

open Addressed (Memory)

/-- Guest memory, and how the host's memory is read at addresses it does not know. -/
structure ReadableMemory where
  guest : Memory
  tryReadHostMemory : UInt64 → ℕ → Option (List UInt8)

def ReadableMemory.tryReadCompat (memory : ReadableMemory) (address : UInt64)
    (count : ℕ) : Option (List UInt8) :=
  match Addressed.readBytes memory.guest address count with
  | some bytes => some bytes
  | none => memory.tryReadHostMemory address count

def maxChunkSize : ℕ := 4096

def pageRemaining (address : UInt64) : ℕ :=
  maxChunkSize - address.toNat % maxChunkSize

theorem pageRemaining_pos (address : UInt64) : 0 < pageRemaining address :=
  Nat.sub_pos_of_lt (Nat.mod_lt _ (by decide))

/-- The bytes in front of the first zero of a chunk, and whether there is a zero. -/
def splitAtNul (chunk : List UInt8) : List UInt8 × Bool :=
  let copied := chunk.takeWhile (· ≠ 0)
  (copied, copied.length < chunk.length)

def readChunks (memory : ReadableMemory) (address : UInt64) (limit offset : ℕ)
    (written : List UInt8) : Option (List UInt8) :=
  if offset < limit then
    let current := address + .ofNat offset
    if current < address then none
    else
      let remaining := min (limit - offset) (min (min maxChunkSize limit) (pageRemaining current))
      match memory.tryReadCompat current remaining with
      | some span =>
          let split := splitAtNul span
          if split.2 then some (written ++ split.1)
          else readChunks memory address limit (offset + remaining) (written ++ split.1)
      | none =>
          match memory.tryReadCompat current 1 with
          | some [one] =>
              if one = 0 then some written
              else readChunks memory address limit (offset + 1) (written ++ [one])
          | _ => none
  else some written
termination_by limit - offset
decreasing_by
  · have positive := pageRemaining_pos (address + .ofNat offset)
    have size : maxChunkSize = 4096 := rfl
    omega
  · omega

def tryReadBytesUntilNull (memory : ReadableMemory) (address : UInt64)
    (maxLength hardLimit : ℕ) : Option (List UInt8) :=
  let limit := min maxLength hardLimit
  if address = 0 then none
  else if limit = 0 then some []
  else
    let firstReadLength := min limit (min 256 (pageRemaining address))
    match memory.tryReadCompat address firstReadLength with
    | some firstSpan =>
        let split := splitAtNul firstSpan
        if split.2 then some split.1
        else readChunks memory address limit firstReadLength firstSpan
    | none => readChunks memory address limit 0 []

def stringLimit : ℕ := 1048576

def ReadableMemory.tryReadCString (memory : ReadableMemory) (address : UInt64) :
    Option (List UInt8) :=
  tryReadBytesUntilNull memory address stringLimit stringLimit

/-! ## Strings in memory -/

def ReadableMemory.HostAgrees (memory : ReadableMemory) : Prop :=
  ∀ address count bytes, memory.tryReadHostMemory address count = some bytes →
    bytes.length = count ∧
      ∀ index < count, ∀ byte, memory.guest (address + .ofNat index) = some byte →
        bytes[index]? = some byte

structure HoldsCString (guest : Memory) (address : UInt64) (string : List UInt8) :
    Prop where
  notNull : address ≠ 0
  inside : address.toNat + string.length < 2 ^ 64
  noNul : 0 ∉ string
  bytes : ∀ index ≤ string.length,
    guest (address + .ofNat index) = (string ++ [0])[index]?

variable {memory : ReadableMemory} {address : UInt64} {string : List UInt8}

variable {guest : Memory} {count index : ℕ} {bytes : List UInt8}

theorem getElem?_readBytes {address : UInt64}
    (isRead : Addressed.readBytes guest address count = some bytes)
    (inside : index < count) : guest (address + .ofNat index) = bytes[index]? := by
  have one := Addressed.readBytes_drop_take isRead (show index + 1 ≤ count by omega)
  have length := Addressed.length_of_readBytes isRead
  rw [Addressed.readBytes, Addressed.readBytes] at one
  split at one
  · rename_i byte rest isByte isRest
    obtain rfl := Option.some.inj isRest
    rw [isByte, List.getElem?_eq_getElem (by omega)]
    rw [List.drop_eq_getElem_cons (by omega), List.take_succ_cons, List.take_zero,
      Option.some.injEq, List.cons.injEq] at one
    rw [one.1]
  · cases one

theorem tryReadCompat_agrees (agrees : memory.HostAgrees)
    (isRead : memory.tryReadCompat address count = some bytes) :
    bytes.length = count ∧
      ∀ index < count, ∀ byte, memory.guest (address + .ofNat index) = some byte →
        bytes[index]? = some byte := by
  unfold ReadableMemory.tryReadCompat at isRead
  split at isRead
  · rename_i fromGuest
    obtain rfl := Option.some.inj isRead
    refine ⟨Addressed.length_of_readBytes fromGuest, ?_⟩
    intro index inside byte isByte
    rw [← getElem?_readBytes fromGuest inside, isByte]
  · exact agrees _ _ _ isRead

theorem splitAtNul_eq {chunk : List UInt8} (noNul : 0 ∉ string)
    (agrees : ∀ index < chunk.length, index ≤ string.length →
      chunk[index]? = (string ++ [0])[index]?) :
    splitAtNul chunk = (string.take chunk.length, decide (string.length < chunk.length)) := by
  have copied : chunk.takeWhile (· ≠ 0) = string.take chunk.length := by
    induction chunk generalizing string with
    | nil => rfl
    | cons byte chunk ih =>
      have head := agrees 0 (Nat.succ_pos _) (Nat.zero_le _)
      cases string with
      | nil =>
        obtain rfl := Option.some.inj head
        rfl
      | cons first string =>
        obtain rfl := Option.some.inj head
        have nonzero : byte ≠ 0 := fun isZero => noNul (isZero ▸ List.mem_cons_self)
        rw [List.takeWhile_cons, if_pos (by simpa using nonzero), List.length_cons,
          List.take_succ_cons]
        congr 1
        apply ih (fun member => noNul (List.mem_cons_of_mem _ member))
        intro index inChunk inString
        exact agrees (index + 1) (Nat.succ_lt_succ inChunk) (Nat.succ_le_succ inString)
  unfold splitAtNul
  dsimp only
  rw [copied, List.length_take]
  congr 1
  rw [decide_eq_decide]
  omega

variable {offset : ℕ}

theorem HoldsCString.drop (holds : HoldsCString guest address string)
    (inside : offset + index ≤ string.length) :
    guest (address + .ofNat offset + .ofNat index) = (string.drop offset ++ [0])[index]? := by
  have place : address + UInt64.ofNat offset + UInt64.ofNat index =
      address + UInt64.ofNat (offset + index) := by
    rw [UInt64.ofNat_add, UInt64.add_assoc]
  rw [place, holds.bytes _ inside, ← List.drop_append_of_le_length (by omega), List.getElem?_drop]

theorem HoldsCString.current (holds : HoldsCString guest address string)
    (inside : offset ≤ string.length) :
    ¬ address + .ofNat offset < address := by
  have bound := holds.inside
  have value : (UInt64.ofNat offset).toNat = offset := by
    rw [UInt64.toNat_ofNat']
    exact Nat.mod_eq_of_lt (by omega)
  rw [UInt64.lt_iff_toNat_lt, Word64.toNat_add_of_lt (by rw [value]; omega), value]
  omega

theorem splitAtNul_of_read (agrees : memory.HostAgrees)
    (holds : HoldsCString memory.guest address string)
    {span : List UInt8} (inside : offset ≤ string.length)
    (isRead : memory.tryReadCompat (address + .ofNat offset) count = some span) :
    splitAtNul span = ((string.drop offset).take count,
        decide ((string.drop offset).length < count)) := by
  obtain ⟨length, bytes⟩ := tryReadCompat_agrees agrees isRead
  rw [← length]
  apply splitAtNul_eq
  · exact fun member => holds.noNul (List.mem_of_mem_drop member)
  · intro index inSpan inString
    rw [List.length_drop] at inString
    have isByte := holds.drop (show offset + index ≤ string.length by omega)
    have present : index < (string.drop offset ++ [0]).length := by
      rw [List.length_append, List.length_drop, List.length_singleton]
      omega
    rw [List.getElem?_eq_getElem present] at isByte ⊢
    exact bytes index (length ▸ inSpan) _ isByte

theorem tryReadCompat_one (holds : HoldsCString memory.guest address string)
    (inside : offset ≤ string.length) :
    ∃ one, memory.tryReadCompat (address + .ofNat offset) 1 = some [one] := by
  have isByte := holds.bytes offset inside
  have present : offset < (string ++ [0]).length := by
    rw [List.length_append, List.length_singleton]
    omega
  rw [List.getElem?_eq_getElem present] at isByte
  refine ⟨(string ++ [0])[offset], ?_⟩
  unfold ReadableMemory.tryReadCompat
  rw [Addressed.readBytes, isByte, Addressed.readBytes]

theorem take_append_drop_take (list : List UInt8) (first count : ℕ) :
    list.take first ++ (list.drop first).take count = list.take (first + count) :=
  List.take_add.symm

theorem readChunks_eq (agrees : memory.HostAgrees)
    (holds : HoldsCString memory.guest address string) {limit : ℕ}
    {written : List UInt8} (isWritten : written = string.take offset)
    (inside : offset ≤ string.length) (below : offset ≤ limit) :
    readChunks memory address limit offset written = some (string.take limit) := by
  fun_induction readChunks memory address limit offset written with
  | case1 offset written more current wraps => exact absurd wraps (holds.current inside)
  | case2 offset written more current noWrap remaining span isRead split ends =>
    have isSplit := splitAtNul_of_read agrees holds inside isRead
    simp only [split, isSplit, decide_eq_true_eq, List.length_drop] at ends ⊢
    rw [isWritten, take_append_drop_take, List.take_of_length_le (by omega),
      List.take_of_length_le (by omega)]
  | case3 offset written more current noWrap remaining span isRead split goesOn ih =>
    have isSplit := splitAtNul_of_read agrees holds inside isRead
    simp only [split, isSplit, decide_eq_true_eq, List.length_drop] at goesOn ih ⊢
    apply ih
    · rw [isWritten, take_append_drop_take]
    · omega
    · omega
  | case4 offset written more current noWrap remaining noChunk isRead =>
    have isSplit := splitAtNul_of_read agrees holds inside isRead
    have ends := congrArg Prod.snd isSplit
    simp only [splitAtNul, List.length_drop] at ends
    have short := of_decide_eq_true ends.symm
    rw [isWritten, List.take_of_length_le (by omega), List.take_of_length_le (by omega)]
  | case5 offset written more current noWrap remaining noChunk one isRead nonzero ih =>
    have isSplit := splitAtNul_of_read agrees holds inside isRead
    have copied : splitAtNul [one] = ([one], false) := by
      simp [splitAtNul, nonzero]
    rw [copied, Prod.mk.injEq] at isSplit
    have notEnd := of_decide_eq_false isSplit.2.symm
    rw [List.length_drop] at notEnd
    apply ih
    · rw [isWritten, isSplit.1, take_append_drop_take]
    · omega
    · omega
  | case6 offset written more current noWrap remaining noChunk notOne =>
    obtain ⟨one, isOne⟩ := tryReadCompat_one holds inside
    exact absurd isOne (notOne one)
  | case7 offset written noMore =>
    obtain rfl : offset = limit := by omega
    rw [isWritten]

theorem tryReadBytesUntilNull_eq (agrees : memory.HostAgrees)
    (holds : HoldsCString memory.guest address string) (maxLength hardLimit : ℕ) :
    tryReadBytesUntilNull memory address maxLength hardLimit =
      some (string.take (min maxLength hardLimit)) := by
  unfold tryReadBytesUntilNull
  dsimp only
  rw [if_neg holds.notNull]
  generalize min maxLength hardLimit = limit
  split
  · rename_i noLimit
    rw [noLimit, List.take_zero]
  · have atMost : min limit (min 256 (pageRemaining address)) ≤ limit := by omega
    generalize min limit (min 256 (pageRemaining address)) = firstReadLength at atMost ⊢
    split
    · rename_i firstSpan isRead
      have atStart : memory.tryReadCompat (address + .ofNat 0) firstReadLength =
          some firstSpan := by
        rw [Addressed.add_ofNat_zero]
        exact isRead
      have isSplit := splitAtNul_of_read agrees holds (Nat.zero_le _) atStart
      have length := (tryReadCompat_agrees agrees isRead).1
      rw [List.drop_zero] at isSplit
      simp only [isSplit, decide_eq_true_eq]
      split
      · rw [List.take_of_length_le (by omega), List.take_of_length_le (by omega)]
      · rename_i goesOn
        have copied := congrArg Prod.fst isSplit
        have whole := congrArg Prod.snd isSplit
        simp only [splitAtNul, decide_eq_decide] at copied whole
        have isWritten : firstSpan = string.take firstReadLength := by
          rw [← copied]
          symm
          apply List.IsPrefix.eq_of_length (List.takeWhile_prefix _)
          have isPrefix : firstSpan.takeWhile (fun byte => decide (byte ≠ 0)) <+: _ :=
            List.takeWhile_prefix _
          have shorter := isPrefix.length_le
          omega
        exact readChunks_eq agrees holds isWritten (by omega) atMost
    · exact readChunks_eq agrees holds rfl (Nat.zero_le _) (Nat.zero_le _)

theorem tryReadCString_eq (agrees : memory.HostAgrees)
    (holds : HoldsCString memory.guest address string) :
    memory.tryReadCString address = some (string.take stringLimit) :=
  tryReadBytesUntilNull_eq agrees holds stringLimit stringLimit

end SharpEmu.Printf
