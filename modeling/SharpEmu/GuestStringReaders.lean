import SharpEmu.GuestCStrings
import SharpEmu.TerminatedReads

/-!
# Chunked readers of guest strings

Guest memory is readable page by page.  Strings of bytes and of 16-bit units are
read in chunks that end with a page, instead of unit by unit.  The byte reader
cannot be told from a reader of single bytes.  The wide readers can: they never
read a unit that lies across a page boundary.
-/

namespace SharpEmu.GuestStrings

open Addressed (Memory readBytes)
open Printf (ReadableMemory maxChunkSize pageRemaining splitAtNul readChunks
  tryReadBytesUntilNull pageRemaining_pos)
open TerminatedReads

/-- A memory whose pages are readable or not, with the bytes it would give. -/
structure PagedMemory where
  readable : ℕ → Bool
  byte : UInt64 → UInt8

namespace PagedMemory

variable (memory : PagedMemory)

def bytes : Memory := fun address =>
  if memory.readable (address.toNat / maxChunkSize) then
    some (memory.byte address)
  else none

/-- The memory as `TryReadCompat` reads it: whether the guest's tables or the
host make a page readable is all one. -/
def compat : ReadableMemory where
  guest := memory.bytes
  tryReadHostMemory _ _ := none

/-- The byte at an offset from an address; there is none past the last
address. -/
def byteAt (address : UInt64) (offset : ℕ) : Option UInt8 :=
  if address.toNat + offset < 2 ^ 64 then memory.bytes (address + .ofNat offset)
  else none

variable {memory}

variable {offset : ℕ}

theorem add_offset_lt_iff {address : UInt64} (small : offset < 2 ^ 64) :
    address + .ofNat offset < address ↔ 2 ^ 64 ≤ address.toNat + offset := by
  have value : (UInt64.ofNat offset).toNat = offset := by
    rw [UInt64.toNat_ofNat']
    exact Nat.mod_eq_of_lt small
  have bounded := address.toNat_lt
  rw [UInt64.lt_iff_toNat_lt, UInt64.toNat_add, value]
  omega

theorem byteAt_of_lt {address : UInt64} (fits : address.toNat + offset < 2 ^ 64) :
    memory.byteAt address offset = memory.bytes (address + .ofNat offset) :=
  if_pos fits

variable {current : UInt64}

theorem isSome_bytes_inPage (inPage : offset < pageRemaining current) :
    (memory.bytes (current + .ofNat offset)).isSome = (memory.bytes current).isSome := by
  have bounded := current.toNat_lt
  unfold pageRemaining maxChunkSize at inPage
  unfold bytes maxChunkSize
  rw [Word64.toNat_add_ofNat _ _ (by omega)]
  have samePage : (current.toNat + offset) / 4096 = current.toNat / 4096 := by
    omega
  rw [samePage]
  split <;> rfl

theorem tryReadCompat_eq (current : UInt64) (count : ℕ) :
    memory.compat.tryReadCompat current count = readBytes memory.bytes current count := by
  unfold ReadableMemory.tryReadCompat
  split
  · rename_i found
    exact found.symm
  · rename_i notFound
    exact notFound.symm

variable {count : ℕ}

theorem tryReadCompat_none_iff (positive : 0 < count) (inPage : count ≤ pageRemaining current) :
    memory.compat.tryReadCompat current count = none ↔ memory.bytes current = none := by
  rw [tryReadCompat_eq, ← Option.not_isSome_iff_eq_none,
    ← Option.not_isSome_iff_eq_none, Addressed.isSome_readBytes_iff, not_iff_not]
  constructor
  · intro allReadable
    have first := allReadable 0 positive
    rwa [Addressed.add_ofNat_zero] at first
  · intro firstReadable offset inside
    rw [isSome_bytes_inPage (Nat.lt_of_lt_of_le inside inPage)]
    exact firstReadable

theorem getElem?_tryReadCompat {span : List UInt8}
    (isRead : memory.compat.tryReadCompat current count = some span) :
    span.length = count ∧ ∀ index < count,
      memory.bytes (current + .ofNat index) = span[index]? := by
  rw [tryReadCompat_eq] at isRead
  exact ⟨Addressed.length_of_readBytes isRead,
    fun index inside => Printf.getElem?_readBytes isRead inside⟩

end PagedMemory

/-! ## Strings of bytes -/

variable (memory : PagedMemory)

def isNulByte (byte : UInt8) : Bool := byte = 0

def readBytewise (address : UInt64) (limit : ℕ) : Option (List UInt8 × Bool) :=
  readUntil isNulByte (memory.byteAt address) limit 0

theorem splitAtNul_eq_splitAtEnd (chunk : List UInt8) :
    splitAtNul chunk = splitAtEnd isNulByte chunk := by
  unfold splitAtNul splitAtEnd
  have sameTest : (fun byte : UInt8 => decide (byte ≠ 0)) =
      fun byte => !isNulByte byte := by
    ext byte
    simp [isNulByte]
  simp only [sameTest]
  congr 1
  rw [Bool.eq_iff_iff, decide_eq_true_iff]
  exact takeWhile_length_lt_iff chunk

variable {memory} {address : UInt64}

variable {offset count : ℕ}

theorem byteAt_of_chunk {span : List UInt8} (fits : address.toNat + offset < 2 ^ 64)
    (inPage : count ≤ pageRemaining (address + .ofNat offset))
    (isRead : memory.compat.tryReadCompat (address + .ofNat offset) count = some span) :
    span.length = count ∧ ∀ index < span.length,
      memory.byteAt address (offset + index) = span[index]? := by
  obtain ⟨length, known⟩ := PagedMemory.getElem?_tryReadCompat isRead
  refine ⟨length, fun index inside => ?_⟩
  have current := Word64.toNat_add_ofNat _ _ fits
  have bounded := (address + UInt64.ofNat offset).toNat_lt
  unfold pageRemaining maxChunkSize at inPage
  rw [PagedMemory.byteAt_of_lt (by omega), ← known index (by omega),
    UInt64.add_assoc, UInt64.ofNat_add]

theorem byteAt_of_unread (fits : address.toNat + offset < 2 ^ 64) (positive : 0 < count)
    (inPage : count ≤ pageRemaining (address + .ofNat offset))
    (unread : memory.compat.tryReadCompat (address + .ofNat offset) count = none) :
    memory.byteAt address offset = none := by
  rw [PagedMemory.byteAt_of_lt fits]
  exact (PagedMemory.tryReadCompat_none_iff positive inPage).mp unread

theorem tryReadCompat_one_of_unread {current : UInt64}
    (positive : 0 < count) (inPage : count ≤ pageRemaining current)
    (unread : memory.compat.tryReadCompat current count = none) :
    memory.compat.tryReadCompat current 1 = none :=
  (PagedMemory.tryReadCompat_none_iff Nat.one_pos (pageRemaining_pos current)).mpr
      ((PagedMemory.tryReadCompat_none_iff positive inPage).mp unread)

variable {limit : ℕ}

theorem remaining_pos {inPage : ℕ} (more : offset < limit) (positive : 0 < inPage) :
    0 < min (limit - offset) (min (min maxChunkSize limit) inPage) := by
  have chunk : maxChunkSize = 4096 := rfl
  omega

theorem readChunks_eq_readUntil {written : List UInt8}
    (small : limit < 2 ^ 64) (inside : offset ≤ limit) :
    readChunks memory.compat address limit offset written =
      (readUntil isNulByte (memory.byteAt address) (limit - offset) offset).map
        fun answer => written ++ answer.1 := by
  fun_induction readChunks memory.compat address limit offset written with
  | case1 offset written more current wraps =>
    have beyond := (PagedMemory.add_offset_lt_iff (by omega)).mp wraps
    obtain ⟨count, isSucc⟩ :=
      Nat.exists_eq_succ_of_ne_zero (show limit - offset ≠ 0 by omega)
    have unreadable : memory.byteAt address offset = none :=
      if_neg (by omega)
    rw [isSucc, readUntil_of_unreadable unreadable]
    rfl
  | case2 offset written more current noWrap remaining span isRead split ends =>
    have fits := (PagedMemory.add_offset_lt_iff (by omega)).not.mp noWrap
    have inPage : remaining ≤ pageRemaining current := by omega
    obtain ⟨length, known⟩ := byteAt_of_chunk (by omega) inPage isRead
    have isSum : limit - offset = span.length + (limit - (offset + remaining)) := by
      omega
    simp only [split, splitAtNul_eq_splitAtEnd] at ends ⊢
    rw [isSum, readUntil_chunk known, if_pos ends]
    rfl
  | case3 offset written more current noWrap remaining span isRead split goesOn
      ih =>
      have fits := (PagedMemory.add_offset_lt_iff (by omega)).not.mp noWrap
      have inPage : remaining ≤ pageRemaining current := by omega
      obtain ⟨length, known⟩ := byteAt_of_chunk (by omega) inPage isRead
      have isSum : limit - offset = span.length + (limit - (offset + remaining)) := by
        omega
      simp only [split, splitAtNul_eq_splitAtEnd] at goesOn ih ⊢
      rw [ih (by omega), isSum, readUntil_chunk known,
        if_neg goesOn, splitAtEnd_of_not_any goesOn, length, Option.map_map]
      congr 1
      ext1 answer
      exact List.append_assoc _ _ _
  | case4 offset written more current noWrap remaining noChunk isRead =>
    have inPage : remaining ≤ pageRemaining current := by omega
    have unread := tryReadCompat_one_of_unread
      (remaining_pos more (pageRemaining_pos current)) inPage noChunk
    rw [isRead] at unread
    cases unread
  | case5 offset written more current noWrap remaining noChunk one isRead nonzero
      ih =>
      have inPage : remaining ≤ pageRemaining current := by omega
      have unread := tryReadCompat_one_of_unread
        (remaining_pos more (pageRemaining_pos current)) inPage noChunk
      rw [isRead] at unread
      cases unread
  | case6 offset written more current noWrap remaining noChunk notOne =>
    have fits := (PagedMemory.add_offset_lt_iff (by omega)).not.mp noWrap
    obtain ⟨count, isSucc⟩ :=
      Nat.exists_eq_succ_of_ne_zero (show limit - offset ≠ 0 by omega)
    have inPage : remaining ≤ pageRemaining current := by omega
    have unreadable := byteAt_of_unread (by omega)
      (remaining_pos more (pageRemaining_pos current)) inPage noChunk
    rw [isSucc, readUntil_of_unreadable unreadable]
    rfl
  | case7 offset written noMore =>
    obtain rfl : offset = limit := by omega
    rw [Nat.sub_self, readUntil]
    simp

theorem tryReadBytesUntilNull_eq_readBytewise (address : UInt64)
    {maxLength hardLimit : ℕ} (small : min maxLength hardLimit < 2 ^ 64) :
    tryReadBytesUntilNull memory.compat address maxLength hardLimit =
      if address = 0 then none
      else (readBytewise memory address (min maxLength hardLimit)).map
        Prod.fst := by
  unfold tryReadBytesUntilNull readBytewise
  dsimp only
  generalize min maxLength hardLimit = limit at small ⊢
  split
  · rfl
  split
  · rename_i noLimit
    rw [noLimit]
    rfl
  have atStart : address + UInt64.ofNat 0 = address :=
    Addressed.add_ofNat_zero address
  have inPage : min limit (min 256 (pageRemaining address)) ≤
      pageRemaining address := by
    omega
  have atMost : min limit (min 256 (pageRemaining address)) ≤ limit := by omega
  generalize min limit (min 256 (pageRemaining address)) = firstReadLength at inPage atMost ⊢
  split
  · rename_i firstSpan isRead
    rw [← atStart] at isRead inPage
    obtain ⟨length, known⟩ := byteAt_of_chunk address.toNat_lt inPage isRead
    have isSum : limit = firstSpan.length + (limit - firstReadLength) := by
      omega
    rw [splitAtNul_eq_splitAtEnd]
    have whole : readUntil isNulByte (memory.byteAt address)
        (firstSpan.length + (limit - firstReadLength)) 0 = _ :=
      readUntil_chunk known
    rw [← isSum, Nat.zero_add] at whole
    rw [whole]
    split
    · rfl
    · rw [readChunks_eq_readUntil small atMost, Option.map_map, length]
      rfl
  · rw [readChunks_eq_readUntil small (Nat.zero_le _)]
    rfl

/-! ## Strings of 16-bit units -/

def wideCharSize : ℕ := 2

def unitOf (low high : UInt8) : UInt16 :=
  UInt16.ofNat (low.toNat + 256 * high.toNat)

def unitsOf : List UInt8 → List UInt16
  | low :: high :: rest => unitOf low high :: unitsOf rest
  | _ => []

def isNulUnit (unit : UInt16) : Bool := unit = 0

/-- The loop of the wide readers: chunks of whole units that end with a page,
up to the first zero unit or the limit. -/
def readWideChunks (memory : ReadableMemory) (address : UInt64)
    (limit bufferLength index : ℕ) (units : List UInt16) :
    Option (List UInt16 × Bool) :=
  if index < limit then
    let unitAddress := address + .ofNat (index * wideCharSize)
    if unitAddress < address then none
    else
      let readUnits := min bufferLength (min (pageRemaining unitAddress)
        ((limit - index) * wideCharSize)) / wideCharSize
      if readUnits = 0 then none
      else
        match memory.tryReadCompat unitAddress (readUnits * wideCharSize) with
        | none => none
        | some bytes =>
            let split := splitAtEnd isNulUnit (unitsOf bytes)
            if split.2 then some (units ++ split.1, true)
            else
              readWideChunks memory address limit bufferLength
                (index + readUnits) (units ++ split.1)
  else some (units, false)
termination_by limit - index
decreasing_by
  rename_i below _ nonempty _
  exact Nat.sub_lt_sub_left below (Nat.lt_add_of_pos_right (Nat.pos_of_ne_zero nonempty))

def maxWideLength : ℕ := 1048576

def tryReadWideCStringCore (memory : ReadableMemory) (address : UInt64)
    (maxLength : ℕ) : Option (List UInt16 × Bool) :=
  if address = 0 then none
  else
    let limit := min maxLength maxWideLength
    readWideChunks memory address limit
      (min maxChunkSize (max wideCharSize (limit * wideCharSize))) 0 []

def intMaxValue : ℕ := 2147483647

/-- What `wcsncpy` does before it writes: it refuses the count, faults, or has
a payload for the destination. -/
inductive WcsncpyAnswer
  | invalidArgument
  | memoryFault
  | payload (units : List UInt16)
deriving DecidableEq, Repr

/-- The payload is zero-initialised, which pads short strings. -/
def padded (count : ℕ) (units : List UInt16) : List UInt16 :=
  units ++ List.replicate (count - units.length) 0

def wcsncpyCore (memory : ReadableMemory) (source : UInt64) (countValue : ℕ) :
    WcsncpyAnswer :=
  let count := min countValue intMaxValue
  if count > intMaxValue / wideCharSize then .invalidArgument
  else if count = 0 then .payload []
  else
    match readWideChunks memory source count
        (min maxChunkSize (count * wideCharSize)) 0 [] with
    | none => .memoryFault
    | some (units, _) => .payload (padded count units)

/-! ## Reading unit by unit -/

def PagedMemory.unitAt (memory : PagedMemory) (address : UInt64) (index : ℕ) : Option UInt16 :=
  match memory.byteAt address (2 * index),
    memory.byteAt address (2 * index + 1) with
  | some low, some high => some (unitOf low high)
  | _, _ => none

variable (memory) in
def readUnitwise (address : UInt64) (limit : ℕ) : Option (List UInt16 × Bool) :=
  readUntil isNulUnit (memory.unitAt address) limit 0

variable (memory) in
/-- `TryReadWideCStringCore`, one unit at a time. -/
def tryReadWideCStringUnitwise (address : UInt64) (maxLength : ℕ) : Option (List UInt16 × Bool) :=
  if address = 0 then none
  else readUnitwise memory address (min maxLength maxWideLength)

variable (memory) in
def wcsncpyUnitwise (source : UInt64) (countValue : ℕ) : WcsncpyAnswer :=
  let count := min countValue intMaxValue
  if count > intMaxValue / wideCharSize then .invalidArgument
  else
    match readUnitwise memory source count with
    | none => .memoryFault
    | some (units, _) => .payload (padded count units)

/-- The unit's first byte is the last one of a page. -/
def Straddles (address : UInt64) (index : ℕ) : Prop :=
  (address.toNat + 2 * index) % maxChunkSize = maxChunkSize - 1

instance (address : UInt64) (index : ℕ) : Decidable (Straddles address index) :=
  inferInstanceAs (Decidable (_ = _))

variable (memory) in
/-- The string can be read, and one of the units to be read lies across a page
boundary. -/
def NeedsStraddlingUnit (address : UInt64) (limit : ℕ) : Prop :=
  ∃ answer, readUnitwise memory address limit = some answer ∧
    ∃ index < unitsRead answer, Straddles address index

variable {bytes : List UInt8}

theorem length_unitsOf (count : ℕ) (length : bytes.length = count * wideCharSize) :
    (unitsOf bytes).length = count := by
  induction count generalizing bytes with
  | zero =>
    rw [Nat.zero_mul] at length
    rw [List.eq_nil_of_length_eq_zero length]
    rfl
  | succ count ih =>
    unfold wideCharSize at *
    match bytes, length with
    | low :: high :: rest, length =>
      simp only [List.length_cons] at length
      rw [unitsOf, List.length_cons, ih (by omega)]
    | [_], length => simp at length; omega
    | [], length => simp at length

theorem getElem?_unitsOf (bytes : List UInt8) (index : ℕ) : (unitsOf bytes)[index]? =
      match bytes[2 * index]?, bytes[2 * index + 1]? with
      | some low, some high => some (unitOf low high)
      | _, _ => none := by
  induction index generalizing bytes with
  | zero =>
    match bytes with
    | [] => rfl
    | [_] => rfl
    | _ :: _ :: _ => rfl
  | succ index ih =>
    match bytes with
    | [] => rfl
    | [_] => simp [unitsOf]
    | _ :: _ :: rest =>
      rw [unitsOf, List.getElem?_cons_succ, ih rest]
      rfl

variable {index : ℕ}

theorem unitAt_of_chunk (fits : address.toNat + index * wideCharSize < 2 ^ 64)
    (inPage : count * wideCharSize ≤ pageRemaining (address + .ofNat (index * wideCharSize)))
    (isRead : memory.compat.tryReadCompat
      (address + .ofNat (index * wideCharSize)) (count * wideCharSize) = some bytes) :
    (unitsOf bytes).length = count ∧ ∀ offset < (unitsOf bytes).length,
      memory.unitAt address (index + offset) = (unitsOf bytes)[offset]? := by
  obtain ⟨length, known⟩ := byteAt_of_chunk fits inPage isRead
  have unitCount := length_unitsOf count length
  refine ⟨unitCount, fun offset inside => ?_⟩
  unfold wideCharSize at *
  have low := known (2 * offset) (by omega)
  have high := known (2 * offset + 1) (by omega)
  have lowPlace : 2 * (index + offset) = index * 2 + 2 * offset := by omega
  have highPlace : 2 * (index + offset) + 1 = index * 2 + (2 * offset + 1) := by
    omega
  rw [PagedMemory.unitAt, getElem?_unitsOf, lowPlace, low]
  rw [Nat.add_assoc, high]

theorem not_straddles_of_inPage (fits : address.toNat + index * wideCharSize < 2 ^ 64)
    (inPage : count * wideCharSize ≤ pageRemaining (address + .ofNat (index * wideCharSize)))
    (inside : offset < count) : ¬ Straddles address (index + offset) := by
  have current := Word64.toNat_add_ofNat _ _ fits
  unfold pageRemaining at inPage
  rw [current] at inPage
  unfold Straddles
  unfold wideCharSize maxChunkSize at *
  omega

variable {bufferLength : ℕ}

theorem straddles_of_no_units {remaining : ℕ} (fits : address.toNat + index * wideCharSize < 2 ^ 64)
    (roomy : wideCharSize ≤ bufferLength) (more : 0 < remaining)
    (noUnits : min bufferLength (min (pageRemaining (address + .ofNat (index * wideCharSize)))
        (remaining * wideCharSize)) / wideCharSize = 0) :
    Straddles address index := by
  have current := Word64.toNat_add_ofNat _ _ fits
  have positive := pageRemaining_pos (address + .ofNat (index * wideCharSize))
  unfold pageRemaining at positive noUnits
  rw [current] at positive noUnits
  unfold Straddles
  unfold wideCharSize maxChunkSize at *
  omega

theorem wide_fits (more : index < limit) (small : limit * wideCharSize < 2 ^ 64)
    (noWrap : ¬ address + .ofNat (index * wideCharSize) < address) :
    address.toNat + index * wideCharSize < 2 ^ 64 := by
  have below : index * wideCharSize < 2 ^ 64 :=
    Nat.lt_trans (Nat.mul_lt_mul_of_pos_right more Nat.two_pos) small
  exact not_le.mp ((PagedMemory.add_offset_lt_iff below).not.mp noWrap)

theorem readUnits_inPage (bufferLength inPage remaining : ℕ) :
    min bufferLength (min inPage remaining) / wideCharSize * wideCharSize ≤
      inPage :=
  Nat.le_trans (Nat.div_mul_le_self _ _) (Nat.le_trans (Nat.min_le_right _ _) (Nat.min_le_left _ _))

theorem unitAt_of_noByte (noByte : memory.byteAt address (index * wideCharSize) = none) :
    memory.unitAt address index = none := by
  rw [PagedMemory.unitAt, Nat.mul_comm 2 index]
  change memory.byteAt address (index * 2) = none at noByte
  rw [noByte]

theorem unitAt_beyond (beyond : 2 ^ 64 ≤ address.toNat + index * wideCharSize) :
    memory.unitAt address index = none :=
  unitAt_of_noByte (if_neg (not_lt.mpr beyond))

theorem readUnits_le (bufferLength inPage remaining : ℕ) :
    min bufferLength (min inPage (remaining * wideCharSize)) / wideCharSize ≤
      remaining := by
  unfold wideCharSize
  omega

theorem exists_straddles_append {chunk : List UInt16}
    (fits : address.toNat + index * wideCharSize < 2 ^ 64)
    (inPage : count * wideCharSize ≤ pageRemaining (address + .ofNat (index * wideCharSize)))
    (length : chunk.length = count) (answer : List UInt16 × Bool) :
    (∃ offset < unitsRead (chunk ++ answer.1, answer.2), Straddles address (index + offset)) ↔
      ∃ offset < unitsRead answer, Straddles address (index + count + offset) := by
  have isSum : unitsRead (chunk ++ answer.1, answer.2) = count + unitsRead answer := by
    rw [unitsRead, unitsRead, List.length_append, length, Nat.add_assoc]
  rw [isSum]
  constructor
  · rintro ⟨offset, looked, straddles⟩
    have behind : count ≤ offset := by
      by_contra inChunk
      exact not_straddles_of_inPage fits inPage (not_le.mp inChunk) straddles
    refine ⟨offset - count, by omega, ?_⟩
    have place : index + count + (offset - count) = index + offset := by omega
    rwa [place]
  · rintro ⟨offset, looked, straddles⟩
    exact ⟨count + offset, by omega, by rwa [← Nat.add_assoc]⟩

theorem readWideChunks_eq {units : List UInt16} (small : limit * wideCharSize < 2 ^ 64)
    (roomy : wideCharSize ≤ bufferLength) (inside : index ≤ limit) :
    readWideChunks memory.compat address limit bufferLength index units =
      (readUntil isNulUnit (memory.unitAt address) (limit - index) index).bind
        fun answer =>
          if ∃ offset < unitsRead answer, Straddles address (index + offset)
          then none
          else some (units ++ answer.1, answer.2) := by
  fun_induction readWideChunks memory.compat address limit bufferLength index units with
  | case1 index units more unitAddress wraps =>
    have beyond := (PagedMemory.add_offset_lt_iff (by unfold wideCharSize at *; omega)).mp wraps
    rw [readUntil_past_end more (unitAt_beyond beyond)]
    rfl
  | case2 index units more unitAddress noWrap readUnits noUnits =>
    have fits := wide_fits more small noWrap
    have straddles := straddles_of_no_units fits roomy (Nat.sub_pos_of_lt more) noUnits
    obtain ⟨count, isSucc⟩ :=
      Nat.exists_eq_succ_of_ne_zero (Nat.sub_pos_of_lt more).ne'
    rw [isSucc]
    cases isRead : readUntil isNulUnit (memory.unitAt address) (count + 1) index with
    | none => rfl
    | some answer =>
      have looked := unitsRead_pos isRead
      rw [Option.bind_some, if_pos ⟨0, looked, straddles⟩]
  | case3 index units more unitAddress noWrap readUnits someUnits unread =>
    have fits := wide_fits more small noWrap
    have inPage : readUnits * wideCharSize ≤ pageRemaining unitAddress :=
      readUnits_inPage _ _ _
    have positive : 0 < readUnits * wideCharSize :=
      Nat.mul_pos (Nat.pos_of_ne_zero someUnits) Nat.two_pos
    have noByte := byteAt_of_unread fits positive inPage unread
    rw [readUntil_past_end more (unitAt_of_noByte noByte)]
    rfl
  | case4 index units more unitAddress noWrap readUnits someUnits bytes isRead
      split ends =>
      have fits := wide_fits more small noWrap
      have inPage : readUnits * wideCharSize ≤ pageRemaining unitAddress :=
        readUnits_inPage _ _ _
      obtain ⟨length, known⟩ := unitAt_of_chunk fits inPage isRead
      have isSum : limit - index = (unitsOf bytes).length + (limit - (index + readUnits)) := by
        have atMost : readUnits ≤ limit - index := readUnits_le _ _ _
        omega
      rw [isSum, readUntil_chunk known, if_pos ends, Option.bind_some, if_neg]
      rintro ⟨offset, looked, straddles⟩
      have inChunk := Nat.lt_of_lt_of_le looked (unitsRead_splitAtEnd_le ends)
      rw [length] at inChunk
      exact not_straddles_of_inPage fits inPage inChunk straddles
  | case5 index units more unitAddress noWrap readUnits someUnits bytes isRead
      split goesOn ih =>
      have fits := wide_fits more small noWrap
      have inPage : readUnits * wideCharSize ≤ pageRemaining unitAddress :=
        readUnits_inPage _ _ _
      obtain ⟨length, known⟩ := unitAt_of_chunk fits inPage isRead
      have atMost : readUnits ≤ limit - index := readUnits_le _ _ _
      have isSum : limit - index = (unitsOf bytes).length + (limit - (index + readUnits)) := by
        omega
      have inLimit : index + readUnits ≤ limit := by omega
      have isChunk : split.1 = unitsOf bytes := splitAtEnd_of_not_any goesOn
      rw [ih inLimit, isSum, readUntil_chunk known, if_neg goesOn, length, isChunk]
      cases readUntil isNulUnit (memory.unitAt address)
          (limit - (index + readUnits)) (index + readUnits) with
      | none => rfl
      | some answer =>
        have shifted := exists_straddles_append fits inPage length answer
        simp only [Option.bind_some, Option.map_some, shifted, List.append_assoc]
  | case6 index units noMore =>
    obtain rfl : index = limit := by omega
    rw [Nat.sub_self, readUntil]
    simp [unitsRead]

/-! ## Where the readers agree -/

theorem not_needsStraddlingUnit_of_even (even : 2 ∣ address.toNat) :
    ¬ NeedsStraddlingUnit memory address limit := by
  rintro ⟨answer, _, index, _, straddles⟩
  unfold Straddles maxChunkSize at straddles
  omega

variable (memory address) in
theorem readWideChunks_zero_eq (small : limit * wideCharSize < 2 ^ 64)
    (roomy : wideCharSize ≤ bufferLength) :
    (readWideChunks memory.compat address limit bufferLength 0 [] =
        readUnitwise memory address limit ↔
      ¬ NeedsStraddlingUnit memory address limit) ∧
    (NeedsStraddlingUnit memory address limit →
      readWideChunks memory.compat address limit bufferLength 0 [] = none) := by
  have whole : readWideChunks memory.compat address limit bufferLength 0 [] =
      _ := readWideChunks_eq small roomy (Nat.zero_le limit)
  simp only [Nat.sub_zero, Nat.zero_add, List.nil_append] at whole
  unfold NeedsStraddlingUnit
  change _ = (readUnitwise memory address limit).bind _ at whole
  rw [whole]
  cases readUnitwise memory address limit with
  | none => simp
  | some answer =>
    by_cases straddles : ∃ index < unitsRead answer, Straddles address index
    · simp [straddles]
    · simp [straddles]

theorem tryReadWideCStringCore_eq_iff (maxLength : ℕ) :
    tryReadWideCStringCore memory.compat address maxLength =
        tryReadWideCStringUnitwise memory address maxLength ↔
      ¬ NeedsStraddlingUnit memory address (min maxLength maxWideLength) := by
  unfold tryReadWideCStringCore tryReadWideCStringUnitwise
  by_cases isNull : address = 0
  · have even : 2 ∣ address.toNat := by
      rw [isNull]
      decide
    simp only [if_pos isNull, true_iff]
    exact not_needsStraddlingUnit_of_even even
  · have small : min maxLength maxWideLength * wideCharSize < 2 ^ 64 := by
      unfold maxWideLength wideCharSize
      omega
    have roomy : wideCharSize ≤ min maxChunkSize
        (max wideCharSize (min maxLength maxWideLength * wideCharSize)) := by
      unfold maxChunkSize wideCharSize
      omega
    simp only [if_neg isNull]
    exact (readWideChunks_zero_eq memory address small roomy).1

def AcceptsCount (countValue : ℕ) : Prop :=
  min countValue intMaxValue ≤ intMaxValue / wideCharSize

theorem wcsncpyCore_eq_iff (countValue : ℕ) : wcsncpyCore memory.compat address countValue =
        wcsncpyUnitwise memory address countValue ↔
      ¬ (AcceptsCount countValue ∧
        NeedsStraddlingUnit memory address (min countValue intMaxValue)) := by
  unfold wcsncpyCore wcsncpyUnitwise AcceptsCount
  generalize min countValue intMaxValue = count
  by_cases refused : count > intMaxValue / wideCharSize
  · simp only [if_pos refused, true_iff]
    exact fun needs => absurd needs.1 (not_le.mpr refused)
  have accepted := not_lt.mp refused
  simp only [if_neg refused, accepted, true_and]
  by_cases empty : count = 0
  · rw [empty]
    simp only [if_true]
    refine iff_of_true rfl ?_
    rintro ⟨answer, isRead, index, looked, _⟩
    cases isRead
    exact absurd looked (Nat.not_lt_zero _)
  · have small : count * wideCharSize < 2 ^ 64 := by
      unfold intMaxValue wideCharSize at *
      omega
    have roomy : wideCharSize ≤ min maxChunkSize (count * wideCharSize) := by
      unfold maxChunkSize wideCharSize
      omega
    obtain ⟨agrees, faults⟩ :=
      readWideChunks_zero_eq memory address small roomy
    simp only [if_neg empty]
    by_cases needs : NeedsStraddlingUnit memory address count
    · rw [faults needs]
      refine iff_of_false ?_ (not_not.mpr needs)
      obtain ⟨answer, isRead, _⟩ := needs
      rw [isRead]
      rintro ⟨⟩
    · rw [agrees.mpr needs]
      exact iff_of_true rfl needs

/-- The chunked byte reader answers as the bytewise one; the wide readers
answer as the unitwise ones exactly when the string cannot be read or none of
its units lies across a page boundary. -/
theorem chunkedReaders_agree_iff (memory : PagedMemory) (address : UInt64)
    (maxLength : UInt64) (hardLimit : ℕ) :
    (tryReadBytesUntilNull memory.compat address maxLength.toNat hardLimit =
      if address = 0 then none
      else (readBytewise memory address (min maxLength.toNat hardLimit)).map Prod.fst) ∧
    (tryReadWideCStringCore memory.compat address maxLength.toNat =
        tryReadWideCStringUnitwise memory address maxLength.toNat ↔
      ¬ NeedsStraddlingUnit memory address (min maxLength.toNat maxWideLength)) ∧
    (wcsncpyCore memory.compat address maxLength.toNat =
        wcsncpyUnitwise memory address maxLength.toNat ↔
      ¬ (AcceptsCount maxLength.toNat ∧ NeedsStraddlingUnit memory address
        (min maxLength.toNat intMaxValue))) := by
  have bounded := maxLength.toNat_lt
  exact ⟨tryReadBytesUntilNull_eq_readBytewise address (by omega),
    tryReadWideCStringCore_eq_iff _, wcsncpyCore_eq_iff _⟩

/-- A unit at the last byte of a readable page is not read, although the next
page is readable too. -/
theorem odd_string_stops_at_page_end : ¬ ∀ (memory : PagedMemory) (address maxLength : UInt64),
      tryReadWideCStringCore memory.compat address maxLength.toNat =
          tryReadWideCStringUnitwise memory address maxLength.toNat ∧
        wcsncpyCore memory.compat address maxLength.toNat =
          wcsncpyUnitwise memory address maxLength.toNat := by
  intro alwaysAgree
  have agree := (alwaysAgree ⟨fun _ => true, fun _ => 0x41⟩ 0x1FFF 1).1
  have chunked : tryReadWideCStringCore
      (PagedMemory.compat ⟨fun _ => true, fun _ => 0x41⟩) 0x1FFF 1 = none := by
    unfold tryReadWideCStringCore readWideChunks
    rfl
  have unitwise : tryReadWideCStringUnitwise
      ⟨fun _ => true, fun _ => 0x41⟩ 0x1FFF 1 = some ([0x4141], false) := by
    decide
  exact absurd (chunked.symm.trans (agree.trans unitwise)) (by decide)

end SharpEmu.GuestStrings
