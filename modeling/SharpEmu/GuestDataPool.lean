import SharpEmu.BucketDictionaries
import SharpEmu.FaultingPrograms
import SharpEmu.MachineWords
import SharpEmu.TransitionRuns
import Mathlib.Algebra.BigOperators.Group.List.Basic
import Mathlib.Data.Nat.Log

/-!
# The pool of guest data arrays

Draw snapshots rent byte arrays and the presenter returns them.  The pool keeps
returned arrays in buckets of powers of two, up to a number of bytes, and keeps
the set of arrays that are out.  A return takes the lock twice, so other calls
come between its two halves.
-/

namespace SharpEmu
namespace GuestDataPool

open Buckets

/-! ## The source -/

structure ByteArrayObject where
  reference : ℕ
  length : ℕ
deriving DecidableEq, Repr

inductive PoolError
  | argumentOutOfRange
  | overflow
  | outOfMemory
deriving DecidableEq, Repr

/-- The parameters that the constructor accepts. -/
structure Limits where
  maxArrayLength : Int32
  maxCachedBytes : UInt64
  maxArraysPerBucket : ℕ
  arraysHaveLength : 0 < maxArrayLength
  cachesBytes : maxCachedBytes ≠ 0
  cachesArrays : maxArraysPerBucket ≠ 0

def shared : Limits where
  maxArrayLength := 16 * 1024 * 1024
  maxCachedBytes := 256 * 1024 * 1024
  maxArraysPerBucket := 8
  arraysHaveLength := by decide
  cachesBytes := by decide
  cachesArrays := by decide

structure BoundedByteArrayPool where
  cachedByBucket : Dictionary ℕ ByteArrayObject
  leases : Finset ℕ
  cachedBytes : UInt64

def BoundedByteArrayPool.empty : BoundedByteArrayPool := ⟨∅, ∅, 0⟩

/-- `BitOperations.RoundUpToPowerOf2` below `2 ^ 31`. -/
def roundUpToPowerOf2 (value : ℕ) : ℕ := 2 ^ Nat.clog 2 value

def getAllocationLength (limits : Limits) (minimumLength : Int32) :
    Except PoolError ℕ :=
  if minimumLength ≤ 16 then .ok 16
  else if limits.maxArrayLength < minimumLength then
    .ok minimumLength.toInt.toNat
  else
    let rounded := roundUpToPowerOf2 minimumLength.toInt.toNat
    if rounded < 2 ^ 31 then .ok rounded else .error .overflow

def isBucketLength (length : ℕ) : Bool :=
  16 ≤ length && length &&& (length - 1) == 0

def takeCached (limits : Limits) (length : ℕ) (pool : BoundedByteArrayPool) :
    Option (ByteArrayObject × Dictionary ℕ ByteArrayObject) :=
  if (length : Int) ≤ limits.maxArrayLength.toInt then
    pop pool.cachedByBucket length
  else none

/-- A rent, with the object that `new byte[length]` gives (none when the runtime
has no memory for it). -/
def rent (limits : Limits) (minimumLength : Int32) (newObject : Option ℕ)
    (pool : BoundedByteArrayPool) :
    Except PoolError (ByteArrayObject × BoundedByteArrayPool) :=
  if minimumLength < 0 then .error .argumentOutOfRange
  else do
    let length ← getAllocationLength limits minimumLength
    match takeCached limits length pool, newObject with
    | some (array, buckets), _ =>
        return (array,
          { cachedByBucket := buckets
            leases := insert array.reference pool.leases
            cachedBytes := pool.cachedBytes - .ofNat array.length })
    | none, none => throw .outOfMemory
    | none, some reference =>
        return (⟨reference, length⟩, { pool with leases := insert reference pool.leases })

/-- The first half of a return; nothing when the array is not out. -/
def removeLease (array : ByteArrayObject) (pool : BoundedByteArrayPool) :
    Option BoundedByteArrayPool :=
  if array.reference ∈ pool.leases then
    some { pool with leases := pool.leases.erase array.reference }
  else none

/-- The arrays that the second half of a return drops. -/
def IsDropped (limits : Limits) (array : ByteArrayObject) (pool : BoundedByteArrayPool) : Prop :=
  limits.maxArrayLength.toInt < array.length ∨ isBucketLength array.length = false ∨
    limits.maxCachedBytes - min pool.cachedBytes limits.maxCachedBytes < .ofNat array.length

instance (limits : Limits) (array : ByteArrayObject)
    (pool : BoundedByteArrayPool) : Decidable (IsDropped limits array pool) :=
  inferInstanceAs (Decidable (_ ∨ _ ∨ _))

/-- The second half of a return. -/
def cacheArray (limits : Limits) (array : ByteArrayObject)
    (pool : BoundedByteArrayPool) : BoundedByteArrayPool :=
  if IsDropped limits array pool then pool
  else
    let stack := bucket pool.cachedByBucket array.length
    if limits.maxArraysPerBucket ≤ stack.length then
      { pool with
        cachedByBucket := pool.cachedByBucket.insert array.length stack }
    else
      { pool with
        cachedByBucket := push pool.cachedByBucket array.length array
        cachedBytes := pool.cachedBytes + .ofNat array.length }

def trim (pool : BoundedByteArrayPool) : BoundedByteArrayPool :=
  { pool with cachedByBucket := ∅, cachedBytes := 0 }

/-! ## Holders -/

/-- One rent: what was asked for and what was given. -/
structure Lease where
  ticket : ℕ
  requested : Int32
  array : ByteArrayObject
deriving DecidableEq

/-- The pool and the threads that use it: the objects made so far, the leases
given out, those that their holders have not returned, and the arrays that are
between the two halves of a return. -/
structure World where
  pool : BoundedByteArrayPool
  objects : ℕ
  issued : List Lease
  held : List Lease
  returning : List ByteArrayObject

def World.start : World := ⟨.empty, 0, [], [], []⟩

inductive Action
  | rent (minimumLength : Int32) (hasMemory : Bool)
  | beginReturn (lease : Lease)
  | finishReturn (array : ByteArrayObject)
  | trim

def World.rent (limits : Limits) (world : World) (minimumLength : Int32)
    (hasMemory : Bool) : World :=
  match GuestDataPool.rent limits minimumLength
      (if hasMemory then some world.objects else none) world.pool with
  | .error _ => world
  | .ok (array, pool) =>
      let lease := Lease.mk world.issued.length minimumLength array
      { world with
        pool := pool
        objects := world.objects + 1
        issued := lease :: world.issued
        held := lease :: world.held }

def World.beginReturn (world : World) (lease : Lease) : World :=
  let world := { world with held := world.held.erase lease }
  match removeLease lease.array world.pool with
  | none => world
  | some pool =>
      { world with pool := pool, returning := lease.array :: world.returning }

def World.finishReturn (limits : Limits) (world : World) (array : ByteArrayObject) : World :=
  { world with
    pool := cacheArray limits array world.pool
    returning := world.returning.erase array }

/-- Any lease that was ever given out may be returned, again and again. -/
inductive Step (limits : Limits) : World → Action → World → Prop
  | rent (world : World) (minimumLength : Int32) (hasMemory : Bool) :
      Step limits world (.rent minimumLength hasMemory)
        (world.rent limits minimumLength hasMemory)
  | beginReturn (world : World) (lease : Lease) (wasIssued : lease ∈ world.issued) :
      Step limits world (.beginReturn lease) (world.beginReturn lease)
  | finishReturn (world : World) (array : ByteArrayObject)
      (isReturning : array ∈ world.returning) :
      Step limits world (.finishReturn array) (world.finishReturn limits array)
  | trim (world : World) :
      Step limits world .trim { world with pool := GuestDataPool.trim world.pool }

/-- A return of a lease that its holder has returned before. -/
def Repeats (world : World) (lease : Lease) : Prop :=
  lease ∈ world.issued ∧ lease ∉ world.held

/-! ## Arrays that are not out -/

/-- The cached arrays and those on their way back. -/
def World.idle (world : World) : List ByteArrayObject :=
  items world.pool.cachedByBucket ++ world.returning

structure Apart (idle : List ByteArrayObject) (leases : Finset ℕ)
    (objects : ℕ) : Prop where
  nodup : (idle.map ByteArrayObject.reference).Nodup
  notLeased : ∀ array ∈ idle, array.reference ∉ leases
  made : ∀ array ∈ idle, array.reference < objects
  leasesMade : ∀ reference ∈ leases, reference < objects
  lengths : ∀ array ∈ idle, array.length < 2 ^ 31

variable {idle other : List ByteArrayObject} {array : ByteArrayObject}
variable {leases : Finset ℕ} {objects : ℕ}

theorem Apart.of_subset (apart : Apart idle leases objects)
    (nodup : (other.map ByteArrayObject.reference).Nodup)
    (subset : ∀ array ∈ other, array ∈ idle) : Apart other leases objects where
  nodup := nodup
  notLeased array member := apart.notLeased array (subset array member)
  made array member := apart.made array (subset array member)
  leasesMade := apart.leasesMade
  lengths array member := apart.lengths array (subset array member)

theorem Apart.perm (apart : Apart idle leases objects)
    (isPerm : idle.Perm other) : Apart other leases objects :=
  apart.of_subset ((isPerm.map _).nodup_iff.mp apart.nodup)
    fun _ member => isPerm.mem_iff.mpr member

theorem Apart.sublist (apart : Apart idle leases objects)
    (isSublist : other.Sublist idle) : Apart other leases objects :=
  apart.of_subset (apart.nodup.sublist (isSublist.map _))
    fun _ member => isSublist.subset member

theorem Apart.lend (apart : Apart (array :: idle) leases objects) :
    Apart idle (insert array.reference leases) (objects + 1) where
  nodup := (List.nodup_cons.mp apart.nodup).2
  notLeased other member := by
    rw [Finset.mem_insert, not_or]
    refine ⟨?_, apart.notLeased other (List.mem_cons_of_mem _ member)⟩
    intro same
    apply (List.nodup_cons.mp apart.nodup).1
    rw [← same]
    exact List.mem_map_of_mem member
  made other member := by
    have below := apart.made other (List.mem_cons_of_mem _ member)
    omega
  leasesMade reference member := by
    rcases Finset.mem_insert.mp member with rfl | leased
    · have below := apart.made array List.mem_cons_self
      omega
    · have below := apart.leasesMade reference leased
      omega
  lengths := (List.forall_mem_cons.mp apart.lengths).2

theorem Apart.lendNew (apart : Apart idle leases objects) :
    Apart idle (insert objects leases) (objects + 1) where
  nodup := apart.nodup
  notLeased other member := by
    rw [Finset.mem_insert, not_or]
    have below := apart.made other member
    exact ⟨by omega, apart.notLeased other member⟩
  made other member := (apart.made other member).trans (Nat.lt_succ_self _)
  leasesMade reference member := by
    rcases Finset.mem_insert.mp member with rfl | leased
    · exact Nat.lt_succ_self _
    · exact (apart.leasesMade reference leased).trans (Nat.lt_succ_self _)
  lengths := apart.lengths

theorem Apart.giveBack (apart : Apart idle leases objects)
    (leased : array.reference ∈ leases) (isLength : array.length < 2 ^ 31) :
    Apart (array :: idle) (leases.erase array.reference) objects where
  nodup := by
    rw [List.map_cons, List.nodup_cons]
    refine ⟨?_, apart.nodup⟩
    intro member
    obtain ⟨other, otherIdle, same⟩ := List.mem_map.mp member
    apply apart.notLeased other otherIdle
    rw [same]
    exact leased
  notLeased other member := by
    rcases List.mem_cons.mp member with rfl | otherIdle
    · exact Finset.notMem_erase _ _
    · intro inErased
      exact apart.notLeased other otherIdle (Finset.mem_of_mem_erase inErased)
  made other member := by
    rcases List.mem_cons.mp member with rfl | otherIdle
    · exact apart.leasesMade _ leased
    · exact apart.made other otherIdle
  leasesMade reference member :=
    apart.leasesMade reference (Finset.mem_of_mem_erase member)
  lengths other member := by
    rcases List.mem_cons.mp member with rfl | otherIdle
    · exact isLength
    · exact apart.lengths other otherIdle

/-! ## The count of cached bytes -/

def totalLength (arrays : List ByteArrayObject) : ℕ :=
  (arrays.map ByteArrayObject.length).sum

structure Counted (limits : Limits) (pool : BoundedByteArrayPool) : Prop where
  keyed : KeyedBy ByteArrayObject.length pool.cachedByBucket
  counted : pool.cachedBytes.toNat = totalLength (items pool.cachedByBucket)
  bounded : pool.cachedBytes ≤ limits.maxCachedBytes

theorem toNat_ofNat_length (isLength : array.length < 2 ^ 31) :
    (UInt64.ofNat array.length).toNat = array.length := by
  rw [UInt64.toNat_ofNat']
  exact Nat.mod_eq_of_lt (by omega)

theorem totalLength_perm (isPerm : idle.Perm other) : totalLength idle = totalLength other :=
  (isPerm.map _).sum_eq

theorem totalLength_cons (array : ByteArrayObject) (arrays : List ByteArrayObject) :
    totalLength (array :: arrays) = array.length + totalLength arrays := by
  simp [totalLength]

theorem Counted.empty (limits : Limits) (leases : Finset ℕ) : Counted limits ⟨∅, leases, 0⟩ where
  keyed _ _ member := by cases member
  counted := rfl
  bounded := UInt64.le_iff_toNat_le.mpr (Nat.zero_le _)

variable {limits : Limits} {pool : BoundedByteArrayPool} {length : ℕ}

theorem Counted.take (counted : Counted limits pool) {buckets : Dictionary ℕ ByteArrayObject}
    (takes : takeCached limits length pool = some (array, buckets))
    (isLength : array.length < 2 ^ 31) (leases : Finset ℕ) :
    Counted limits ⟨buckets, leases, pool.cachedBytes - .ofNat array.length⟩ ∧
      array.length = length ∧
      (items pool.cachedByBucket).Perm (array :: items buckets) := by
  unfold takeCached at takes
  split at takes
  · obtain ⟨rest, isBucket, isAfter⟩ := pop_eq_some takes
    have isPerm := items_pop takes
    have enough : UInt64.ofNat array.length ≤ pool.cachedBytes := by
      rw [UInt64.le_iff_toNat_le, toNat_ofNat_length isLength, counted.counted,
        totalLength_perm isPerm, totalLength_cons]
      omega
    have difference : (pool.cachedBytes - .ofNat array.length).toNat =
        pool.cachedBytes.toNat - array.length := by
      rw [UInt64.toNat_sub_of_le _ _ enough, toNat_ofNat_length isLength]
    refine ⟨⟨?_, ?_, ?_⟩, ?_, isPerm⟩
    · rw [isAfter]
      apply counted.keyed.insert
      intro item member
      exact counted.keyed length item (by simp [isBucket, member])
    · rw [difference, counted.counted, totalLength_perm isPerm, totalLength_cons]
      exact Nat.add_sub_cancel_left _ _
    · apply le_trans _ counted.bounded
      rw [UInt64.le_iff_toNat_le, difference]
      omega
    · exact counted.keyed length array (by simp [isBucket])
  · cases takes

theorem Counted.cacheArray (counted : Counted limits pool) (isLength : array.length < 2 ^ 31) :
    let after := GuestDataPool.cacheArray limits array pool
    Counted limits after ∧ after.leases = pool.leases ∧
      ((items after.cachedByBucket).Perm (items pool.cachedByBucket) ∨
        (items after.cachedByBucket).Perm (array :: items pool.cachedByBucket)) := by
  intro after
  have isAfter : after = GuestDataPool.cacheArray limits array pool := rfl
  unfold GuestDataPool.cacheArray at isAfter
  split at isAfter
  · rw [isAfter]
    exact ⟨counted, rfl, .inl (List.Perm.refl _)⟩
  · rename_i kept
    simp only at isAfter
    split at isAfter
    · have isPerm := items_insert_bucket pool.cachedByBucket array.length
      rw [isAfter]
      refine ⟨⟨?_, ?_, counted.bounded⟩, rfl, .inl isPerm⟩
      · exact counted.keyed.insert (counted.keyed array.length)
      · rw [totalLength_perm isPerm]
        exact counted.counted
    · have isPerm := items_push pool.cachedByBucket array.length array
      have room : array.length ≤ limits.maxCachedBytes.toNat - pool.cachedBytes.toNat := by
        unfold IsDropped at kept
        rw [not_or, not_or, not_lt, min_eq_left counted.bounded] at kept
        have fits := not_lt.mp kept.2.2
        rwa [UInt64.le_iff_toNat_le, toNat_ofNat_length isLength,
          UInt64.toNat_sub_of_le _ _ counted.bounded] at fits
      have bounded := UInt64.le_iff_toNat_le.mp counted.bounded
      have below := limits.maxCachedBytes.toNat_lt
      have sum : (pool.cachedBytes + .ofNat array.length).toNat =
          pool.cachedBytes.toNat + array.length := by
        rw [UInt64.toNat_add, toNat_ofNat_length isLength]
        exact Nat.mod_eq_of_lt (by omega)
      rw [isAfter]
      refine ⟨⟨?_, ?_, ?_⟩, rfl, .inr isPerm⟩
      · apply counted.keyed.insert
        intro item member
        rcases List.mem_cons.mp member with rfl | inBucket
        · rfl
        · exact counted.keyed array.length item inBucket
      · rw [sum, totalLength_perm isPerm, totalLength_cons, counted.counted]
        exact Nat.add_comm _ _
      · rw [UInt64.le_iff_toNat_le]
        change (pool.cachedBytes + .ofNat array.length).toNat ≤ _
        omega

/-! ## Rents -/

variable {minimumLength : Int32}

theorem getAllocationLength_spec
    (isLength : getAllocationLength limits minimumLength = .ok length) :
    minimumLength.toInt ≤ length ∧ length < 2 ^ 31 := by
  unfold getAllocationLength at isLength
  split at isLength
  · rename_i small
    cases isLength
    rw [Int32.le_iff_toInt_le] at small
    exact ⟨small, by decide⟩
  · rename_i large
    rw [Int32.le_iff_toInt_le, not_le] at large
    have positive : (16 : Int32).toInt = 16 := rfl
    have below := minimumLength.toInt_lt
    split at isLength
    · cases isLength
      omega
    · simp only at isLength
      split at isLength
      · rename_i fits
        cases isLength
        refine ⟨?_, fits⟩
        have covers : minimumLength.toInt.toNat ≤ roundUpToPowerOf2 minimumLength.toInt.toNat :=
          Nat.le_pow_clog (by decide) _
        omega
      · cases isLength

theorem rent_eq_ok {newObject : Option ℕ} {after : BoundedByteArrayPool}
    (rents : rent limits minimumLength newObject pool = .ok (array, after)) :
    ∃ length, getAllocationLength limits minimumLength = .ok length ∧
      ((∃ buckets, takeCached limits length pool = some (array, buckets) ∧
          after = ⟨buckets, insert array.reference pool.leases,
            pool.cachedBytes - .ofNat array.length⟩) ∨
        (newObject = some array.reference ∧ array.length = length ∧ after = { pool with
            leases := insert array.reference pool.leases })) := by
  unfold rent at rents
  by_cases negative : minimumLength < 0
  · rw [if_pos negative] at rents
    cases rents
  · rw [if_neg negative, except_bind_eq_ok] at rents
    obtain ⟨length, isLength, rents⟩ := rents
    refine ⟨length, isLength, ?_⟩
    split at rents
    · rename_i taken buckets takes
      cases rents
      exact .inl ⟨buckets, takes, rfl⟩
    · cases rents
    · cases rents
      exact .inr ⟨rfl, rfl, rfl⟩

/-! ## Every interleaving -/

/-- What holds of the pool and its leases whoever returns what. -/
structure Accounted (limits : Limits) (world : World) : Prop where
  apart : Apart world.idle world.pool.leases world.objects
  counted : Counted limits world.pool
  longEnough : ∀ lease ∈ world.issued,
    lease.requested.toInt ≤ lease.array.length
  lengths : ∀ lease ∈ world.issued, lease.array.length < 2 ^ 31
  ticketed : ∀ lease ∈ world.issued, lease.ticket < world.issued.length
  heldIssued : ∀ lease ∈ world.held, lease ∈ world.issued

theorem Accounted.start (limits : Limits) : Accounted limits .start where
  apart := ⟨List.nodup_nil, by simp [World.idle, World.start,
    BoundedByteArrayPool.empty], by simp [World.idle, World.start,
    BoundedByteArrayPool.empty], by simp [World.start,
    BoundedByteArrayPool.empty], by simp [World.idle, World.start,
    BoundedByteArrayPool.empty]⟩
  counted := Counted.empty limits ∅
  longEnough := by simp [World.start]
  lengths := by simp [World.start]
  ticketed := by simp [World.start]
  heldIssued := by simp [World.start]

variable {world : World}

theorem World.rent_spec (accounted : Accounted limits world) (minimumLength : Int32)
    (hasMemory : Bool) :
    world.rent limits minimumLength hasMemory = world ∨
      ∃ array, array.reference ∉ world.pool.leases ∧
        array.length < 2 ^ 31 ∧ minimumLength.toInt ≤ array.length ∧
        let lease := Lease.mk world.issued.length minimumLength array
        let after := world.rent limits minimumLength hasMemory
        after.issued = lease :: world.issued ∧ after.held = lease :: world.held ∧
          after.pool.leases = insert array.reference world.pool.leases ∧
          Apart after.idle after.pool.leases after.objects ∧
          Counted limits after.pool := by
  unfold World.rent
  split
  · exact .inl rfl
  · rename_i array pool rents
    right
    refine ⟨array, ?_⟩
    obtain ⟨length, isLength, ⟨buckets, takes, rfl⟩ | ⟨isNew, sameLength, rfl⟩⟩ :=
      rent_eq_ok rents
    · have inItems : array ∈ items world.pool.cachedByBucket := by
        unfold takeCached at takes
        split at takes
        · exact (items_pop takes).mem_iff.mpr List.mem_cons_self
        · cases takes
      have isIdle : array ∈ world.idle :=
        List.mem_append_left _ inItems
      have fits := accounted.apart.lengths array isIdle
      obtain ⟨counted, sameLength, isPerm⟩ := accounted.counted.take takes fits
        (insert array.reference world.pool.leases)
      have covers := (getAllocationLength_spec isLength).1
      rw [← sameLength] at covers
      refine ⟨accounted.apart.notLeased array isIdle, fits, covers, rfl, rfl, rfl, ?_, counted⟩
      exact (accounted.apart.perm (isPerm.append_right _)).lend
    · obtain ⟨covers, fits⟩ := getAllocationLength_spec isLength
      rw [← sameLength] at covers fits
      have isFresh : array.reference = world.objects := by
        cases hasMemory with
        | false => cases isNew
        | true => exact (Option.some.inj isNew).symm
      refine ⟨?_, fits, covers, rfl, rfl, rfl, ?_, accounted.counted.keyed,
        accounted.counted.counted, accounted.counted.bounded⟩
      · intro leased
        have below := accounted.apart.leasesMade _ leased
        omega
      · rw [isFresh]
        exact accounted.apart.lendNew

variable {lease : Lease}

theorem World.beginReturn_of_leased (leased : lease.array.reference ∈ world.pool.leases) :
    world.beginReturn lease = { world with
        pool := { world.pool with
          leases := world.pool.leases.erase lease.array.reference }
        held := world.held.erase lease
        returning := lease.array :: world.returning } := by
  simp only [World.beginReturn, removeLease, if_pos leased]

theorem World.beginReturn_of_not_leased (notLeased : lease.array.reference ∉ world.pool.leases) :
    world.beginReturn lease = { world with held := world.held.erase lease } := by
  simp only [World.beginReturn, removeLease, if_neg notLeased]

theorem Accounted.beginReturn (accounted : Accounted limits world)
    (wasIssued : lease ∈ world.issued) :
    Accounted limits (world.beginReturn lease) := by
  have heldIssued : ∀ other ∈ world.held.erase lease, other ∈ world.issued :=
    fun other member => accounted.heldIssued other (List.mem_of_mem_erase member)
  by_cases leased : lease.array.reference ∈ world.pool.leases
  · rw [World.beginReturn_of_leased leased]
    have back := accounted.apart.giveBack leased (accounted.lengths lease wasIssued)
    exact {
      apart := back.perm List.perm_middle.symm
      counted := ⟨accounted.counted.keyed, accounted.counted.counted, accounted.counted.bounded⟩
      longEnough := accounted.longEnough
      lengths := accounted.lengths
      ticketed := accounted.ticketed
      heldIssued := heldIssued }
  · rw [World.beginReturn_of_not_leased leased]
    exact { accounted with heldIssued := heldIssued }

theorem Accounted.finishReturn
    (accounted : Accounted limits world) (isReturning : array ∈ world.returning) :
    Accounted limits (world.finishReturn limits array) := by
  have isLength := accounted.apart.lengths array (List.mem_append_right _ isReturning)
  obtain ⟨counted, sameLeases, isPerm⟩ :=
    accounted.counted.cacheArray isLength
  have apart : Apart (world.finishReturn limits array).idle world.pool.leases
      world.objects := by
    have split := List.perm_cons_erase isReturning
    rcases isPerm with dropped | cached
    · have fewer : (items world.pool.cachedByBucket ++
          world.returning.erase array).Sublist world.idle :=
        List.Sublist.append (List.Sublist.refl _) List.erase_sublist
      exact (accounted.apart.sublist fewer).perm (dropped.append_right _).symm
    · apply accounted.apart.perm
      calc world.idle
        _ = items world.pool.cachedByBucket ++ world.returning := rfl
        _ |>.Perm (items world.pool.cachedByBucket ++
              array :: world.returning.erase array) := split.append_left _
        _ |>.Perm (array :: items world.pool.cachedByBucket ++
              world.returning.erase array) := List.perm_middle
        _ |>.Perm (world.finishReturn limits array).idle :=
              (cached.append_right _).symm
  exact {
    apart := by
      rw [← sameLeases] at apart
      exact apart
    counted := counted
    longEnough := accounted.longEnough
    lengths := accounted.lengths
    ticketed := accounted.ticketed
    heldIssued := accounted.heldIssued }

variable {before after : World} {action : Action}

theorem Accounted.step (accounted : Accounted limits before)
    (taken : Step limits before action after) : Accounted limits after := by
  cases taken with
  | rent minimumLength hasMemory =>
    rcases before.rent_spec accounted minimumLength hasMemory with
      unchanged | ⟨array, _, fits, covers, isIssued, isHeld, _, apart, counted⟩
    · rw [unchanged]
      exact accounted
    · refine ⟨apart, counted, ?_, ?_, ?_, ?_⟩
      · rw [isIssued]
        intro lease member
        rcases List.mem_cons.mp member with rfl | older
        · exact covers
        · exact accounted.longEnough lease older
      · rw [isIssued]
        intro lease member
        rcases List.mem_cons.mp member with rfl | older
        · exact fits
        · exact accounted.lengths lease older
      · rw [isIssued]
        intro lease member
        rcases List.mem_cons.mp member with rfl | older
        · exact Nat.lt_succ_self _
        · exact (accounted.ticketed lease older).trans (Nat.lt_succ_self _)
      · rw [isIssued, isHeld]
        intro lease member
        rcases List.mem_cons.mp member with rfl | older
        · exact List.mem_cons_self
        · exact List.mem_cons_of_mem _ (accounted.heldIssued lease older)
  | beginReturn lease wasIssued => exact accounted.beginReturn wasIssued
  | finishReturn array isReturning => exact accounted.finishReturn isReturning
  | trim =>
    refine ⟨?_, Counted.empty limits _, accounted.longEnough,
      accounted.lengths, accounted.ticketed, accounted.heldIssued⟩
    exact accounted.apart.sublist (List.sublist_append_right _ _)

theorem accounted_of_reachable (reachable : Reachable (Eq World.start) (Step limits) world) :
    Accounted limits world := by
  apply reachable.invariant
  · rintro _ rfl
    exact Accounted.start limits
  · intro before action after accounted taken
    exact accounted.step taken

/-! ## Holders -/

def NotStale (world : World) : Action → Prop
  | .beginReturn lease =>
      lease ∈ world.held ∨ lease.array.reference ∉ world.pool.leases
  | _ => True

/-- The arrays that are out are those of the leases held, one for each. -/
structure Exclusive (world : World) : Prop where
  nodup : (world.held.map (·.array.reference)).Nodup
  leased : ∀ reference, reference ∈ world.pool.leases ↔
    reference ∈ world.held.map (·.array.reference)

theorem Exclusive.beginReturn
    (exclusive : Exclusive world) (notStale : NotStale world (.beginReturn lease)) :
    Exclusive (world.beginReturn lease) := by
  by_cases isHeld : lease ∈ world.held
  · have isLeased : lease.array.reference ∈ world.pool.leases :=
      (exclusive.leased _).mpr (List.mem_map_of_mem isHeld)
    have isPerm := (List.perm_cons_erase isHeld).map (·.array.reference)
    have nodup := (isPerm.nodup_iff.mp exclusive.nodup)
    rw [List.map_cons, List.nodup_cons] at nodup
    rw [World.beginReturn_of_leased isLeased]
    refine ⟨nodup.2, ?_⟩
    intro reference
    have members := (exclusive.leased reference).trans isPerm.mem_iff
    rw [List.map_cons, List.mem_cons] at members
    rw [Finset.mem_erase, members]
    constructor
    · rintro ⟨different, same | member⟩
      · exact absurd same different
      · exact member
    · intro member
      refine ⟨?_, .inr member⟩
      rintro rfl
      exact nodup.1 member
  · have notLeased := notStale.resolve_left isHeld
    rw [World.beginReturn_of_not_leased notLeased, List.erase_of_not_mem isHeld]
    exact exclusive

theorem Exclusive.step (accounted : Accounted limits before) (exclusive : Exclusive before)
    (notStale : NotStale before action)
    (taken : Step limits before action after) : Exclusive after := by
  cases taken with
  | rent minimumLength hasMemory =>
    rcases before.rent_spec accounted minimumLength hasMemory with
      unchanged | ⟨array, notLeased, _, _, _, isHeld, isLeased, _, _⟩
    · rw [unchanged]
      exact exclusive
    · rw [exclusive.leased] at notLeased
      constructor
      · rw [isHeld, List.map_cons, List.nodup_cons]
        exact ⟨notLeased, exclusive.nodup⟩
      · intro reference
        rw [isHeld, isLeased, Finset.mem_insert, List.map_cons, List.mem_cons, exclusive.leased]
  | beginReturn lease wasIssued => exact exclusive.beginReturn notStale
  | finishReturn array isReturning =>
    have fits := accounted.apart.lengths array (List.mem_append_right _ isReturning)
    have sameLeases := (accounted.counted.cacheArray fits).2.1
    refine ⟨exclusive.nodup, ?_⟩
    intro reference
    exact (iff_of_eq (congrArg (reference ∈ ·) sameLeases)).trans (exclusive.leased reference)
  | trim => exact ⟨exclusive.nodup, exclusive.leased⟩

/-- Both invariants of the runs without stale returns. -/
def AccountedExclusive (limits : Limits) (world : World) : Prop :=
  Accounted limits world ∧ Exclusive world

theorem exclusive_of_reachable
    (reachable : Reachable (Eq World.start) (onlyWhen NotStale (Step limits)) world) :
    Exclusive world := by
  have both : AccountedExclusive limits world := by
    apply reachable.invariant_onlyWhen
    · rintro _ rfl
      exact ⟨Accounted.start limits, List.nodup_nil, by
        simp [World.start, BoundedByteArrayPool.empty]⟩
    · rintro before action after ⟨accounted, exclusive⟩ notStale taken
      exact ⟨accounted.step taken, exclusive.step accounted notStale taken⟩
  exact both.2

/-! ## Interleavings of rents, returns and trims -/

/-- The pool knows a lease by its array.  A repeated return is without effect
exactly when the array is not out again; where all repeated returns are such, no
array is out twice. -/
theorem leases_accounted (limits : Limits) :
    (∀ world, Reachable (Eq World.start) (Step limits) world →
      ((items world.pool.cachedByBucket).map ByteArrayObject.reference).Nodup ∧
      (∀ array ∈ items world.pool.cachedByBucket, array.reference ∉ world.pool.leases) ∧
      (∀ lease ∈ world.issued, lease.requested.toInt ≤ lease.array.length) ∧
      world.pool.cachedBytes.toNat = totalLength (items world.pool.cachedByBucket) ∧
      world.pool.cachedBytes ≤ limits.maxCachedBytes ∧
      ∀ lease, Repeats world lease → (world.beginReturn lease = world ↔
          lease.array.reference ∉ world.pool.leases)) ∧
    ∀ world, Reachable (Eq World.start) (onlyWhen NotStale (Step limits)) world →
      (world.held.map (·.array.reference)).Nodup := by
  constructor
  · intro world reachable
    have accounted := accounted_of_reachable reachable
    have cachedApart := accounted.apart.sublist (List.sublist_append_left
      (items world.pool.cachedByBucket) world.returning)
    refine ⟨cachedApart.nodup, cachedApart.notLeased, accounted.longEnough,
      accounted.counted.counted, accounted.counted.bounded, ?_⟩
    intro lease repeats
    by_cases leased : lease.array.reference ∈ world.pool.leases
    · rw [World.beginReturn_of_leased leased]
      apply iff_of_false _ (not_not_intro leased)
      intro unchanged
      have sameLeases := congrArg (·.pool.leases) unchanged
      have stillLeased : lease.array.reference ∈ world.pool.leases.erase lease.array.reference := by
        rw [show world.pool.leases.erase lease.array.reference = world.pool.leases from sameLeases]
        exact leased
      exact Finset.notMem_erase _ _ stillLeased
    · rw [World.beginReturn_of_not_leased leased, List.erase_of_not_mem repeats.2]
      exact iff_of_true rfl leased
  · intro world reachable
    exact (exclusive_of_reachable reachable).nodup

/-- An array that was returned is out again, and a second one with it. -/
theorem leases_accounted_of_returned_rent :
    ∃ world : World, world.held.length = 2 ∧ (world.held.map (·.array.reference)).Nodup := by
  have reachable : Reachable (Eq World.start) (onlyWhen NotStale (Step shared)) World.start :=
    .start rfl
  have rent (world : World) (length : Int32) : onlyWhen NotStale (Step shared) world
      (.rent length true) (world.rent shared length true) := ⟨trivial, .rent _ _ _⟩
  have giveBack (world : World) (lease : Lease) (isHeld : lease ∈ world.held)
      (wasIssued : lease ∈ world.issued) : onlyWhen NotStale (Step shared) world
        (.beginReturn lease) (world.beginReturn lease) :=
    ⟨.inl isHeld, .beginReturn _ _ wasIssued⟩
  have keep (world : World) (array : ByteArrayObject) (isReturning : array ∈ world.returning) :
      onlyWhen NotStale (Step shared) world (.finishReturn array)
        (world.finishReturn shared array) := ⟨trivial, .finishReturn _ _ isReturning⟩
  have returned := (reachable.next (rent _ 16)).next
    (giveBack _ ⟨0, 16, ⟨0, 16⟩⟩ (by decide +kernel) (by decide +kernel))
  have cached := returned.next (keep _ ⟨0, 16⟩ (by decide +kernel))
  have rentedTwice := (cached.next (rent _ 16)).next (rent _ 64)
  exact ⟨_, by decide +kernel, (leases_accounted shared).2 _ rentedTwice⟩

/-- A rent, its return, a rent of the same array, the first return again, and a
third rent: the array is out twice. -/
theorem stale_return_shares_array : ∃ world, Reachable (Eq World.start) (Step shared) world ∧
      ¬ (world.held.map (·.array.reference)).Nodup := by
  have reachable : Reachable (Eq World.start) (Step shared) World.start :=
    .start rfl
  have rented := reachable.next (.rent _ 16 true)
  have returned := rented.next (.beginReturn _ ⟨0, 16, ⟨0, 16⟩⟩ (by decide +kernel))
  have cached := returned.next (.finishReturn _ ⟨0, 16⟩ (by decide +kernel))
  have rentedAgain := cached.next (.rent _ 16 true)
  have returnedAgain := rentedAgain.next (.beginReturn _ ⟨0, 16, ⟨0, 16⟩⟩ (by decide +kernel))
  have cachedAgain := returnedAgain.next (.finishReturn _ ⟨0, 16⟩ (by decide +kernel))
  exact ⟨_, cachedAgain.next (.rent _ 16 true), by decide +kernel⟩

end GuestDataPool
end SharpEmu
