import SharpEmu.PhysicalVirtualMemoryPlacement
import SharpEmu.PhysicalVirtualMemoryWrites

/-!
# The cache of committed ranges

Each thread remembers a few ranges that it has found or made committed, for one
allocator and one generation of its mappings.  A remembered range is sound for
a property of bytes when all its bytes have the property; merging two ranges
that touch keeps this, and so does replacing one.

What a host must do for the cache to be right is a contract on its answers:
only a release takes committed bytes away, and only from the released block.
-/

namespace SharpEmu
namespace PhysicalVirtualMemory

open Faulting

structure CommittedRange where
  start : UInt64
  stop : UInt64
deriving DecidableEq, Repr

def committedRangeCacheCapacity : ℕ := 4

/-- `ranges` holds the first `_count` entries of the array.  Generations are
counted without wrapping around. -/
structure CommittedRangeCache (Owner : Type) where
  owner : Option Owner
  generation : ℕ
  ranges : List CommittedRange
  nextReplacement : ℕ
deriving DecidableEq, Repr

namespace CommittedRangeCache

variable {Owner : Type} [DecidableEq Owner]

/-- A thread's cache before its first use. -/
def initial : CommittedRangeCache Owner := ⟨none, 0, [], 0⟩

/-- The cache speaks about this allocator's mappings as they are now. -/
def IsCurrent (cache : CommittedRangeCache Owner) (owner : Owner) (generation : ℕ) : Prop :=
  cache.owner = some owner ∧ cache.generation = generation

instance (cache : CommittedRangeCache Owner) (owner : Owner) (generation : ℕ) :
    Decidable (cache.IsCurrent owner generation) :=
  inferInstanceAs (Decidable (_ ∧ _))

def contains (cache : CommittedRangeCache Owner) (owner : Owner)
    (generation : ℕ) (start stop : UInt64) : Bool :=
  if cache.IsCurrent owner generation then
    cache.ranges.any fun range => start ≥ range.start && stop ≤ range.stop
  else false

def mergeFirst (start stop : UInt64) : List CommittedRange → Option (List CommittedRange)
  | [] => none
  | range :: rest =>
      if start ≤ range.stop ∧ stop ≥ range.start then
        some (⟨min start range.start, max stop range.stop⟩ :: rest)
      else (mergeFirst start stop rest).map (range :: ·)

/-- The cache, emptied when it speaks about something else. -/
def renewed (cache : CommittedRangeCache Owner) (owner : Owner)
    (generation : ℕ) : CommittedRangeCache Owner :=
  if cache.IsCurrent owner generation then cache
  else ⟨some owner, generation, [], 0⟩

def add (cache : CommittedRangeCache Owner) (owner : Owner) (generation : ℕ)
    (start stop : UInt64) : CommittedRangeCache Owner :=
  let current := cache.renewed owner generation
  match mergeFirst start stop current.ranges with
  | some merged => { current with ranges := merged }
  | none =>
      if current.ranges.length < committedRangeCacheCapacity then
        { current with ranges := current.ranges ++ [⟨start, stop⟩] }
      else
        { current with
          ranges := current.ranges.set current.nextReplacement ⟨start, stop⟩
          nextReplacement :=
            (current.nextReplacement + 1) % committedRangeCacheCapacity }

/-! ## Sound ranges -/

section Soundness

variable {good : ℕ → Prop}

def AllBetween (good : ℕ → Prop) (start stop : UInt64) : Prop :=
  ∀ byte, start.toNat ≤ byte → byte < stop.toNat → good byte

def HoldsOnly (good : ℕ → Prop) (ranges : List CommittedRange) : Prop :=
  ∀ range ∈ ranges, AllBetween good range.start range.stop

variable {start stop : UInt64}

theorem allBetween_merge {range : CommittedRange} (added : AllBetween good start stop)
    (old : AllBetween good range.start range.stop)
    (touches : start ≤ range.stop ∧ stop ≥ range.start) :
    AllBetween good (min start range.start) (max stop range.stop) := by
  intro byte above below
  obtain ⟨startsBefore, stopsAfter⟩ := touches
  rw [ge_iff_le] at stopsAfter
  rw [UInt64.le_iff_toNat_le] at startsBefore stopsAfter
  rw [Word64.toNat_min] at above
  rw [Word64.toNat_max] at below
  by_cases inAdded : start.toNat ≤ byte ∧ byte < stop.toNat
  · exact added byte inAdded.1 inAdded.2
  · exact old byte (by omega) (by omega)

theorem holdsOnly_mergeFirst {ranges merged : List CommittedRange}
    (added : AllBetween good start stop) (old : HoldsOnly good ranges)
    (isMerged : mergeFirst start stop ranges = some merged) :
    HoldsOnly good merged := by
  induction ranges generalizing merged with
  | nil => cases isMerged
  | cons range rest ih =>
    unfold mergeFirst at isMerged
    have oldRest : HoldsOnly good rest := (List.forall_mem_cons.mp old).2
    have oldRange := old range List.mem_cons_self
    split at isMerged
    · rename_i touches
      cases isMerged
      intro other member
      rcases List.mem_cons.mp member with rfl | later
      · exact allBetween_merge added oldRange touches
      · exact oldRest other later
    · obtain ⟨mergedRest, isRest, rfl⟩ := Option.map_eq_some_iff.mp isMerged
      intro other member
      rcases List.mem_cons.mp member with rfl | later
      · exact oldRange
      · exact ih oldRest isRest other later

theorem add_isCurrent (cache : CommittedRangeCache Owner) (owner : Owner)
    (generation : ℕ) (start stop : UInt64) :
    (cache.add owner generation start stop).IsCurrent owner generation := by
  have isRenewed : (cache.renewed owner generation).IsCurrent owner
      generation := by
    unfold renewed
    split
    · assumption
    · exact ⟨rfl, rfl⟩
  unfold add
  simp only
  split
  · exact isRenewed
  · split <;> exact isRenewed

variable {cache : CommittedRangeCache Owner} {owner : Owner} {generation : ℕ}

theorem holdsOnly_add (added : AllBetween good start stop)
    (old : cache.IsCurrent owner generation → HoldsOnly good cache.ranges) :
    HoldsOnly good (cache.add owner generation start stop).ranges := by
  have renewedRanges : HoldsOnly good (cache.renewed owner generation).ranges := by
    unfold renewed
    split
    · exact old ‹_›
    · intro range member
      cases member
  unfold add
  simp only
  split
  · rename_i merged isMerged
    exact holdsOnly_mergeFirst added renewedRanges isMerged
  · split
    · intro range member
      rcases List.mem_append.mp member with earlier | isNew
      · exact renewedRanges range earlier
      · cases List.mem_singleton.mp isNew
        exact added
    · intro range member
      rcases List.mem_or_eq_of_mem_set member with earlier | rfl
      · exact renewedRanges range earlier
      · exact added

theorem contains_allBetween (sound : cache.IsCurrent owner generation → HoldsOnly good cache.ranges)
    (hit : cache.contains owner generation start stop = true) :
    AllBetween good start stop := by
  unfold contains at hit
  split at hit
  · rename_i isCurrent
    obtain ⟨range, member, covers⟩ := List.any_eq_true.mp hit
    simp only [ge_iff_le, Bool.and_eq_true, decide_eq_true_eq, UInt64.le_iff_toNat_le] at covers
    intro byte above below
    exact sound isCurrent range member byte (by omega) (by omega)
  · cases hit

end Soundness

end CommittedRangeCache

/-! ## What a host promises about committed bytes -/

/-- What a query answers about the block around an address. -/
structure HostRegionInfo where
  baseAddress : UInt64
  regionSize : UInt64
  state : HostRegionState
deriving DecidableEq, Repr

/-- The host as the contract sees it: the base of the block that holds a byte,
and the committed bytes. -/
structure HostView (HostState : Type) where
  blockOf : HostState → ℕ → Option UInt64
  committed : HostState → ℕ → Prop

namespace HostView

variable {HostState : Type} (view : HostView HostState)

/-- Bytes in blocks other than the excepted one stay in them, and stay
committed. -/
def KeptExcept (excepted : Option UInt64) (before after : HostState) : Prop :=
  ∀ byte base, view.blockOf before byte = some base → some base ≠ excepted →
    view.blockOf after byte = some base ∧ (view.committed before byte → view.committed after byte)

/-- Every byte in a block stays in it, and stays committed. -/
def Kept (before after : HostState) : Prop :=
  view.KeptExcept none before after

variable {view}

theorem kept_refl (host : HostState) : view.Kept host host :=
  fun _ _ held _ => ⟨held, id⟩

theorem Kept.trans {first second third : HostState}
    (start : view.Kept first second) (rest : view.Kept second third) :
    view.Kept first third := by
  intro byte base held different
  obtain ⟨stillHeld, stillCommitted⟩ := start byte base held different
  obtain ⟨atEnd, committedAtEnd⟩ := rest byte base stillHeld different
  exact ⟨atEnd, fun wasCommitted => committedAtEnd (stillCommitted wasCommitted)⟩

end HostView

/-- The answer to a request for address space: nothing, or a fresh block at a
page boundary that holds the requested bytes. -/
structure PlacementKept {HostState : Type} (view : HostView HostState)
    (size : UInt64) (commits : Bool) (before : HostState)
    (answer : UInt64 × HostState) : Prop where
  kept : view.Kept before answer.2
  aligned : answer.1 ≠ 0 → 4096 ∣ answer.1.toNat ∧ 0 < size.toNat
  fresh : answer.1 ≠ 0 → ∀ byte, view.blockOf before byte ≠ some answer.1
  placed : answer.1 ≠ 0 → ∀ byte, answer.1.toNat ≤ byte →
    byte < answer.1.toNat + size.toNat →
      view.blockOf answer.2 byte = some answer.1 ∧
        (commits = true → view.committed answer.2 byte)

/-- What the host's services promise: no block reaches into the last page of
the address space, a granted commit commits its range, a release touches only
the block at its address, and a query speaks about bytes of the block it is
asked about. -/
structure CommitContract {HostState : Type}
    (services : HostMemoryServices HostState)
    (query : HostState → UInt64 → Option HostRegionInfo)
    (view : HostView HostState) : Prop where
  bounded : ∀ host byte base, view.blockOf host byte = some base →
    byte + 4096 < 2 ^ 64
  allocate : ∀ host desiredAddress size protection, PlacementKept view size true
    host (services.allocate host desiredAddress size protection)
  reserve : ∀ host desiredAddress size protection, PlacementKept view size false
    host (services.reserve host desiredAddress size protection)
  commit : ∀ host address size protection,
    view.Kept host (services.commit host address size protection).2
  committed : ∀ host address size protection,
    (services.commit host address size protection).1 = true →
    ∀ byte, address.toNat ≤ byte → byte < address.toNat + size.toNat →
      view.committed (services.commit host address size protection).2 byte
  free : ∀ host address,
    view.KeptExcept (some address) host (services.free host address)
  protect : ∀ host address size protection,
    view.Kept host (services.protect host address size protection).2
  queryStart : ∀ host address info, query host address = some info →
    info.baseAddress.toNat ≤ address.toNat
  queryCommitted : ∀ host address info, query host address = some info →
    info.state = .committed → ∀ byte, info.baseAddress.toNat ≤ byte →
      byte < info.baseAddress.toNat + info.regionSize.toNat →
        view.committed host byte ∧
          view.blockOf host byte = view.blockOf host address.toNat

end PhysicalVirtualMemory
end SharpEmu
