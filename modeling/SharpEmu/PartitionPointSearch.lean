import Mathlib.Order.Basic
import Mathlib.Data.List.Pairwise
import Mathlib.Data.List.TakeDrop
import Mathlib.Tactic.Common

/-!
# Binary search for a partition point

A test on positions is downward closed when it holds up to some position and
fails from there on.  Two search loops are analysed: the half-open loop that
returns the first position failing the test, and the closed loop that remembers
the last position passing it.  Their list forms insert an entry into a sorted
list and find the last entry passing a test.
-/

namespace SharpEmu

namespace PartitionSearch

def lowerBound (below : ℕ → Bool) (low high : ℕ) : ℕ :=
  if low < high then
    let middle := low + (high - low) / 2
    if below middle then lowerBound below (middle + 1) high
    else lowerBound below low middle
  else low
termination_by high - low

def lastPassing (below : ℕ → Bool) (low upper : ℕ) (candidate : Option ℕ) :
    Option ℕ :=
  if low < upper then
    let middle := low + (upper - 1 - low) / 2
    if below middle then lastPassing below (middle + 1) upper (some middle)
    else lastPassing below low middle candidate
  else candidate
termination_by upper - low

/-- A test that passes at a position passes at every earlier one. -/
def DownwardClosed (below : ℕ → Bool) (count : ℕ) : Prop :=
  ∀ earlier later, earlier ≤ later → later < count → below later = true → below earlier = true

variable {below : ℕ → Bool} {count low : ℕ}

/-- The half-open loop splits its interval at the returned position. -/
theorem lowerBound_spec {high : ℕ} (closed : DownwardClosed below count) (ordered : low ≤ high)
    (inRange : high ≤ count) :
    low ≤ lowerBound below low high ∧ lowerBound below low high ≤ high ∧
      (∀ index, low ≤ index → index < lowerBound below low high → below index = true) ∧
      ∀ index, lowerBound below low high ≤ index → index < high → below index = false := by
  fun_induction lowerBound below low high with
  | case1 low high nonempty middle passes ih =>
    obtain ⟨lower, upper, passing, failing⟩ :=
      ih (by omega) inRange
    refine ⟨by omega, upper, fun index above before => ?_, failing⟩
    by_cases inLowerHalf : index ≤ middle
    · exact closed index middle inLowerHalf (by omega) passes
    · exact passing index (by omega) before
  | case2 low high nonempty middle fails ih =>
    obtain ⟨lower, upper, passing, failing⟩ :=
      ih (by omega) (by omega)
    refine ⟨lower, by omega, passing, fun index above before => ?_⟩
    by_cases inLowerHalf : index < middle
    · exact failing index above inLowerHalf
    · by_contra passes
      exact fails (closed middle index (by omega) (by omega) (by simpa using passes))
  | case3 low high finished =>
    exact ⟨Nat.le_refl _, ordered, fun index above before => by omega,
      fun index above before => by omega⟩

/-- What the closed loop knows about its candidate: it is the last passing
position before the interval still to be searched. -/
def CandidateAt (below : ℕ → Bool) (low : ℕ) : Option ℕ → Prop
  | none => low = 0
  | some position => position + 1 = low ∧ below position = true

theorem lastPassing_spec {upper : ℕ} (candidate : Option ℕ) (closed : DownwardClosed below count)
    (ordered : low ≤ upper) (inRange : upper ≤ count)
    (candidateAt : CandidateAt below low candidate)
    (failsAbove : ∀ index, upper ≤ index → index < count → below index = false) :
    (∀ position, lastPassing below low upper candidate = some position →
      position < count ∧ below position = true ∧
        ∀ index, position < index → index < count → below index = false) ∧
      (lastPassing below low upper candidate = none →
        ∀ index, index < count → below index = false) := by
  fun_induction lastPassing below low upper candidate with
  | case1 low upper candidate nonempty middle passes ih =>
    exact ih (by omega) inRange ⟨rfl, passes⟩ failsAbove
  | case2 low upper candidate nonempty middle fails ih =>
    refine ih (by omega) (by omega) candidateAt ?_
    intro index above before
    by_contra passes
    exact fails (closed middle index above before (by simpa using passes))
  | case3 low upper candidate finished =>
    constructor
    · rintro position rfl
      obtain ⟨nextIsLow, passes⟩ := candidateAt
      exact ⟨by omega, passes, fun index above before =>
        failsAbove index (by omega) before⟩
    · rintro rfl index before
      have lowIsZero : low = 0 := candidateAt
      exact failsAbove index (by omega) before

section Lists

variable {Entry : Type*}

def testAt (test : Entry → Bool) (entries : List Entry) (index : ℕ) : Bool :=
  (entries[index]?).any test

def insertionIndex (below : Entry → Bool) (entries : List Entry) : ℕ :=
  lowerBound (testAt below entries) 0 entries.length

def findLastPassing (test : Entry → Bool) (entries : List Entry) : Option Entry :=
  (lastPassing (testAt test entries) 0 entries.length none).bind
    fun index => entries[index]?

def PassesPrefix (test : Entry → Bool) (entries : List Entry) : Prop :=
  entries.Pairwise fun first second => test second = true → test first = true

variable {entries : List Entry}

theorem testAt_of_lt (test : Entry → Bool) {index : ℕ} (inBounds : index < entries.length) :
    testAt test entries index = test entries[index] := by
  simp [testAt, List.getElem?_eq_getElem inBounds]

variable {test : Entry → Bool}

theorem downwardClosed_testAt (passesPrefix : PassesPrefix test entries) :
    DownwardClosed (testAt test entries) entries.length := by
  intro earlier later ordered inBounds passes
  rw [testAt_of_lt test inBounds] at passes
  rw [testAt_of_lt test (Nat.lt_of_le_of_lt ordered inBounds)]
  rcases Nat.eq_or_lt_of_le ordered with rfl | before
  · exact passes
  · exact List.pairwise_iff_getElem.mp passesPrefix earlier later
      (Nat.lt_of_le_of_lt ordered inBounds) inBounds before passes

theorem insertionIndex_le (below : Entry → Bool) (passesPrefix : PassesPrefix below entries) :
    insertionIndex below entries ≤ entries.length :=
  (lowerBound_spec (downwardClosed_testAt passesPrefix) (Nat.zero_le _) (Nat.le_refl _)).2.1

variable {below : Entry → Bool} {entry : Entry}

theorem passes_of_mem_take (passesPrefix : PassesPrefix below entries)
    (member : entry ∈ entries.take (insertionIndex below entries)) :
    below entry = true := by
  obtain ⟨index, inTake, rfl⟩ := List.getElem_of_mem member
  rw [List.getElem_take]
  rw [List.length_take] at inTake
  have beforeInsertion : index < insertionIndex below entries := by omega
  rw [← testAt_of_lt below (by omega)]
  exact (lowerBound_spec (downwardClosed_testAt passesPrefix) (Nat.zero_le _)
    (Nat.le_refl _)).2.2.1 index (Nat.zero_le _) beforeInsertion

theorem fails_of_mem_drop (passesPrefix : PassesPrefix below entries)
    (member : entry ∈ entries.drop (insertionIndex below entries)) :
    below entry = false := by
  obtain ⟨index, inDrop, rfl⟩ := List.getElem_of_mem member
  rw [List.getElem_drop]
  rw [List.length_drop] at inDrop
  rw [← testAt_of_lt below (by omega)]
  exact (lowerBound_spec (downwardClosed_testAt passesPrefix) (Nat.zero_le _)
    (Nat.le_refl _)).2.2.2 _ (Nat.le_add_right _ _) (by omega)

def insertAtPartition (below : Entry → Bool) (entry : Entry) (entries : List Entry) : List Entry :=
  entries.take (insertionIndex below entries) ++
    entry :: entries.drop (insertionIndex below entries)

theorem insertAtPartition_perm (below : Entry → Bool) (entry : Entry) (entries : List Entry) :
    (insertAtPartition below entry entries).Perm (entry :: entries) := by
  refine List.perm_middle.trans (List.Perm.of_eq ?_)
  rw [List.take_append_drop]

theorem insertAtPartition_pairwise {relation : Entry → Entry → Prop}
    (ordered : entries.Pairwise relation)
    (passesPrefix : PassesPrefix below entries)
    (before : ∀ other ∈ entries, below other = true → relation other entry)
    (after : ∀ other ∈ entries, below other = false → relation entry other) :
    (insertAtPartition below entry entries).Pairwise relation := by
  have split := List.take_append_drop (insertionIndex below entries) entries
  rw [← split] at ordered
  obtain ⟨frontOrdered, backOrdered, across⟩ := List.pairwise_append.mp ordered
  refine List.pairwise_append.mpr ⟨frontOrdered, List.pairwise_cons.mpr ⟨?_, backOrdered⟩, ?_⟩
  · intro other member
    exact after other (List.mem_of_mem_drop member) (fails_of_mem_drop passesPrefix member)
  · intro first firstMem second secondMem
    rcases List.mem_cons.mp secondMem with rfl | later
    · exact before first (List.mem_of_mem_take firstMem) (passes_of_mem_take passesPrefix firstMem)
    · exact across first firstMem second later

theorem findLastPassing_split (passesPrefix : PassesPrefix test entries)
    (found : findLastPassing test entries = some entry) :
    ∃ front back, entries = front ++ entry :: back ∧ test entry = true ∧
      ∀ other ∈ back, test other = false := by
  obtain ⟨index, searched, atIndex⟩ := Option.bind_eq_some_iff.mp found
  obtain ⟨inBounds, passes, failsAfter⟩ :=
    (lastPassing_spec none (downwardClosed_testAt passesPrefix) (Nat.zero_le _) (Nat.le_refl _) rfl
      (fun index above before => by omega)).1 index searched
  obtain ⟨_, rfl⟩ := List.getElem?_eq_some_iff.mp atIndex
  refine ⟨entries.take index, entries.drop (index + 1), ?_, ?_, ?_⟩
  · rw [List.getElem_cons_drop, List.take_append_drop]
  · rwa [testAt_of_lt test inBounds] at passes
  · intro other member
    obtain ⟨offset, inDrop, rfl⟩ := List.getElem_of_mem member
    rw [List.length_drop] at inDrop
    rw [List.getElem_drop, ← testAt_of_lt test (by omega)]
    exact failsAfter _ (by omega) (by omega)

theorem findLastPassing_eq_none (passesPrefix : PassesPrefix test entries)
    (notFound : findLastPassing test entries = none) :
    ∀ entry ∈ entries, test entry = false := by
  have specification :=
    lastPassing_spec none (downwardClosed_testAt passesPrefix) (Nat.zero_le _) (Nat.le_refl _) rfl
      (fun index above before => by omega)
  cases searched : lastPassing (testAt test entries) 0 entries.length none with
  | some index =>
    have inBounds := (specification.1 index searched).1
    simp [findLastPassing, searched, List.getElem?_eq_getElem inBounds] at notFound
  | none =>
    intro entry member
    obtain ⟨index, inBounds, rfl⟩ := List.getElem_of_mem member
    rw [← testAt_of_lt test inBounds]
    exact specification.2 searched index inBounds

end Lists
end PartitionSearch
end SharpEmu
