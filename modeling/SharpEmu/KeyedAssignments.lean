import Mathlib.Data.List.Basic
import Mathlib.Data.List.Perm.Basic
import Mathlib.Data.List.Sort
import Mathlib.Logic.Function.Basic

/-!
# Assignments in the order of a list

Entries assign values to keys, and of several assignments to one key the last
one counts.  Sorting the entries by key keeps what they assign under every
sorting exactly when no key is given two different values: a sorting need not
keep entries of one key in their order.
-/

namespace KeyedAssignments

variable {Entry Key Value : Type*} [DecidableEq Key]
variable (key : Entry → Key) (value : Entry → Value)

def lastValue : List Entry → Key → Option Value
  | [], _ => none
  | entry :: rest, wanted =>
      (lastValue rest wanted).or (if key entry = wanted then some (value entry) else none)

theorem lastValue_cons (entry : Entry) (rest : List Entry) (wanted : Key) :
    lastValue key value (entry :: rest) wanted = (lastValue key value rest wanted).or
        (if key entry = wanted then some (value entry) else none) :=
  rfl

def assignAll (file : Key → Option Value) (entries : List Entry) : Key → Option Value :=
  entries.foldl (fun file entry => Function.update file (key entry) (some (value entry))) file

/-- No key is given two different values. -/
def Unambiguous (entries : List Entry) : Prop :=
  ∀ first ∈ entries, ∀ second ∈ entries, key first = key second → value first = value second

variable {key value}

theorem assignAll_apply (file : Key → Option Value) (entries : List Entry) (wanted : Key) :
    assignAll key value file entries wanted =
      (lastValue key value entries wanted).or (file wanted) := by
  induction entries generalizing file with
  | nil => rfl
  | cons entry rest ih =>
    rw [assignAll, List.foldl_cons, ← assignAll, ih, lastValue_cons, Option.or_assoc]
    by_cases same : key entry = wanted
    · rw [if_pos same, same, Function.update_self, Option.some_or]
    · rw [if_neg same, Function.update_of_ne (Ne.symm same), Option.none_or]

theorem lastValue_append (front back : List Entry) (wanted : Key) :
    lastValue key value (front ++ back) wanted = (lastValue key value back wanted).or
        (lastValue key value front wanted) := by
  induction front with
  | nil => exact Option.or_none.symm
  | cons entry rest ih =>
    rw [List.cons_append, lastValue_cons, lastValue_cons, ih, Option.or_assoc]

variable {entries : List Entry} {wanted : Key}

theorem mem_of_lastValue {found : Value} (last : lastValue key value entries wanted = some found) :
    ∃ entry ∈ entries, key entry = wanted ∧ value entry = found := by
  induction entries with
  | nil => cases last
  | cons entry rest ih =>
    rw [lastValue_cons, Option.or_eq_some_iff] at last
    rcases last with later | ⟨-, here⟩
    · obtain ⟨other, member, same⟩ := ih later
      exact ⟨other, List.mem_cons_of_mem _ member, same⟩
    · split at here
      next same =>
        exact ⟨entry, List.mem_cons_self, same, Option.some.inj here⟩
      next => cases here

theorem lastValue_eq_none_iff :
    lastValue key value entries wanted = none ↔ ∀ entry ∈ entries, key entry ≠ wanted := by
  induction entries with
  | nil => exact iff_of_true rfl fun _ => nofun
  | cons entry rest ih =>
    rw [lastValue_cons, Option.or_eq_none_iff, ih, List.forall_mem_cons, and_comm]
    simp

theorem lastValue_comp {Name : Type*} [DecidableEq Name] {rename : Key → Name}
    (apart : Function.Injective rename) (entries : List Entry) (wanted : Key) :
    lastValue (rename ∘ key) value entries (rename wanted) =
      lastValue key value entries wanted := by
  induction entries with
  | nil => rfl
  | cons entry rest ih =>
    simp only [lastValue_cons, ih, Function.comp_apply, apart.eq_iff]

theorem lastValue_map {Source : Type*} {sourceKey : Source → Key}
    {sourceValue : Source → Value} {entryOf : Source → Entry}
    {sources : List Source}
    (sameKey : ∀ source ∈ sources, key (entryOf source) = sourceKey source)
    (sameValue : ∀ source ∈ sources, value (entryOf source) = sourceValue source) (wanted : Key) :
    lastValue key value (sources.map entryOf) wanted =
      lastValue sourceKey sourceValue sources wanted := by
  induction sources with
  | nil => rfl
  | cons source rest ih =>
    rw [List.forall_mem_cons] at sameKey sameValue
    rw [List.map_cons, lastValue_cons, lastValue_cons, ih sameKey.2 sameValue.2,
      sameKey.1, sameValue.1]

theorem Unambiguous.lastValue_eq (one : Unambiguous key value entries) {entry : Entry}
    (member : entry ∈ entries) :
    lastValue key value entries (key entry) = some (value entry) := by
  cases last : lastValue key value entries (key entry) with
  | none => exact (lastValue_eq_none_iff.mp last entry member rfl).elim
  | some found =>
    obtain ⟨other, otherMember, same, rfl⟩ := mem_of_lastValue last
    rw [one other otherMember entry member same]

theorem Unambiguous.lastValue_perm {others : List Entry}
    (one : Unambiguous key value entries) (perm : others.Perm entries)
    (wanted : Key) :
    lastValue key value others wanted = lastValue key value entries wanted := by
  have otherOne : Unambiguous key value others := by
    intro first firstMember second secondMember
    exact one first (perm.mem_iff.mp firstMember) second (perm.mem_iff.mp secondMember)
  cases last : lastValue key value entries wanted with
  | none =>
    rw [lastValue_eq_none_iff] at last ⊢
    exact fun entry member => last entry (perm.mem_iff.mp member)
  | some found =>
    obtain ⟨entry, member, rfl, rfl⟩ := mem_of_lastValue last
    exact otherOne.lastValue_eq (perm.mem_iff.mpr member)

section Sorting

variable {Entry Key Value : Type*} [LinearOrder Key]
variable {key : Entry → Key} {value : Entry → Value}

def Sorted (key : Entry → Key) (entries : List Entry) : Prop :=
  entries.Pairwise fun first second => key first ≤ key second

structure Sorts (key : Entry → Key) (sort : List Entry → List Entry) :
    Prop where
  perm : ∀ entries, (sort entries).Perm entries
  sorted : ∀ entries, Sorted key (sort entries)

theorem sorts_mergeSort (key : Entry → Key) : Sorts key fun entries =>
      entries.mergeSort fun first second => decide (key first ≤ key second) where
  perm := fun entries => List.mergeSort_perm entries _
  sorted := by
    intro entries
    have sorted : (entries.mergeSort fun first second =>
        decide (key first ≤ key second)).Pairwise fun first second =>
          decide (key first ≤ key second) = true := by
      apply List.pairwise_mergeSort
      · intro first second third
        simpa using le_trans
      · intro first second
        simpa using le_total (key first) (key second)
    exact sorted.imp fun le => of_decide_eq_true le

def placeLast [DecidableEq Entry] (key : Entry → Key) (entry : Entry)
    (sort : List Entry → List Entry) (entries : List Entry) : List Entry :=
  if entry ∈ entries then
    let others := sort (entries.erase entry)
    others.filter (decide <| key · ≤ key entry) ++
      entry :: others.filter (decide <| key entry < key ·)
  else sort entries

variable {sort : List Entry → List Entry}

theorem Sorts.placeLast [DecidableEq Entry] (sorts : Sorts key sort) (entry : Entry) :
    Sorts key (placeLast key entry sort) where
  perm := by
    intro entries
    rw [KeyedAssignments.placeLast]
    split
    next member =>
      have rest := sorts.perm (entries.erase entry)
      have parts := List.filter_append_perm (decide <| key · ≤ key entry)
        (sort (entries.erase entry))
      simp only [← decide_not, not_le] at parts
      exact List.perm_middle.trans (((parts.trans rest).cons entry).trans
          (List.perm_cons_erase member).symm)
    next => exact sorts.perm entries
  sorted := by
    intro entries
    rw [KeyedAssignments.placeLast]
    split
    next =>
      have others := sorts.sorted (entries.erase entry)
      simp only [Sorted, List.pairwise_append, List.pairwise_cons,
        List.mem_filter, decide_eq_true_eq]
      refine ⟨others.filter _, ⟨fun other after => after.2.le, others.filter _⟩, ?_⟩
      rintro other ⟨-, before⟩ last member
      rcases List.mem_cons.mp member with rfl | after
      · exact before
      · simp only [List.mem_filter, decide_eq_true_eq] at after
        exact before.trans after.2.le
    next => exact sorts.sorted entries

theorem lastValue_placeLast [DecidableEq Entry]
    {entry : Entry} {entries : List Entry} (member : entry ∈ entries) :
    lastValue key value (placeLast key entry sort entries) (key entry) = some (value entry) := by
  have behind : lastValue key value
      ((sort (entries.erase entry)).filter (decide <| key entry < key ·))
      (key entry) = none := by
    rw [lastValue_eq_none_iff]
    intro other after
    simp only [List.mem_filter, decide_eq_true_eq] at after
    exact after.2.ne'
  simp only [placeLast, if_pos member]
  rw [lastValue_append, lastValue_cons, behind, if_pos rfl]
  rfl

theorem forall_sorts_iff [DecidableEq Entry] {Name : Type*} [DecidableEq Name]
    {name : Entry → Name} {rank : Name → Key} (apart : Function.Injective rank)
    (entries : List Entry) :
    (∀ sort, Sorts (rank ∘ name) sort → ∀ wanted, lastValue name value (sort entries) wanted =
        lastValue name value entries wanted) ↔
      Unambiguous name value entries := by
  constructor
  · intro same first firstMember second secondMember sameKey
    have last (entry : Entry) (member : entry ∈ entries) :
        lastValue name value entries (name entry) = some (value entry) := by
      rw [← same _ ((sorts_mergeSort (rank ∘ name)).placeLast entry) (name entry),
        ← lastValue_comp apart]
      exact lastValue_placeLast member
    have firstLast := last first firstMember
    rw [sameKey, last second secondMember] at firstLast
    exact (Option.some.inj firstLast).symm
  · intro one sort sorts wanted
    exact one.lastValue_perm (sorts.perm entries) wanted

end Sorting

end KeyedAssignments
