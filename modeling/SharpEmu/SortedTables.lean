import Mathlib.Data.List.Pairwise
import Mathlib.Data.UInt

/-!
# Tables sorted by a key

A table keeps its entries in strictly ascending key order, so a key identifies
at most one entry.  Assigning an entry replaces the one with the same key.  The
order is carried by the structure; the lemmas below describe each operation by
membership, by lookup, or as a permutation of the entries.
-/

namespace SharpEmu

structure SortedTable {Key Entry : Type*} [LinearOrder Key]
    (key : Entry → Key) where
  entries : List Entry
  ascending : entries.Pairwise fun first second => key first < key second

namespace SortedTable

variable {Key Entry : Type*} [LinearOrder Key] {key : Entry → Key}

@[ext]
theorem ext {first second : SortedTable key}
    (same : first.entries = second.entries) : first = second := by
  cases first
  cases second
  congr

instance [DecidableEq Entry] : DecidableEq (SortedTable key) :=
  fun first second =>
    decidable_of_iff (first.entries = second.entries)
      ⟨SortedTable.ext, congrArg SortedTable.entries⟩

def empty : SortedTable key := ⟨[], List.Pairwise.nil⟩

@[simp]
theorem entries_empty : (empty : SortedTable key).entries = [] := rfl

/-- Place an entry in ascending order, replacing an entry with its key. -/
def insertAscending (key : Entry → Key) (entry : Entry) : List Entry → List Entry
  | [] => [entry]
  | head :: rest =>
      if key entry < key head then entry :: head :: rest
      else if key head < key entry then
        head :: insertAscending key entry rest
      else entry :: rest

variable {entry other : Entry} {entries : List Entry}

private theorem mem_insertAscending (member : other ∈ insertAscending key entry entries) :
    other = entry ∨ other ∈ entries := by
  induction entries with
  | nil => simpa [insertAscending] using member
  | cons head rest ih =>
    simp only [insertAscending] at member
    split at member
    · simpa using member
    · split at member
      · rcases List.mem_cons.mp member with rfl | later
        · simp
        · rcases ih later with same | old
          · exact Or.inl same
          · exact Or.inr (List.mem_cons_of_mem _ old)
      · rcases List.mem_cons.mp member with same | old
        · exact Or.inl same
        · exact Or.inr (List.mem_cons_of_mem _ old)

private theorem insertAscending_ascending (entry : Entry)
    (ascending : entries.Pairwise fun first second =>
      key first < key second) :
    (insertAscending key entry entries).Pairwise fun first second =>
      key first < key second := by
  induction entries with
  | nil => exact List.pairwise_singleton _ _
  | cons head rest ih =>
    obtain ⟨headBelow, restAscending⟩ := List.pairwise_cons.mp ascending
    simp only [insertAscending]
    split
    case isTrue below =>
      refine List.pairwise_cons.mpr ⟨?_, ascending⟩
      intro other member
      rcases List.mem_cons.mp member with rfl | later
      · exact below
      · exact below.trans (headBelow other later)
    case isFalse notBelow =>
      split
      case isTrue above =>
        refine List.pairwise_cons.mpr ⟨?_, ih restAscending⟩
        intro other member
        rcases mem_insertAscending member with rfl | old
        · exact above
        · exact headBelow other old
      case isFalse notAbove =>
        have sameKey : key entry = key head :=
          le_antisymm (not_lt.mp notAbove) (not_lt.mp notBelow)
        refine List.pairwise_cons.mpr ⟨?_, restAscending⟩
        intro other member
        exact sameKey ▸ headBelow other member

private theorem insertAscending_perm (entry : Entry)
    (ascending : entries.Pairwise fun first second =>
      key first < key second) :
    (insertAscending key entry entries).Perm
      (entry :: entries.filter fun other => key other ≠ key entry) := by
  induction entries with
  | nil => exact List.Perm.refl _
  | cons head rest ih =>
    obtain ⟨headBelow, restAscending⟩ := List.pairwise_cons.mp ascending
    have restKept (atMost : key entry ≤ key head) :
        (rest.filter fun other => key other ≠ key entry) = rest := by
      refine List.filter_eq_self.mpr fun other member => ?_
      simpa using (atMost.trans_lt (headBelow other member)).ne'
    simp only [insertAscending]
    split
    case isTrue below =>
      rw [List.filter_cons_of_pos (by simpa using below.ne'), restKept below.le]
    case isFalse notBelow =>
      split
      case isTrue above =>
        rw [List.filter_cons_of_pos (by simpa using above.ne)]
        exact ((ih restAscending).cons head).trans (List.Perm.swap _ _ _)
      case isFalse notAbove =>
        have sameKey : key head = key entry :=
          le_antisymm (not_lt.mp notBelow) (not_lt.mp notAbove)
        rw [List.filter_cons_of_neg (by simpa using sameKey), restKept sameKey.ge]

def set (table : SortedTable key) (entry : Entry) : SortedTable key :=
  ⟨insertAscending key entry table.entries, insertAscending_ascending entry table.ascending⟩

def remove (table : SortedTable key) (wanted : Key) : SortedTable key :=
  ⟨table.entries.filter fun entry => key entry ≠ wanted, table.ascending.filter _⟩

def get? (table : SortedTable key) (wanted : Key) : Option Entry :=
  table.entries.find? fun entry => key entry = wanted

def lastBelow? (table : SortedTable key) (bound : Key) : Option Entry :=
  (table.entries.filter fun entry => key entry < bound).getLast?

def firstFrom? (table : SortedTable key) (bound : Key) : Option Entry :=
  table.entries.find? fun entry => bound ≤ key entry

theorem nodup (table : SortedTable key) : table.entries.Nodup :=
  table.ascending.imp fun below same => absurd (congrArg key same) below.ne

theorem perm_set (table : SortedTable key) (entry : Entry) : (table.set entry).entries.Perm
      (entry :: (table.remove (key entry)).entries) :=
  insertAscending_perm entry table.ascending

variable {table : SortedTable key} {wanted : Key}

@[simp]
theorem mem_remove :
    entry ∈ (table.remove wanted).entries ↔ entry ∈ table.entries ∧ key entry ≠ wanted := by
  simp [remove]

@[simp]
theorem mem_set : other ∈ (table.set entry).entries ↔
      other = entry ∨ other ∈ table.entries ∧ key other ≠ key entry := by
  rw [(table.perm_set entry).mem_iff, List.mem_cons, mem_remove]

theorem eq_of_key_eq {first second : Entry}
    (firstMem : first ∈ table.entries) (secondMem : second ∈ table.entries)
    (sameKey : key first = key second) : first = second := by
  by_contra different
  have symmetric : Std.Symm fun first second : Entry =>
      key first ≠ key second := ⟨fun _ _ => Ne.symm⟩
  exact (table.ascending.imp ne_of_lt).forall firstMem secondMem different sameKey

theorem get?_eq_some :
    table.get? wanted = some entry ↔ entry ∈ table.entries ∧ key entry = wanted := by
  constructor
  · intro found
    exact ⟨List.mem_of_find?_eq_some found,
      by simpa using List.find?_some found⟩
  · rintro ⟨member, rfl⟩
    cases lookup : table.get? (key entry) with
    | none =>
      have absent := List.find?_eq_none.mp lookup entry member
      simp at absent
    | some found =>
      have foundKey : key found = key entry := by
        simpa using List.find?_some lookup
      rw [eq_of_key_eq (List.mem_of_find?_eq_some lookup) member foundKey]

theorem get?_eq_none : table.get? wanted = none ↔ ∀ entry ∈ table.entries, key entry ≠ wanted := by
  simp [get?]

private theorem perm_cons_filter (ascending : entries.Pairwise fun first second =>
      key first < key second) (member : entry ∈ entries) :
    entries.Perm (entry :: entries.filter fun other => key other ≠ key entry) := by
  induction entries with
  | nil => cases member
  | cons head rest ih =>
    obtain ⟨headBelow, restAscending⟩ := List.pairwise_cons.mp ascending
    rcases List.mem_cons.mp member with rfl | later
    · rw [List.filter_cons_of_neg (by simp), List.filter_eq_self.mpr fun other otherMem => by
          simpa using (headBelow other otherMem).ne']
    · rw [List.filter_cons_of_pos (by simpa using (headBelow entry later).ne)]
      exact ((ih restAscending later).cons head).trans (List.Perm.swap _ _ _)

/-- A stored entry can be taken out in front of the remaining ones. -/
theorem perm_of_mem (member : entry ∈ table.entries) :
    table.entries.Perm (entry :: (table.remove (key entry)).entries) :=
  perm_cons_filter table.ascending member

theorem remove_of_absent (absent : ∀ entry ∈ table.entries, key entry ≠ wanted) :
    table.remove wanted = table := by
  refine SortedTable.ext (List.filter_eq_self.mpr fun entry member => ?_)
  simpa using absent entry member

/-- Replacing an entry by one of its key changes no value that the two share. -/
theorem map_entries_set {Value : Type*} {value : Entry → Value}
    {old : Entry} (member : old ∈ table.entries)
    (sameKey : key entry = key old) (same : value entry = value old) :
    (table.set entry).entries.map value = table.entries.map value := by
  obtain ⟨entries, ascending⟩ := table
  simp only [set] at member ⊢
  induction entries with
  | nil => cases member
  | cons head rest ih =>
    obtain ⟨headBelow, restAscending⟩ := List.pairwise_cons.mp ascending
    rcases List.mem_cons.mp member with rfl | later
    · simp [insertAscending, sameKey, same]
    · have above : key head < key entry := sameKey ▸ headBelow old later
      rw [insertAscending, if_neg above.le.not_gt, if_pos above, List.map_cons,
        ih restAscending later, List.map_cons]

theorem get?_set (table : SortedTable key) (entry : Entry) (wanted : Key) :
    (table.set entry).get? wanted =
      if wanted = key entry then some entry else table.get? wanted := by
  apply Option.ext
  intro found
  rw [get?_eq_some, mem_set]
  split
  case isTrue sameKey =>
    subst sameKey
    grind
  case isFalse otherKey =>
    rw [get?_eq_some]
    grind

theorem get?_remove (table : SortedTable key) (removed wanted : Key) :
    (table.remove removed).get? wanted =
      if wanted = removed then none else table.get? wanted := by
  apply Option.ext
  intro found
  rw [get?_eq_some, mem_remove]
  split
  case isTrue sameKey => grind
  case isFalse otherKey =>
    rw [get?_eq_some]
    grind

@[simp]
theorem get?_empty (wanted : Key) : (empty : SortedTable key).get? wanted = none := rfl

variable {bound : Key}

theorem lastBelow?_spec (found : table.lastBelow? bound = some entry) :
    entry ∈ table.entries ∧ key entry < bound ∧
      ∀ other ∈ table.entries, key other < bound → key other ≤ key entry := by
  obtain ⟨earlier, split⟩ := List.getLast?_eq_some_iff.mp found
  have member : entry ∈ table.entries.filter fun other => key other < bound := by
    rw [split]
    simp
  obtain ⟨stored, below⟩ := List.mem_filter.mp member
  refine ⟨stored, by simpa using below, fun other otherStored otherBelow => ?_⟩
  have otherMember : other ∈ earlier ++ [entry] := by
    rw [← split]
    exact List.mem_filter.mpr ⟨otherStored, by simpa using otherBelow⟩
  have ascending := table.ascending.filter fun other => key other < bound
  rw [split] at ascending
  rcases List.mem_append.mp otherMember with isEarlier | isLast
  · exact ((List.pairwise_append.mp ascending).2.2 other isEarlier entry
      (List.mem_singleton.mpr rfl)).le
  · rw [List.mem_singleton.mp isLast]

theorem lastBelow?_eq_none (notFound : table.lastBelow? bound = none) :
    ∀ entry ∈ table.entries, bound ≤ key entry := by
  simpa [lastBelow?, List.getLast?_eq_none_iff, List.filter_eq_nil_iff] using notFound

theorem firstFrom?_spec (found : table.firstFrom? bound = some entry) :
    entry ∈ table.entries ∧ bound ≤ key entry ∧
      ∀ other ∈ table.entries, bound ≤ key other → key entry ≤ key other := by
  obtain ⟨atOrAbove, earlier, later, split, earlierBelow⟩ :=
    List.find?_eq_some_iff_append.mp found
  refine ⟨List.mem_of_find?_eq_some found, by simpa using atOrAbove,
    fun other otherStored otherAbove => ?_⟩
  have ascending := table.ascending
  rw [split] at otherStored ascending
  rcases List.mem_append.mp otherStored with isEarlier | isLater
  · have notAbove := earlierBelow other isEarlier
    simp [otherAbove] at notAbove
  · rcases List.mem_cons.mp isLater with rfl | afterEntry
    · exact le_rfl
    · exact ((List.pairwise_cons.mp (List.pairwise_append.mp ascending).2.1).1 other afterEntry).le

theorem firstFrom?_eq_none (notFound : table.firstFrom? bound = none) :
    ∀ entry ∈ table.entries, key entry < bound := by
  simpa [firstFrom?] using notFound

theorem entries_foldl_remove (removed : List Entry) (table : SortedTable key) :
    (removed.foldl (fun table entry => table.remove (key entry)) table).entries =
      table.entries.filter fun entry => ∀ other ∈ removed, key entry ≠ key other := by
  induction removed generalizing table with
  | nil => exact (List.filter_eq_self.mpr (by simp)).symm
  | cons first rest ih =>
    rw [List.foldl_cons, ih, remove, List.filter_filter]
    apply List.filter_congr
    intro entry _
    simp [Bool.and_comm]

end SortedTable
end SharpEmu
