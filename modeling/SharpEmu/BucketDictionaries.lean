import Mathlib.Data.List.AList
import Mathlib.Data.UInt

/-!
# Dictionaries of stacks

A dictionary that keeps one stack of items per key.  Pushing and popping are
described by what they do to the items of all stacks together, as permutations,
so that counts and sums over the items follow from the library of lists.
-/

namespace SharpEmu
namespace Buckets

variable {Key Item : Type*} [DecidableEq Key]

abbrev Dictionary (Key Item : Type*) := AList fun _ : Key => List Item

def bucket (dictionary : Dictionary Key Item) (key : Key) : List Item :=
  (dictionary.lookup key).getD []

def push (dictionary : Dictionary Key Item) (key : Key) (item : Item) :
    Dictionary Key Item :=
  dictionary.insert key (item :: bucket dictionary key)

def pop (dictionary : Dictionary Key Item) (key : Key) : Option (Item × Dictionary Key Item) :=
  match dictionary.lookup key with
  | some (item :: rest) => some (item, dictionary.insert key rest)
  | _ => none

def items (dictionary : Dictionary Key Item) : List Item :=
  dictionary.entries.flatMap Sigma.snd

omit [DecidableEq Key] in
@[simp]
theorem items_empty : items (∅ : Dictionary Key Item) = [] :=
  rfl

theorem items_insert (dictionary : Dictionary Key Item) (key : Key) (stack : List Item) :
    items (dictionary.insert key stack) = stack ++ items (dictionary.erase key) :=
  rfl

theorem items_perm (dictionary : Dictionary Key Item) (key : Key) : (items dictionary).Perm
      (bucket dictionary key ++ items (dictionary.erase key)) := by
  by_cases present : key ∈ dictionary
  · obtain ⟨stack, front, back, missing, isSplit, isErased⟩ :=
      List.exists_of_kerase present
    have isStack : dictionary.lookup key = some stack := by
      rw [← Option.mem_def, AList.mem_lookup_iff, isSplit]
      simp
    have erased : (dictionary.erase key).entries = front ++ back := isErased
    simp only [items, bucket, isStack, erased, isSplit, Option.getD_some,
      List.flatMap_append, List.flatMap_cons]
    rw [← List.append_assoc, ← List.append_assoc]
    exact List.perm_append_comm.append_right _
  · have isNone := AList.lookup_eq_none.mpr present
    have unchanged : (dictionary.erase key).entries = dictionary.entries :=
      List.kerase_of_notMem_keys present
    simp [items, bucket, isNone, unchanged]

theorem items_insert_bucket (dictionary : Dictionary Key Item) (key : Key) :
    (items (dictionary.insert key (bucket dictionary key))).Perm (items dictionary) :=
  (items_perm dictionary key).symm

variable {dictionary : Dictionary Key Item} {key : Key} {item : Item} {stack : List Item}

theorem items_insert_cons (isAdded : stack.Perm (item :: bucket dictionary key)) :
    (items (dictionary.insert key stack)).Perm (item :: items dictionary) := by
  rw [items_insert]
  exact (isAdded.append_right _).trans ((items_perm dictionary key).symm.cons item)

theorem items_insert_rest {rest : List Item} (isBucket : bucket dictionary key = item :: rest) :
    (items dictionary).Perm (item :: items (dictionary.insert key rest)) := by
  rw [items_insert, ← List.cons_append, ← isBucket]
  exact items_perm dictionary key

theorem items_push (dictionary : Dictionary Key Item) (key : Key) (item : Item) :
    (items (push dictionary key item)).Perm (item :: items dictionary) := by
  exact items_insert_cons (List.Perm.refl _)

variable {after : Dictionary Key Item}

theorem pop_eq_some (pops : pop dictionary key = some (item, after)) :
    ∃ rest, bucket dictionary key = item :: rest ∧ after = dictionary.insert key rest := by
  unfold pop at pops
  split at pops
  · rename_i first rest isStack
    cases pops
    exact ⟨rest, by rw [bucket, isStack]; rfl, rfl⟩
  · cases pops

theorem items_pop (pops : pop dictionary key = some (item, after)) :
    (items dictionary).Perm (item :: items after) := by
  obtain ⟨rest, isBucket, rfl⟩ := pop_eq_some pops
  exact items_insert_rest isBucket

theorem length_items (dictionary : Dictionary Key Item) : (items dictionary).length =
      (dictionary.keys.map fun key => (bucket dictionary key).length).sum := by
  rw [items, List.length_flatMap, AList.keys, List.keys, List.map_map]
  congr 1
  apply List.map_congr_left
  intro entry isEntry
  have isStack : dictionary.lookup entry.1 = some entry.2 :=
    AList.mem_lookup_iff.mpr isEntry
  rw [Function.comp_apply, bucket, isStack]
  rfl

def KeyedBy (keyOf : Item → Key) (dictionary : Dictionary Key Item) : Prop :=
  ∀ key, ∀ item ∈ bucket dictionary key, keyOf item = key

theorem bucket_insert (dictionary : Dictionary Key Item) (key other : Key) (stack : List Item) :
    bucket (dictionary.insert key stack) other =
      if other = key then stack else bucket dictionary other := by
  unfold bucket
  split
  · rename_i same
    rw [same, AList.lookup_insert]
    rfl
  · rename_i different
    rw [AList.lookup_insert_ne different]

variable {keyOf : Item → Key}

theorem KeyedBy.insert (keyed : KeyedBy keyOf dictionary)
    (stackKeyed : ∀ item ∈ stack, keyOf item = key) :
    KeyedBy keyOf (dictionary.insert key stack) := by
  intro other item member
  rw [bucket_insert] at member
  split at member
  · rename_i same
    rw [same]
    exact stackKeyed item member
  · exact keyed other item member

theorem bucket_erase (dictionary : Dictionary Key Item) (key other : Key) :
    bucket (dictionary.erase key) other =
      if other = key then [] else bucket dictionary other := by
  unfold bucket
  split
  · rename_i same
    rw [same, AList.lookup_erase]
    rfl
  · rename_i different
    rw [AList.lookup_erase_ne different]

theorem KeyedBy.erase (keyed : KeyedBy keyOf dictionary) (key : Key) :
    KeyedBy keyOf (dictionary.erase key) := by
  intro other item member
  rw [bucket_erase] at member
  split at member
  · cases member
  · exact keyed other item member

theorem mem_items : item ∈ items dictionary ↔ ∃ key, item ∈ bucket dictionary key := by
  constructor
  · intro member
    obtain ⟨⟨key, stack⟩, isEntry, inStack⟩ := List.mem_flatMap.mp member
    refine ⟨key, ?_⟩
    rw [bucket, AList.mem_lookup_iff.mpr isEntry]
    exact inStack
  · rintro ⟨key, member⟩
    rw [(items_perm dictionary key).mem_iff]
    exact List.mem_append_left _ member

theorem items_erase (isBucket : bucket dictionary key = [item]) :
    (items dictionary).Perm (item :: items (dictionary.erase key)) := by
  have perm := items_perm dictionary key
  rw [isBucket] at perm
  exact perm

end Buckets
end SharpEmu
