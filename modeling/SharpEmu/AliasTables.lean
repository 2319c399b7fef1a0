import Mathlib.Logic.Function.Basic
import Mathlib.Data.Set.Subsingleton
import Mathlib.Tactic.Common

/-!
# Objects under several keys

A table keeps objects, numbered in the order in which they were made, and lets keys
refer to them.  Several keys may refer to one object.  An object that no key refers
to is retired: keys are only given to new objects or copied from other keys, so
none comes to refer to it again.
-/

namespace SharpEmu

@[ext]
structure AliasTable (Key State : Type*) where
  objects : List State
  keys : Key → Option ℕ
  /-- Keys refer to objects that were made. -/
  made : ∀ {key object}, keys key = some object → object < objects.length

namespace AliasTable

variable {Key State : Type*}

def empty : AliasTable Key State := ⟨[], fun _ => none, nofun⟩

def modify (table : AliasTable Key State) (object : ℕ) (change : State → State) :
    AliasTable Key State where
  objects := table.objects.modify object change
  keys := table.keys
  made isObject := by
    rw [List.length_modify]
    exact table.made isObject

variable [DecidableEq Key]

/-- Make an object under two keys. -/
def create (table : AliasTable Key State) (key handle : Key) (state : State) :
    AliasTable Key State where
  objects := table.objects ++ [state]
  keys := Function.update (Function.update table.keys key (some table.objects.length))
    handle (some table.objects.length)
  made {other object} isObject := by
    rw [List.length_append, List.length_singleton, Nat.lt_succ_iff]
    rw [Function.update_apply, Function.update_apply] at isObject
    split_ifs at isObject
    · exact le_of_eq (Option.some.inj isObject).symm
    · exact le_of_eq (Option.some.inj isObject).symm
    · exact (table.made isObject).le

def link (table : AliasTable Key State) (key source : Key) : AliasTable Key State where
  objects := table.objects
  keys := Function.update table.keys key (table.keys source)
  made {other object} isObject := by
    rw [Function.update_apply] at isObject
    split_ifs at isObject
    · exact table.made isObject
    · exact table.made isObject

def erase (table : AliasTable Key State) (key : Key) : AliasTable Key State where
  objects := table.objects
  keys := Function.update table.keys key none
  made {other object} isObject := by
    rw [Function.update_apply] at isObject
    split_ifs at isObject
    exact table.made isObject

@[simp]
theorem keys_create (table : AliasTable Key State) (key handle other : Key) (state : State) :
    (table.create key handle state).keys other =
      if other = handle ∨ other = key then some table.objects.length
      else table.keys other := by
  change Function.update (Function.update _ _ _) _ _ other = _
  rw [Function.update_apply, Function.update_apply]
  grind

@[simp]
theorem keys_link (table : AliasTable Key State) (key source other : Key) :
    (table.link key source).keys other =
      if other = key then table.keys source else table.keys other :=
  Function.update_apply _ _ _ _

@[simp]
theorem keys_erase (table : AliasTable Key State) (key other : Key) :
    (table.erase key).keys other = if other = key then none else table.keys other :=
  Function.update_apply _ _ _ _

theorem erase_of_absent {table : AliasTable Key State} {key : Key}
    (absent : table.keys key = none) : table.erase key = table := by
  ext1
  · rfl
  · funext other
    rw [keys_erase]
    split
    · next same => rw [same, absent]
    · rfl

/-! ## Retired objects

Some keys may be of no use: they are never looked up.
-/

section Retired

variable (usable : Key → Prop)

def Retired (table : AliasTable Key State) (object : ℕ) : Prop :=
  object < table.objects.length ∧ ∀ key, usable key → table.keys key ≠ some object

def KeepsRetired (before after : AliasTable Key State) : Prop :=
  ∀ object, before.Retired usable object → after.Retired usable object

variable {usable}

omit [DecidableEq Key] in
theorem KeepsRetired.refl (table : AliasTable Key State) :
    KeepsRetired usable table table :=
  fun _ retired => retired

omit [DecidableEq Key] in
theorem KeepsRetired.trans {before between after : AliasTable Key State}
    (first : KeepsRetired usable before between)
    (second : KeepsRetired usable between after) : KeepsRetired usable before after :=
  fun object retired => second object (first object retired)

variable (table : AliasTable Key State)

omit [DecidableEq Key] in
theorem keepsRetired_modify (object : ℕ) (change : State → State) :
    KeepsRetired usable table (table.modify object change) := by
  rintro other ⟨made, unused⟩
  refine ⟨?_, unused⟩
  change other < (table.objects.modify object change).length
  rw [List.length_modify]
  exact made

theorem keepsRetired_create (key handle : Key) (state : State) :
    KeepsRetired usable table (table.create key handle state) := by
  rintro object ⟨made, unused⟩
  constructor
  · change object < (table.objects ++ [state]).length
    rw [List.length_append]
    omega
  · intro other isUsable refers
    rw [keys_create] at refers
    split at refers
    · exact absurd (Option.some.inj refers) made.ne'
    · exact unused other isUsable refers

theorem keepsRetired_link (key : Key) {source : Key} (isUsable : usable source) :
    KeepsRetired usable table (table.link key source) := by
  rintro object ⟨made, unused⟩
  refine ⟨made, fun other otherUsable refers => ?_⟩
  rw [keys_link] at refers
  split at refers
  · exact unused source isUsable refers
  · exact unused other otherUsable refers

theorem keepsRetired_erase (key : Key) : KeepsRetired usable table (table.erase key) := by
  rintro object ⟨made, unused⟩
  refine ⟨made, fun other isUsable refers => ?_⟩
  rw [keys_erase] at refers
  split at refers
  · cases refers
  · exact unused other isUsable refers

variable {table}

theorem retired_erase_iff {key : Key} {object : ℕ} (refers : table.keys key = some object) :
    (table.erase key).Retired usable object ↔
      ∀ other, usable other → table.keys other = some object → other = key := by
  constructor
  · rintro ⟨-, unused⟩ other isUsable otherRefers
    by_contra different
    apply unused other isUsable
    rw [keys_erase, if_neg different]
    exact otherRefers
  · intro onlyKey
    refine ⟨table.made refers, fun other isUsable otherRefers => ?_⟩
    rw [keys_erase] at otherRefers
    split_ifs at otherRefers with same
    exact same (onlyKey other isUsable otherRefers)

end Retired

end AliasTable

end SharpEmu
