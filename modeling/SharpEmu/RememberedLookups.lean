import Mathlib.Data.Finset.Basic
import Mathlib.Data.Set.Basic
import Mathlib.Tactic.Common

/-!
# Remembered lookups

A store is looked up by names.  A negative cache remembers keys of names that led
nowhere, and several names may share a key; a value cache remembers what a key
held.  Each is right while it agrees with the store as it is now, and stays right
when the store changes under names that it has forgotten.
-/

namespace SharpEmu

section Misses

variable {Name Key : Type*}

def HasMissed (keyOf : Name → Option Key) (misses : Finset Key) (name : Name) :
    Prop :=
  ∃ key, keyOf name = some key ∧ key ∈ misses

/-- Names with a remembered key are absent. -/
def MissesRight (keyOf : Name → Option Key) (misses : Finset Key)
    (isPresent : Name → Prop) : Prop :=
  ∀ name, HasMissed keyOf misses name → ¬isPresent name

variable {keyOf : Name → Option Key} {misses fewer : Finset Key}
variable {isPresent isPresentAfter : Name → Prop}

theorem MissesRight.empty (keyOf : Name → Option Key)
    (isPresent : Name → Prop) : MissesRight keyOf ∅ isPresent := by
  rintro name ⟨key, -, member⟩
  exact absurd member (Finset.notMem_empty key)

theorem HasMissed.mono {name : Name} (missed : HasMissed keyOf fewer name)
    (included : fewer ⊆ misses) : HasMissed keyOf misses name := by
  obtain ⟨key, isKey, member⟩ := missed
  exact ⟨key, isKey, included member⟩

theorem MissesRight.mono (right : MissesRight keyOf misses isPresent)
    (included : fewer ⊆ misses) : MissesRight keyOf fewer isPresent :=
  fun name missed => right name (missed.mono included)

/-- The store changes: no name that is still remembered appears. -/
theorem MissesRight.change (right : MissesRight keyOf misses isPresent) (included : fewer ⊆ misses)
    (stayAbsent : ∀ name, HasMissed keyOf fewer name → ¬isPresent name → ¬isPresentAfter name) :
    MissesRight keyOf fewer isPresentAfter := by
  intro name missed
  exact stayAbsent name missed (right name (missed.mono included))

theorem MissesRight.insert [DecidableEq Key] {added : Key}
    (right : MissesRight keyOf misses isPresent)
    (absent : ∀ name, keyOf name = some added → ¬isPresent name) :
    MissesRight keyOf (Insert.insert added misses) isPresent := by
  rintro name ⟨key, isKey, member⟩
  rcases Finset.mem_insert.mp member with rfl | earlier
  · exact absent name isKey
  · exact right name ⟨key, isKey, earlier⟩

end Misses

section Values

variable {Key Value : Type*}

def ValuesRight (remembered valueOf : Key → Option Value) : Prop :=
  ∀ key value, remembered key = some value → valueOf key = some value

variable {remembered fewer valueOf valueAfter : Key → Option Value}

theorem ValuesRight.empty (valueOf : Key → Option Value) : ValuesRight (fun _ => none) valueOf := by
  intro key value holds
  cases holds

theorem ValuesRight.change (right : ValuesRight remembered valueOf)
    (included : ∀ key value, fewer key = some value → remembered key = some value)
    (keeps : ∀ key value, fewer key = some value →
      valueOf key = some value → valueAfter key = some value) :
    ValuesRight fewer valueAfter := by
  intro key value holds
  exact keeps key value holds (right key value (included key value holds))

variable [DecidableEq Key]

variable {key : Key} {value : Value}

theorem ValuesRight.insert (right : ValuesRight remembered valueOf)
    (isValue : valueOf key = some value) :
    ValuesRight (Function.update remembered key (some value)) valueOf := by
  intro other found holds
  by_cases same : other = key
  · subst same
    rw [Function.update_self] at holds
    rw [isValue, holds]
  · rw [Function.update_of_ne same] at holds
    exact right other found holds

theorem ne_of_update_none {other : Key}
    (holds : Function.update remembered key none other = some value) :
    other ≠ key ∧ remembered other = some value := by
  by_cases same : other = key
  · subst same
    rw [Function.update_self] at holds
    cases holds
  · rw [Function.update_of_ne same] at holds
    exact ⟨same, holds⟩

end Values

end SharpEmu
