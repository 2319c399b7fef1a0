import Mathlib.Data.List.OfFn
import Mathlib.Data.Nat.ModEq
import Mathlib.Tactic.Common

/-!
# Ring buffers

A queue kept in an array: its items start at the head and wrap around at the end of
the array.  A full array is replaced by a larger one, into which the items are copied
from its start.
-/

namespace SharpEmu

structure RingBuffer (Item : Type*) where
  items : Array Item
  head : ℕ
  count : ℕ
  head_lt : head < items.size
  count_le : count ≤ items.size

namespace RingBuffer

variable {Item : Type*}

theorem size_pos (ring : RingBuffer Item) : 0 < ring.items.size :=
  Nat.zero_lt_of_lt ring.head_lt

/-- Where the array keeps the item at a position of the queue. -/
def slot (ring : RingBuffer Item) (index : ℕ) : ℕ :=
  (ring.head + index) % ring.items.size

theorem slot_lt (ring : RingBuffer Item) (index : ℕ) : ring.slot index < ring.items.size :=
  Nat.mod_lt _ ring.size_pos

/-- The position after a whole round is the same one again, and not before. -/
theorem slot_inj (ring : RingBuffer Item) {first second : ℕ} (firstLt : first < ring.items.size)
    (secondLt : second < ring.items.size) :
    ring.slot first = ring.slot second ↔ first = second := by
  constructor
  · intro same
    have congruent : first ≡ second [MOD ring.items.size] :=
      Nat.ModEq.add_left_cancel' ring.head same
    rwa [Nat.ModEq, Nat.mod_eq_of_lt firstLt, Nat.mod_eq_of_lt secondLt] at congruent
  · rintro rfl
    rfl

def get (ring : RingBuffer Item) (index : ℕ) : Item :=
  have bound := ring.slot_lt index
  ring.items[ring.slot index]

theorem getElem?_slot (ring : RingBuffer Item) (index : ℕ) :
    ring.items[ring.slot index]? = some (ring.get index) :=
  Array.getElem?_eq_getElem (ring.slot_lt index)

def set (ring : RingBuffer Item) (index : ℕ) (item : Item) : RingBuffer Item where
  items := ring.items.set (ring.slot index) item (ring.slot_lt index)
  head := ring.head
  count := ring.count
  head_lt := by
    rw [Array.size_set]
    exact ring.head_lt
  count_le := by
    rw [Array.size_set]
    exact ring.count_le

def contents (ring : RingBuffer Item) : List Item :=
  List.ofFn fun index : Fin ring.count => ring.get index

@[simp]
theorem length_contents (ring : RingBuffer Item) : ring.contents.length = ring.count :=
  List.length_ofFn

theorem getElem?_contents (ring : RingBuffer Item) (index : ℕ) :
    ring.contents[index]? = if index < ring.count then some (ring.get index) else none := by
  rw [contents, List.getElem?_ofFn]
  split <;> rfl

variable {ring : RingBuffer Item}

theorem contents_eq {list : List Item} (sameLength : ring.count = list.length)
    (sameItems : ∀ index < ring.count, list[index]? = some (ring.get index)) :
    ring.contents = list := by
  ext1 index
  rw [getElem?_contents]
  split
  · next inside => exact (sameItems index inside).symm
  · next outside => rw [List.getElem?_eq_none (by omega)]

variable {index : ℕ}

theorem get_set (ring : RingBuffer Item) {other : ℕ} (item : Item)
    (indexLt : index < ring.items.size) (otherLt : other < ring.items.size) :
    (ring.set index item).get other = if other = index then item else ring.get other := by
  have sameSlot : (ring.set index item).slot other = ring.slot other := by
    unfold slot set
    rw [Array.size_set]
  rw [← Option.some_inj, ← getElem?_slot, sameSlot]
  change (ring.items.set (ring.slot index) item (ring.slot_lt index))[ring.slot other]? = _
  rw [Array.getElem?_set, getElem?_slot]
  simp only [ring.slot_inj indexLt otherLt, eq_comm, apply_ite some]

theorem contents_set (ring : RingBuffer Item) (item : Item) (inside : index < ring.count) :
    (ring.set index item).contents = ring.contents.set index item := by
  have fits := ring.count_le
  apply contents_eq
  · rw [List.length_set, length_contents]
    rfl
  · intro other otherInside
    change other < ring.count at otherInside
    rw [List.getElem?_set, getElem?_contents, length_contents,
      ring.get_set item (by omega) (by omega)]
    grind

/-! ## Adding an item -/

def copyTo (ring : RingBuffer Item) (grown : Array Item) : ℕ → Array Item
  | 0 => grown
  | index + 1 => (ring.copyTo grown index).setIfInBounds index (ring.get index)

@[simp]
theorem size_copyTo (ring : RingBuffer Item) (grown : Array Item) (index : ℕ) :
    (ring.copyTo grown index).size = grown.size := by
  induction index with
  | zero => rfl
  | succ index ih => rw [copyTo, Array.size_setIfInBounds, ih]

theorem getElem?_copyTo (ring : RingBuffer Item) (grown : Array Item) {total : ℕ}
    (inside : index < total) (fits : total ≤ grown.size) :
    (ring.copyTo grown total)[index]? = some (ring.get index) := by
  induction total with
  | zero => exact absurd inside (Nat.not_lt_zero _)
  | succ total ih =>
    rw [copyTo, Array.getElem?_setIfInBounds, size_copyTo]
    split
    · next same =>
      rw [if_pos (by omega), same]
    · next different => exact ih (by omega) (by omega)

/-- The same queue in an array of twice the size. -/
def grown (blank : Item) (ring : RingBuffer Item) : RingBuffer Item where
  items := ring.copyTo (Array.replicate (ring.items.size * 2) blank) ring.count
  head := 0
  count := ring.count
  head_lt := by
    have positive := ring.size_pos
    rw [size_copyTo, Array.size_replicate]
    omega
  count_le := by
    have fits := ring.count_le
    rw [size_copyTo, Array.size_replicate]
    omega

@[simp]
theorem size_grown (blank : Item) (ring : RingBuffer Item) :
    (ring.grown blank).items.size = ring.items.size * 2 := by
  unfold grown
  rw [size_copyTo, Array.size_replicate]

theorem contents_grown (blank : Item) (ring : RingBuffer Item) :
    (ring.grown blank).contents = ring.contents := by
  have fits := ring.count_le
  apply contents_eq
  · rw [length_contents]
    rfl
  · intro index inside
    change index < ring.count at inside
    have straight : (ring.grown blank).slot index = index := by
      unfold slot
      rw [size_grown]
      change (0 + index) % _ = index
      rw [Nat.zero_add, Nat.mod_eq_of_lt (by omega)]
    have copied : (ring.grown blank).items[index]? = some (ring.get index) := by
      apply ring.getElem?_copyTo _ inside
      rw [Array.size_replicate]
      omega
    rw [getElem?_contents, if_pos inside, ← getElem?_slot (ring.grown blank), straight, copied]

def withRoom (blank : Item) (ring : RingBuffer Item) :
    { roomy : RingBuffer Item // roomy.count < roomy.items.size } :=
  if full : ring.count = ring.items.size then
    ⟨ring.grown blank, by
      have positive := ring.size_pos
      rw [size_grown]
      change ring.count < _
      omega⟩
  else ⟨ring, Nat.lt_of_le_of_ne ring.count_le full⟩

theorem contents_withRoom (blank : Item) (ring : RingBuffer Item) :
    (ring.withRoom blank).1.contents = ring.contents := by
  unfold withRoom
  split
  · exact contents_grown blank ring
  · rfl

def putLast (item : Item) (ring : RingBuffer Item) (room : ring.count < ring.items.size) :
    RingBuffer Item where
  items := (ring.set ring.count item).items
  head := ring.head
  count := ring.count + 1
  head_lt := (ring.set ring.count item).head_lt
  count_le := by
    unfold set
    rw [Array.size_set]
    exact room

theorem contents_putLast (item : Item) (ring : RingBuffer Item)
    (room : ring.count < ring.items.size) :
    (ring.putLast item room).contents = ring.contents ++ [item] := by
  apply contents_eq
  · rw [List.length_append, length_contents]
    rfl
  · intro index inside
    change index < ring.count + 1 at inside
    change _ = some ((ring.set ring.count item).get index)
    rw [get_set ring item room (by omega), List.getElem?_append, getElem?_contents, length_contents]
    split
    · rw [if_neg (by omega)]
    · next isLast =>
      have same : index = ring.count := by omega
      rw [if_pos same, same, Nat.sub_self]
      rfl

def addLast (blank : Item) (ring : RingBuffer Item) (item : Item) : RingBuffer Item :=
  (ring.withRoom blank).1.putLast item (ring.withRoom blank).2

theorem contents_addLast (blank : Item) (ring : RingBuffer Item) (item : Item) :
    (ring.addLast blank item).contents = ring.contents ++ [item] := by
  rw [addLast, contents_putLast, contents_withRoom]

/-! ## Removing the first item -/

def removeFirst (ring : RingBuffer Item) : RingBuffer Item where
  items := ring.items
  head := (ring.head + 1) % ring.items.size
  count := ring.count - 1
  head_lt := Nat.mod_lt _ ring.size_pos
  count_le := (Nat.sub_le _ _).trans ring.count_le

theorem contents_removeFirst (ring : RingBuffer Item) :
    ring.removeFirst.contents = ring.contents.tail := by
  apply contents_eq
  · rw [List.length_tail, length_contents]
    rfl
  · intro index inside
    change index < ring.count - 1 at inside
    have next : ring.removeFirst.slot index = ring.slot (index + 1) := by
      change ((ring.head + 1) % ring.items.size + index) % ring.items.size = _
      rw [Nat.mod_add_mod, Nat.add_right_comm]
      rfl
    rw [List.getElem?_tail, getElem?_contents, if_pos (by omega), ← getElem?_slot,
      ← getElem?_slot, next]
    rfl

theorem contents_eq_cons (nonempty : 0 < ring.count) :
    ring.contents = ring.get 0 :: ring.removeFirst.contents := by
  have isFirst := getElem?_contents ring 0
  rw [if_pos nonempty] at isFirst
  rw [contents_removeFirst]
  cases isContents : ring.contents with
  | nil =>
    rw [isContents] at isFirst
    cases isFirst
  | cons first rest =>
    rw [isContents] at isFirst
    rw [List.tail_cons, ← Option.some.inj isFirst]

end RingBuffer

end SharpEmu
