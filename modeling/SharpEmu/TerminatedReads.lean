import Mathlib.Data.List.TakeWhile
import Mathlib.Tactic.Common

/-!
# Reading up to a terminator

Symbols are read one by one until a terminator, a limit, or a unit that cannot be
read.  A chunk of readable units can be read at once: it either contains the
terminator, or the reading goes on behind it.
-/

namespace SharpEmu.TerminatedReads

variable {Symbol : Type} (isEnd : Symbol → Bool)

/-- Read at most `count` units from an index on; the answer is the units in
front of the terminator, and whether there was one. -/
def readUntil (unitAt : ℕ → Option Symbol) : ℕ → ℕ → Option (List Symbol × Bool)
  | 0, _ => some ([], false)
  | count + 1, index =>
      match unitAt index with
      | none => none
      | some unit =>
          if isEnd unit then some ([], true)
          else (readUntil unitAt count (index + 1)).map
            fun rest => (unit :: rest.1, rest.2)

/-- The units of a chunk in front of its first terminator, and whether it has
one. -/
def splitAtEnd (chunk : List Symbol) : List Symbol × Bool :=
  (chunk.takeWhile fun unit => !isEnd unit, chunk.any isEnd)

def unitsRead (answer : List Symbol × Bool) : ℕ :=
  answer.1.length + answer.2.toNat

variable {isEnd} {unitAt : ℕ → Option Symbol}

variable {count index : ℕ}

theorem unitsRead_pos {answer : List Symbol × Bool}
    (isRead : readUntil isEnd unitAt (count + 1) index = some answer) :
    0 < unitsRead answer := by
  unfold readUntil at isRead
  split at isRead
  · cases isRead
  · split at isRead
    · cases isRead
      exact Nat.one_pos
    · obtain ⟨rest, _, rfl⟩ := Option.map_eq_some_iff.mp isRead
      simp only [unitsRead, List.length_cons]
      omega

theorem readUntil_of_unreadable (unreadable : unitAt index = none) :
    readUntil isEnd unitAt (count + 1) index = none := by
  rw [readUntil, unreadable]

theorem readUntil_past_end {limit : ℕ} (more : index < limit) (unreadable : unitAt index = none) :
    readUntil isEnd unitAt (limit - index) index = none := by
  obtain ⟨count, isSucc⟩ :=
    Nat.exists_eq_succ_of_ne_zero (Nat.sub_pos_of_lt more).ne'
  rw [isSucc, readUntil_of_unreadable unreadable]

/-- A chunk has a terminator exactly when some of it lies behind the first
one. -/
theorem takeWhile_length_lt_iff (chunk : List Symbol) :
    (chunk.takeWhile fun unit => !isEnd unit).length < chunk.length ↔ chunk.any isEnd = true := by
  induction chunk with
  | nil => simp
  | cons unit rest ih =>
    cases ends : isEnd unit with
    | true => simp [ends]
    | false => simpa [ends] using ih

variable {chunk : List Symbol}

theorem splitAtEnd_of_not_any (noEnd : ¬ (splitAtEnd isEnd chunk).2 = true) :
    (splitAtEnd isEnd chunk).1 = chunk := by
  apply (List.takeWhile_prefix _).eq_of_length
  have whole := (takeWhile_length_lt_iff chunk).not.mpr noEnd
  have atMost := (List.takeWhile_prefix (fun unit => !isEnd unit)
    (l := chunk)).length_le
  exact Nat.le_antisymm atMost (not_lt.mp whole)

theorem unitsRead_splitAtEnd_le (hasEnd : (splitAtEnd isEnd chunk).2 = true) :
    unitsRead ((splitAtEnd isEnd chunk).1, true) ≤ chunk.length :=
  (takeWhile_length_lt_iff chunk).mpr hasEnd

theorem readUntil_chunk (known : ∀ offset < chunk.length,
      unitAt (index + offset) = chunk[offset]?) :
    readUntil isEnd unitAt (chunk.length + count) index =
      if (splitAtEnd isEnd chunk).2 then some ((splitAtEnd isEnd chunk).1, true)
      else (readUntil isEnd unitAt count (index + chunk.length)).map
        fun rest => (chunk ++ rest.1, rest.2) := by
  induction chunk generalizing index with
  | nil => simp [splitAtEnd]
  | cons unit rest ih =>
    have first : unitAt index = some unit := known 0 (Nat.succ_pos _)
    have others : ∀ offset < rest.length, unitAt (index + 1 + offset) = rest[offset]? := by
      intro offset inRest
      have shifted := known (offset + 1) (Nat.succ_lt_succ inRest)
      rw [List.getElem?_cons_succ] at shifted
      rw [← shifted]
      congr 1
      omega
    rw [List.length_cons, Nat.add_right_comm, readUntil, first]
    simp only
    by_cases ends : isEnd unit = true
    · simp [splitAtEnd, ends]
    · have sameIndex : index + (rest.length + 1) = index + 1 + rest.length :=
        by omega
      have goesOn : splitAtEnd isEnd (unit :: rest) =
          (unit :: (splitAtEnd isEnd rest).1, (splitAtEnd isEnd rest).2) := by
        simp [splitAtEnd, ends]
      rw [if_neg ends, ih others, sameIndex, goesOn]
      by_cases hasEnd : (splitAtEnd isEnd rest).2 = true
      · rw [if_pos hasEnd, if_pos hasEnd]
        rfl
      · rw [if_neg hasEnd, if_neg hasEnd, Option.map_map]
        rfl

end SharpEmu.TerminatedReads
