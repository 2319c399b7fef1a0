import Mathlib.Data.List.Basic
import Mathlib.Data.List.Infix
import Mathlib.Data.List.Induction
import Mathlib.Tactic.Common

/-!
# Path segments

A path is a word over an alphabet with separators.  Its segments are the maximal
runs without a separator, and a walk over the segments drops those that name the
current directory and steps back at those that name the parent, but never past a
fixed number of leading segments.
-/

namespace SharpEmu
namespace PathSegments

variable {Letter : Type}

/-! ## Segments -/

section Segments

variable (isSeparator : Letter → Bool)

/-- The nonempty runs between separators. -/
def segments (path : List Letter) : List (List Letter) :=
  (path.splitOnP isSeparator).filter (· ≠ [])

def IsSegment (segment : List Letter) : Prop :=
  segment ≠ [] ∧ ∀ letter ∈ segment, isSeparator letter = false

variable {isSeparator}

@[simp]
theorem segments_nil : segments isSeparator [] = [] :=
  rfl

variable {separator : Letter}

theorem segments_append_cons (front rest : List Letter) (separates : isSeparator separator = true) :
    segments isSeparator (front ++ separator :: rest) =
      segments isSeparator front ++ segments isSeparator rest := by
  simp [segments, List.splitOnP_append_cons front rest separates]

theorem segments_cons (rest : List Letter) (separates : isSeparator separator = true) :
    segments isSeparator (separator :: rest) = segments isSeparator rest := by
  simpa using segments_append_cons [] rest separates

variable {segment : List Letter}

theorem segments_of_isSegment (isSegment : IsSegment isSeparator segment) :
    segments isSeparator segment = [segment] := by
  simp [segments, List.splitOnP_eq_singleton isSegment.2, isSegment.1]

variable {path : List Letter}

theorem isSegment_of_mem_splitOnP (member : segment ∈ path.splitOnP isSeparator) :
    ∀ letter ∈ segment, isSeparator letter = false := by
  induction path generalizing segment with
  | nil =>
    rw [List.splitOnP_nil, List.mem_singleton] at member
    simp [member]
  | cons letter rest ih =>
    rw [List.splitOnP_cons_eq_if_modifyHead] at member
    split at member
    · rcases List.mem_cons.mp member with rfl | inRest
      · simp
      · exact ih inRest
    · rename_i notSeparator
      cases restSegments : rest.splitOnP isSeparator with
      | nil => exact absurd restSegments (List.splitOnP_ne_nil _ _)
      | cons first others =>
        rw [restSegments] at member ih
        rcases List.mem_cons.mp member with rfl | inOthers
        · intro other otherMem
          rcases List.mem_cons.mp otherMem with rfl | inFirst
          · simpa using notSeparator
          · exact ih (List.mem_cons_self) other inFirst
        · exact ih (List.mem_cons_of_mem _ inOthers)

theorem isSegment_of_mem (member : segment ∈ segments isSeparator path) :
    IsSegment isSeparator segment := by
  obtain ⟨split, nonempty⟩ := List.mem_filter.mp member
  exact ⟨by simpa using nonempty, isSegment_of_mem_splitOnP split⟩

theorem segments_intercalate (separates : isSeparator separator = true) {parts : List (List Letter)}
    (areSegments : ∀ part ∈ parts, IsSegment isSeparator part) :
    segments isSeparator ([separator].intercalate parts) = parts := by
  induction parts with
  | nil => rfl
  | cons part rest ih =>
    have isSegment := areSegments part (by simp)
    have restSegments := ih (List.forall_mem_cons.mp areSegments).2
    cases rest with
    | nil => simpa using segments_of_isSegment isSegment
    | cons next others =>
      rw [List.intercalate_cons_cons, List.append_assoc,
        List.singleton_append, segments_append_cons _ _ separates,
        segments_of_isSegment isSegment, restSegments]
      rfl

theorem segments_map {change : Letter → Letter}
    (keeps : ∀ letter, isSeparator (change letter) = isSeparator letter)
    (path : List Letter) :
    segments isSeparator (path.map change) = (segments isSeparator path).map (List.map change) := by
  have split : (path.map change).splitOnP isSeparator =
      (path.splitOnP isSeparator).map (List.map change) := by
    induction path with
    | nil => rfl
    | cons letter rest ih =>
      rw [List.map_cons, List.splitOnP_cons_eq_if_modifyHead,
        List.splitOnP_cons_eq_if_modifyHead, keeps, ih]
      split
      · rfl
      · cases rest.splitOnP isSeparator <;> rfl
  simp [segments, split, List.filter_map, Function.comp_def]

theorem segments_prefix {front : List Letter} (separates : isSeparator separator = true)
    (isPrefix : front ++ [separator] <+: path) :
    segments isSeparator front <+: segments isSeparator path := by
  obtain ⟨rest, rfl⟩ := isPrefix
  rw [List.append_assoc, List.singleton_append, segments_append_cons _ _ separates]
  exact List.prefix_append _ _

end Segments

/-! ## Resolving -/

section Resolving

variable [DecidableEq Letter] (current parent : List Letter) (floor : ℕ)

def resolveSegment (resolved : List (List Letter)) (segment : List Letter) : List (List Letter) :=
  if segment = current then resolved
  else if segment = parent then
    if floor < resolved.length then resolved.dropLast else resolved
  else resolved ++ [segment]

/-- Walk over the segments from a directory. -/
def resolve (start parts : List (List Letter)) : List (List Letter) :=
  parts.foldl (resolveSegment current parent floor) start

variable {current parent floor}

@[simp]
theorem resolve_nil (start : List (List Letter)) : resolve current parent floor start [] = start :=
  rfl

theorem resolve_append (start front rest : List (List Letter)) :
    resolve current parent floor start (front ++ rest) =
      resolve current parent floor (resolve current parent floor start front)
        rest := by
  simp [resolve]

variable {parts : List (List Letter)}

/-- Segments without special names are walked into. -/
theorem resolve_plain (plain : ∀ part ∈ parts, part ≠ current ∧ part ≠ parent)
    (start : List (List Letter)) :
    resolve current parent floor start parts = start ++ parts := by
  induction parts generalizing start with
  | nil => simp
  | cons part rest ih =>
    have notSpecial := plain part (by simp)
    change resolve current parent floor (resolveSegment current parent floor start part) rest = _
    rw [ih (List.forall_mem_cons.mp plain).2]
    simp [resolveSegment, notSpecial.1, notSpecial.2]

variable {start : List (List Letter)}

/-- What holds of the start and of every segment with a plain name holds of the
place reached. -/
theorem resolve_forall (property : List Letter → Prop) (atStart : ∀ part ∈ start, property part)
    (atParts : ∀ part ∈ parts, part ≠ current → part ≠ parent → property part) :
    ∀ part ∈ resolve current parent floor start parts, property part := by
  induction parts generalizing start with
  | nil => exact atStart
  | cons segment rest ih =>
    apply ih
    · unfold resolveSegment
      split
      · exact atStart
      · rename_i notCurrent
        split
        · split
          · exact fun part member =>
              atStart part (List.mem_of_mem_dropLast member)
          · exact atStart
        · rename_i notParent
          intro part member
          rcases List.mem_append.mp member with inStart | isSegment
          · exact atStart part inStart
          · rw [List.mem_singleton.mp isSegment]
            exact atParts segment (by simp) notCurrent notParent
    · exact (List.forall_mem_cons.mp atParts).2

theorem floor_prefix_resolve {base : List (List Letter)}
    (isFloor : base.length = floor) (above : base <+: start) :
    base <+: resolve current parent floor start parts := by
  induction parts generalizing start with
  | nil => exact above
  | cons segment rest ih =>
    apply ih
    obtain ⟨extra, rfl⟩ := above
    unfold resolveSegment
    split
    · exact List.prefix_append _ _
    · split
      · split
        · rename_i deeper
          have nonempty : extra ≠ [] := by
            rintro rfl
            simp [isFloor] at deeper
          rw [List.dropLast_append_of_ne_nil nonempty]
          exact List.prefix_append _ _
        · exact List.prefix_append _ _
      · rw [List.append_assoc]
        exact List.prefix_append _ _

end Resolving

end PathSegments
end SharpEmu
