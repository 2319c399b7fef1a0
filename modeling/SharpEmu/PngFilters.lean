import Mathlib.Data.List.MinMax
import Mathlib.Tactic.Common

/-!
# Filtered rows of splash images

A row of an image is stored as the differences from a prediction of each of its
bytes.  The loader adds the predictions again, byte after byte in the row that it
writes, so that a byte is predicted from bytes that are already its own.
-/

namespace SharpEmu.PngSplashLoader

/-! ## The loader's code -/

def paeth (left above upperLeft : UInt8) : UInt8 :=
  let estimate : ℤ := left.toNat + above.toNat - upperLeft.toNat
  let leftDistance := (estimate - left.toNat).natAbs
  let aboveDistance := (estimate - above.toNat).natAbs
  let upperLeftDistance := (estimate - upperLeft.toNat).natAbs
  if leftDistance ≤ aboveDistance ∧ leftDistance ≤ upperLeftDistance then left
  else if aboveDistance ≤ upperLeftDistance then above
  else upperLeft

section Neighbours

variable (previous target : List UInt8) (bytesPerPixel x : ℕ)

def readLeft : Option UInt8 :=
  if bytesPerPixel ≤ x then target[x - bytesPerPixel]? else some 0

def readAbove : Option UInt8 :=
  if previous.isEmpty then some 0 else previous[x]?

def readUpperLeft : Option UInt8 :=
  if !previous.isEmpty ∧ bytesPerPixel ≤ x then previous[x - bytesPerPixel]?
  else some 0

end Neighbours

def unfilterByte (filter source left above upperLeft : UInt8) : UInt8 :=
  match filter.toNat with
  | 0 => source
  | 1 => source + left
  | 2 => source + above
  | 3 => source + .ofNat ((left.toNat + above.toNat) >>> 1)
  | 4 => source + paeth left above upperLeft
  | _ => source

section Unfilter

variable (filter : UInt8) (source previous : List UInt8) (bytesPerPixel : ℕ)

def unfilterFrom : ℕ → ℕ → List UInt8 → Option (Bool × List UInt8)
  | 0, _, target => some (true, target)
  | count + 1, x, target => do
      let left ← readLeft target bytesPerPixel x
      let above ← readAbove previous x
      let upperLeft ← readUpperLeft previous bytesPerPixel x
      let value ← source[x]?
      if x < target.length then
        let target := target.set x (unfilterByte filter value left above upperLeft)
        if 4 < filter then some (false, target)
        else unfilterFrom count (x + 1) target
      else none

def tryUnfilter (target : List UInt8) : Option (Bool × List UInt8) :=
  unfilterFrom filter source previous bytesPerPixel source.length 0 target

end Unfilter

/-! ## Prescribed filters -/

inductive FilterType where
  | none | sub | up | average | paeth
deriving DecidableEq

namespace FilterType

def code : FilterType → UInt8
  | none => 0
  | sub => 1
  | up => 2
  | average => 3
  | paeth => 4

/-- The predicted byte.  The last filter takes the first of the neighbours that are
nearest to the sum of two less the third. -/
def predictor (left above upperLeft : UInt8) : FilterType → UInt8
  | none => 0
  | sub => left
  | up => above
  | average => .ofNat ((left.toNat + above.toNat) / 2)
  | paeth =>
      ([left, above, upperLeft].argmin fun neighbour =>
        (left.toNat + above.toNat - upperLeft.toNat - neighbour.toNat : ℤ).natAbs
        ).getD 0

end FilterType

def byteBefore (row : List UInt8) (bytesPerPixel x : ℕ) : UInt8 :=
  if bytesPerPixel ≤ x then row.getD (x - bytesPerPixel) 0 else 0

def predictedByte (filter : FilterType) (row previous : List UInt8) (bytesPerPixel x : ℕ) : UInt8 :=
  filter.predictor (byteBefore row bytesPerPixel x) (previous.getD x 0)
    (byteBefore previous bytesPerPixel x)

def filterRow (filter : FilterType) (row previous : List UInt8) (bytesPerPixel : ℕ) : List UInt8 :=
  row.mapIdx fun x value =>
    value - predictedByte filter row previous bytesPerPixel x

/-! ## Unfiltering -/

theorem argmin_three {α : Type} (f : α → ℕ) (a b c : α) : [a, b, c].argmin f =
      some (if f a ≤ f b ∧ f a ≤ f c then a else if f b ≤ f c then b else c) := by
  have lastTwo : [b, c].argmin f = some (if f b ≤ f c then b else c) := by
    rw [List.argmin_cons, List.argmin_singleton]
    grind
  rw [List.argmin_cons, lastTwo]
  grind

theorem paeth_eq_nearest (left above upperLeft : UInt8) : paeth left above upperLeft =
      FilterType.paeth.predictor left above upperLeft := by
  simp only [FilterType.predictor]
  rw [argmin_three]
  rfl

theorem unfilterByte_code (filter : FilterType) (source left above upperLeft : UInt8) :
    unfilterByte filter.code source left above upperLeft =
      source + filter.predictor left above upperLeft := by
  cases filter with
  | none => exact (UInt8.add_zero source).symm
  | sub => rfl
  | up => rfl
  | average => rfl
  | paeth => exact congrArg (source + ·) (paeth_eq_nearest left above upperLeft)

/-! ## Rows -/

section Rows

variable {row previous target : List UInt8} {bytesPerPixel x : ℕ}

def IsWritten (row target : List UInt8) (x : ℕ) : Prop :=
  ∀ index < x, target[index]? = row[index]?

theorem readLeft_of_written (positive : 0 < bytesPerPixel)
    (inside : x < row.length) (written : IsWritten row target x) :
    readLeft target bytesPerPixel x = some (byteBefore row bytesPerPixel x) := by
  unfold readLeft byteBefore
  split
  · rw [written _ (by omega), List.getD_eq_getElem?_getD, List.getElem?_eq_getElem (by omega)]
    rfl
  · rfl

section Previous

variable (isRow : previous = [] ∨ previous.length = row.length)
  (inside : x < row.length)

include isRow inside

theorem readAbove_of_row : readAbove previous x = some (previous.getD x 0) := by
  unfold readAbove
  obtain rfl | sameLength := isRow
  · rfl
  · have nonempty : previous.isEmpty = false := by
      grind
    rw [nonempty, if_neg (by decide), List.getD_eq_getElem?_getD,
      List.getElem?_eq_getElem (by omega)]
    rfl

theorem readUpperLeft_of_row : readUpperLeft previous bytesPerPixel x =
      some (byteBefore previous bytesPerPixel x) := by
  unfold readUpperLeft byteBefore
  obtain rfl | sameLength := isRow
  · simp
  · have nonempty : previous.isEmpty = false := by
      grind
    by_cases reaches : bytesPerPixel ≤ x
    · rw [nonempty, if_pos ⟨rfl, reaches⟩, if_pos reaches,
        List.getD_eq_getElem?_getD, List.getElem?_eq_getElem (by omega)]
      rfl
    · rw [if_neg fun both => reaches both.2, if_neg reaches]

end Previous

theorem filterRow_getElem? (filter : FilterType) (inside : x < row.length) :
    (filterRow filter row previous bytesPerPixel)[x]? =
      some (row[x] - predictedByte filter row previous bytesPerPixel x) := by
  rw [filterRow, List.getElem?_mapIdx, List.getElem?_eq_getElem inside]
  rfl

theorem code_le_four (filter : FilterType) : ¬ 4 < filter.code := by
  cases filter <;> decide

theorem unfilterFrom_filterRow (filter : FilterType) (positive : 0 < bytesPerPixel)
    (isRow : previous = [] ∨ previous.length = row.length) (count : ℕ)
    (target : List UInt8) (x : ℕ) (isCount : x + count = row.length)
    (sameLength : target.length = row.length) (written : IsWritten row target x) :
    unfilterFrom filter.code (filterRow filter row previous bytesPerPixel)
      previous bytesPerPixel count x target = some (true, row) := by
  induction count generalizing target x with
  | zero =>
    have isAll : target = row := by
      apply List.ext_getElem?
      intro index
      by_cases inside : index < x
      · exact written index inside
      · rw [List.getElem?_eq_none (by omega), List.getElem?_eq_none (by omega)]
    rw [unfilterFrom, isAll]
  | succ count ih =>
    have inside : x < row.length := by omega
    rw [unfilterFrom, readLeft_of_written positive inside written,
      readAbove_of_row isRow inside, readUpperLeft_of_row isRow inside,
      filterRow_getElem? filter inside]
    simp only [Option.bind_eq_bind, Option.bind_some, unfilterByte_code]
    rw [if_pos (by omega), if_neg (code_le_four filter)]
    have isByte : row[x] - predictedByte filter row previous bytesPerPixel x +
        filter.predictor (byteBefore row bytesPerPixel x)
          (previous.getD x 0) (byteBefore previous bytesPerPixel x) =
        row[x] := UInt8.sub_add_cancel _ _
    rw [isByte]
    apply ih
    · omega
    · rw [List.length_set, sameLength]
    · intro index before
      rw [List.getElem?_set]
      obtain rfl | earlier := Nat.eq_or_lt_of_le (Nat.le_of_lt_succ before)
      · rw [if_pos rfl, if_pos (by omega), List.getElem?_eq_getElem inside]
      · rw [if_neg (by omega)]
        exact written index earlier

theorem tryUnfilter_filterRow (filter : FilterType) (positive : 0 < bytesPerPixel)
    (isRow : previous = [] ∨ previous.length = row.length)
    (sameLength : target.length = row.length) :
    tryUnfilter filter.code (filterRow filter row previous bytesPerPixel)
      previous bytesPerPixel target = some (true, row) := by
  have isCount : (filterRow filter row previous bytesPerPixel).length =
      row.length := List.length_mapIdx
  unfold tryUnfilter
  rw [isCount]
  exact unfilterFrom_filterRow filter positive isRow row.length target 0
    (Nat.zero_add _) sameLength fun index before => absurd before (by omega)

end Rows

/-- A row with another type is not accepted. -/
theorem tryUnfilter_of_unknown {filter : UInt8} (unknown : 4 < filter)
    {source : List UInt8} (nonempty : source ≠ [])
    (previous : List UInt8) (bytesPerPixel : ℕ) (target : List UInt8) :
    ∀ result ∈ tryUnfilter filter source previous bytesPerPixel target, result.1 = false := by
  obtain ⟨count, isCount⟩ : ∃ count, source.length = count + 1 :=
    Nat.exists_eq_succ_of_ne_zero (by simpa using nonempty)
  intro result isResult
  rw [tryUnfilter, isCount, unfilterFrom] at isResult
  simp only [Option.mem_def, Option.bind_eq_bind, Option.bind_eq_some_iff,
    if_pos unknown] at isResult
  grind

end SharpEmu.PngSplashLoader
