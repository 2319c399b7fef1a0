import Mathlib.Algebra.Order.Group.Nat
import Mathlib.Tactic.Common

/-!
# The proleptic Gregorian calendar

Dates from the first of January of year 1 on, numbered by days from 0.  Each
date has one number and each number is that of one date, which is found by
cutting off whole years and then whole months.
-/

namespace SharpEmu

namespace Gregorian

def isLeapYear (year : Nat) : Bool :=
  year % 4 = 0 && (year % 100 ≠ 0 || year % 400 = 0)

def daysToMonth (leap : Bool) (month : Nat) : Nat :=
  if leap then [0, 31, 60, 91, 121, 152, 182, 213, 244, 274, 305, 335, 366].getD month 366
  else [0, 31, 59, 90, 120, 151, 181, 212, 243, 273, 304, 334, 365].getD month 365

def daysInMonth (year month : Nat) : Nat :=
  daysToMonth (isLeapYear year) month - daysToMonth (isLeapYear year) (month - 1)

def daysInYear (year : Nat) : Nat :=
  if isLeapYear year then 366 else 365

def daysBeforeYear (year : Nat) : Nat :=
  365 * (year - 1) + (year - 1) / 4 - (year - 1) / 100 + (year - 1) / 400

structure Date where
  year : Nat
  month : Nat
  day : Nat
deriving DecidableEq

namespace Date

structure Valid (date : Date) : Prop where
  year_pos : 1 ≤ date.year
  month_pos : 1 ≤ date.month
  month_le : date.month ≤ 12
  day_pos : 1 ≤ date.day
  day_le : date.day ≤ daysInMonth date.year date.month

def dayOfYear (date : Date) : Nat :=
  daysToMonth (isLeapYear date.year) (date.month - 1) + date.day - 1

def dayNumber (date : Date) : Nat :=
  daysBeforeYear date.year + date.dayOfYear

end Date

def yearOf (day : Nat) : Nat :=
  let in400 := day % 146097
  let centuries := min (in400 / 36524) 3
  let in100 := in400 - centuries * 36524
  let in4 := in100 % 1461
  let years := min (in4 / 365) 3
  day / 146097 * 400 + centuries * 100 + in100 / 1461 * 4 + years + 1

def monthOf (leap : Bool) (dayOfYear : Nat) : Nat :=
  ((List.range' 1 12).find? fun month =>
    dayOfYear < daysToMonth leap month).getD 12

def dateOf (day : Nat) : Date :=
  let year := yearOf day
  let dayOfYear := day - daysBeforeYear year
  let leap := isLeapYear year
  let month := monthOf leap dayOfYear
  ⟨year, month, dayOfYear - daysToMonth leap (month - 1) + 1⟩

/-! ## Years -/

theorem daysBeforeYear_cycles {cycles centuries leaps years : Nat}
    (centuriesLe : centuries ≤ 3) (leapsLe : leaps ≤ 24) (yearsLe : years ≤ 3) :
    daysBeforeYear (cycles * 400 + centuries * 100 + leaps * 4 + years + 1) =
      146097 * cycles + 36524 * centuries + 1461 * leaps + 365 * years := by
  have by4 : (cycles * 400 + centuries * 100 + leaps * 4 + years) / 4 =
      cycles * 100 + centuries * 25 + leaps := by omega
  have by100 : (cycles * 400 + centuries * 100 + leaps * 4 + years) / 100 =
      cycles * 4 + centuries := by omega
  have by400 : (cycles * 400 + centuries * 100 + leaps * 4 + years) / 400 =
      cycles := by omega
  rw [daysBeforeYear, Nat.add_sub_cancel, by4, by100, by400]
  omega

variable {year : Nat}

theorem succ_div_eq (size : Nat) (positive : 1 ≤ year) :
    year / size = (year - 1) / size + if year % size = 0 then 1 else 0 := by
  obtain ⟨before, rfl⟩ := Nat.exists_eq_add_of_le' positive
  rw [Nat.succ_div, Nat.add_sub_cancel]
  simp only [Nat.dvd_iff_mod_eq_zero]

theorem daysBeforeYear_succ (positive : 1 ≤ year) :
    daysBeforeYear (year + 1) = daysBeforeYear year + daysInYear year := by
  have centuriesLe : (year - 1) / 100 ≤ 365 * (year - 1) := by omega
  have leap : (if year % 4 = 0 then 1 else 0) + (if year % 400 = 0 then 1
        else 0) + 365 =
      daysInYear year + (if year % 100 = 0 then 1 else 0) := by
    unfold daysInYear isLeapYear
    by_cases by4 : year % 4 = 0
    · by_cases by100 : year % 100 = 0
      · by_cases by400 : year % 400 = 0 <;> simp [by4, by100, by400]
      · have by400 : year % 400 ≠ 0 := by omega
        simp [by4, by100, by400]
    · have by100 : year % 100 ≠ 0 := by omega
      have by400 : year % 400 ≠ 0 := by omega
      simp [by4, by100, by400]
  unfold daysBeforeYear
  have oneCentury : (if year % 100 = 0 then 1 else 0) ≤ 1 := by
    split <;> omega
  rw [Nat.add_sub_cancel, succ_div_eq 4 positive, succ_div_eq 100 positive,
    succ_div_eq 400 positive]
  omega

theorem daysBeforeYear_le {first second : Nat} (positive : 1 ≤ first)
    (le : first ≤ second) : daysBeforeYear first ≤ daysBeforeYear second := by
  induction second, le using Nat.le_induction with
  | base => exact le_rfl
  | succ second firstLe ih =>
    rw [daysBeforeYear_succ (positive.trans firstLe)]
    omega

theorem yearOf_spec (day : Nat) : 1 ≤ yearOf day ∧ daysBeforeYear (yearOf day) ≤ day ∧
      day < daysBeforeYear (yearOf day) + daysInYear (yearOf day) := by
  have positive : 1 ≤ yearOf day := Nat.succ_pos _
  have before : daysBeforeYear (yearOf day) =
      146097 * (day / 146097) + 36524 * min (day % 146097 / 36524) 3 +
        1461 * ((day % 146097 - min (day % 146097 / 36524) 3 * 36524) / 1461) +
        365 * min ((day % 146097 - min (day % 146097 / 36524) 3 * 36524) % 1461 / 365) 3 :=
    daysBeforeYear_cycles (by omega) (by omega) (by omega)
  refine ⟨positive, by omega, ?_⟩
  have isYear : yearOf day = day / 146097 * 400 + min (day % 146097 / 36524) 3 * 100 +
        (day % 146097 - min (day % 146097 / 36524) 3 * 36524) / 1461 * 4 +
        min ((day % 146097 - min (day % 146097 / 36524) 3 * 36524) % 1461 / 365) 3 + 1 := rfl
  generalize yearOf day = year at *
  generalize isCenturies : min (day % 146097 / 36524) 3 = centuries at *
  generalize inCentury : day % 146097 - centuries * 36524 = in100 at *
  have longYear : 365 ≤ daysInYear year := by
    unfold daysInYear
    split <;> omega
  by_cases isLast : in100 % 1461 = 1460
  · -- The last day of four years, which is that of a leap year.
    have isLeap : isLeapYear year = true := by
      have by4 : year % 4 = 0 := by omega
      have by100 : year % 100 ≠ 0 ∨ year % 400 = 0 := by omega
      unfold isLeapYear
      rcases by100 with by100 | by400
      · simp [by4, by100]
      · simp [by4, by400]
    rw [daysInYear, if_pos isLeap]
    omega
  · omega

/-! ## Months -/

theorem daysToMonth_spec : ∀ leap : Bool, ∀ month < 13, 1 ≤ month →
    daysToMonth leap (month - 1) ≤ daysToMonth leap month ∧
      daysToMonth leap month ≤ if leap then 366 else 365 := by
  decide

theorem daysToMonth_lt : ∀ leap : Bool, ∀ month < 13, 1 ≤ month →
    daysToMonth leap (month - 1) < daysToMonth leap month := by
  decide

theorem daysToMonth_sub_le : ∀ leap : Bool, ∀ month < 13, 1 ≤ month →
    daysToMonth leap month - daysToMonth leap (month - 1) ≤ 31 := by
  decide

theorem daysToMonth_le : ∀ leap : Bool, ∀ later < 13, ∀ earlier < later,
    daysToMonth leap earlier ≤ daysToMonth leap (later - 1) := by
  decide

theorem monthOf_spec : ∀ leap : Bool, ∀ dayOfYear < if leap then 366 else 365,
      1 ≤ monthOf leap dayOfYear ∧ monthOf leap dayOfYear ≤ 12 ∧
        daysToMonth leap (monthOf leap dayOfYear - 1) ≤ dayOfYear ∧
        dayOfYear < daysToMonth leap (monthOf leap dayOfYear) := by
  decide +kernel

/-! ## Dates -/

theorem daysInMonth_pos (year : Nat) {month : Nat} (monthPos : 1 ≤ month)
    (monthLe : month ≤ 12) : 1 ≤ daysInMonth year month := by
  have := daysToMonth_lt (isLeapYear year) month (by omega) monthPos
  unfold daysInMonth
  omega

theorem daysInYear_eq (year : Nat) : daysInYear year = if isLeapYear year then 366 else 365 :=
  rfl

namespace Date

variable {date : Date}

theorem Valid.dayOfYear_bounds (valid : date.Valid) :
    daysToMonth (isLeapYear date.year) (date.month - 1) ≤ date.dayOfYear ∧
      date.dayOfYear < daysToMonth (isLeapYear date.year) date.month := by
  have dayPos := valid.day_pos
  have dayLe := valid.day_le
  unfold daysInMonth at dayLe
  unfold dayOfYear
  omega

theorem Valid.day_le_31 (valid : date.Valid) : date.day ≤ 31 := by
  have monthLe := valid.month_le
  exact valid.day_le.trans (daysToMonth_sub_le _ _ (by omega) valid.month_pos)

theorem Valid.dayOfYear_lt (valid : date.Valid) : date.dayOfYear < daysInYear date.year := by
  have inMonth := valid.dayOfYear_bounds.2
  have monthLe := valid.month_le
  have monthEnds := (daysToMonth_spec (isLeapYear date.year) date.month
    (by omega) valid.month_pos).2
  rw [daysInYear_eq]
  omega

theorem Valid.dayNumber_lt_year (valid : date.Valid) {year : Nat}
    (earlier : date.year < year) : date.dayNumber < daysBeforeYear year := by
  have inYear := valid.dayOfYear_lt
  have nextYear := daysBeforeYear_succ valid.year_pos
  have later : daysBeforeYear (date.year + 1) ≤ daysBeforeYear year :=
    daysBeforeYear_le (Nat.succ_pos date.year) earlier
  unfold dayNumber
  omega

variable {other : Date}

theorem Valid.dayNumber_lt (valid : date.Valid)
    (earlier : date.year < other.year) : date.dayNumber < other.dayNumber :=
  Nat.lt_of_lt_of_le (valid.dayNumber_lt_year earlier) (Nat.le_add_right _ _)

theorem dayNumber_injective (valid : date.Valid)
    (otherValid : other.Valid) (same : date.dayNumber = other.dayNumber) :
    date = other := by
  have sameYear : date.year = other.year := by
    rcases Nat.lt_trichotomy date.year other.year with less | equal | more
    · have := valid.dayNumber_lt less
      omega
    · exact equal
    · have := otherValid.dayNumber_lt more
      omega
  have sameDay : date.dayOfYear = other.dayOfYear := by
    unfold dayNumber at same
    rw [sameYear] at same
    omega
  have bounds := valid.dayOfYear_bounds
  have otherBounds := otherValid.dayOfYear_bounds
  have monthLe := valid.month_le
  have otherMonthLe := otherValid.month_le
  rw [sameYear, sameDay] at bounds
  have sameMonth : date.month = other.month := by
    rcases Nat.lt_trichotomy date.month other.month with less | equal | more
    · have := daysToMonth_le (isLeapYear other.year) other.month (by omega) date.month less
      omega
    · exact equal
    · have := daysToMonth_le (isLeapYear other.year) date.month (by omega) other.month more
      omega
  have dayPos := valid.day_pos
  have otherDayPos := otherValid.day_pos
  have sameDayOfMonth : date.day = other.day := by
    unfold dayOfYear at sameDay
    rw [sameYear, sameMonth] at sameDay
    omega
  cases date
  cases other
  simp_all

end Date

theorem dateOf_spec (day : Nat) : (dateOf day).Valid ∧ (dateOf day).dayNumber = day := by
  obtain ⟨yearPos, begins, ends⟩ := yearOf_spec day
  rw [daysInYear_eq] at ends
  obtain ⟨monthPos, monthLe, monthBegins, monthEnds⟩ :=
    monthOf_spec (isLeapYear (yearOf day)) (day - daysBeforeYear (yearOf day)) (by omega)
  constructor
  · constructor <;> simp only [dateOf, daysInMonth] <;> omega
  · unfold Date.dayNumber Date.dayOfYear dateOf
    dsimp only
    omega

theorem dateOf_dayNumber {date : Date} (valid : date.Valid) : dateOf date.dayNumber = date :=
  Date.dayNumber_injective (dateOf_spec _).1 valid (dateOf_spec _).2

theorem dayNumber_lt_iff {date : Date} (valid : date.Valid) (positive : 1 ≤ year) :
    date.dayNumber < daysBeforeYear year ↔ date.year < year := by
  constructor
  · intro before
    by_contra later
    have := daysBeforeYear_le positive (Nat.le_of_not_lt later)
    unfold Date.dayNumber at before
    omega
  · exact valid.dayNumber_lt_year

end Gregorian

end SharpEmu
