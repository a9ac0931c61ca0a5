import Mathlib.Algebra.Order.Ring.Int
import Mathlib.Data.List.Basic
import Mathlib.Order.Monotone.Basic

/-!
# Days of the Gregorian calendar

A day is given by its number, which is 0 for the first of January 1970, or by year, month and day of
the month.

* `daysBeforeYear_succ`: the closed formula for the days before a year counts the days of each year.
* `dayNumber_civil`: **the date of a day has the number of that day**.
* `civil_valid`: it is a date of the calendar.
-/

namespace CivilDate

/-- A date; months are counted from 0 and days from 1. -/
structure Date where
  year : ℤ
  month : ℕ
  day : ℕ
  deriving DecidableEq

/-- The year has a 29th of February. -/
def isLeap (year : ℤ) : Bool := year % 4 = 0 && (year % 100 ≠ 0 || year % 400 = 0)

/-- The months of a year, by their lengths. -/
def monthLengths (year : ℤ) : List ℕ :=
  [31, if isLeap year then 29 else 28, 31, 30, 31, 30, 31, 31, 30, 31, 30, 31]

/-- How many days a year has. -/
def yearLength (year : ℤ) : ℕ := (monthLengths year).sum

/-- How many days there are from the first of January 1970 to the beginning of a year. -/
def daysBeforeYear (year : ℤ) : ℤ :=
  365 * (year - 1970) + ((year - 1) / 4 - 492) - ((year - 1) / 100 - 19) + ((year - 1) / 400 - 4)

/-- The number of a day. -/
def dayNumber (date : Date) : ℤ :=
  daysBeforeYear date.year + ((monthLengths date.year).take date.month).sum + (date.day - 1)

/-- A number taken apart along these lengths: how many of them it goes beyond, and what is left. -/
def splitAlong : List ℕ → ℕ → ℕ × ℕ
  | [], n => (0, n)
  | length :: lengths, n =>
      if n < length then (0, n)
      else ((splitAlong lengths (n - length)).1 + 1, (splitAlong lengths (n - length)).2)

/-- The year of a day that is `n` days behind the beginning of this one, and the days of the year in
front of it.  Every year has a day, so that `n` years are enough. -/
def findYear : ℕ → ℤ → ℕ → ℤ × ℕ
  | 0, year, n => (year, n)
  | fuel + 1, year, n =>
      if n < yearLength year then (year, n) else findYear fuel (year + 1) (n - yearLength year)

/-- The date of a day from 1970 on. -/
def civil (n : ℕ) : Date :=
  let (year, days) := findYear n 1970 n
  let (month, day) := splitAlong (monthLengths year) days
  ⟨year, month, day + 1⟩

/-- The day of the week, counted from Sunday. -/
def weekday (n : ℕ) : ℕ := (n + 4) % 7

/-! ### Years -/

theorem yearLength_eq (year : ℤ) : yearLength year = if isLeap year then 366 else 365 := by
  unfold yearLength monthLengths
  cases isLeap year with
  | true => rfl
  | false => rfl

theorem isLeap_iff (year : ℤ) :
    isLeap year = true ↔ year % 4 = 0 ∧ (year % 100 ≠ 0 ∨ year % 400 = 0) := by
  simp [isLeap]

/-- **The formula counts every year.** -/
theorem daysBeforeYear_succ (year : ℤ) :
    daysBeforeYear (year + 1) = daysBeforeYear year + yearLength year := by
  rw [yearLength_eq]
  unfold daysBeforeYear
  by_cases hleap : isLeap year = true
  · rw [if_pos hleap]
    have hyear := (isLeap_iff year).mp hleap
    push_cast
    omega
  · rw [if_neg hleap]
    have hyear := mt (isLeap_iff year).mpr hleap
    push_cast
    omega

/-- Later years begin later. -/
theorem daysBeforeYear_lt_iff {a b : ℤ} : daysBeforeYear a < daysBeforeYear b ↔ a < b := by
  have hmono : StrictMono daysBeforeYear := by
    apply strictMono_int_of_lt_succ
    intro year
    rw [daysBeforeYear_succ, yearLength_eq]
    split_ifs
    · omega
    · omega
  exact hmono.lt_iff_lt

/-- What the search for the year keeps. -/
theorem findYear_spec {fuel n : ℕ} (hfuel : n ≤ fuel) (year : ℤ) :
    year ≤ (findYear fuel year n).1 ∧
      daysBeforeYear (findYear fuel year n).1 + (findYear fuel year n).2 =
        daysBeforeYear year + n ∧
      (findYear fuel year n).2 < yearLength (findYear fuel year n).1 := by
  have hpos : ∀ year, 365 ≤ yearLength year := by
    intro year
    rw [yearLength_eq]
    split_ifs
    · omega
    · omega
  induction fuel generalizing year n with
  | zero =>
      have hlength := hpos year
      refine ⟨le_rfl, rfl, ?_⟩
      show n < yearLength year
      omega
  | succ fuel ih =>
      unfold findYear
      split_ifs with hlt
      · exact ⟨le_rfl, rfl, hlt⟩
      · have hlength := hpos year
        obtain ⟨hle, hdays, hrest⟩ := @ih (n - yearLength year) (by omega) (year + 1)
        refine ⟨by omega, ?_, hrest⟩
        rw [hdays, daysBeforeYear_succ]
        omega

/-! ### Months -/

theorem splitAlong_spec {lengths : List ℕ} {n : ℕ} (h : n < lengths.sum) :
    (lengths.take (splitAlong lengths n).1).sum + (splitAlong lengths n).2 = n ∧
      ∃ length, lengths[(splitAlong lengths n).1]? = some length ∧
        (splitAlong lengths n).2 < length := by
  induction lengths generalizing n with
  | nil => exact absurd h (Nat.not_lt_zero _)
  | cons length lengths ih =>
      rw [List.sum_cons] at h
      unfold splitAlong
      split_ifs with hlt
      · exact ⟨Nat.zero_add n, length, rfl, hlt⟩
      · obtain ⟨hsum, other, hget, hrest⟩ := @ih (n - length) (by omega)
        refine ⟨?_, other, ?_, hrest⟩
        · rw [List.take_succ_cons, List.sum_cons]
          omega
        · rw [List.getElem?_cons_succ, hget]

/-! ### Dates -/

theorem civil_eq (n : ℕ) :
    civil n = ⟨(findYear n 1970 n).1,
      (splitAlong (monthLengths (findYear n 1970 n).1) (findYear n 1970 n).2).1,
      (splitAlong (monthLengths (findYear n 1970 n).1) (findYear n 1970 n).2).2 + 1⟩ := rfl

/-- **The date of a day has its number.** -/
theorem dayNumber_civil (n : ℕ) : dayNumber (civil n) = n := by
  obtain ⟨-, hdays, hlt⟩ := findYear_spec (le_refl n) 1970
  obtain ⟨hsum, -⟩ := splitAlong_spec hlt
  rw [civil_eq]
  unfold dayNumber
  dsimp only
  have hstart : daysBeforeYear 1970 = 0 := by decide
  rw [hstart] at hdays
  omega

/-- It is a date of the calendar, from 1970 on. -/
theorem civil_valid (n : ℕ) :
    1970 ≤ (civil n).year ∧ (civil n).month < 12 ∧ 1 ≤ (civil n).day ∧ (civil n).day ≤ 31 := by
  obtain ⟨hyear, -, hlt⟩ := findYear_spec (le_refl n) 1970
  obtain ⟨-, length, hget, hday⟩ := splitAlong_spec hlt
  rw [civil_eq]
  obtain ⟨hmonth, -⟩ := List.getElem?_eq_some_iff.mp hget
  have hlength : length ≤ 31 := by
    have hmem := List.mem_of_getElem? hget
    unfold monthLengths at hmem
    simp only [List.mem_cons, List.not_mem_nil, or_false] at hmem
    split_ifs at hmem
    · omega
    · omega
  refine ⟨hyear, ?_, Nat.le_add_left 1 _, ?_⟩
  · simpa [monthLengths] using hmonth
  · dsimp only
    omega

/-- A day in front of a year. -/
theorem civil_year_lt {n : ℕ} {year : ℤ} (h : (n : ℤ) < daysBeforeYear year) :
    (civil n).year < year := by
  obtain ⟨-, hdays, -⟩ := findYear_spec (le_refl n) 1970
  have hstart : daysBeforeYear 1970 = 0 := by decide
  rw [hstart] at hdays
  rw [civil_eq]
  apply daysBeforeYear_lt_iff.mp
  dsimp only
  omega

end CivilDate
