import ReleaseSelection.Total

/-!
# The Gregorian calendar

Days are counted from 0001-01-01. `toDay_ofDay` says that the date found for a day is that day's.
-/

namespace ReleaseSelection.Calendar

def isLeap (year : Int) : Bool := year % 4 == 0 && (year % 100 != 0 || year % 400 == 0)

def daysInYear (year : Int) : Int := if isLeap year then 366 else 365

def monthLengths (year : Int) : List Int :=
  [31, if isLeap year then 29 else 28, 31, 30, 31, 30, 31, 31, 30, 31, 30, 31]

def daysBeforeYear (year : Int) : Int :=
  365 * (year - 1) + (year - 1) / 4 - (year - 1) / 100 + (year - 1) / 400

/-- Month and day count from 1. -/
structure Date where
  year : Int
  month : Nat
  day : Int
  deriving DecidableEq, Repr

def Date.isValid (date : Date) : Bool :=
  1 ≤ date.month && (monthLengths date.year)[date.month - 1]?.any fun length =>
    1 ≤ date.day && date.day ≤ length

def Date.toDay (date : Date) : Int :=
  daysBeforeYear date.year + total ((monthLengths date.year).take (date.month - 1)) + (date.day - 1)

/-- The year of a day: the quotient by the mean length of a year is off by at most one. -/
def yearOf (day : Int) : Int :=
  let guess := day * 400 / 146097 + 1
  if day < daysBeforeYear guess then guess - 1
  else if daysBeforeYear (guess + 1) ≤ day then guess + 1
  else guess

/-- The month in which a day falls, as the number of whole months before it, and the days left. -/
def splitMonths : List Int → Int → Nat × Int
  | [], day => (0, day)
  | length :: lengths, day =>
    if day < length then (0, day)
    else ((splitMonths lengths (day - length)).1 + 1, (splitMonths lengths (day - length)).2)

def Date.ofDay (day : Int) : Date :=
  let year := yearOf day
  let split := splitMonths (monthLengths year) (day - daysBeforeYear year)
  ⟨year, split.1 + 1, split.2 + 1⟩

theorem daysBeforeYear_succ (year : Int) :
    daysBeforeYear (year + 1) = daysBeforeYear year + daysInYear year := by
  simp only [daysBeforeYear, daysInYear, isLeap, Bool.and_eq_true, Bool.or_eq_true, beq_iff_eq,
    bne_iff_ne]
  split <;> omega

theorem yearOf_bounds (day : Int) :
    daysBeforeYear (yearOf day) ≤ day ∧ day < daysBeforeYear (yearOf day + 1) := by
  simp only [yearOf]
  split
  · simp only [daysBeforeYear] at *
    omega
  · split
    · simp only [daysBeforeYear] at *
      omega
    · omega

theorem total_monthLengths (year : Int) : total (monthLengths year) = daysInYear year := by
  simp only [monthLengths, daysInYear]
  split <;> rfl

theorem splitMonths_total (lengths : List Int) (day : Int) :
    total (lengths.take (splitMonths lengths day).1) + (splitMonths lengths day).2 = day := by
  induction lengths generalizing day with
  | nil => simp [splitMonths]
  | cons length lengths ih =>
    simp only [splitMonths]
    split
    · simp
    · simp only [List.take_succ_cons, total_cons]
      have := ih (day - length)
      omega

theorem splitMonths_bounds (lengths : List Int) (day : Int) (nonneg : 0 ≤ day)
    (lt_total : day < total lengths) :
    0 ≤ (splitMonths lengths day).2 ∧
      ∃ length, lengths[(splitMonths lengths day).1]? = some length ∧
        (splitMonths lengths day).2 < length := by
  induction lengths generalizing day with
  | nil => simp only [total_nil] at lt_total; omega
  | cons length lengths ih =>
    simp only [splitMonths]
    split
    · rename_i h
      exact ⟨nonneg, length, by simp, h⟩
    · rename_i h
      simp only [total_cons] at lt_total
      simpa using ih (day - length) (by omega) (by omega)

theorem Date.toDay_ofDay (day : Int) : (Date.ofDay day).toDay = day := by
  simp only [Date.ofDay, Date.toDay, Nat.add_sub_cancel, Int.add_sub_cancel]
  have := splitMonths_total (monthLengths (yearOf day)) (day - daysBeforeYear (yearOf day))
  omega

theorem Date.isValid_ofDay (day : Int) : (Date.ofDay day).isValid := by
  have bounds := yearOf_bounds day
  rw [daysBeforeYear_succ] at bounds
  have sum := total_monthLengths (yearOf day)
  obtain ⟨nonneg, length, found, lt⟩ := splitMonths_bounds
    (monthLengths (yearOf day)) (day - daysBeforeYear (yearOf day)) (by omega) (by omega)
  simp only [Date.isValid, Date.ofDay, Nat.add_sub_cancel, found, Option.any_some,
    Bool.and_eq_true]
  exact ⟨decide_eq_true (by omega), decide_eq_true (by omega), decide_eq_true (by omega)⟩

end ReleaseSelection.Calendar
