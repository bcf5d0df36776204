import Mathlib

/-!
# The proleptic Gregorian calendar

Leap years, the lengths of months and years, dates that exist, the day after a date,
and the number of a day counted through years and months.
-/

namespace DfeClickhouse.Library

/-- A year with a 29th of February. -/
def IsLeapYear (year : Int) : Prop :=
  4 ∣ year ∧ (¬ 100 ∣ year ∨ 400 ∣ year)

instance (year : Int) : Decidable (IsLeapYear year) :=
  inferInstanceAs (Decidable (4 ∣ year ∧ (¬ 100 ∣ year ∨ 400 ∣ year)))

def yearLength (year : Int) : Nat :=
  if IsLeapYear year then 366 else 365

/-- The days of a month, none for a number that is no month. -/
def monthLength (year : Int) : Nat → Nat
  | 1 => 31
  | 2 => if IsLeapYear year then 29 else 28
  | 3 => 31
  | 4 => 30
  | 5 => 31
  | 6 => 30
  | 7 => 31
  | 8 => 31
  | 9 => 30
  | 10 => 31
  | 11 => 30
  | 12 => 31
  | _ => 0

/-- A date that exists. -/
structure CivilDate where
  year : Int
  month : Nat
  day : Nat
  isMonth : 1 ≤ month ∧ month ≤ 12
  isDay : 1 ≤ day ∧ day ≤ monthLength year month

namespace CivilDate

/-- The date of a year, month and day, if it exists. -/
def Exists (year : Int) (month day : Nat) : Prop :=
  (1 ≤ month ∧ month ≤ 12) ∧ 1 ≤ day ∧ day ≤ monthLength year month

theorem one_le_monthLength (year : Int) {month : Nat} (isMonth : 1 ≤ month ∧ month ≤ 12) :
    1 ≤ monthLength year month := by
  obtain ⟨least, greatest⟩ := isMonth
  interval_cases month <;> simp only [monthLength] <;> try decide
  split <;> decide

/-- The day after a date. -/
def next (date : CivilDate) : CivilDate :=
  if later : date.day < monthLength date.year date.month then
    { date with
      day := date.day + 1
      isDay := ⟨Nat.le_add_left 1 _, later⟩ }
  else if sameYear : date.month < 12 then
    { date with
      month := date.month + 1
      day := 1
      isMonth := ⟨Nat.le_add_left 1 _, sameYear⟩
      isDay := ⟨le_rfl, one_le_monthLength _ ⟨Nat.le_add_left 1 _, sameYear⟩⟩ }
  else
    { year := date.year + 1
      month := 1
      day := 1
      isMonth := by decide
      isDay := ⟨le_rfl, one_le_monthLength _ (by decide)⟩ }

end CivilDate

/-- The days from the start of year zero to the start of a year. -/
def daysBeforeYear : Nat → Nat
  | 0 => 0
  | year + 1 => daysBeforeYear year + yearLength year

/-- The days of a year before a month. -/
def daysBeforeMonth (year : Int) : Nat → Nat
  | 0 => 0
  | month + 1 => daysBeforeMonth year month + monthLength year month

/-- The day of a date from year zero on, counted from a year's first of January. -/
def CivilDate.daysSince (start : Nat) (date : CivilDate) : Int :=
  daysBeforeYear date.year.toNat + daysBeforeMonth date.year date.month + (date.day - 1) -
    daysBeforeYear start

theorem daysBeforeMonth_december (year : Int) :
    daysBeforeMonth year 12 + 31 = yearLength year := by
  simp only [daysBeforeMonth, monthLength, yearLength]
  split <;> rfl

end DfeClickhouse.Library
