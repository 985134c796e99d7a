/-!
# Dates

Dates of the Gregorian calendar, extended to all years that the calendar of this
library covers. Days are numbered from the first of January of year zero.  The
numbering is what moves a date by a number of days; months move a date by
counting months and keeping inside the month that is reached.
-/

namespace RuleBacktest
namespace Calendar

def firstYear : Int := -262143
def lastYear : Int := 262142

def isLeapYear (year : Int) : Bool :=
  year % 4 == 0 && (year % 100 != 0 || year % 400 == 0)

def monthLengths (year : Int) : List Nat :=
  [31, if isLeapYear year then 29 else 28, 31, 30, 31, 30, 31, 31, 30, 31, 30,
    31]

/-- The number of days of a month between 1 and 12, and zero for any other. -/
def daysInMonth (year : Int) (month : Nat) : Nat :=
  match month with
  | 0 => 0
  | m + 1 => (monthLengths year)[m]?.getD 0

structure Date where
  year : Int
  month : Nat
  day : Nat
  valid : firstYear ≤ year ∧ year ≤ lastYear ∧ 1 ≤ month ∧ month ≤ 12 ∧
    1 ≤ day ∧ day ≤ daysInMonth year month := by decide
  deriving DecidableEq, Repr

namespace Date

def of? (year : Int) (month day : Nat) : Option Date :=
  if h : firstYear ≤ year ∧ year ≤ lastYear ∧ 1 ≤ month ∧ month ≤ 12 ∧
      1 ≤ day ∧ day ≤ daysInMonth year month then
    some ⟨year, month, day, h⟩
  else none

def daysBeforeYear (year : Int) : Int :=
  365 * year + (year + 3) / 4 - (year + 99) / 100 + (year + 399) / 400

def dayNumber (d : Date) : Int :=
  daysBeforeYear d.year +
    (((monthLengths d.year).take (d.month - 1)).foldl (· + ·) 0 : Nat) +
    ((d.day : Int) - 1)

/-- The year that holds a day.  The average length of a year gives it up to one
on either side. -/
def yearOfDayNumber (n : Int) : Int :=
  let y := 400 * n / 146097
  if n < daysBeforeYear y then y - 1
  else if n < daysBeforeYear (y + 1) then y
  else y + 1

theorem daysBeforeYear_yearOfDayNumber_le (n : Int) :
    daysBeforeYear (yearOfDayNumber n) ≤ n := by
  unfold yearOfDayNumber
  dsimp only
  split
  · unfold daysBeforeYear at *
    omega
  · split <;> (unfold daysBeforeYear at *; omega)

theorem lt_daysBeforeYear_yearOfDayNumber_succ (n : Int) :
    n < daysBeforeYear (yearOfDayNumber n + 1) := by
  unfold yearOfDayNumber
  dsimp only
  split
  · rwa [Int.sub_add_cancel]
  · split <;> (unfold daysBeforeYear at *; omega)

/-- Walks through the lengths of the months that begin with `month`, `rest` days
from its first. -/
def walkMonths : List Nat → Nat → Nat → Nat × Nat
  | [], month, rest => (month, rest + 1)
  | length :: lengths, month, rest =>
      if rest < length then (month, rest + 1)
      else walkMonths lengths (month + 1) (rest - length)

def ofDayNumber? (n : Int) : Option Date :=
  let year := yearOfDayNumber n
  let (month, day) :=
    walkMonths (monthLengths year) 1 (n - daysBeforeYear year).toNat
  of? year month day

/-- The date so many months earlier, on the last day of its month if that month
is shorter. -/
def monthsBefore? (d : Date) (months : Nat) : Option Date :=
  let place : Int := d.year * 12 + ((d.month : Int) - 1) - (months : Int)
  let year := place / 12
  let month := (place % 12).toNat + 1
  of? year month (min d.day (daysInMonth year month))

def firstOfYear? (d : Date) : Option Date :=
  of? d.year 1 1

end Date
end Calendar
end RuleBacktest
