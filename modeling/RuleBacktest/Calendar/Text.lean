import RuleBacktest.Calendar.Moment
import RuleBacktest.Text.Count

/-!
# Dates and moments written

Years between 0 and 9999 have four digits; other years carry a sign and at least
four digits.
-/

namespace RuleBacktest
namespace Calendar

open Text

def yearText (year : Int) : String :=
  if 0 ≤ year ∧ year ≤ 9999 then padded 4 year.toNat
  else (if year < 0 then "-" else "+") ++ padded 4 year.natAbs

def Date.text (d : Date) : String :=
  yearText d.year ++ "-" ++ padded 2 d.month ++ "-" ++ padded 2 d.day

def Clock.text (c : Clock) : String :=
  padded 2 c.hour ++ ":" ++ padded 2 c.minute ++ ":" ++ padded 2 c.second

/-- A fraction in groups of three digits, as few as are exact; nothing for a
whole second. -/
def Clock.fractionText (c : Clock) : String :=
  if c.nano = 0 then ""
  else if c.nano % Nat.pow 10 6 = 0 then "." ++ padded 3 (c.nano / Nat.pow 10 6)
  else if c.nano % Nat.pow 10 3 = 0 then "." ++ padded 6 (c.nano / Nat.pow 10 3)
  else "." ++ padded 9 c.nano

namespace Moment

/-- Date and time with a blank between them, without the fraction. -/
def tableText (t : Moment) : String :=
  t.date.text ++ " " ++ t.clock.text

/-- Date and time with the letter T between them, without the fraction. -/
def reportText (t : Moment) : String :=
  t.date.text ++ "T" ++ t.clock.text

def exactText (t : Moment) : String :=
  t.reportText ++ t.clock.fractionText

/-- Date and time with a blank between them, with the fraction. -/
def exactTableText (t : Moment) : String :=
  t.tableText ++ t.clock.fractionText

def monthNames : List String :=
  ["JAN", "FEB", "MAR", "APR", "MAY", "JUN", "JUL", "AUG", "SEP", "OCT", "NOV",
    "DEC"]

/-- Month and day of the month, as a label on a curve. -/
def curveLabel (t : Moment) : String :=
  monthNames[t.date.month - 1]?.getD "" ++ " " ++ toString t.date.day

end Moment
end Calendar
end RuleBacktest
