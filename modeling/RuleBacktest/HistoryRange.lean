import RuleBacktest.Calendar.Moment
import RuleBacktest.Text.Blank
import RuleBacktest.Text.Count
import RuleBacktest.Text.Lowercase

/-!
# History ranges

A range says how far back from the latest record a history reaches.  A window
whose start lies before the first date of the calendar is unbounded and keeps
every record.
-/

namespace RuleBacktest

open Calendar

inductive HistoryRange where
  | days (count : Int)
  | months (count : Nat)
  | years (count : Nat)
  | yearToDate
  | max
  deriving DecidableEq, Repr

namespace HistoryRange

/-- The most days whose length in milliseconds is a signed 64-bit number. -/
def longestSpan : Nat := Text.maxSigned64 / 86400000

/-- The first moment inside the window that ends at `latest`, or nothing for an
unbounded window.  A span of days that is too long is unbounded before any date
is looked for, and so are years that make more months than an unsigned 32-bit
number can count. -/
def windowStart? (range : HistoryRange) (latest : Moment) : Option Moment :=
  match range with
  | .days n => if longestSpan < n.natAbs then none else latest.daysBefore? n
  | .months n => latest.monthsBefore? n
  | .years n =>
      if Text.maxUnsigned32 < 12 * n then none
      else latest.monthsBefore? (12 * n)
  | .yearToDate => latest.startOfYear?
  | .max => none

def latest? (times : List Moment) : Option Moment :=
  match times with
  | [] => none
  | t :: ts => some (ts.foldl Moment.later t)

/-- Keeps the records inside the window that ends at the latest of them. -/
def clip {β : Type} (range : HistoryRange) (time : β → Moment)
    (records : List β) : List β :=
  match latest? (records.map time) with
  | none => records
  | some latest =>
      match range.windowStart? latest with
      | none => records
      | some start => records.filter fun r => decide (start ≤ time r)

/-- Reads a count between 1 and the largest unsigned 32-bit number, followed by
a unit. -/
def counted? (cs : List Char) : Option HistoryRange :=
  match Text.digits? (cs.takeWhile Text.isDigit) with
  | none => none
  | some n =>
      if n = 0 ∨ Text.maxUnsigned32 < n then none
      else
        match cs.dropWhile Text.isDigit with
        | ['d'] => some (.days n)
        | ['m', 'o'] => some (.months n)
        | ['y'] => some (.years n)
        | _ => none

@[irreducible] def ofText? (s : String) : Option HistoryRange :=
  let word := Text.lower (Text.trim s)
  if word = "max" then some .max
  else if word = "ytd" then some .yearToDate
  else counted? word.toList

def text : HistoryRange → String
  | .days n => toString n ++ "d"
  | .months n => toString n ++ "mo"
  | .years n => toString n ++ "y"
  | .yearToDate => "ytd"
  | .max => "max"

end HistoryRange
end RuleBacktest
