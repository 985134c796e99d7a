import RuleBacktest.Calendar.Date

/-!
# Moments

A moment is a date with a time of day, down to nanoseconds.  Any minute may have
a sixty-first second, which comes before the minute that follows.  Moments are
ordered by their rank, which counts nanoseconds on a calendar that gives every
year thirteen months, every month thirty-two days and every minute sixty-one
seconds; it grows with time and keeps different moments apart.
-/

namespace RuleBacktest
namespace Calendar

structure Clock where
  hour : Nat
  minute : Nat
  second : Nat
  nano : Nat
  valid : hour < 24 ∧ minute < 60 ∧ second ≤ 60 ∧ nano < Nat.pow 10 9 := by
    decide
  deriving DecidableEq, Repr

namespace Clock

def midnight : Clock := { hour := 0, minute := 0, second := 0, nano := 0 }

def of? (hour minute second nano : Nat) : Option Clock :=
  if h : hour < 24 ∧ minute < 60 ∧ second ≤ 60 ∧ nano < Nat.pow 10 9 then
    some ⟨hour, minute, second, nano, h⟩
  else none

/-- Replaces a sixty-first second by the last regular second of its minute. -/
def lastRegularSecond (c : Clock) : Clock :=
  if c.second = 60 then
    { c with second := 59, valid := by have := c.valid; omega }
  else c

/-- Replaces a sixty-first second by the first second of the next minute, with
the number of days that this moves on. -/
def nextRegularSecond (c : Clock) : Clock × Int :=
  if c.second = 60 then
    if h : c.minute < 59 then
      ({ c with minute := c.minute + 1, second := 0,
                valid := by have := c.valid; omega }, 0)
    else if h : c.hour < 23 then
      ({ c with hour := c.hour + 1, minute := 0, second := 0,
                valid := by have := c.valid; omega }, 0)
    else
      ({ c with hour := 0, minute := 0, second := 0,
                valid := by have := c.valid; omega }, 1)
  else (c, 0)

def wholeSeconds (c : Clock) : Clock :=
  { c with nano := 0, valid := by have := c.valid; omega }

end Clock

structure Moment where
  date : Date
  clock : Clock
  deriving DecidableEq, Repr

namespace Moment

def rank (t : Moment) : Int :=
  (((((t.date.year * 13 + t.date.month) * 32 + t.date.day) * 24 + t.clock.hour)
    * 60 + t.clock.minute) * 61 + t.clock.second) * Nat.pow 10 9 + t.clock.nano

instance : LT Moment where
  lt s t := s.rank < t.rank

instance : LE Moment where
  le s t := s.rank ≤ t.rank

instance (s t : Moment) : Decidable (s < t) :=
  inferInstanceAs (Decidable (s.rank < t.rank))

instance (s t : Moment) : Decidable (s ≤ t) :=
  inferInstanceAs (Decidable (s.rank ≤ t.rank))

/-- The later of two moments, the second one when they are equal. -/
def later (s t : Moment) : Moment :=
  if t < s then s else t

/-- The moment so many days earlier.  A move by at least one day has no
sixty-first second to land on: backwards it counts from the end of that second,
and forwards from its start. -/
def daysBefore? (t : Moment) (days : Int) : Option Moment :=
  if days = 0 then some t
  else if 0 < days then
    let (clock, carry) := t.clock.nextRegularSecond
    (Date.ofDayNumber? (t.date.dayNumber + carry - days)).map fun d =>
      ⟨d, clock⟩
  else
    (Date.ofDayNumber? (t.date.dayNumber - days)).map fun d =>
      ⟨d, t.clock.lastRegularSecond⟩

def monthsBefore? (t : Moment) (months : Nat) : Option Moment :=
  (t.date.monthsBefore? months).map fun d => ⟨d, t.clock⟩

def startOfYear? (t : Moment) : Option Moment :=
  t.date.firstOfYear?.map fun d => ⟨d, Clock.midnight⟩

def wholeSeconds (t : Moment) : Moment :=
  { t with clock := t.clock.wholeSeconds }

end Moment
end Calendar
end RuleBacktest
