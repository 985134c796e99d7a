import RuleBacktest.Calendar.Moment
import RuleBacktest.Text.Blank
import RuleBacktest.Text.Count

/-!
# Dates and moments read

Numbers may be preceded by blanks.  A year has up to four digits, or any number
of digits after a sign; the other fields have up to two digits.  Each field is
held against its own bounds as soon as it is read, and the date as a whole only
when nothing is left of the text.
-/

namespace RuleBacktest
namespace Calendar

open Text

inductive ReadingFault where
  | premature
  | invalid
  | outOfRange
  | trailing
  deriving DecidableEq, Repr

def ReadingFault.message : ReadingFault → String
  | .premature => "premature end of input"
  | .invalid => "input contains invalid characters"
  | .outOfRange => "input is out of range"
  | .trailing => "trailing input"

namespace Reading

/-- Reads at least one digit and at most `width` of them, when a width is
given. -/
def digits (width : Option Nat) (cs : List Char) :
    Except ReadingFault (Nat × List Char) :=
  let run := cs.takeWhile isDigit
  let taken := match width with
    | some w => run.take w
    | none => run
  if cs.isEmpty then .error .premature
  else if taken.isEmpty then .error .invalid
  else .ok (valueOfDigits taken, cs.drop taken.length)

def literal (c : Char) : List Char → Except ReadingFault (Unit × List Char)
  | [] => .error .premature
  | d :: cs => if d = c then .ok ((), cs) else .error .invalid

/-- A number of one or two digits between two bounds. -/
def field (lowest highest : Nat) (cs : List Char) :
    Except ReadingFault (Nat × List Char) := do
  let (n, cs) ← digits (some 2) (cs.dropWhile isBlank)
  if lowest ≤ n ∧ n ≤ highest then .ok (n, cs) else .error .outOfRange

/-- A number, read with what follows it, inside the integers that end before a
limit. -/
def bounded (limit : Nat) (y : Int) (cs : List Char) :
    Except ReadingFault (Int × List Char) :=
  if -(limit : Int) ≤ y ∧ y < limit then .ok (y, cs) else .error .outOfRange

def signedYear (cs : List Char) : Except ReadingFault (Int × List Char) :=
  match cs.dropWhile isBlank with
  | '-' :: r => do
      let (n, r) ← digits none r
      .ok (-(n : Int), r)
  | '+' :: r => do
      let (n, r) ← digits none r
      .ok ((n : Int), r)
  | r => do
      let (n, r) ← digits (some 4) r
      .ok ((n : Int), r)

/-- A year.  One beyond the 32-bit integers is out of range whatever follows. -/
def year (cs : List Char) : Except ReadingFault (Int × List Char) := do
  let (y, cs) ← signedYear cs
  bounded (Nat.pow 2 31) y cs

def dateFields (cs : List Char) :
    Except ReadingFault ((Int × Nat × Nat) × List Char) := do
  let (y, cs) ← year cs
  let ((), cs) ← literal '-' cs
  let (m, cs) ← field 1 12 cs
  let ((), cs) ← literal '-' cs
  let (d, cs) ← field 1 31 cs
  .ok ((y, m, d), cs)

def clockFields (cs : List Char) :
    Except ReadingFault ((Nat × Nat × Nat) × List Char) := do
  let (h, cs) ← field 0 23 cs
  let ((), cs) ← literal ':' cs
  let (m, cs) ← field 0 59 cs
  let ((), cs) ← literal ':' cs
  let (s, cs) ← field 0 60 cs
  .ok ((h, m, s), cs)

def finished : List Char → Except ReadingFault Unit
  | [] => .ok ()
  | _ => .error .trailing

def date (f : Int × Nat × Nat) : Except ReadingFault Date :=
  match Date.of? f.1 f.2.1 f.2.2 with
  | some d => .ok d
  | none => .error .outOfRange

def clock (f : Nat × Nat × Nat) (nano : Nat) : Except ReadingFault Clock :=
  match Clock.of? f.1 f.2.1 f.2.2 nano with
  | some c => .ok c
  | none => .error .outOfRange

end Reading

def Date.ofText (s : String) : Except ReadingFault Date := do
  let (f, cs) ← Reading.dateFields s.toList
  Reading.finished cs
  Reading.date f

namespace Moment

/-- A date and a time, with any number of blanks between them. -/
def ofTableText (s : String) : Except ReadingFault Moment := do
  let (d, cs) ← Reading.dateFields s.toList
  let (c, cs) ← Reading.clockFields (cs.dropWhile isBlank)
  Reading.finished cs
  .ok ⟨← Reading.date d, ← Reading.clock c 0⟩

/-- A date with a time, or a date alone for its midnight.  The fault is that of
the date alone. -/
def ofCell (s : String) : Except ReadingFault Moment :=
  match ofTableText s with
  | .ok t => .ok t
  | .error _ => (Date.ofText s).map fun d => ⟨d, Clock.midnight⟩

/-- Reads a fraction of a second of at most nine digits. -/
def fraction : List Char → Except ReadingFault Nat
  | [] => .ok 0
  | '.' :: cs => do
      let (_, rest) ← Reading.digits (some 9) cs
      Reading.finished rest
      .ok (valueOfDigits cs * Nat.pow 10 (9 - cs.length))
  | _ => .error .invalid

/-- Reads what `exactText` writes. -/
def ofExactText (s : String) : Except ReadingFault Moment := do
  let (d, cs) ← Reading.dateFields s.toList
  let ((), cs) ← Reading.literal 'T' cs
  let (c, cs) ← Reading.clockFields cs
  let nano ← fraction cs
  .ok ⟨← Reading.date d, ← Reading.clock c nano⟩

end Moment
end Calendar
end RuleBacktest
