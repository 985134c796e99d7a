import RuleBacktest.Json.Document
import RuleBacktest.Text.Count

/-!
# Values of JSON numbers

A number without point and exponent is a whole number as long as 64 bits hold
it.  Any other number is a double, worked out from a 64-bit significand and a
power of ten: digits that the significand cannot take are dropped, a digit
dropped before the point still counts for the power, and the power is applied by
one multiplication or division after steps of `1e308`.  A number beyond the
largest double has no value.
-/

namespace RuleBacktest
namespace Json

inductive Number where
  | whole (value : Int)
  | real (value : Float)

namespace Number

/-- The parts of a spelling. -/
structure Spelling where
  negative : Bool
  whole : List Char
  fraction : Option (List Char)
  exponent : Option (Bool × List Char)

def Spelling.ofString (s : String) : Spelling :=
  let (negative, cs) := Text.splitSign s.toList
  let whole := cs.takeWhile Text.isDigit
  let (fraction, rest) := match cs.dropWhile Text.isDigit with
    | '.' :: r => (some (r.takeWhile Text.isDigit), r.dropWhile Text.isDigit)
    | r => (none, r)
  let exponent := match rest with
    | _ :: r => some (Text.splitSign r)
    | [] => none
  ⟨negative, whole, fraction, exponent⟩

def withDigit (significand : Nat) (c : Char) : Nat :=
  10 * significand + Text.digitValue c

/-- Takes digits as long as the significand stays within 64 bits.  The second
part is what is left of the digits. -/
def takeDigits (significand : Nat) : List Char → Nat × List Char
  | [] => (significand, [])
  | c :: cs =>
      if withDigit significand c ≤ Text.maxUnsigned64 then
        takeDigits (withDigit significand c) cs
      else (significand, c :: cs)

/-- The largest power that is applied in one step. -/
def largestStep : Nat := 308

def powerOfTen (n : Nat) : Float := Float.ofScientific 1 false n

def scaleDown (f : Float) (power : Nat) : Float :=
  if power ≤ largestStep then f / powerOfTen power
  else if f == 0.0 then f
  else scaleDown (f / powerOfTen largestStep) (power - largestStep)
termination_by power
decreasing_by simp [largestStep] at *; omega

def scaleUp? (f : Float) (power : Nat) : Option Float :=
  if power ≤ largestStep then
    let g := f * powerOfTen power
    if g.isInf then none else some g
  else if f == 0.0 then some f
  else none

def scale? (significand : Nat) (power : Int) : Option Float :=
  let f := Float.ofNat significand
  if 0 ≤ power then scaleUp? f power.toNat
  else some (scaleDown f (-power).toNat)

/-- The power of ten of an exponent part.  A power beyond 32 bits leaves only
zero. -/
def real? (significand : Nat) (power : Int)
    (exponent : Option (Bool × List Char)) : Option Float :=
  match exponent with
  | none => scale? significand power
  | some (negative, digits) =>
      let e := Text.valueOfDigits digits
      if Nat.pow 2 31 ≤ e then
        if significand ≠ 0 ∧ !negative then none else some 0.0
      else scale? significand
        (if negative then power - (e : Int) else power + (e : Int))

def magnitude? (s : Spelling) : Option Float :=
  let (significand, dropped) := takeDigits 0 s.whole
  match s.fraction with
  | none => real? significand (dropped.length : Int) s.exponent
  | some digits =>
      let (all, unused) := takeDigits significand digits
      let taken := digits.length - unused.length
      real? all ((dropped.length : Int) - (taken : Int)) s.exponent

def ofSpelling? (s : Spelling) : Option Number :=
  let n := Text.valueOfDigits s.whole
  if s.fraction.isNone &&
      s.exponent.isNone &&
      !s.negative &&
      decide (n ≤ Text.maxUnsigned64) then
    some (.whole n)
  else if s.fraction.isNone && s.exponent.isNone && s.negative && n != 0 &&
      decide (n ≤ Text.maxSigned64 + 1) then
    some (.whole (-(n : Int)))
  else (magnitude? s).map fun x => .real (if s.negative then -x else x)

def ofString? (s : String) : Option Number :=
  ofSpelling? (Spelling.ofString s)

def text : Number → String
  | whole n => toString n
  | real x => (Binary64.documentText? x).getD ""

def toFloat : Number → Float
  | whole n => if n < 0 then -Float.ofNat n.natAbs else Float.ofNat n.natAbs
  | real x => x

end Number
end Json
end RuleBacktest
