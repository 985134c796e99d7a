import RuleBacktest.Scalar.Binary64

/-!
# Shortest decimals of a double

A finite double is a natural number times a power of two.  The decimals that
round to it fill an interval around its exact value, whose ends belong to it
when the significand is even.  The shortest decimal in that interval is found on
successively finer decimal grids: on each grid only the two neighbours of the
exact value can be the nearest points inside.
-/

namespace RuleBacktest
namespace Binary64

/-- A magnitude `significand * 2 ^ exponent`.  `lowestOfBinade` marks a
significand whose lower neighbour is only half as far away as its upper one. -/
structure Magnitude where
  significand : Nat
  exponent : Int
  lowestOfBinade : Bool
  deriving DecidableEq, Repr

inductive Parts where
  | finite (negative : Bool) (magnitude : Magnitude)
  | infinite (negative : Bool)
  | notANumber
  deriving DecidableEq, Repr

def partsOfBits (bits : Nat) : Parts :=
  let negative := decide (Nat.pow 2 63 ≤ bits)
  let biased : Nat := bits / Nat.pow 2 52 % Nat.pow 2 11
  let fraction : Nat := bits % Nat.pow 2 52
  if biased = 2047 then
    if fraction = 0 then .infinite negative else .notANumber
  else if biased = 0 then .finite negative ⟨fraction, -1074, false⟩
  else
    .finite negative ⟨Nat.pow 2 52 + fraction, (biased : Int) - 1075,
      decide (fraction = 0 ∧ 1 < biased)⟩

def parts (x : Float) : Parts :=
  partsOfBits x.toBits.toNat

/-- A non-negative rational number. -/
structure Ratio where
  numerator : Nat
  denominator : Nat
  deriving DecidableEq, Repr

namespace Ratio

/-- `n * b ^ e` for a base `b`. -/
def scaled (n b : Nat) (e : Int) : Ratio :=
  if 0 ≤ e then ⟨n * Nat.pow b e.toNat, 1⟩ else ⟨n, Nat.pow b (-e).toNat⟩

def le (x y : Ratio) : Bool :=
  x.numerator * y.denominator ≤ y.numerator * x.denominator

def lt (x y : Ratio) : Bool :=
  x.numerator * y.denominator < y.numerator * x.denominator

/-- The quotient by a power of ten. -/
def overPowerOfTen (x : Ratio) (e : Int) : Ratio :=
  if 0 ≤ e then ⟨x.numerator, x.denominator * Nat.pow 10 e.toNat⟩
  else ⟨x.numerator * Nat.pow 10 (-e).toNat, x.denominator⟩

/-- The number of digits before the point of a value that is at least one, and
otherwise minus the number of zeros that follow the point directly. -/
def decimalPlace (x : Ratio) : Int :=
  if x.denominator ≤ x.numerator then
    (digitCount (x.numerator / x.denominator) : Int)
  else
    let zeros := digitCount (x.denominator / x.numerator)
    if x.numerator * Nat.pow 10 (zeros - 1) = x.denominator then
      2 - (zeros : Int)
    else 1 - (zeros : Int)

end Ratio

namespace Magnitude

def value (m : Magnitude) : Ratio :=
  Ratio.scaled (4 * m.significand) 2 (m.exponent - 2)

def lowerEnd (m : Magnitude) : Ratio :=
  Ratio.scaled (4 * m.significand - if m.lowestOfBinade then 1 else 2) 2
    (m.exponent - 2)

def upperEnd (m : Magnitude) : Ratio :=
  Ratio.scaled (4 * m.significand + 2) 2 (m.exponent - 2)

/-- Whether a decimal `digits * 10 ^ e` rounds to this magnitude. -/
def readsBack (m : Magnitude) (digits : Nat) (e : Int) : Bool :=
  let d := Ratio.scaled digits 10 e
  if m.significand % 2 = 0 then m.lowerEnd.le d && d.le m.upperEnd
  else m.lowerEnd.lt d && d.lt m.upperEnd

end Magnitude

/-- Which of two equally near neighbours is taken. -/
inductive Tie where
  | toEven
  | upward
  deriving DecidableEq, Repr

/-- The decimal point on one grid that reads back and is nearest to the exact
value, if any is. -/
def nearestOnGrid? (tie : Tie) (m : Magnitude) (e : Int) : Option (Nat × Int) :=
  let v := m.value.overPowerOfTen e
  let low := v.numerator / v.denominator
  let rest := v.numerator % v.denominator
  let lowFits := m.readsBack low e
  let highFits := rest != 0 && m.readsBack (low + 1) e
  let preferHigh :=
    decide (v.denominator < 2 * rest) ||
      (2 * rest == v.denominator && (tie == .upward || low % 2 == 1))
  match lowFits, highFits with
  | true, true => some (if preferHigh then low + 1 else low, e)
  | true, false => some (low, e)
  | false, true => some (low + 1, e)
  | false, false => none

/-- Tries grids that get finer by one digit each. -/
def firstGrid (tie : Tie) (m : Magnitude) (e : Int) : Nat → Nat × Int
  | 0 => (0, 0)
  | tries + 1 =>
      match nearestOnGrid? tie m e with
      | some d => d
      | none => firstGrid tie m (e - 1) tries

/-- The shortest digits of a positive magnitude with the exponent of their last
place.  Seventeen digits always suffice. -/
def shortest (tie : Tie) (m : Magnitude) : Nat × Int :=
  if m.significand = 0 then (0, 0)
  else firstGrid tie m (m.value.decimalPlace - 1) 17

/-- Removes zeros at the end.  A grid point that is a power of ten has one. -/
def withoutTrailingZeros (digits : Nat) (e : Int) : Nat × Int :=
  if h : digits % 10 = 0 ∧ 0 < digits then
    withoutTrailingZeros (digits / 10) (e + 1)
  else (digits, e)
termination_by digits
decreasing_by omega

end Binary64
end RuleBacktest
