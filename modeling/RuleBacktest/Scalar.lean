import RuleBacktest.Decimal

/-!
# Numbers of the arithmetic in use

Prices, indicators and account values are computed over a scalar type.  A scalar
brings the four operations, a comparison that may leave two values unordered,
the square root and the logarithm, and the embedding of counts and decimals.
The program runs over binary floating point; the exact theory runs over the real
numbers.

The selections `larger` and `smaller` keep their first argument when the two are
equal, and return the other argument when one of them is unordered with itself.
-/

namespace RuleBacktest

class Scalar (α : Type) where
  [addition : Add α]
  [subtraction : Sub α]
  [multiplication : Mul α]
  [division : Div α]
  [negation : Neg α]
  [strictOrder : LT α]
  [weakOrder : LE α]
  ofCount : Nat → α
  ofDecimal : Decimal → α
  abs : α → α
  sqrt : α → α
  ln : α → α
  isFinite : α → Bool
  decidableLT : DecidableLT α
  decidableLE : DecidableLE α
  /-- Identity of values.  It separates the two zeros where there are two. -/
  decidableEq : DecidableEq α

namespace Scalar

variable {α : Type} [Scalar α]

instance (priority := low) instAdd : Add α := addition
instance (priority := low) instSub : Sub α := subtraction
instance (priority := low) instMul : Mul α := multiplication
instance (priority := low) instDiv : Div α := division
instance (priority := low) instNeg : Neg α := negation
instance (priority := low) instLT : LT α := strictOrder
instance (priority := low) instLE : LE α := weakOrder
instance (priority := low) instDecidableLT : DecidableLT α := decidableLT
instance (priority := low) instDecidableLE : DecidableLE α := decidableLE
instance (priority := low) instDecidableEq : DecidableEq α := decidableEq

scoped instance (priority := low) instOfNat {n : Nat} : OfNat α n where
  ofNat := ofCount n

scoped instance (priority := low) instOfScientific : OfScientific α where
  ofScientific digits negativeExponent exponent :=
    ofDecimal ⟨false, digits,
      if negativeExponent then -(exponent : Int) else (exponent : Int)⟩

/-- Equality as the comparison sees it: each value is at most the other. -/
def same (x y : α) : Bool :=
  decide (x ≤ y) && decide (y ≤ x)

def larger (x y : α) : α :=
  if x < y then y else if x ≤ x then x else y

def smaller (x y : α) : α :=
  if y < x then y else if x ≤ x then x else y

def clamp (lowest highest x : α) : α :=
  if x < lowest then lowest else if highest < x then highest else x

/-- The sum from left to right.  It starts at minus zero, which changes no
summand. -/
def sum (xs : List α) : α :=
  xs.foldl (· + ·) (-0)

/-- The finite value of a numeral, if it has one. -/
def ofNumeral? : Numeral → Option α
  | .finite d =>
      let x : α := ofDecimal d
      if isFinite x then some x else none
  | .infinite _ => none
  | .notANumber _ => none

end Scalar
end RuleBacktest
