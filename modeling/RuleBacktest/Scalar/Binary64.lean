import RuleBacktest.Scalar

/-!
# Binary floating point as a scalar

Every decimal becomes the double nearest to it.  Exponents beyond the range of
doubles are settled before any power of ten is formed.
-/

namespace RuleBacktest
namespace Binary64

/-- The number of decimal digits of `n`, one for zero. -/
def digitCount (n : Nat) : Nat :=
  (Nat.toDigits 10 n).length

def infinity : Float := 1.0 / 0.0

def notANumber : Float := 0.0 / 0.0

def magnitude (digits : Nat) (exponent : Int) : Float :=
  if digits = 0 then 0.0
  else if exponent > 400 then infinity
  else if exponent + (digitCount digits : Int) < -400 then 0.0
  else
    match exponent with
    | .ofNat e => Float.ofScientific digits false e
    | .negSucc e => Float.ofScientific digits true (e + 1)

def ofDecimal (d : Decimal) : Float :=
  let x := magnitude d.digits d.exponent
  if d.negative then -x else x

/-- The double that a numeral denotes.  There is one double that is not a
number. -/
def ofNumeral : Numeral → Float
  | .finite d => ofDecimal d
  | .infinite negative => if negative then -infinity else infinity
  | .notANumber _ => notANumber

def ofText? (s : String) : Option Float :=
  (Numeral.ofText? s).map ofNumeral

end Binary64

instance : Scalar Float where
  ofCount n := Float.ofNat n
  ofDecimal := Binary64.ofDecimal
  abs := Float.abs
  sqrt := Float.sqrt
  ln := Float.log
  isFinite := Float.isFinite
  decidableLT := inferInstance
  decidableLE := inferInstance
  decidableEq := inferInstance

end RuleBacktest
