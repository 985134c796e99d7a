import RuleBacktest.Decimal.Rounding
import RuleBacktest.Decimal.Shortest

/-!
# Doubles written in decimal

Three forms are in use.  Documents carry the shortest digits, in positional
notation between `1e-5` and `1e16` and in scientific notation outside.
Parameters inside the text of an indicator carry the shortest digits in
positional notation throughout.  Reports for people carry a fixed number of
places of the exact value, a half going to the even neighbour.
-/

namespace RuleBacktest
namespace Binary64

def signText (negative : Bool) : String :=
  if negative then "-" else ""

/-- `digits * 10 ^ e` in positional notation, without a point when it is
whole. -/
def positional (digits : Nat) (e : Int) : String :=
  if 0 ≤ e then toString (digits * Nat.pow 10 e.toNat)
  else
    let places := (-e).toNat
    let ds := Text.padded (places + 1) digits
    let cs := ds.toList
    let whole := cs.take (cs.length - places)
    let fraction := cs.drop (cs.length - places)
    String.ofList (whole ++ '.' :: fraction)

/-- One digit before the point, the rest behind it, and an exponent with its
sign. -/
def scientific (digits : Nat) (e : Int) : String :=
  let cs := (toString digits).toList
  let exponent := e + (cs.length : Int) - 1
  let fraction := cs.drop 1
  let significand :=
    String.ofList
      (cs.take 1 ++ if fraction.isEmpty then [] else '.' :: fraction)
  let mark := if exponent < 0 then "e-" else "e+"
  significand ++ mark ++ toString exponent.natAbs

/-- Decisions of a way to write finite doubles. -/
structure NumberStyle where
  tie : Tie
  /-- Places of the decimal point, counted from the first digit, that are
  written positionally. -/
  isPositional : Int → Bool
  wholeMark : String

/-- Positional between `1e-5` and `1e16`, with `.0` after a whole number. -/
def documentStyle : NumberStyle where
  tie := .toEven
  isPositional point := decide (-4 ≤ point) && decide (point ≤ 16)
  wholeMark := ".0"

/-- Positional throughout, and whole numbers bare. -/
def plainStyle : NumberStyle where
  tie := .upward
  isPositional _ := true
  wholeMark := ""

def writeMagnitude (style : NumberStyle) (m : Magnitude) : String :=
  if m.significand = 0 then "0" ++ style.wholeMark
  else
    let (digits, e) :=
      Function.uncurry withoutTrailingZeros (shortest style.tie m)
    if style.isPositional (e + (digitCount digits : Int)) then
      positional digits e ++ if 0 ≤ e then style.wholeMark else ""
    else scientific digits e

def fixedMagnitude (places : Nat) (m : Magnitude) : String :=
  let v := m.value
  positional (roundHalfEven (v.numerator * Nat.pow 10 places) v.denominator)
    (-(places : Int))

/-- The text in a document, or nothing for a value that no number denotes
there. -/
def documentText? (x : Float) : Option String :=
  match parts x with
  | .finite negative m =>
      some (signText negative ++ writeMagnitude documentStyle m)
  | .infinite _ => none
  | .notANumber => none

def plainText (x : Float) : String :=
  match parts x with
  | .finite negative m => signText negative ++ writeMagnitude plainStyle m
  | .infinite negative => signText negative ++ "inf"
  | .notANumber => "NaN"

/-- The value to a fixed number of places.  The sign of a value that rounds to
zero is kept. -/
def fixedText (places : Nat) (x : Float) : String :=
  match parts x with
  | .finite negative m => signText negative ++ fixedMagnitude places m
  | .infinite negative => signText negative ++ "inf"
  | .notANumber => "NaN"

end Binary64
end RuleBacktest
