import RuleBacktest.Text.Count

/-!
# Decimal numerals

A decimal is a sign, a natural number and a power of ten.  Numerals in text
denote a decimal, an infinity, or a value that is not a number, each with its
sign; how a decimal becomes a number of the arithmetic in use is settled there.
-/

namespace RuleBacktest

/-- `digits` times ten to the `exponent`, negated when `negative`. -/
structure Decimal where
  negative : Bool
  digits : Nat
  exponent : Int
  deriving DecidableEq, Repr

inductive Numeral where
  | finite (value : Decimal)
  | infinite (negative : Bool)
  | notANumber (negative : Bool)
  deriving DecidableEq, Repr

namespace Numeral

open Text

/-- Reads an exponent mark with its digits, or nothing at the end of the
text. -/
def exponent? : List Char → Option Int
  | [] => some 0
  | c :: cs =>
      if c = 'e' || c = 'E' then
        let (negative, ds) := splitSign cs
        (digits? ds).map fun n => if negative then -(n : Int) else (n : Int)
      else none

/-- Reads digits with at most one point among them and an optional exponent.
One digit is enough, before the point or after it. -/
def magnitude? (cs : List Char) : Option (Nat × Int) :=
  let whole := cs.takeWhile isDigit
  let (fraction, rest) := match cs.dropWhile isDigit with
    | '.' :: r => (r.takeWhile isDigit, r.dropWhile isDigit)
    | r => ([], r)
  if whole.isEmpty && fraction.isEmpty then none
  else
    (exponent? rest).map fun e =>
      (valueOfDigits (whole ++ fraction), e - (fraction.length : Int))

def ofChars? (cs : List Char) : Option Numeral :=
  let (negative, body) := splitSign cs
  let word := body.map Char.toLower
  if word = "inf".toList || word = "infinity".toList then
    some (.infinite negative)
  else if word = "nan".toList then some (.notANumber negative)
  else (magnitude? body).map fun (digits, exponent) =>
    .finite ⟨negative, digits, exponent⟩

/-- Reads a whole text as a numeral; blanks around it are not skipped. -/
def ofText? (s : String) : Option Numeral :=
  ofChars? s.toList

end Numeral
end RuleBacktest
