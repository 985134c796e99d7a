/-!
# Whole numbers in text

The digits are the ten ASCII digits.  A count may carry a leading plus sign, an
integer a plus or a minus sign, and both are read only inside the bounds that
the reader states.
-/

namespace RuleBacktest
namespace Text

def isDigit (c : Char) : Bool :=
  '0' ≤ c && c ≤ '9'

def digitValue (c : Char) : Nat :=
  c.toNat - '0'.toNat

/-- The value of a hexadecimal digit. -/
def hexValue? (c : Char) : Option Nat :=
  if isDigit c then some (digitValue c)
  else if 'a' ≤ c ∧ c ≤ 'f' then some (c.toNat - 'a'.toNat + 10)
  else if 'A' ≤ c ∧ c ≤ 'F' then some (c.toNat - 'A'.toNat + 10)
  else none

def valueOfDigits (cs : List Char) : Nat :=
  cs.foldl (fun n c => 10 * n + digitValue c) 0

/-- The value of hexadecimal digits. -/
def valueOfHexDigits (cs : List Char) : Nat :=
  cs.foldl (fun n c => 16 * n + (hexValue? c).getD 0) 0

/-- The value of a non-empty run of digits. -/
def digits? (cs : List Char) : Option Nat :=
  if cs.isEmpty || !cs.all isDigit then none else some (valueOfDigits cs)

/-- Splits off one leading sign.  The flag says whether it was a minus sign. -/
def splitSign : List Char → Bool × List Char
  | '-' :: cs => (true, cs)
  | '+' :: cs => (false, cs)
  | cs => (false, cs)

/-- Reads a count that is at most `limit`. -/
def count? (limit : Nat) (s : String) : Option Nat :=
  let unsigned := match s.toList with
    | '+' :: cs => cs
    | cs => cs
  (digits? unsigned).filter (· ≤ limit)

/-- Reads an integer between `-limit - 1` and `limit`. -/
def integer? (limit : Nat) (s : String) : Option Int :=
  let (negative, cs) := splitSign s.toList
  (digits? cs).bind fun n =>
    if negative then
      if n ≤ limit + 1 then some (-(n : Int)) else none
    else
      if n ≤ limit then some (n : Int) else none

def maxUnsigned32 : Nat := Nat.pow 2 32 - 1
def maxUnsigned64 : Nat := Nat.pow 2 64 - 1
def maxSigned64 : Nat := Nat.pow 2 63 - 1

/-- The digits of `n`, filled with zeros on the left up to `width` places. -/
def padded (width n : Nat) : String :=
  let ds := toString n
  String.ofList (List.replicate (width - ds.length) '0') ++ ds

end Text
end RuleBacktest
