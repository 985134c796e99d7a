/-!
# Rounding of counts

Quotients go to the nearest integer, and a half goes to the even neighbour.  The
same rule decides which count of 53 binary digits stands for a larger count, and
for the square root of a count.
-/

namespace RuleBacktest

def roundHalfEven (n d : Nat) : Nat :=
  let q := n / d
  let r := n % d
  if 2 * r < d then q else if d < 2 * r then q + 1 else q + q % 2

/-- The count with at most 53 significant binary digits that is nearest to
`n`. -/
def nearestSignificand (n : Nat) : Nat :=
  if n < Nat.pow 2 53 then n
  else
    let unit := Nat.pow 2 (n.log2 - 52)
    roundHalfEven n unit * unit

/-- The whole part of the square root of `n` after rounding to 53 binary digits.
A square root of a count is never half way between two such values. -/
def wholeRoot (n : Nat) : Nat :=
  let places := 52 - (Nat.sqrt n).log2
  let scaled := n * Nat.pow 4 places
  let root := Nat.sqrt scaled
  let rounded := if root < scaled - root * root then root + 1 else root
  rounded / Nat.pow 2 places

end RuleBacktest
