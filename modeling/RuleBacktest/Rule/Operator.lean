import RuleBacktest.Text.AsciiCase
import RuleBacktest.Text.Blank

/-!
# Comparison operators
-/

namespace RuleBacktest

inductive Operator where
  | less
  | greater
  | lessOrEqual
  | greaterOrEqual
  | equal
  | crossesUp
  | crossesDown
  deriving DecidableEq, Repr

namespace Operator

/-- Reads an operator with blanks around it.  The two words may be written in
any ASCII case. -/
def ofText? (s : String) : Option Operator :=
  let sign := Text.trim s
  if sign = "<" then some less
  else if sign = ">" then some greater
  else if sign = "<=" then some lessOrEqual
  else if sign = ">=" then some greaterOrEqual
  else if sign = "=" ∨ sign = "==" then some equal
  else if Text.sameIgnoringAsciiCase sign "crossesUp" then some crossesUp
  else if Text.sameIgnoringAsciiCase sign "crossesDown" then some crossesDown
  else none

def text : Operator → String
  | less => "<"
  | greater => ">"
  | lessOrEqual => "<="
  | greaterOrEqual => ">="
  | equal => "="
  | crossesUp => "crossesUp"
  | crossesDown => "crossesDown"

end Operator
end RuleBacktest
