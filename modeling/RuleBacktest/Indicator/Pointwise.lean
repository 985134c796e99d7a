import RuleBacktest.Bar
import RuleBacktest.Sweep

/-!
# Points of several series

Series of one list of bars are combined point by point.  The result is undefined
where one of the operands is.
-/

namespace RuleBacktest
namespace Indicator

variable {α β γ : Type}

def bothDefined (f : α → β → γ) (x : Option α) (y : Option β) : Option γ :=
  x.bind fun a => y.map (f a)

def pointwise (f : α → β → γ) (xs : List (Option α)) (ys : List (Option β)) :
    List (Option γ) :=
  List.zipWith (bothDefined f) xs ys

def closes (bars : List (Bar α)) : List α :=
  bars.map Bar.close

def highs (bars : List (Bar α)) : List α :=
  bars.map Bar.high

def lows (bars : List (Bar α)) : List α :=
  bars.map Bar.low

end Indicator
end RuleBacktest
