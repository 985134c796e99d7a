import RuleBacktest.Decimal.Rounding
import RuleBacktest.Indicator.Pointwise
import RuleBacktest.Window.Smoothing

/-!
# Moving averages

Averages of the closing prices, and what is built from two of them.
-/

namespace RuleBacktest
namespace Indicator

open Scalar Window

variable {α : Type} [Scalar α]

def smaPoints (period : Nat) (bars : List (Bar α)) : List (Option α) :=
  mean period (closes bars)

def emaPoints (period : Nat) (bars : List (Bar α)) : List (Option α) :=
  exponential period (closes bars)

def wmaPoints (period : Nat) (bars : List (Bar α)) : List (Option α) :=
  weightedMean period (closes bars)

def halfPeriod (period : Nat) : Nat :=
  max (period / 2) 1

def rootPeriod (period : Nat) : Nat :=
  max (wholeRoot (nearestSignificand period)) 1

/-- The weighted mean, over the root of the period, of twice the average of half
the period less the average of the whole period. -/
def hmaPoints (period : Nat) (half whole : List (Option α)) : List (Option α) :=
  acrossGaps (weightedMean (rootPeriod period))
    (pointwise (fun h w => 2 * h - w) half whole)

def macdPoints (fast slow : List (Option α)) : List (Option α) :=
  pointwise (· - ·) fast slow

/-- The mean of five median prices less that of thirty-four. -/
def awesomePoints (bars : List (Bar α)) : List (Option α) :=
  let medians := bars.map Bar.medianPrice
  pointwise (· - ·) (mean 5 medians) (mean 34 medians)

end Indicator
end RuleBacktest
