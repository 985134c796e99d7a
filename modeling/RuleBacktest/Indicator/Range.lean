import RuleBacktest.Indicator.Kind
import RuleBacktest.Indicator.Pointwise
import RuleBacktest.Window.Extreme
import RuleBacktest.Window.Smoothing

/-!
# Ranges, directional movement and channels

The true range of a bar reaches to the close before it; the first bar has only
its own range.  Its smoothed value measures the width of channels and the
strength of directional movement.
-/

namespace RuleBacktest
namespace Indicator

open Scalar Window

variable {α : Type} [Scalar α]

def trueRanges (bars : List (Bar α)) : List α :=
  (withLag 1 bars).map fun (b, previous) =>
    match previous with
    | none => b.high - b.low
    | some p => b.trueRange p.close

def atrPoints (period : Nat) (bars : List (Bar α)) : List (Option α) :=
  wilder period (trueRanges bars)

/-- How far the bar reaches beyond the one before it in one direction, if it
reaches further there than in the other. -/
def movement (direction : Direction) (previous b : Bar α) : α :=
  let up := b.high - previous.high
  let down := previous.low - b.low
  let (own, other) := match direction with
    | .plus => (up, down)
    | .minus => (down, up)
  if other < own ∧ 0 < own then own else 0

def movements (direction : Direction) (bars : List (Bar α)) : List (Option α) :=
  (withLag 1 bars).map fun (b, previous) =>
    previous.map fun p => movement direction p b

def directionalPoints (direction : Direction) (period : Nat)
    (bars : List (Bar α)) (ranges : List (Option α)) : List (Option α) :=
  pointwise (fun m range => if same range 0 then 0 else 100 * m / range)
    (acrossGaps (wilder period) (movements direction bars)) ranges

def directionalContrast (plus minus : α) : α :=
  if same (plus + minus) 0 then 0 else 100 * abs (plus - minus) / (plus + minus)

def adxPoints (period : Nat) (plus minus : List (Option α)) : List (Option α) :=
  acrossGaps (wilder period) (pointwise directionalContrast plus minus)

def standardDeviationPoints (period : Nat) (bars : List (Bar α)) :
    List (Option α) :=
  deviation period (closes bars)

/-- One edge of a channel around `middle`, `width` times `spread` away from
it. -/
def bandPoints (band : Band) (width : Factor α)
    (middle spread : List (Option α)) : List (Option α) :=
  match band with
  | .upper => pointwise (fun m s => m + width.value * s) middle spread
  | .lower => pointwise (fun m s => m - width.value * s) middle spread

def keltnerMiddlePoints (period : Nat) (bars : List (Bar α)) :
    List (Option α) :=
  exponential period (bars.map Bar.typicalPrice)

def donchianPoints (band : Band) (period : Nat) (bars : List (Bar α)) :
    List (Option α) :=
  match band with
  | .upper => highest period (highs bars)
  | .lower => lowest period (lows bars)

def midpoints (highest lowest : List (Option α)) : List (Option α) :=
  pointwise (fun h l => (h + l) / 2) highest lowest

end Indicator
end RuleBacktest
