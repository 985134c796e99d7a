import RuleBacktest.Indicator.Pointwise
import RuleBacktest.Window.Extreme
import RuleBacktest.Window.Smoothing

/-!
# Momentum oscillators

Each of these places the close of a bar against its recent past: against earlier
closes, against the extremes of a window, or against the spread of the typical
prices.  Where the reference has no extent the point is undefined or neutral, so
that no quotient has a zero divisor.
-/

namespace RuleBacktest
namespace Indicator

open Scalar Window

variable {α : Type} [Scalar α]

/-- The changes of the close, with nothing for the first bar. -/
def changes (bars : List (Bar α)) : List (Option α) :=
  (withLag 1 (closes bars)).map fun (close, previous) =>
    previous.map fun p => close - p

def relativeStrength (gain loss : α) : α :=
  if same loss 0 then 100 else 100 - 100 / (1 + gain / loss)

def rsiPoints (period : Nat) (bars : List (Bar α)) : List (Option α) :=
  let gains := (changes bars).map fun c => c.map fun x => larger x 0
  let losses := (changes bars).map fun c => c.map fun x => larger (-x) 0
  pointwise relativeStrength (acrossGaps (wilder period) gains)
    (acrossGaps (wilder period) losses)

def rateOfChangePoints (period : Nat) (bars : List (Bar α)) : List (Option α) :=
  if period = 0 then bars.map fun _ => none
  else
    (withLag period (closes bars)).map fun (close, earlier) =>
      earlier.bind fun p =>
        if same p 0 then none else some ((close - p) / p * 100)

/-- Evaluates a position of the close between the extremes of its window, unless
they coincide. -/
def withinRange (position : α → α → α → α) (bars : List (Bar α))
    (highest lowest : List (Option α)) : List (Option α) :=
  List.zipWith (fun b extremes => extremes.bind fun (h, l) =>
      if same (h - l) 0 then none else some (position b.close h l))
    bars (pointwise Prod.mk highest lowest)

def stochasticPoints (period : Nat) (bars : List (Bar α)) : List (Option α) :=
  withinRange (fun c h l => 100 * (c - l) / (h - l)) bars
    (highest period (highs bars)) (lowest period (lows bars))

def williamsRPoints (period : Nat) (bars : List (Bar α)) : List (Option α) :=
  withinRange (fun c h l => -100 * (h - c) / (h - l)) bars
    (highest period (highs bars)) (lowest period (lows bars))

/-- The mean distance of the values in a window, given newest first, from
`center`. -/
def meanDistance (period : Nat) (center : α) (window : List α) : α :=
  sum (window.reverse.map fun x => abs (x - center)) / ofCount period

def cciStep (period : Nat) (recent : List α) (entry : α × Option α) :
    List α × Option α :=
  let window := (entry.1 :: recent).take period
  (window, entry.2.map fun center =>
    let distance := meanDistance period center window
    if same distance 0 then 0 else (entry.1 - center) / (0.015 * distance))

def cciPoints (period : Nat) (bars : List (Bar α)) : List (Option α) :=
  let typical := bars.map Bar.typicalPrice
  sweep (cciStep period) [] (typical.zip (mean period typical))

structure FisherState (α : Type) where
  position : α
  value : α

def fisherAdvance (s : FisherState α) (close highest lowest : α) :
    FisherState α :=
  let range := highest - lowest
  let relative : α := if same range 0 then 0 else (close - lowest) / range - 0.5
  let position := clamp (-0.999) 0.999 (0.66 * relative + 0.67 * s.position)
  ⟨position, 0.5 * ln ((1 + position) / (1 - position)) + 0.5 * s.value⟩

def fisherStep (s : FisherState α) (entry : α × Option (α × α)) :
    FisherState α × Option α :=
  match entry.2 with
  | none => (s, none)
  | some (h, l) =>
      let next := fisherAdvance s entry.1 h l
      (next, some next.value)

def fisherPoints (period : Nat) (bars : List (Bar α)) : List (Option α) :=
  let cs := closes bars
  sweep fisherStep ⟨0, 0⟩
    (cs.zip (pointwise Prod.mk (highest period cs) (lowest period cs)))

end Indicator
end RuleBacktest
