import RuleBacktest.Indicator.Average
import RuleBacktest.Indicator.Oscillator
import RuleBacktest.Indicator.Range
import RuleBacktest.Indicator.Reversal
import RuleBacktest.Indicator.Volume
import RuleBacktest.PriceSeries

/-!
# Formulas of the indicators

An indicator is computed from the bars alone, or from the bars and the series of
one or two other indicators, its components.  A component has a lower rank than
what it is part of, so every computation comes to an end.  `Indicator.points`
computes an indicator by its formula without keeping any series.
-/

namespace RuleBacktest

open Calendar

variable {α : Type} [Scalar α]

inductive Formula (α : Type) where
  | ofBars (f : List (Bar α) → List (Option α))
  | ofOne (part : Indicator α)
      (f : List (Bar α) → List (Option α) → List (Option α))
  | ofTwo (first second : Indicator α)
      (f : List (Option α) → List (Option α) → List (Option α))

def Formula.components : Formula α → List (Indicator α)
  | .ofBars _ => []
  | .ofOne part _ => [part]
  | .ofTwo first second _ => [first, second]

namespace Indicator

def formula : Indicator α → Formula α
  | price field => .ofBars fun bars => bars.map fun b => some (field.read b)
  | trueRange => .ofBars fun bars => (trueRanges bars).map some
  | sma period => .ofBars (smaPoints period)
  | ema period => .ofBars (emaPoints period)
  | wma period => .ofBars (wmaPoints period)
  | hma period =>
      .ofTwo (wma (halfPeriod period)) (wma period) (hmaPoints period)
  | rsi period => .ofBars (rsiPoints period)
  | macd fast slow => .ofTwo (ema fast) (ema slow) macdPoints
  | stochastic period => .ofBars (stochasticPoints period)
  | rateOfChange period => .ofBars (rateOfChangePoints period)
  | cci period => .ofBars (cciPoints period)
  | williamsR period => .ofBars (williamsRPoints period)
  | awesomeOscillator => .ofBars awesomePoints
  | adx period =>
      .ofTwo (directional .plus period) (directional .minus period)
        (adxPoints period)
  | directional direction period =>
      .ofOne (atr period) (directionalPoints direction period)
  | atr period => .ofBars (atrPoints period)
  | standardDeviation period => .ofBars (standardDeviationPoints period)
  | onBalanceVolume => .ofBars onBalanceVolumePoints
  | vwap period => .ofBars (vwapPoints period)
  | accumulation => .ofBars accumulationPoints
  | bollinger band period width =>
      .ofTwo (sma period) (standardDeviation period) (bandPoints band width)
  | keltnerMiddle period => .ofBars (keltnerMiddlePoints period)
  | keltner band period rangePeriod width =>
      .ofTwo (keltnerMiddle period) (atr rangePeriod) (bandPoints band width)
  | donchian band period => .ofBars (donchianPoints band period)
  | parabolicStop => .ofBars parabolicStopPoints
  | fisher period => .ofBars (fisherPoints period)
  | ichimoku _ period =>
      .ofTwo (donchian .upper period) (donchian .lower period) midpoints
  | superTrend period width => .ofOne (atr period) (superTrendPoints width)

def components (i : Indicator α) : List (Indicator α) :=
  i.formula.components

/-- The height of an indicator above those computed from the bars alone. -/
def rank : Indicator α → Nat
  | adx _ => 2
  | hma _ => 1
  | macd _ _ => 1
  | directional _ _ => 1
  | bollinger _ _ _ => 1
  | keltner _ _ _ _ => 1
  | ichimoku _ _ => 1
  | superTrend _ _ => 1
  | _ => 0

theorem rank_lt_of_mem_components {i c : Indicator α} (h : c ∈ i.components) :
    c.rank < i.rank := by
  cases i <;> simp [components, formula, Formula.components] at h <;>
    rcases h with rfl | rfl <;> simp [rank]

theorem rank_lt_of_ofOne {i c : Indicator α} {f}
    (h : i.formula = .ofOne c f) :
    c.rank < i.rank := by
  have hmem : c ∈ i.components := by simp [components, h, Formula.components]
  exact rank_lt_of_mem_components hmem

theorem rank_lt_of_ofTwo_left {i c d : Indicator α} {f}
    (h : i.formula = .ofTwo c d f) :
    c.rank < i.rank := by
  have hmem : c ∈ i.components := by simp [components, h, Formula.components]
  exact rank_lt_of_mem_components hmem

theorem rank_lt_of_ofTwo_right {i c d : Indicator α} {f}
    (h : i.formula = .ofTwo c d f) :
    d.rank < i.rank := by
  have hmem : d ∈ i.components := by simp [components, h, Formula.components]
  exact rank_lt_of_mem_components hmem

/-- The points of an indicator over a list of bars, one for each bar. -/
def points (bars : List (Bar α)) (i : Indicator α) : List (Option α) :=
  match h : i.formula with
  | .ofBars f => f bars
  | .ofOne part f =>
      have := rank_lt_of_ofOne h
      f bars (points bars part)
  | .ofTwo first second f =>
      have := rank_lt_of_ofTwo_left h
      have := rank_lt_of_ofTwo_right h
      f (points bars first) (points bars second)
termination_by i.rank

end Indicator
end RuleBacktest
