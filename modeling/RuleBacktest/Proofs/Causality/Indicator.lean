import RuleBacktest.Indicator.Formula
import RuleBacktest.Proofs.Causality.Sweep
import RuleBacktest.Proofs.Indicator.Points

/-!
# No indicator looks ahead

Every window helper is causal, hence every formula from the bars and the points
of the components is, and by recursion over the components so is every
indicator: its points over the first bars are the first of its points over all
of them.
-/

namespace RuleBacktest

variable {α : Type} [Scalar α]

/-! ## Windows -/

namespace Window

omit [Scalar α] in
theorem causal_undefined : Causal (undefined : List α → List (Option α)) :=
  Causal.map _

theorem causal_mean (period : Nat) :
    Causal (mean period : List α → List (Option α)) := by
  refine Causal.ite _ causal_undefined ?_
  exact (Causal.sweep _ _).comp (Causal.withLag period)

theorem causal_deviation (period : Nat) :
    Causal (deviation period : List α → List (Option α)) := by
  refine Causal.ite _ causal_undefined ?_
  exact (Causal.sweep _ _).comp (Causal.withLag period)

theorem causal_weightedMean (period : Nat) :
    Causal (weightedMean period : List α → List (Option α)) := by
  refine Causal.ite _ causal_undefined ?_
  exact (Causal.sweep _ _).comp (Causal.withLag period)

theorem causal_smoothed (period : Nat) (blend : α → α → α) :
    Causal (smoothed period blend) := by
  refine Causal.ite _ causal_undefined ?_
  exact Causal.sweep _ _

theorem causal_exponential (period : Nat) :
    Causal (exponential period : List α → List (Option α)) :=
  causal_smoothed period _

theorem causal_wilder (period : Nat) :
    Causal (wilder period : List α → List (Option α)) :=
  causal_smoothed period _

omit [Scalar α] in
theorem causal_extreme (period : Nat) (dominates : α → α → Bool) :
    Causal (extreme period dominates) := by
  refine Causal.ite _ causal_undefined ?_
  exact Causal.sweep _ _

theorem causal_highest (period : Nat) :
    Causal (highest period : List α → List (Option α)) :=
  causal_extreme period _

theorem causal_lowest (period : Nat) :
    Causal (lowest period : List α → List (Option α)) :=
  causal_extreme period _

end Window

namespace Indicator

open Window

/-! ## Formulas over the bars -/

theorem causalPair_pointwise {β γ δ : Type} (f : β → γ → δ) :
    CausalPair (pointwise f) :=
  CausalPair.zipWith _

omit [Scalar α] in
theorem causal_closes : Causal (closes : List (Bar α) → List α) :=
  Causal.map _

omit [Scalar α] in
theorem causal_highs : Causal (highs : List (Bar α) → List α) :=
  Causal.map _

omit [Scalar α] in
theorem causal_lows : Causal (lows : List (Bar α) → List α) :=
  Causal.map _

theorem causal_trueRanges : Causal (trueRanges : List (Bar α) → List α) :=
  (Causal.map _).comp (Causal.withLag 1)

theorem causal_movements (direction : Direction) :
    Causal (movements direction : List (Bar α) → List (Option α)) :=
  (Causal.map _).comp (Causal.withLag 1)

theorem causal_changes :
    Causal (changes : List (Bar α) → List (Option α)) := by
  refine (Causal.map _).comp ?_
  exact (Causal.withLag 1).comp causal_closes

theorem causal_awesomePoints :
    Causal (awesomePoints : List (Bar α) → List (Option α)) := by
  have hmedian : Causal (List.map Bar.medianPrice : List (Bar α) → List α) :=
    Causal.map _
  exact Causal.pair (causalPair_pointwise _)
    ((causal_mean 5).comp hmedian) ((causal_mean 34).comp hmedian)

theorem causal_rsiPoints (period : Nat) :
    Causal (rsiPoints period : List (Bar α) → List (Option α)) := by
  have hsmooth :
      Causal (acrossGaps (wilder period : List α → List (Option α))) :=
    (causal_wilder period).acrossGaps
  exact Causal.pair (causalPair_pointwise _)
    (hsmooth.comp ((Causal.map _).comp causal_changes))
    (hsmooth.comp ((Causal.map _).comp causal_changes))

theorem causal_rateOfChangePoints (period : Nat) :
    Causal (rateOfChangePoints period : List (Bar α) → List (Option α)) := by
  refine Causal.ite _ (Causal.map _) ?_
  refine (Causal.map _).comp ?_
  exact (Causal.withLag period).comp causal_closes

theorem causal_withinRange (position : α → α → α → α) (period : Nat) :
    Causal fun bars =>
      withinRange position bars
        (highest period (highs bars)) (lowest period (lows bars)) := by
  have hhighest : Causal fun bars : List (Bar α) =>
      highest period (highs bars) :=
    (causal_highest period).comp causal_highs
  have hlowest : Causal fun bars : List (Bar α) =>
      lowest period (lows bars) :=
    (causal_lowest period).comp causal_lows
  refine Causal.pair (CausalPair.zipWith _) Causal.id ?_
  exact Causal.pair (causalPair_pointwise _) hhighest hlowest

theorem causal_stochasticPoints (period : Nat) :
    Causal (stochasticPoints period : List (Bar α) → List (Option α)) :=
  causal_withinRange _ period

theorem causal_williamsRPoints (period : Nat) :
    Causal (williamsRPoints period : List (Bar α) → List (Option α)) :=
  causal_withinRange _ period

theorem causal_cciPoints (period : Nat) :
    Causal (cciPoints period : List (Bar α) → List (Option α)) := by
  have htypical : Causal (List.map Bar.typicalPrice : List (Bar α) → List α) :=
    Causal.map _
  exact (Causal.sweep _ _).comp
    (Causal.pair CausalPair.zip htypical ((causal_mean period).comp htypical))

theorem causal_fisherPoints (period : Nat) :
    Causal (fisherPoints period : List (Bar α) → List (Option α)) := by
  have hextremes : Causal fun bars : List (Bar α) =>
      pointwise Prod.mk (highest period (closes bars))
          (lowest period (closes bars)) :=
    Causal.pair (causalPair_pointwise _)
      ((causal_highest period).comp causal_closes)
      ((causal_lowest period).comp causal_closes)
  exact (Causal.sweep _ _).comp
    (Causal.pair CausalPair.zip causal_closes hextremes)

theorem causal_vwapPoints (period : Nat) :
    Causal (vwapPoints period : List (Bar α) → List (Option α)) := by
  refine Causal.ite _ (Causal.map _) ?_
  exact (Causal.sweep _ _).comp (Causal.withLag period)

theorem causal_onBalanceVolumePoints :
    Causal (onBalanceVolumePoints : List (Bar α) → List (Option α)) :=
  (Causal.sweep _ _).comp (Causal.withLag 1)

theorem causal_accumulationPoints :
    Causal (accumulationPoints : List (Bar α) → List (Option α)) :=
  Causal.sweep _ _

theorem causal_donchianPoints (band : Band) (period : Nat) :
    Causal (donchianPoints band period : List (Bar α) → List (Option α)) := by
  cases band with
  | upper => exact (causal_highest period).comp causal_highs
  | lower => exact (causal_lowest period).comp causal_lows

/-- The first two bars set the stop going, and the sweep starts behind them. -/
theorem causal_parabolicStopTrace :
    Causal (parabolicStopTrace :
        List (Bar α) → List (Option (StopState α))) where
  length_eq bars := by
    match bars with
    | [] => rfl
    | [_] => rfl
    | first :: second :: rest => simp [parabolicStopTrace]
  take_eq n bars := by
    match bars, n with
    | [], _ => simp [parabolicStopTrace]
    | _ :: _, 0 => simp [parabolicStopTrace]
    | [_], n + 1 => simp [parabolicStopTrace]
    | _ :: _ :: _, 1 => simp [parabolicStopTrace]
    | first :: second :: rest, n + 2 => simp [parabolicStopTrace, sweep_take]

theorem causal_parabolicStopPoints :
    Causal (parabolicStopPoints : List (Bar α) → List (Option α)) :=
  (Causal.map _).comp causal_parabolicStopTrace

/-! ## Formulas over components -/

theorem causalPair_hmaPoints (period : Nat) :
    CausalPair (hmaPoints period :
      List (Option α) → List (Option α) → List (Option α)) := by
  have hmean : Causal (acrossGaps
      (weightedMean (rootPeriod period) : List α → List (Option α))) :=
    (causal_weightedMean _).acrossGaps
  exact CausalPair.comp hmean (causalPair_pointwise _)

theorem causalPair_directionalPoints (direction : Direction) (period : Nat) :
    CausalPair (directionalPoints direction period :
      List (Bar α) → List (Option α) → List (Option α)) := by
  have hmovements : Causal fun bars : List (Bar α) =>
      acrossGaps (wilder period) (movements direction bars) :=
    (causal_wilder period).acrossGaps.comp (causal_movements direction)
  unfold directionalPoints
  exact CausalPair.compLeft (causalPair_pointwise _) hmovements

theorem causalPair_adxPoints (period : Nat) :
    CausalPair (adxPoints period :
      List (Option α) → List (Option α) → List (Option α)) := by
  have hsmooth :
      Causal (acrossGaps (wilder period : List α → List (Option α))) :=
    (causal_wilder period).acrossGaps
  exact CausalPair.comp hsmooth (causalPair_pointwise _)

theorem causalPair_bandPoints (band : Band) (width : Factor α) :
    CausalPair (bandPoints band width) := by
  cases band with
  | upper => exact causalPair_pointwise _
  | lower => exact causalPair_pointwise _

theorem causalPair_superTrendTrace (width : Factor α) :
    CausalPair (superTrendTrace width) := by
  refine CausalPair.comp (Causal.sweep _ _) ?_
  exact CausalPair.compLeft CausalPair.zip (Causal.withLag 1)

theorem causalPair_superTrendPoints (width : Factor α) :
    CausalPair (superTrendPoints width) :=
  CausalPair.comp (Causal.map _) (causalPair_superTrendTrace width)

end Indicator

def Formula.IsCausal : Formula α → Prop
  | .ofBars f => Causal f
  | .ofOne _ f => CausalPair f
  | .ofTwo _ _ f => CausalPair f

namespace Indicator

open Window

theorem isCausal_formula (i : Indicator α) : i.formula.IsCausal := by
  cases i with
  | price field => exact Causal.map _
  | trueRange => exact (Causal.map _).comp causal_trueRanges
  | sma period => exact (causal_mean period).comp causal_closes
  | ema period => exact (causal_exponential period).comp causal_closes
  | wma period => exact (causal_weightedMean period).comp causal_closes
  | hma period => exact causalPair_hmaPoints period
  | rsi period => exact causal_rsiPoints period
  | macd fast slow => exact causalPair_pointwise _
  | stochastic period => exact causal_stochasticPoints period
  | rateOfChange period => exact causal_rateOfChangePoints period
  | cci period => exact causal_cciPoints period
  | williamsR period => exact causal_williamsRPoints period
  | awesomeOscillator => exact causal_awesomePoints
  | adx period => exact causalPair_adxPoints period
  | directional direction period =>
      exact causalPair_directionalPoints direction period
  | atr period => exact (causal_wilder period).comp causal_trueRanges
  | standardDeviation period =>
      exact (causal_deviation period).comp causal_closes
  | onBalanceVolume => exact causal_onBalanceVolumePoints
  | vwap period => exact causal_vwapPoints period
  | accumulation => exact causal_accumulationPoints
  | bollinger band period width => exact causalPair_bandPoints band width
  | keltnerMiddle period =>
      exact (causal_exponential period).comp (Causal.map _)
  | keltner band period rangePeriod width =>
      exact causalPair_bandPoints band width
  | donchian band period => exact causal_donchianPoints band period
  | parabolicStop => exact causal_parabolicStopPoints
  | fisher period => exact causal_fisherPoints period
  | ichimoku line period => exact causalPair_pointwise _
  | superTrend period width => exact causalPair_superTrendPoints width

/-- An indicator is as causal as its formula, since its components are. -/
theorem causal_points (i : Indicator α) : Causal fun bars => i.points bars := by
  induction i using induction_on_components with
  | hstep i ih =>
      have hcausal := i.isCausal_formula
      cases hformula : i.formula with
      | ofBars f =>
          rw [hformula] at hcausal
          exact hcausal.congr fun bars => points_of_ofBars hformula bars
      | ofOne part f =>
          rw [hformula] at hcausal
          have hpart : Causal fun bars => part.points bars :=
            ih part (by simp [components_of_ofOne hformula])
          exact (Causal.pair hcausal Causal.id hpart).congr fun bars =>
            points_of_ofOne hformula bars
      | ofTwo first second f =>
          rw [hformula] at hcausal
          have hfirst : Causal fun bars => first.points bars :=
            ih first (by simp [components_of_ofTwo hformula])
          have hsecond : Causal fun bars => second.points bars :=
            ih second (by simp [components_of_ofTwo hformula])
          exact (Causal.pair hcausal hfirst hsecond).congr fun bars =>
            points_of_ofTwo hformula bars

@[simp] theorem length_points (i : Indicator α) (bars : List (Bar α)) :
    (i.points bars).length = bars.length :=
  i.causal_points.length_eq bars

theorem points_take (i : Indicator α) (n : Nat) (bars : List (Bar α)) :
    i.points (bars.take n) = (i.points bars).take n :=
  i.causal_points.take_eq n bars

end Indicator
end RuleBacktest
