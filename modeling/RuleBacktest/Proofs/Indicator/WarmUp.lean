import RuleBacktest.Proofs.Cache.Faithful
import RuleBacktest.Proofs.Indicator.Extent
import RuleBacktest.Proofs.Trading.Alternation
import RuleBacktest.Proofs.Window.WarmUp

/-!
# The first point of every indicator

Every indicator needs a number of bars before it has a point.  Most of them have
one at every bar from there on.  The others divide by a reference that may be
missing: an earlier close that is zero, a window without extent or a window
without volume.
-/

namespace RuleBacktest

open Scalar Window

variable {α : Type} [Scalar α]

namespace Indicator

/-! ## What an indicator needs -/

def periods : Indicator α → List Nat
  | price _ | trueRange | awesomeOscillator | onBalanceVolume | accumulation
  | parabolicStop => []
  | sma period | ema period | wma period | hma period | rsi period
  | stochastic period | rateOfChange period | cci period | williamsR period
  | adx period | directional _ period | atr period | standardDeviation period
  | vwap period | bollinger _ period _ | keltnerMiddle period
  | donchian _ period | fisher period | ichimoku _ period
  | superTrend period _ => [period]
  | macd fast slow => [fast, slow]
  | keltner _ period rangePeriod _ => [period, rangePeriod]

/-- The number of bars up to the first point. -/
def barsNeeded : Indicator α → Nat
  | price _ | trueRange | onBalanceVolume | accumulation => 1
  | sma period | ema period | wma period | atr period | standardDeviation period
  | cci period | donchian _ period | fisher period | keltnerMiddle period
  | bollinger _ period _ | ichimoku _ period | superTrend period _
  | stochastic period | williamsR period | vwap period => period
  | hma period => period + rootPeriod period - 1
  | rsi period | directional _ period | rateOfChange period => period + 1
  | adx period => 2 * period
  | macd fast slow => max fast slow
  | keltner _ period rangePeriod _ => max period rangePeriod
  | awesomeOscillator => 34
  | parabolicStop => 2

/-- The volume that is carried along with the window at the end of `bars`. -/
def runningVolume (period : Nat) (bars : List (Bar α)) : α :=
  (withLag period bars).foldl (fun volume entry =>
    match entry.2 with
    | none => volume + entry.1.volumeOrZero
    | some old => volume + entry.1.volumeOrZero - old.volumeOrZero) 0

/-- What an indicator that has had enough bars needs besides. -/
def HasReference (bars : List (Bar α)) (index : Nat) : Indicator α → Prop
  | rateOfChange period =>
      ∃ b, bars[index - period]? = some b ∧ same b.close 0 = false
  | stochastic period | williamsR period =>
      HasExtent (lastBars period index bars)
  | vwap period => 0 < runningVolume period (bars.take (index + 1))
  | _ => True

/-- Nothing but bars is needed. -/
def IsSteady : Indicator α → Prop
  | rateOfChange _ | stochastic _ | williamsR _ | vwap _ => False
  | _ => True

omit [Scalar α] in
theorem le_barsNeeded {i : Indicator α} {period : Nat}
    (hperiod : period ∈ i.periods) :
    period ≤ i.barsNeeded := by
  cases i <;>
    simp only [periods, List.mem_cons, List.not_mem_nil,
      or_false] at hperiod <;>
    simp only [barsNeeded] <;>
    try omega
  case hma whole =>
    have hroot : 1 ≤ rootPeriod whole := Nat.le_max_right _ _
    omega

/-! ## Steady formulas -/

section Formulas

variable {period : Nat} (hperiod : 0 < period) (bars : List (Bar α))

include hperiod in
theorem definedFrom_acrossGaps_wilder {n : Nat} {source : List (Option α)}
    (h : DefinedFrom n source) :
    DefinedFrom (n + (period - 1)) (acrossGaps (wilder period) source) :=
  h.acrossGaps (causal_wilder period) (definedFrom_wilder hperiod)

include hperiod in
theorem definedFrom_rsiPoints : DefinedFrom period (rsiPoints period bars) := by
  have hchanges : DefinedFrom 1 (changes bars) :=
    definedFrom_withLag 1 (fun c p => c - p) _
  have hgains :=
    definedFrom_acrossGaps_wilder hperiod (hchanges.map fun x => larger x 0)
  have hlosses :=
    definedFrom_acrossGaps_wilder hperiod (hchanges.map fun x => larger (-x) 0)
  exact (hgains.pointwise hlosses relativeStrength).of_eq (by omega)

include hperiod in
theorem definedFrom_cciPoints :
    DefinedFrom (period - 1) (cciPoints period bars) := by
  have hmean := definedFrom_mean hperiod (bars.map Bar.typicalPrice)
  refine hmean.sweep ?_ [] _
  intro recent entry
  exact Option.isSome_map

include hperiod in
theorem definedFrom_fisherPoints :
    DefinedFrom (period - 1) (fisherPoints period bars) := by
  have hextremes :=
    (definedFrom_extreme hperiod (fun x y => decide (y ≤ x))
      (closes bars)).pointwise
      (definedFrom_extreme hperiod (fun x y => decide (x ≤ y)) (closes bars))
      Prod.mk
  refine (hextremes.sweep ?_ _ (closes bars)).of_eq (Nat.max_self _)
  intro s entry
  cases hentry : entry.2 <;> simp [fisherStep, hentry]

theorem definedFrom_awesomePoints : DefinedFrom 33 (awesomePoints bars) := by
  have hfast : DefinedFrom 4 (mean 5 (bars.map Bar.medianPrice)) :=
    definedFrom_mean (by omega) _
  have hslow : DefinedFrom 33 (mean 34 (bars.map Bar.medianPrice)) :=
    definedFrom_mean (by omega) _
  exact hfast.pointwise hslow _

theorem definedFrom_onBalanceVolumePoints :
    DefinedFrom 0 (onBalanceVolumePoints bars) :=
  definedFrom_sweep (fun _ _ => rfl) _ _

theorem definedFrom_accumulationPoints :
    DefinedFrom 0 (accumulationPoints bars) :=
  definedFrom_sweep (fun _ _ => rfl) _ _

/-- The first two bars together set the stop going. -/
theorem definedFrom_parabolicStopPoints :
    DefinedFrom 1 (parabolicStopPoints bars) := by
  refine DefinedFrom.map (n := 1) ?_ StopState.stop
  match bars with
  | [] => exact definedFrom_nil 1
  | [_] => exact (definedFrom_nil 0).cons_none
  | first :: second :: rest =>
      have hrest : DefinedFrom 0 (sweep StopWalk.step
          ⟨StopState.initial first second, first, second⟩ rest) :=
        definedFrom_sweep (fun _ _ => rfl) _ _
      exact (hrest.cons_some _).cons_none

/-! ## Steady formulas over components -/

include hperiod in
theorem definedFrom_hmaPoints {half whole : List (Option α)}
    (hhalf : DefinedFrom (halfPeriod period - 1) half)
    (hwhole : DefinedFrom (period - 1) whole) :
    DefinedFrom (period + rootPeriod period - 2)
      (hmaPoints period half whole) := by
  have hroot : 0 < rootPeriod period := Nat.le_max_right _ _
  have hshorter : halfPeriod period ≤ period := by
    unfold halfPeriod
    omega
  have hboth := hhalf.pointwise hwhole fun h w => 2 * h - w
  exact (hboth.acrossGaps (causal_weightedMean _)
      (definedFrom_weightedMean hroot)).of_eq (by omega)

include hperiod in
theorem definedFrom_directionalPoints (direction : Direction)
    {ranges : List (Option α)}
    (hranges : DefinedFrom (period - 1) ranges) :
    DefinedFrom period (directionalPoints direction period bars ranges) := by
  have hmovements : DefinedFrom 1 (movements direction bars) :=
    definedFrom_withLag 1 (fun b p => movement direction p b) bars
  exact ((definedFrom_acrossGaps_wilder hperiod hmovements).pointwise hranges
      _).of_eq (by omega)

include hperiod in
theorem definedFrom_adxPoints {plus minus : List (Option α)}
    (hplus : DefinedFrom period plus)
    (hminus : DefinedFrom period minus) :
    DefinedFrom (2 * period - 1) (adxPoints period plus minus) := by
  have hcontrast : DefinedFrom (max period period)
      (pointwise directionalContrast plus minus) :=
    hplus.pointwise hminus directionalContrast
  have hsmoothed := definedFrom_acrossGaps_wilder hperiod hcontrast
  exact hsmoothed.of_eq (by omega)

theorem definedFrom_bandPoints (band : Band) (width : Factor α) {m n : Nat}
    {middle spread : List (Option α)}
    (hmiddle : DefinedFrom m middle)
    (hspread : DefinedFrom n spread) :
    DefinedFrom (max m n) (bandPoints band width middle spread) := by
  cases band with
  | upper => exact hmiddle.pointwise hspread _
  | lower => exact hmiddle.pointwise hspread _

theorem definedFrom_superTrendTrace (width : Factor α) {n : Nat}
    {ranges : List (Option α)}
    (hranges : DefinedFrom n ranges) :
    DefinedFrom n (superTrendTrace width bars ranges) := by
  refine hranges.sweep ?_ none (withLag 1 bars)
  intro s entry
  cases hentry : entry.2 <;> simp [TrendState.step, hentry]

theorem definedFrom_superTrendPoints (width : Factor α) {n : Nat}
    {ranges : List (Option α)}
    (hranges : DefinedFrom n ranges) :
    DefinedFrom n (superTrendPoints width bars ranges) :=
  (definedFrom_superTrendTrace bars width hranges).map TrendState.line

end Formulas

/-! ## Steady indicators -/

theorem IsSteady.definedFrom_points {i : Indicator α} (hsteady : i.IsSteady)
    (hperiods : ∀ period ∈ i.periods, 1 ≤ period) (bars : List (Bar α)) :
    DefinedFrom (i.barsNeeded - 1) (i.points bars) := by
  cases i with
  | price field =>
      rw [points_of_ofBars rfl]
      exact definedFrom_map (fun _ => rfl) bars
  | trueRange =>
      rw [points_of_ofBars rfl]
      exact definedFrom_map (fun _ => rfl) _
  | sma period =>
      rw [points_of_ofBars rfl]
      exact definedFrom_mean (hperiods period (by simp [periods])) _
  | ema period =>
      rw [points_of_ofBars rfl]
      exact definedFrom_exponential (hperiods period (by simp [periods])) _
  | wma period =>
      rw [points_of_ofBars rfl]
      exact definedFrom_weightedMean (hperiods period (by simp [periods])) _
  | hma period =>
      have hperiod := hperiods period (by simp [periods])
      have hhalf : 0 < halfPeriod period := Nat.le_max_right _ _
      rw [points_of_ofTwo rfl, points_of_ofBars rfl, points_of_ofBars rfl]
      exact definedFrom_hmaPoints hperiod (definedFrom_weightedMean hhalf _)
        (definedFrom_weightedMean hperiod _)
  | rsi period =>
      rw [points_of_ofBars rfl]
      exact definedFrom_rsiPoints (hperiods period (by simp [periods])) bars
  | macd fast slow =>
      rw [points_of_ofTwo rfl, points_of_ofBars rfl, points_of_ofBars rfl]
      have hboth :=
        (definedFrom_exponential (hperiods fast (by simp [periods]))
          (closes bars)).pointwise
          (definedFrom_exponential (hperiods slow (by simp [periods]))
            (closes bars)) (· - ·)
      exact hboth.of_eq (by simp only [barsNeeded]; omega)
  | cci period =>
      rw [points_of_ofBars rfl]
      exact definedFrom_cciPoints (hperiods period (by simp [periods])) bars
  | awesomeOscillator =>
      rw [points_of_ofBars rfl]
      exact definedFrom_awesomePoints bars
  | adx period =>
      have hperiod := hperiods period (by simp [periods])
      have hranges := definedFrom_wilder hperiod (trueRanges bars)
      rw [points_of_ofTwo rfl,
        points_of_ofOne (i := directional .plus period) rfl,
        points_of_ofOne (i := directional .minus period) rfl,
        points_of_ofBars rfl]
      exact definedFrom_adxPoints hperiod
        (definedFrom_directionalPoints hperiod bars .plus hranges)
        (definedFrom_directionalPoints hperiod bars .minus hranges)
  | directional direction period =>
      have hperiod := hperiods period (by simp [periods])
      rw [points_of_ofOne rfl, points_of_ofBars rfl]
      exact definedFrom_directionalPoints hperiod bars direction
        (definedFrom_wilder hperiod _)
  | atr period =>
      rw [points_of_ofBars rfl]
      exact definedFrom_wilder (hperiods period (by simp [periods])) _
  | standardDeviation period =>
      rw [points_of_ofBars rfl]
      exact definedFrom_deviation (hperiods period (by simp [periods])) _
  | onBalanceVolume =>
      rw [points_of_ofBars rfl]
      exact definedFrom_onBalanceVolumePoints bars
  | accumulation =>
      rw [points_of_ofBars rfl]
      exact definedFrom_accumulationPoints bars
  | bollinger band period width =>
      have hperiod := hperiods period (by simp [periods])
      rw [points_of_ofTwo rfl, points_of_ofBars rfl, points_of_ofBars rfl]
      exact (definedFrom_bandPoints band width (definedFrom_mean hperiod _)
        (definedFrom_deviation hperiod _)).of_eq (Nat.max_self _)
  | keltnerMiddle period =>
      rw [points_of_ofBars rfl]
      exact definedFrom_exponential (hperiods period (by simp [periods])) _
  | keltner band period rangePeriod width =>
      rw [points_of_ofTwo rfl, points_of_ofBars rfl, points_of_ofBars rfl]
      have hband :=
        definedFrom_bandPoints band width
          (definedFrom_exponential (hperiods period (by simp [periods]))
            (bars.map Bar.typicalPrice))
          (definedFrom_wilder (hperiods rangePeriod (by simp [periods]))
            (trueRanges bars))
      exact hband.of_eq (by simp only [barsNeeded]; omega)
  | donchian band period =>
      rw [points_of_ofBars rfl]
      cases band with
      | upper =>
          exact definedFrom_extreme (hperiods period (by simp [periods])) _ _
      | lower =>
          exact definedFrom_extreme (hperiods period (by simp [periods])) _ _
  | parabolicStop =>
      rw [points_of_ofBars rfl]
      exact definedFrom_parabolicStopPoints bars
  | fisher period =>
      rw [points_of_ofBars rfl]
      exact definedFrom_fisherPoints (hperiods period (by simp [periods])) bars
  | ichimoku line period =>
      have hperiod := hperiods period (by simp [periods])
      rw [points_of_ofTwo rfl, points_of_ofBars rfl, points_of_ofBars rfl]
      exact ((definedFrom_extreme hperiod _ (highs bars)).pointwise
        (definedFrom_extreme hperiod _ (lows bars)) _).of_eq (Nat.max_self _)
  | superTrend period width =>
      rw [points_of_ofOne rfl, points_of_ofBars rfl]
      exact definedFrom_superTrendPoints bars width
        (definedFrom_wilder (hperiods period (by simp [periods])) _)
  | stochastic period => exact hsteady.elim
  | rateOfChange period => exact hsteady.elim
  | williamsR period => exact hsteady.elim
  | vwap period => exact hsteady.elim

/-! ## Indicators with a reference -/

theorem isSome_rateOfChangePoints_iff {period index : Nat}
    (hperiod : 0 < period)
    {bars : List (Bar α)}
    (hindex : index < bars.length) :
    (rateOfChangePoints period bars)[index]?.join.isSome = true ↔
      period ≤ index ∧
        ∃ b, bars[index - period]? = some b ∧ same b.close 0 = false := by
  have hclose (place : Nat) : (closes bars)[place]? =
      bars[place]?.map Bar.close :=
    List.getElem?_map
  rw [rateOfChangePoints, if_neg hperiod.ne', List.getElem?_map,
    withLag_getElem?, hclose, hclose, List.getElem?_eq_getElem hindex]
  by_cases hlag : period ≤ index
  · have hearlier : index - period < bars.length := by omega
    rw [if_pos hlag, List.getElem?_eq_getElem hearlier]
    cases hzero : same bars[index - period].close 0 <;> simp [hzero, hlag]
  · rw [if_neg hlag]
    simp [hlag]

theorem volume_stateOn {period : Nat}
    (hperiod : 0 < period)
    (bars : List (Bar α)) :
    ((VwapState.pass hperiod).stateOn bars).volume =
      runningVolume period bars := by
  rw [WindowPass.stateOn, stateAfter, runningVolume]
  refine (List.foldl_hom VwapState.volume ?_).symm
  intro s entry
  cases hold : entry.2 <;> simp [VwapState.pass, vwapStep, hold]

theorem isSome_vwapPoints_iff {period index : Nat}
    (hperiod : 0 < period)
    {bars : List (Bar α)}
    (hindex : index < bars.length) :
    (vwapPoints period bars)[index]?.join.isSome = true ↔
      period ≤ index + 1 ∧
        0 < runningVolume period (bars.take (index + 1)) := by
  have hread (s : VwapState α) :
      ((VwapState.pass hperiod).read s).isSome = true ↔
        period ≤ (VwapState.pass hperiod).count s ∧ 0 < s.volume := by
    simp [VwapState.pass]
  rw [VwapState.vwapPoints_eq_onStretch hperiod, WindowPass.onStretch_getElem?,
    List.getElem?_eq_getElem hindex, Option.map_some, Option.join_some, hread,
    WindowPass.count_stateOn, List.length_take_of_le hindex, volume_stateOn]

theorem IsSteady.hasReference {i : Indicator α} (hsteady : i.IsSteady)
    (bars : List (Bar α)) (index : Nat) : i.HasReference bars index := by
  cases i <;> first | exact True.intro | exact hsteady.elim

/-- A point is there when there have been enough bars and what it refers to is
there. -/
theorem isSome_points_iff {bars : List (Bar Float)}
    (hfinite : ∀ b ∈ bars, b.isFinite = true)
    {i : Indicator Float}
    (hperiods : ∀ period ∈ i.periods, 1 ≤ period)
    {index : Nat}
    (hindex : index < bars.length) :
    (i.points bars)[index]?.join.isSome = true ↔
      i.barsNeeded ≤ index + 1 ∧ i.HasReference bars index := by
  by_cases hsteady : i.IsSteady
  · have hdefined := hsteady.definedFrom_points hperiods bars
    rw [hdefined.isSome_join_iff (by rwa [length_points]),
      Nat.sub_le_iff_le_add]
    exact (and_iff_left (hsteady.hasReference bars index)).symm
  · cases i with
    | rateOfChange period =>
        have hperiod := hperiods period (by simp [periods])
        rw [points_of_ofBars rfl, isSome_rateOfChangePoints_iff hperiod hindex,
          barsNeeded, Nat.add_le_add_iff_right]
        rfl
    | stochastic period =>
        rw [points_of_ofBars rfl]
        exact isSome_withinRange_extremes_iff hfinite _
          (hperiods period (by simp [periods])) hindex
    | williamsR period =>
        rw [points_of_ofBars rfl]
        exact isSome_withinRange_extremes_iff hfinite _
          (hperiods period (by simp [periods])) hindex
    | vwap period =>
        rw [points_of_ofBars rfl]
        exact isSome_vwapPoints_iff (hperiods period (by simp [periods])) hindex
    | _ => exact absurd True.intro hsteady

end Indicator

namespace IndicatorCache

open Indicator

/-- Whatever was asked of the cache before, an indicator has a point exactly
where it has had the bars it needs, and a reference if it divides by one.
Without a reference it has a point at every bar from the first one on.  No
indicator has a point in a series that is shorter than one of its periods. -/
theorem defined_exactly_after_warmUp (s : PriceSeries Float)
    (requests : List (CacheRequest Float)) (i : Indicator Float)
    (hperiods : ∀ period ∈ i.periods, 1 ≤ period) :
    let series := ((after s.bars requests).get s.bars i).1
    (∀ index < s.length, (series.value? index).isSome = true ↔
      i.barsNeeded ≤ index + 1 ∧ i.HasReference s.bars index) ∧
    (i.IsSteady →
      ∀ index later,
        index ≤ later →
        later < s.length →
        (series.value? index).isSome = true →
        (series.value? later).isSome = true) ∧
    ((∃ period ∈ i.periods, s.length < period) →
        ∀ index, series.value? index = none) := by
  intro series
  have hvalue (index : Nat) : series.value? index =
      (i.points s.bars)[index]?.join := by
    rw [show series = .direct s.bars i from get_after s.bars requests i,
      IndicatorSeries.value?_direct]
  have hwarm (index : Nat) (hindex : index < s.length) :
      (series.value? index).isSome = true ↔
        i.barsNeeded ≤ index + 1 ∧ i.HasReference s.bars index := by
    rw [hvalue]
    exact isSome_points_iff s.finite hperiods hindex
  refine ⟨hwarm, ?_, ?_⟩
  · intro hsteady index later hle hlater hdefined
    have hneeded := ((hwarm index (by omega)).mp hdefined).1
    exact (hwarm later hlater).mpr ⟨by omega, hsteady.hasReference s.bars later⟩
  · rintro ⟨period, hperiod, hshort⟩ index
    have hneeded := le_barsNeeded hperiod
    by_cases hindex : index < s.length
    · rw [← Option.not_isSome_iff_eq_none, hwarm index hindex]
      omega
    · have hbeyond : (i.points s.bars).length ≤ index := by
        rw [length_points]
        exact Nat.le_of_not_lt hindex
      rw [hvalue, List.getElem?_eq_none hbeyond, Option.join_none]

/-- The index of directional movement over two bars needs four of them, since it
is smoothed twice. -/
theorem defined_exactly_after_warmUp_riseAndFall :
    (∀ period ∈ (adx 2 : Indicator Float).periods, 1 ≤ period) ∧
      let series :=
        ((after PriceSeries.riseAndFall.bars []).get
          PriceSeries.riseAndFall.bars (adx 2)).1
      series.value? 2 = none ∧ (series.value? 3).isSome = true := by
  have hperiods : ∀ period ∈ (adx 2 : Indicator Float).periods, 1 ≤ period := by
    decide
  obtain ⟨hwarm, -, -⟩ :=
    defined_exactly_after_warmUp .riseAndFall [] (adx 2) hperiods
  refine ⟨hperiods, ?_, ?_⟩
  · rw [← Option.not_isSome_iff_eq_none, hwarm 2 (by decide)]
    exact fun h => absurd h.1 (by decide)
  · exact (hwarm 3 (by decide)).mpr ⟨by decide, True.intro⟩

end IndicatorCache

end RuleBacktest
