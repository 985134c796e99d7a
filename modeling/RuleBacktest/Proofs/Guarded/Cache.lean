import RuleBacktest.Proofs.Cache.Faithful
import RuleBacktest.Proofs.Guarded.Indicator

/-!
# Guarded requests to the cache

The engine with guarded formulas.  It takes a series from the cache when it is
there and computes it from its components when it is not, and it refuses points
that are not as many as the bars.  On a cache that holds what the indicators
have on their own it meets no fault and answers as the engine that runs.
-/

namespace RuleBacktest

variable {α : Type} [Scalar α] {g : Guard α}

/-! ## Formulas -/

inductive GuardedFormula (α : Type) where
  | ofBars (f : List (Bar α) → Guarded (List (Option α)))
  | ofOne (part : Indicator α)
      (f : List (Bar α) → List (Option α) → Guarded (List (Option α)))
  | ofTwo (first second : Indicator α)
      (f : List (Option α) → List (Option α) → Guarded (List (Option α)))

namespace GuardedFormula

def components : GuardedFormula α → List (Indicator α)
  | .ofBars _ => []
  | .ofOne part _ => [part]
  | .ofTwo first second _ => [first, second]

/-- The guarded formula has the components of the other one, meets no fault and
gives its points. -/
inductive Yields : GuardedFormula α → Formula α → Prop where
  | ofBars {f} {ideal : List (Bar α) → List (Option α)}
      (h : ∀ bars, f bars = pure (ideal bars)) :
      Yields (.ofBars f) (.ofBars ideal)
  | ofOne {part f} {ideal : List (Bar α) → List (Option α) → List (Option α)}
      (h : ∀ bars points, f bars points = pure (ideal bars points)) :
      Yields (.ofOne part f) (.ofOne part ideal)
  | ofTwo {first second f}
      {ideal : List (Option α) → List (Option α) → List (Option α)}
      (h : ∀ xs ys, f xs ys = pure (ideal xs ys)) :
      Yields (.ofTwo first second f) (.ofTwo first second ideal)

end GuardedFormula

namespace Indicator

def guardedFormula (g : Guard α) : Indicator α → GuardedFormula α
  | price field =>
      .ofBars fun bars => pure (bars.map fun b => some (field.read b))
  | trueRange => .ofBars fun bars => do
      let ranges ← Guarded.trueRanges bars
      pure (ranges.map some)
  | sma period => .ofBars (Guarded.overCloses (Guarded.mean g period))
  | ema period => .ofBars (Guarded.overCloses (Guarded.exponential g period))
  | wma period => .ofBars (Guarded.overCloses (Guarded.weightedMean g period))
  | hma period =>
      .ofTwo (wma (halfPeriod period)) (wma period) (Guarded.hmaPoints g period)
  | rsi period => .ofBars (Guarded.rsiPoints g period)
  | macd fast slow =>
      .ofTwo (ema fast) (ema slow) fun f s => pure (macdPoints f s)
  | stochastic period => .ofBars (Guarded.stochasticPoints g period)
  | rateOfChange period => .ofBars (Guarded.rateOfChangePoints g period)
  | cci period => .ofBars (Guarded.cciPoints g period)
  | williamsR period => .ofBars (Guarded.williamsRPoints g period)
  | awesomeOscillator => .ofBars (Guarded.awesomePoints g)
  | adx period =>
      .ofTwo (directional .plus period) (directional .minus period)
        (Guarded.adxPoints g period)
  | directional direction period =>
      .ofOne (atr period) (Guarded.directionalPoints g direction period)
  | atr period => .ofBars (Guarded.atrPoints g period)
  | standardDeviation period =>
      .ofBars (Guarded.overCloses (Guarded.deviation g period))
  | onBalanceVolume => .ofBars Guarded.onBalanceVolumePoints
  | vwap period => .ofBars (Guarded.vwapPoints g period)
  | accumulation => .ofBars (Guarded.accumulationPoints g)
  | bollinger band period width =>
      .ofTwo (sma period) (standardDeviation period) fun m s =>
        pure (bandPoints band width m s)
  | keltnerMiddle period => .ofBars (Guarded.keltnerMiddlePoints g period)
  | keltner band period rangePeriod width =>
      .ofTwo (keltnerMiddle period) (atr rangePeriod) fun m s =>
        pure (bandPoints band width m s)
  | donchian .upper period =>
      .ofBars fun bars => Guarded.highest period (highs bars)
  | donchian .lower period =>
      .ofBars fun bars => Guarded.lowest period (lows bars)
  | parabolicStop => .ofBars Guarded.parabolicStopPoints
  | fisher period => .ofBars (Guarded.fisherPoints g period)
  | ichimoku _ period =>
      .ofTwo (donchian .upper period) (donchian .lower period)
        (Guarded.midpoints g)
  | superTrend period width =>
      .ofOne (atr period) (Guarded.superTrendPoints g width)

theorem guardedFormula_yields (hg : g.AllowsProgram) (i : Indicator α) :
    (i.guardedFormula g).Yields i.formula := by
  cases i with
  | price field => exact .ofBars fun _ => rfl
  | trueRange =>
      exact .ofBars fun bars => by rw [Guarded.trueRanges_eq, pure_bind]
  | sma period =>
      exact .ofBars (Guarded.overCloses_eq (Guarded.mean_eq hg period))
  | ema period =>
      exact .ofBars (Guarded.overCloses_eq (Guarded.exponential_eq hg period))
  | wma period =>
      exact .ofBars (Guarded.overCloses_eq (Guarded.weightedMean_eq hg period))
  | hma period => exact .ofTwo (Guarded.hmaPoints_eq hg period)
  | rsi period => exact .ofBars (Guarded.rsiPoints_eq hg period)
  | macd fast slow => exact .ofTwo fun _ _ => rfl
  | stochastic period => exact .ofBars (Guarded.stochasticPoints_eq hg period)
  | rateOfChange period =>
      exact .ofBars (Guarded.rateOfChangePoints_eq hg period)
  | cci period => exact .ofBars (Guarded.cciPoints_eq hg period)
  | williamsR period => exact .ofBars (Guarded.williamsRPoints_eq hg period)
  | awesomeOscillator => exact .ofBars (Guarded.awesomePoints_eq hg)
  | adx period => exact .ofTwo (Guarded.adxPoints_eq hg period)
  | directional direction period =>
      exact .ofOne (Guarded.directionalPoints_eq hg direction period)
  | atr period => exact .ofBars (Guarded.atrPoints_eq hg period)
  | standardDeviation period =>
      exact .ofBars (Guarded.overCloses_eq (Guarded.deviation_eq hg period))
  | onBalanceVolume => exact .ofBars Guarded.onBalanceVolumePoints_eq
  | vwap period => exact .ofBars (Guarded.vwapPoints_eq hg period)
  | accumulation => exact .ofBars (Guarded.accumulationPoints_eq hg)
  | bollinger band period width => exact .ofTwo fun _ _ => rfl
  | keltnerMiddle period =>
      exact .ofBars (Guarded.keltnerMiddlePoints_eq hg period)
  | keltner band period rangePeriod width => exact .ofTwo fun _ _ => rfl
  | donchian band period =>
      cases band with
      | upper =>
          exact .ofBars fun bars => Guarded.highest_eq period (highs bars)
      | lower => exact .ofBars fun bars => Guarded.lowest_eq period (lows bars)
  | parabolicStop => exact .ofBars Guarded.parabolicStopPoints_eq
  | fisher period => exact .ofBars (Guarded.fisherPoints_eq hg period)
  | ichimoku line period => exact .ofTwo (Guarded.midpoints_eq hg)
  | superTrend period width =>
      exact .ofOne (Guarded.superTrendPoints_eq hg width)

theorem components_guardedFormula (g : Guard α) (i : Indicator α) :
    (i.guardedFormula g).components = i.components := by
  cases i with
  | donchian band period => cases band <;> rfl
  | _ => rfl

theorem rank_lt_of_mem_guarded {i c : Indicator α}
    (h : c ∈ (i.guardedFormula g).components) :
    c.rank < i.rank := by
  rw [components_guardedFormula] at h
  exact rank_lt_of_mem_components h

end Indicator

/-! ## Requests -/

namespace IndicatorCache

/-- The series of the points, which have to be as many as the bars. -/
def aligned (bars : List (Bar α)) (i : Indicator α) (points : List (Option α)) :
    Guarded (IndicatorSeries α) :=
  if points.length = bars.length then pure (.ofPoints bars i points)
  else throw .misaligned

def getGuarded (g : Guard α) (bars : List (Bar α)) (cache : IndicatorCache α)
    (i : Indicator α) : Guarded (IndicatorSeries α × IndicatorCache α) :=
  match cache.find? i with
  | some s => pure (s, cache)
  | none =>
      match h : i.guardedFormula g with
      | .ofBars f => do
          let points ← f bars
          let s ← aligned bars i points
          pure (s, cache.insert s)
      | .ofOne part f => do
          have : part.rank < i.rank :=
            Indicator.rank_lt_of_mem_guarded
              (by rw [h]; exact List.mem_cons_self)
          let (p, cache) ← getGuarded g bars cache part
          let points ← f bars p.values
          let s ← aligned bars i points
          pure (s, cache.insert s)
      | .ofTwo first second f => do
          have : first.rank < i.rank :=
            Indicator.rank_lt_of_mem_guarded
              (by rw [h]; exact List.mem_cons_self)
          have : second.rank < i.rank :=
            Indicator.rank_lt_of_mem_guarded
              (by rw [h]; exact List.mem_cons_of_mem _ List.mem_cons_self)
          let (p, cache) ← getGuarded g bars cache first
          let (q, cache) ← getGuarded g bars cache second
          let points ← f p.values q.values
          let s ← aligned bars i points
          pure (s, cache.insert s)
termination_by i.rank

section

variable {bars : List (Bar α)} {cache : IndicatorCache α} {i : Indicator α}

theorem getGuarded_of_find?_eq_some {s : IndicatorSeries α}
    (hfound : cache.find? i = some s) :
    cache.getGuarded g bars i = pure (s, cache) := by
  rw [getGuarded, hfound]

theorem getGuarded_of_ofBars {f} (hnew : cache.find? i = none)
    (hformula : i.guardedFormula g = .ofBars f) :
    cache.getGuarded g bars i = (do
      let points ← f bars
      let s ← aligned bars i points
      pure (s, cache.insert s)) := by
  rw [getGuarded, hnew]
  simp only
  split <;> simp_all

theorem getGuarded_of_ofOne {part : Indicator α} {f}
    (hnew : cache.find? i = none)
    (hformula : i.guardedFormula g = .ofOne part f) :
    cache.getGuarded g bars i = (do
      let (p, cache) ← cache.getGuarded g bars part
      let points ← f bars p.values
      let s ← aligned bars i points
      pure (s, cache.insert s)) := by
  rw [getGuarded, hnew]
  simp only
  split <;> simp_all

theorem getGuarded_of_ofTwo {first second : Indicator α} {f}
    (hnew : cache.find? i = none)
    (hformula : i.guardedFormula g = .ofTwo first second f) :
    cache.getGuarded g bars i = (do
      let (p, cache) ← cache.getGuarded g bars first
      let (q, cache) ← cache.getGuarded g bars second
      let points ← f p.values q.values
      let s ← aligned bars i points
      pure (s, cache.insert s)) := by
  rw [getGuarded, hnew]
  simp only
  split <;> simp_all

theorem aligned_eq {points : List (Option α)} (h : points = i.points bars) :
    aligned bars i points = pure (.ofPoints bars i points) := by
  have hlength : points.length = bars.length := by
    rw [h, Indicator.length_points]
  rw [aligned, if_pos hlength]

end

/-- A faithful cache has the points of the components as they are on their own,
so there are as many points as bars wherever the alignment is looked at. -/
theorem Faithful.getGuarded_eq
    (hg : g.AllowsProgram)
    {bars : List (Bar α)} (i : Indicator α) {cache : IndicatorCache α}
    (hcache : cache.Faithful bars) :
    cache.getGuarded g bars i = pure (cache.get bars i) := by
  induction i using Indicator.induction_on_components generalizing cache with
  | hstep i ih =>
      cases hfound : cache.find? i with
      | some s =>
          rw [getGuarded_of_find?_eq_some hfound, get_of_find?_eq_some hfound]
      | none =>
          have hyields := i.guardedFormula_yields hg
          generalize hguarded : i.guardedFormula g = guarded at hyields
          generalize hformula : i.formula = formula at hyields
          cases hyields with
          | @ofBars f ideal h =>
              have hpoints := Indicator.points_of_ofBars hformula bars
              rw [getGuarded_of_ofBars hfound hguarded,
                get_of_ofBars hfound hformula, h, pure_bind,
                aligned_eq hpoints.symm, pure_bind]
          | @ofOne part f ideal h =>
              have hpart :=
                ih part
                  (by simp [Indicator.components_of_ofOne hformula]) hcache
              have hpoints : ideal bars (cache.get bars part).1.values =
                  i.points bars := by
                rw [(hcache.get part).1, IndicatorSeries.values_direct,
                  Indicator.points_of_ofOne hformula]
              rw [getGuarded_of_ofOne hfound hguarded,
                get_of_ofOne hfound hformula, hpart, pure_bind]
              simp only [h, aligned_eq hpoints, pure_bind]
          | @ofTwo first second f ideal h =>
              have hfirst :=
                ih first (by simp [Indicator.components_of_ofTwo hformula])
                  hcache
              have hbetween := (hcache.get first).2
              have hsecond :=
                ih second
                  (by simp [Indicator.components_of_ofTwo hformula]) hbetween
              have hpoints :
                  ideal (cache.get bars first).1.values
                      ((cache.get bars first).2.get bars second).1.values =
                    i.points bars := by
                rw [(hcache.get first).1, (hbetween.get second).1,
                  IndicatorSeries.values_direct, IndicatorSeries.values_direct,
                  Indicator.points_of_ofTwo hformula]
              rw [getGuarded_of_ofTwo hfound hguarded,
                get_of_ofTwo hfound hformula, hfirst, pure_bind]
              simp only [hsecond, h, aligned_eq hpoints, pure_bind]

/-- Whatever was asked before, a request reads no list at a place that is not
there, counts no place below zero, cuts no slice and no interval that is not
one, and has one point for each bar, at its time. -/
theorem requests_stay_in_range (bars : List (Bar Float))
    (requests : List (CacheRequest Float)) (i : Indicator Float) :
    (after bars requests).getGuarded .machine bars i =
        .ok ((after bars requests).get bars i) ∧
      ((after bars requests).get bars i).1.points.map Prod.fst =
        bars.map Bar.time ∧
      ((after bars requests).get bars i).1.values = i.points bars := by
  have hfaithful := faithful_after bars requests
  refine ⟨hfaithful.getGuarded_eq Guard.machine_allowsProgram i, ?_, ?_⟩
  · rw [get_after, IndicatorSeries.direct, IndicatorSeries.ofPoints,
      List.map_fst_zip]
    simp
  · rw [get_after, IndicatorSeries.values_direct]

end IndicatorCache

end RuleBacktest
