import RuleBacktest.Indicator.Formula
import RuleBacktest.Proofs.Cache.Faithful
import RuleBacktest.Proofs.Scale.Window

/-!
# Indicators over prices in another unit

With all prices of the bars multiplied by a positive number, and the volumes as
they are, every indicator either is multiplied by that number or stays as it is.
Which of the two it does is a matter of its kind.  It is shown for each formula,
given what the components do, and then follows for every indicator by recursion
over its components.
-/

namespace RuleBacktest

open Scalar Window

noncomputable section

variable {c : ℝ}

/-! ## Bars -/

namespace Bar

/-- The bar with its prices multiplied by `c`. -/
def scaled (c : ℝ) (b : Bar ℝ) : Bar ℝ :=
  { b with
      opening := c * b.opening, high := c * b.high, low := c * b.low,
      close := c * b.close }

variable (c : ℝ) (b : Bar ℝ)

@[simp] theorem scaled_time : (b.scaled c).time = b.time := rfl

@[simp] theorem scaled_opening : (b.scaled c).opening = c * b.opening := rfl

@[simp] theorem scaled_high : (b.scaled c).high = c * b.high := rfl

@[simp] theorem scaled_low : (b.scaled c).low = c * b.low := rfl

@[simp] theorem scaled_close : (b.scaled c).close = c * b.close := rfl

@[simp] theorem scaled_volumeOrZero :
    (b.scaled c).volumeOrZero = b.volumeOrZero :=
  rfl

theorem scaled_typicalPrice :
    (b.scaled c).typicalPrice = c * b.typicalPrice := by
  simp only [typicalPrice, scaled, real_add, real_div]
  ring

theorem scaled_medianPrice : (b.scaled c).medianPrice = c * b.medianPrice := by
  simp only [medianPrice, scaled, real_add, real_div]
  ring

theorem scaled_trueRange (hc : 0 < c) (b : Bar ℝ) (previousClose : ℝ) :
    (b.scaled c).trueRange (c * previousClose) =
      c * b.trueRange previousClose := by
  simp [trueRange, ← mul_sub, abs_mul, abs_of_pos hc, larger_mul hc]

end Bar

/-! ## Kinds of indicators -/

namespace Indicator

/-- Whether an indicator is measured in the unit of the prices.  The others are
counts of shares, percentages and other numbers without a unit of money. -/
def isPriceLevel {α : Type} : Indicator α → Bool
  | price .volume => false
  | price _ => true
  | trueRange => true
  | sma _ => true
  | ema _ => true
  | wma _ => true
  | hma _ => true
  | macd _ _ => true
  | awesomeOscillator => true
  | atr _ => true
  | standardDeviation _ => true
  | vwap _ => true
  | bollinger _ _ _ => true
  | keltnerMiddle _ => true
  | keltner _ _ _ _ => true
  | donchian _ _ => true
  | parabolicStop => true
  | ichimoku _ _ => true
  | superTrend _ _ => true
  | rsi _ => false
  | stochastic _ => false
  | rateOfChange _ => false
  | cci _ => false
  | williamsR _ => false
  | adx _ => false
  | directional _ _ => false
  | onBalanceVolume => false
  | accumulation => false
  | fisher _ => false

/-- What a value of the indicator becomes when the prices are multiplied by
`c`. -/
def rescale (c : ℝ) (i : Indicator ℝ) (x : ℝ) : ℝ :=
  if i.isPriceLevel then c * x else x

theorem rescale_of_isPriceLevel (c : ℝ) {i : Indicator ℝ}
    (hlevel : i.isPriceLevel = true) :
    i.rescale c = fun x => c * x := by
  funext x
  simp [rescale, hlevel]

theorem rescale_of_not_isPriceLevel (c : ℝ) {i : Indicator ℝ}
    (hlevel : i.isPriceLevel = false) :
    i.rescale c = fun x => x := by
  funext x
  simp [rescale, hlevel]

/-! ## Formulas over the bars -/

theorem equivariant_closes (c : ℝ) :
    Equivariant (Bar.scaled c) (c * ·) closes :=
  Equivariant.map fun _ => rfl

theorem equivariant_highs (c : ℝ) : Equivariant (Bar.scaled c) (c * ·) highs :=
  Equivariant.map fun _ => rfl

theorem equivariant_lows (c : ℝ) : Equivariant (Bar.scaled c) (c * ·) lows :=
  Equivariant.map fun _ => rfl

theorem equivariant_typicalPrices (c : ℝ) :
    Equivariant (Bar.scaled c) (c * ·) (List.map Bar.typicalPrice) :=
  Equivariant.map (Bar.scaled_typicalPrice c)

theorem equivariant_price (c : ℝ) (field : PriceField) :
    Equivariant (Bar.scaled c) (Option.map ((price field).rescale c))
      (List.map fun b => some (field.read b)) := by
  apply Equivariant.map
  intro b
  cases field <;> rfl

theorem equivariant_trueRanges (hc : 0 < c) :
    Equivariant (Bar.scaled c) (c * ·) trueRanges := by
  apply Equivariant.comp _ (Equivariant.withLag _ 1)
  apply Equivariant.map
  rintro ⟨b, previous⟩
  cases previous with
  | none => simp [mul_sub]
  | some previous => simp [Bar.scaled_trueRange c hc]

theorem equivariant_changes (c : ℝ) :
    Equivariant (Bar.scaled c) (Option.map (c * ·)) changes := by
  apply Equivariant.comp _
    (Equivariant.comp (Equivariant.withLag _ 1) (equivariant_closes c))
  apply Equivariant.map
  rintro ⟨close, previous⟩
  cases previous <;> simp [mul_sub]

theorem equivariant_awesomePoints (c : ℝ) :
    Equivariant (Bar.scaled c) (Option.map (c * ·)) awesomePoints := by
  have hmedians :
      Equivariant (Bar.scaled c) (c * ·) (List.map Bar.medianPrice) :=
    Equivariant.map (Bar.scaled_medianPrice c)
  have hdifference :=
    EquivariantPair.pointwise (g := (c * ·)) (k := (c * ·)) (h := (c * ·))
      (f := fun x y : ℝ => x - y) fun x y => (mul_sub c x y).symm
  exact Equivariant.pair hdifference ((equivariant_mean c 5).comp hmedians)
    ((equivariant_mean c 34).comp hmedians)

/-- The unit cancels in the quotient of the gain and the loss. -/
theorem relativeStrength_mul (hc : 0 < c) (gain loss : ℝ) :
    relativeStrength (c * gain) (c * loss) = relativeStrength gain loss := by
  simp [relativeStrength, hc.ne', mul_div_mul_left]

theorem equivariant_map_changes {part : ℝ → ℝ}
    (hpart : ∀ x, part (c * x) = c * part x) :
    Equivariant (Bar.scaled c) (Option.map (c * ·)) fun bars =>
      (changes bars).map fun x => x.map part := by
  apply Equivariant.comp _ (equivariant_changes c)
  apply Equivariant.map
  intro x
  cases x <;> simp [hpart]

theorem equivariant_rsiPoints (hc : 0 < c) (period : Nat) :
    Equivariant (Bar.scaled c) (Option.map fun x => x) (rsiPoints period) := by
  have hsmooth := (equivariant_wilder c period).acrossGaps
  apply Equivariant.pair (EquivariantPair.pointwise (relativeStrength_mul hc))
  · refine hsmooth.comp (equivariant_map_changes ?_)
    intro x
    simpa using larger_mul hc x 0
  · refine hsmooth.comp (equivariant_map_changes ?_)
    intro x
    simpa using larger_mul hc (-x) 0

theorem equivariant_rateOfChangePoints (hc : 0 < c) (period : Nat) :
    Equivariant (Bar.scaled c) (Option.map fun x => x)
      (rateOfChangePoints period) := by
  apply Equivariant.ite
  · exact Equivariant.map fun _ => rfl
  apply Equivariant.comp _
    (Equivariant.comp (Equivariant.withLag _ period) (equivariant_closes c))
  apply Equivariant.map
  rintro ⟨close, earlier⟩
  cases earlier with
  | none => rfl
  | some earlier => simp [hc.ne', ← mul_sub, mul_div_mul_left]

theorem equivariant_extremes (hc : 0 < c) (period : Nat)
    {high low : List (Bar ℝ) → List ℝ}
    (hhigh : Equivariant (Bar.scaled c) (c * ·) high)
    (hlow : Equivariant (Bar.scaled c) (c * ·) low) :
    Equivariant (Bar.scaled c) (Option.map (Prod.map (c * ·) (c * ·)))
      fun bars =>
        pointwise Prod.mk
          (highest period (high bars)) (lowest period (low bars)) := by
  have hhighest := (equivariant_highest hc period).comp hhigh
  have hlowest := (equivariant_lowest hc period).comp hlow
  refine Equivariant.pair ?_ hhighest hlowest
  apply EquivariantPair.pointwise
  intro x y
  rfl

theorem equivariant_withinRange
    (hc : 0 < c)
    {position : ℝ → ℝ → ℝ → ℝ}
    (hposition : ∀ x h l, position (c * x) (c * h) (c * l) = position x h l)
    (period : Nat) :
    Equivariant (Bar.scaled c) (Option.map fun x => x) fun bars =>
      withinRange position bars (highest period (highs bars))
          (lowest period (lows bars)) := by
  refine Equivariant.pair (EquivariantPair.zipWith ?_) (Equivariant.id _)
    (equivariant_extremes hc period (equivariant_highs c) (equivariant_lows c))
  rintro b (_ | ⟨h, l⟩)
  · rfl
  · simp [hposition, hc.ne', ← mul_sub]

theorem equivariant_stochasticPoints (hc : 0 < c) (period : Nat) :
    Equivariant (Bar.scaled c) (Option.map fun x => x)
      (stochasticPoints period) := by
  apply equivariant_withinRange hc
  intro x h l
  simp [← mul_sub, mul_left_comm _ c, mul_div_mul_left, hc.ne']

theorem equivariant_williamsRPoints (hc : 0 < c) (period : Nat) :
    Equivariant (Bar.scaled c) (Option.map fun x => x)
      (williamsRPoints period) := by
  apply equivariant_withinRange hc
  intro x h l
  simp [← mul_sub, mul_left_comm _ c, neg_div, mul_div_mul_left, hc.ne']

theorem meanDistance_mul
    (hc : 0 < c)
    (period : Nat) (center : ℝ) (window : List ℝ) :
    meanDistance period (c * center) (window.map (c * ·)) =
      c * meanDistance period center window := by
  simp [meanDistance, real_sum, ← List.map_reverse, Function.comp_def,
    ← mul_sub, abs_mul, abs_of_pos hc, List.sum_map_mul_left, mul_div_assoc]

theorem cciStep_scaled
    (hc : 0 < c)
    (period : Nat) (recent : List ℝ) (x : ℝ) (center : Option ℝ) :
    cciStep period (recent.map (c * ·)) (c * x, center.map (c * ·)) =
      (cciStep period recent (x, center)).map (List.map (c * ·))
        (Option.map fun x => x) := by
  have hwindow : (c * x :: recent.map (c * ·)).take period =
      ((x :: recent).take period).map (c * ·) := by
    rw [List.map_take, List.map_cons]
  cases center with
  | none => simp only [cciStep, hwindow]; rfl
  | some center =>
      simp only [cciStep, hwindow, Option.map_some, meanDistance_mul hc]
      simp [hc.ne', ← mul_sub, mul_left_comm _ c, mul_div_mul_left]

theorem equivariant_cciPoints (hc : 0 < c) (period : Nat) :
    Equivariant (Bar.scaled c) (Option.map fun x => x) (cciPoints period) := by
  apply Equivariant.comp (k := Prod.map (c * ·) (Option.map (c * ·)))
  · apply Equivariant.sweep (List.map (c * ·))
    · rfl
    · rintro recent ⟨x, center⟩
      exact cciStep_scaled hc period recent x center
  · exact Equivariant.pair EquivariantPair.zip (equivariant_typicalPrices c)
      ((equivariant_mean c period).comp (equivariant_typicalPrices c))

/-- Only the place of the close within its range enters the state. -/
theorem fisherAdvance_mul (hc : 0 < c) (s : FisherState ℝ) (close h l : ℝ) :
    fisherAdvance s (c * close) (c * h) (c * l) =
      fisherAdvance s close h l := by
  simp [fisherAdvance, ← mul_sub, hc.ne', mul_div_mul_left]

theorem equivariant_fisherPoints (hc : 0 < c) (period : Nat) :
    Equivariant (Bar.scaled c) (Option.map fun x => x)
      (fisherPoints period) := by
  apply Equivariant.comp
    (k := Prod.map (c * ·) (Option.map (Prod.map (c * ·) (c * ·))))
  · apply Equivariant.sweep fun s => s
    · rfl
    · rintro s ⟨close, _ | ⟨h, l⟩⟩
      · rfl
      · simp [fisherStep, fisherAdvance_mul hc]
  · exact Equivariant.pair EquivariantPair.zip (equivariant_closes c)
      (equivariant_extremes hc period (equivariant_closes c)
        (equivariant_closes c))

/-! ## Volume -/

theorem equivariant_onBalanceVolumePoints (hc : 0 < c) :
    Equivariant (Bar.scaled c) (Option.map fun x => x)
      onBalanceVolumePoints := by
  apply Equivariant.lagged fun balance => balance
  · rfl
  · intro balance b previous
    cases previous <;> simp [balanceStep, mul_lt_mul_iff_right₀ hc]

def VwapState.scaled (c : ℝ) (s : VwapState ℝ) : VwapState ℝ :=
  ⟨s.count, c * s.weighted, s.volume⟩

theorem snd_vwapStep (period : Nat) (s : VwapState ℝ)
    (entry : Bar ℝ × Option (Bar ℝ)) :
    (vwapStep period s entry).2 =
      if period ≤ s.count + 1 ∧ 0 < (vwapStep period s entry).1.volume then
        some ((vwapStep period s entry).1.weighted /
            (vwapStep period s entry).1.volume)
      else none := by
  simp [vwapStep]

theorem vwapStep_scaled (c : ℝ) (period : Nat) (s : VwapState ℝ) (b : Bar ℝ)
    (old : Option (Bar ℝ)) :
    vwapStep period (s.scaled c) (b.scaled c, old.map (Bar.scaled c)) =
      (vwapStep period s (b, old)).map (VwapState.scaled c)
        (Option.map (c * ·)) := by
  have hnext :
      (vwapStep period (s.scaled c) (b.scaled c, old.map (Bar.scaled c))).1 =
        (vwapStep period s (b, old)).1.scaled c := by
    cases old <;>
      simp [vwapStep, VwapState.scaled, Bar.scaled_typicalPrice, mul_add,
        mul_sub, mul_assoc]
  apply Prod.ext hnext
  rw [snd_vwapStep, hnext, Prod.map_snd, snd_vwapStep]
  by_cases hdefined : period ≤ s.count + 1 ∧
    0 < (vwapStep period s (b, old)).1.volume
  · simp [VwapState.scaled, hdefined, mul_div_assoc]
  · simp [VwapState.scaled, hdefined]

theorem equivariant_vwapPoints (c : ℝ) (period : Nat) :
    Equivariant (Bar.scaled c) (Option.map (c * ·)) (vwapPoints period) := by
  apply Equivariant.ite
  · exact Equivariant.map fun _ => rfl
  apply Equivariant.lagged (VwapState.scaled c)
  · simp [VwapState.scaled]
  · exact vwapStep_scaled c period

theorem closePosition_scaled (hc : 0 < c) (b : Bar ℝ) :
    closePosition (b.scaled c) = closePosition b := by
  simp [closePosition, ← mul_sub, hc.ne', mul_div_mul_left]

theorem equivariant_accumulationPoints (hc : 0 < c) :
    Equivariant (Bar.scaled c) (Option.map fun x => x) accumulationPoints := by
  apply Equivariant.sweep fun s => s
  · rfl
  · intro total b
    simp [accumulationStep, closePosition_scaled hc]

/-! ## Reversals -/

def StopState.scaled (c : ℝ) (s : StopState ℝ) : StopState ℝ :=
  { s with stop := c * s.stop, extreme := c * s.extreme }

namespace StopState

theorem initial_scaled (hc : 0 < c) (first second : Bar ℝ) :
    initial (first.scaled c) (second.scaled c) =
      (initial first second).scaled c := by
  by_cases hrising : first.close ≤ second.close
  · simp [initial, scaled, mul_le_mul_iff_right₀ hc, hrising]
  · simp [initial, scaled, mul_le_mul_iff_right₀ hc, hrising]

theorem advanced_scaled
    (hc : 0 < c)
    (s : StopState ℝ) (previous earlier : Bar ℝ) :
    (s.scaled c).advanced (previous.scaled c) (earlier.scaled c) =
      c * s.advanced previous earlier := by
  have hmoved : c * s.stop + s.speed * (c * s.extreme - c * s.stop) =
      c * (s.stop + s.speed * (s.extreme - s.stop)) := by
    ring
  cases hrising : s.rising <;>
    simp [advanced, scaled, hrising, hmoved, smaller_mul hc, larger_mul hc]

/-- The prices are compared among themselves only, so each branch is taken as
before. -/
theorem next_scaled
    (hc : 0 < c)
    (s : StopState ℝ) (earlier previous b : Bar ℝ) :
    (s.scaled c).next (earlier.scaled c) (previous.scaled c) (b.scaled c) =
      (s.next earlier previous b).scaled c := by
  simp only [next, advanced_scaled hc]
  simp only [scaled, Bar.scaled, real_lt, mul_lt_mul_iff_right₀ hc]
  cases s.rising <;>
    simp only [if_true, if_false, Bool.false_eq_true] <;>
    split_ifs <;>
    rfl

end StopState

def StopWalk.scaled (c : ℝ) (w : StopWalk ℝ) : StopWalk ℝ :=
  ⟨w.state.scaled c, w.earlier.scaled c, w.previous.scaled c⟩

theorem StopWalk.step_scaled (hc : 0 < c) (w : StopWalk ℝ) (b : Bar ℝ) :
    (w.scaled c).step (b.scaled c) =
      (w.step b).map (StopWalk.scaled c) (Option.map (StopState.scaled c)) := by
  simp [step, scaled, StopState.next_scaled hc]

theorem equivariant_parabolicStopTrace (hc : 0 < c) :
    Equivariant (Bar.scaled c) (Option.map (StopState.scaled c))
      parabolicStopTrace := by
  intro bars
  match bars with
  | [] => rfl
  | [_] => rfl
  | first :: second :: rest =>
      have hwalk := sweep_map (StopWalk.step_scaled hc)
        ⟨StopState.initial first second, first, second⟩ rest
      simp only [StopWalk.scaled] at hwalk
      simp [parabolicStopTrace, StopState.initial_scaled hc, hwalk]

theorem equivariant_parabolicStopPoints (hc : 0 < c) :
    Equivariant (Bar.scaled c) (Option.map (c * ·)) parabolicStopPoints := by
  apply Equivariant.comp _ (equivariant_parabolicStopTrace hc)
  apply Equivariant.map
  intro s
  cases s <;> simp [StopState.scaled]

def TrendState.scaled (c : ℝ) (s : TrendState ℝ) : TrendState ℝ :=
  { s with upper := c * s.upper, lower := c * s.lower }

namespace TrendState

theorem line_scaled (c : ℝ) (s : TrendState ℝ) :
    (s.scaled c).line = c * s.line := by
  cases hrising : s.rising <;> simp [line, scaled, hrising]

theorem initial_scaled (hc : 0 < c) (width : ℝ) (b : Bar ℝ) (range : ℝ) :
    initial width (b.scaled c) (c * range) =
      (initial width b range).scaled c := by
  simp [initial, scaled, Bar.scaled_medianPrice, mul_le_mul_iff_right₀ hc,
    mul_left_comm width, mul_add, mul_sub]

theorem next_scaled
    (hc : 0 < c)
    (width : ℝ) (s : TrendState ℝ) (previous b : Bar ℝ) (range : ℝ) :
    next width (s.scaled c) (previous.scaled c) (b.scaled c) (c * range) =
      (next width s previous b range).scaled c := by
  have hupper : c * b.medianPrice + width * (c * range) =
      c * (b.medianPrice + width * range) := by
    ring
  have hlower : c * b.medianPrice - width * (c * range) =
      c * (b.medianPrice - width * range) := by
    ring
  simp only [next, Bar.scaled_medianPrice, real_add, real_mul, real_sub, hupper,
    hlower]
  simp only [scaled, Bar.scaled_close, real_lt, real_le, ← mul_ite,
    mul_lt_mul_iff_right₀ hc, mul_le_mul_iff_right₀ hc]

theorem step_scaled
    (hc : 0 < c)
    (width : ℝ) (s : Option (TrendState ℝ)) (b : Bar ℝ)
    (previous : Option (Bar ℝ)) (range : Option ℝ) :
    step width (s.map (scaled c))
        ((b.scaled c, previous.map (Bar.scaled c)), range.map (c * ·)) =
      (step width s ((b, previous), range)).map (Option.map (scaled c))
        (Option.map (scaled c)) := by
  cases range with
  | none => rfl
  | some range =>
      cases s <;>
        cases previous <;>
        simp [step, next_scaled hc, initial_scaled hc]

end TrendState

theorem equivariantPair_superTrendTrace (hc : 0 < c) (width : Factor ℝ) :
    EquivariantPair (Bar.scaled c) (Option.map (c * ·))
      (Option.map (TrendState.scaled c)) (superTrendTrace width) := by
  apply EquivariantPair.comp
    (l :=
      Prod.map (Prod.map (Bar.scaled c) (Option.map (Bar.scaled c)))
        (Option.map (c * ·)))
  · apply Equivariant.sweep (Option.map (TrendState.scaled c))
    · rfl
    · rintro s ⟨⟨b, previous⟩, range⟩
      exact TrendState.step_scaled hc width.value s b previous range
  · exact EquivariantPair.compLeft EquivariantPair.zip (Equivariant.withLag _ 1)

theorem equivariantPair_superTrendPoints (hc : 0 < c) (width : Factor ℝ) :
    EquivariantPair (Bar.scaled c) (Option.map (c * ·)) (Option.map (c * ·))
      (superTrendPoints width) := by
  apply EquivariantPair.comp _ (equivariantPair_superTrendTrace hc width)
  apply Equivariant.map
  intro s
  cases s <;> simp [TrendState.line_scaled]

/-! ## Formulas over components -/

theorem equivariantPair_hmaPoints (c : ℝ) (period : Nat) :
    EquivariantPair (Option.map (c * ·)) (Option.map (c * ·))
      (Option.map (c * ·)) (hmaPoints period) := by
  apply EquivariantPair.comp (equivariant_weightedMean c _).acrossGaps
  apply EquivariantPair.pointwise
  intro half whole
  simp [mul_sub, mul_left_comm]

theorem equivariantPair_macdPoints (c : ℝ) :
    EquivariantPair (Option.map (c * ·)) (Option.map (c * ·))
      (Option.map (c * ·)) macdPoints := by
  apply EquivariantPair.pointwise
  intro fast slow
  exact (mul_sub c fast slow).symm

theorem movement_scaled
    (hc : 0 < c)
    (direction : Direction) (previous b : Bar ℝ) :
    movement direction (previous.scaled c) (b.scaled c) =
      c * movement direction previous b := by
  cases direction <;>
    simp [movement, ← mul_sub, mul_lt_mul_iff_right₀ hc, hc]

theorem equivariant_movements (hc : 0 < c) (direction : Direction) :
    Equivariant (Bar.scaled c) (Option.map (c * ·)) (movements direction) := by
  apply Equivariant.comp _ (Equivariant.withLag _ 1)
  apply Equivariant.map
  rintro ⟨b, previous⟩
  cases previous <;> simp [movement_scaled hc]

/-- Movement and range are both in the unit of the prices, so their quotient is
free of it. -/
theorem equivariantPair_directionalPoints
    (hc : 0 < c)
    (direction : Direction) (period : Nat) :
    EquivariantPair (Bar.scaled c) (Option.map (c * ·)) (Option.map fun x => x)
      (directionalPoints direction period) := by
  have hsmoothed : Equivariant (Bar.scaled c) (Option.map (c * ·)) fun bars =>
      acrossGaps (wilder period) (movements direction bars) :=
    (equivariant_wilder c period).acrossGaps.comp
      (equivariant_movements hc direction)
  refine EquivariantPair.compLeft
    (f := fun bars => acrossGaps _ (movements direction bars))
    (EquivariantPair.pointwise ?_) hsmoothed
  intro m range
  simp [hc.ne', mul_left_comm _ c, mul_div_mul_left]

theorem equivariantPair_bandPoints (c : ℝ) (band : Band) (width : Factor ℝ) :
    EquivariantPair (Option.map (c * ·)) (Option.map (c * ·))
      (Option.map (c * ·)) (bandPoints band width) := by
  cases band with
  | upper =>
      apply EquivariantPair.pointwise
      intro middle spread
      simp [mul_add, mul_left_comm]
  | lower =>
      apply EquivariantPair.pointwise
      intro middle spread
      simp [mul_sub, mul_left_comm]

theorem equivariant_donchianPoints (hc : 0 < c) (band : Band) (period : Nat) :
    Equivariant (Bar.scaled c) (Option.map (c * ·))
      (donchianPoints band period) := by
  cases band with
  | upper => exact (equivariant_highest hc period).comp (equivariant_highs c)
  | lower => exact (equivariant_lowest hc period).comp (equivariant_lows c)

theorem equivariantPair_midpoints (c : ℝ) :
    EquivariantPair (Option.map (c * ·)) (Option.map (c * ·))
      (Option.map (c * ·)) midpoints := by
  apply EquivariantPair.pointwise
  intro h l
  simp [← mul_add, mul_div_assoc]

end Indicator

/-- A formula rescales as its indicator does when its components rescale as they
do. -/
def Formula.Rescales (c : ℝ) (i : Indicator ℝ) : Formula ℝ → Prop
  | .ofBars f => Equivariant (Bar.scaled c) (Option.map (i.rescale c)) f
  | .ofOne part f =>
      EquivariantPair (Bar.scaled c) (Option.map (part.rescale c))
        (Option.map (i.rescale c)) f
  | .ofTwo first second f =>
      EquivariantPair (Option.map (first.rescale c))
        (Option.map (second.rescale c)) (Option.map (i.rescale c)) f

namespace Indicator

theorem rescales_formula (hc : 0 < c) (i : Indicator ℝ) :
    i.formula.Rescales c i := by
  cases i with
  | price field => exact equivariant_price c field
  | trueRange =>
      exact Equivariant.comp (Equivariant.map fun _ => rfl)
        (equivariant_trueRanges hc)
  | sma period => exact (equivariant_mean c period).comp (equivariant_closes c)
  | ema period =>
      exact (equivariant_exponential c period).comp (equivariant_closes c)
  | wma period =>
      exact (equivariant_weightedMean c period).comp (equivariant_closes c)
  | hma period => exact equivariantPair_hmaPoints c period
  | rsi period => exact equivariant_rsiPoints hc period
  | macd fast slow => exact equivariantPair_macdPoints c
  | stochastic period => exact equivariant_stochasticPoints hc period
  | rateOfChange period => exact equivariant_rateOfChangePoints hc period
  | cci period => exact equivariant_cciPoints hc period
  | williamsR period => exact equivariant_williamsRPoints hc period
  | awesomeOscillator => exact equivariant_awesomePoints c
  | adx period => exact EquivariantPair.unchanged (adxPoints period)
  | directional direction period =>
      exact equivariantPair_directionalPoints hc direction period
  | atr period =>
      exact (equivariant_wilder c period).comp (equivariant_trueRanges hc)
  | standardDeviation period =>
      exact (equivariant_deviation hc period).comp (equivariant_closes c)
  | onBalanceVolume => exact equivariant_onBalanceVolumePoints hc
  | vwap period => exact equivariant_vwapPoints c period
  | accumulation => exact equivariant_accumulationPoints hc
  | bollinger band period width => exact equivariantPair_bandPoints c band width
  | keltnerMiddle period =>
      exact (equivariant_exponential c period).comp
        (equivariant_typicalPrices c)
  | keltner band period rangePeriod width =>
      exact equivariantPair_bandPoints c band width
  | donchian band period => exact equivariant_donchianPoints hc band period
  | parabolicStop => exact equivariant_parabolicStopPoints hc
  | fisher period => exact equivariant_fisherPoints hc period
  | ichimoku line period => exact equivariantPair_midpoints c
  | superTrend period width => exact equivariantPair_superTrendPoints hc width

/-- The points of an indicator over bars with scaled prices are its points over
the bars, each of them rescaled. -/
theorem points_scaled (hc : 0 < c) (i : Indicator ℝ) (bars : List (Bar ℝ)) :
    i.points (bars.map (Bar.scaled c)) =
      (i.points bars).map (Option.map (i.rescale c)) := by
  induction i using induction_on_components with
  | hstep i ih =>
      have hrescales := i.rescales_formula hc
      cases hformula : i.formula with
      | ofBars f =>
          rw [hformula] at hrescales
          rw [points_of_ofBars hformula, points_of_ofBars hformula,
            hrescales bars]
      | ofOne part f =>
          rw [hformula] at hrescales
          have hpart := ih part (by simp [components_of_ofOne hformula])
          rw [points_of_ofOne hformula, points_of_ofOne hformula, hpart,
            hrescales bars]
      | ofTwo first second f =>
          rw [hformula] at hrescales
          have hfirst := ih first (by simp [components_of_ofTwo hformula])
          have hsecond := ih second (by simp [components_of_ofTwo hformula])
          rw [points_of_ofTwo hformula, points_of_ofTwo hformula, hfirst,
            hsecond, hrescales (first.points bars)]

end Indicator

theorem IndicatorSeries.points_direct_scaled
    (hc : 0 < c)
    (bars : List (Bar ℝ)) (i : Indicator ℝ) :
    (direct (bars.map (Bar.scaled c)) i).points =
      (direct bars i).points.map (Prod.map id (Option.map (i.rescale c))) := by
  have htimes : (bars.map (Bar.scaled c)).map Bar.time = bars.map Bar.time := by
    simp
  simp only [direct, ofPoints, htimes]
  rw [Indicator.points_scaled hc, List.zip_map_right]

end

end RuleBacktest
