import RuleBacktest.Indicator.Formula
import RuleBacktest.Proofs.Guarded.Window

/-!
# Guarded formulas of the indicators

The formulas once more, with their loops over places and every quotient, root
and logarithm guarded.  A guard that allows what the program does lets each
formula through, and the points are those of the formula that runs.
-/

namespace RuleBacktest
namespace Guarded

open Scalar Window Indicator

variable {α : Type} [Scalar α] {g : Guard α}

/-! ## Prices of a bar -/

def typicalPrice (g : Guard α) (b : Bar α) : Guarded α :=
  g.divide (b.high + b.low + b.close) 3

def medianPrice (g : Guard α) (b : Bar α) : Guarded α :=
  g.divide (b.high + b.low) 2

theorem typicalPrice_eq (hg : g.AllowsProgram) (b : Bar α) :
    typicalPrice g b = pure b.typicalPrice := by
  have hthree : g.divides (3 : α) = true := hg.count (Nat.succ_pos 2)
  rw [typicalPrice, Guard.divide_eq hthree, Bar.typicalPrice]

theorem medianPrice_eq (hg : g.AllowsProgram) (b : Bar α) :
    medianPrice g b = pure b.medianPrice := by
  have htwo : g.divides (2 : α) = true := hg.count Nat.two_pos
  rw [medianPrice, Guard.divide_eq htwo, Bar.medianPrice]

/-! ## Averages -/

/-- A window over the closes, which have no gaps. -/
def overCloses (window : List (Option α) → Guarded (List (Option α)))
    (bars : List (Bar α)) : Guarded (List (Option α)) :=
  window ((closes bars).map some)

omit [Scalar α] in
theorem overCloses_eq {window : List (Option α) → Guarded (List (Option α))}
    {ideal : List α → List (Option α)}
    (hwindow : ∀ source, window source = pure (acrossGaps ideal source))
    (bars : List (Bar α)) :
    overCloses window bars = pure (ideal (closes bars)) := by
  rw [overCloses, hwindow, acrossGaps_map_some]

/-- The root of the period is cut off to a natural number at once, so only its
argument is looked at. -/
def hmaPoints (g : Guard α) (period : Nat) (half whole : List (Option α)) :
    Guarded (List (Option α)) := do
  let _ ← g.root (ofCount period)
  weightedMean g (rootPeriod period)
    (Indicator.pointwise (fun h w => 2 * h - w) half whole)

theorem hmaPoints_eq
    (hg : g.AllowsProgram)
    (period : Nat) (half whole : List (Option α)) :
    hmaPoints g period half whole =
      pure (Indicator.hmaPoints period half whole) := by
  rw [hmaPoints, Guard.root_eq (hg.root_count period), pure_bind]
  exact weightedMean_eq hg _ _

def awesomePoints (g : Guard α) (bars : List (Bar α)) :
    Guarded (List (Option α)) := do
  let medians ← bars.mapM (medianPrice g)
  let fast ← mean g 5 (medians.map some)
  let slow ← mean g 34 (medians.map some)
  pure (Indicator.pointwise (· - ·) fast slow)

theorem awesomePoints_eq (hg : g.AllowsProgram) (bars : List (Bar α)) :
    awesomePoints g bars = pure (Indicator.awesomePoints bars) := by
  simp only [awesomePoints, mapM_eq (medianPrice_eq hg), mean_eq hg,
    acrossGaps_map_some, pure_bind]
  rfl

def keltnerMiddlePoints (g : Guard α) (period : Nat) (bars : List (Bar α)) :
    Guarded (List (Option α)) := do
  let typical ← bars.mapM (typicalPrice g)
  exponential g period (typical.map some)

theorem keltnerMiddlePoints_eq
    (hg : g.AllowsProgram)
    (period : Nat) (bars : List (Bar α)) :
    keltnerMiddlePoints g period bars =
      pure (Indicator.keltnerMiddlePoints period bars) := by
  rw [keltnerMiddlePoints, mapM_eq (typicalPrice_eq hg), pure_bind,
    exponential_eq hg, acrossGaps_map_some, Indicator.keltnerMiddlePoints]

/-! ## Ranges and directional movement -/

def trueRanges : List (Bar α) → Guarded (List α) :=
  eachLagged 1 fun entry => pure (match entry.2 with
    | none => entry.1.high - entry.1.low
    | some previous => entry.1.trueRange previous.close)

theorem trueRanges_eq (bars : List (Bar α)) :
    trueRanges bars = pure (Indicator.trueRanges bars) :=
  eachLagged_eq (fun _ => rfl) bars

def atrPoints (g : Guard α) (period : Nat) (bars : List (Bar α)) :
    Guarded (List (Option α)) := do
  let ranges ← trueRanges bars
  wilder g period (ranges.map some)

theorem atrPoints_eq
    (hg : g.AllowsProgram)
    (period : Nat) (bars : List (Bar α)) :
    atrPoints g period bars = pure (Indicator.atrPoints period bars) := by
  rw [atrPoints, trueRanges_eq, pure_bind, wilder_eq hg, acrossGaps_map_some,
    Indicator.atrPoints]

def movements (direction : Direction) :
    List (Bar α) → Guarded (List (Option α)) :=
  eachLagged 1 fun entry =>
    pure (entry.2.map fun previous => movement direction previous entry.1)

theorem movements_eq (direction : Direction) (bars : List (Bar α)) :
    movements direction bars = pure (Indicator.movements direction bars) :=
  eachLagged_eq (fun _ => rfl) bars

def directionalPoints (g : Guard α) (direction : Direction) (period : Nat)
    (bars : List (Bar α)) (ranges : List (Option α)) :
    Guarded (List (Option α)) := do
  let moves ← movements direction bars
  let smoothed ← wilder g period moves
  pointwise (fun m range => g.divideOr 0 (100 * m) range) smoothed ranges

theorem directionalPoints_eq
    (hg : g.AllowsProgram)
    (direction : Direction) (period : Nat) (bars : List (Bar α))
    (ranges : List (Option α)) :
    directionalPoints g direction period bars ranges =
      pure (Indicator.directionalPoints direction period bars ranges) := by
  rw [directionalPoints, movements_eq, pure_bind, wilder_eq hg, pure_bind]
  exact pointwise_eq fun m range _ _ => hg.divideOr_eq 0 (100 * m) range

def adxPoints (g : Guard α) (period : Nat) (plus minus : List (Option α)) :
    Guarded (List (Option α)) := do
  let contrasts ← pointwise
    (fun (p m : α) => g.divideOr 0 (100 * Scalar.abs (p - m)) (p + m))
    plus minus
  wilder g period contrasts

theorem adxPoints_eq
    (hg : g.AllowsProgram)
    (period : Nat) (plus minus : List (Option α)) :
    adxPoints g period plus minus =
      pure (Indicator.adxPoints period plus minus) := by
  have hcontrasts :
      pointwise
          (fun (p m : α) => g.divideOr 0 (100 * Scalar.abs (p - m)) (p + m))
          plus minus =
        pure (Indicator.pointwise directionalContrast plus minus) :=
    pointwise_eq fun p m _ _ => hg.divideOr_eq 0 _ (p + m)
  rw [adxPoints, hcontrasts, pure_bind, wilder_eq hg, Indicator.adxPoints]

def midpoints (g : Guard α) (highest lowest : List (Option α)) :
    Guarded (List (Option α)) :=
  pointwise (fun h l => g.divide (h + l) 2) highest lowest

theorem midpoints_eq (hg : g.AllowsProgram) (highest lowest : List (Option α)) :
    midpoints g highest lowest = pure (Indicator.midpoints highest lowest) := by
  have htwo : g.divides (2 : α) = true := hg.count Nat.two_pos
  refine pointwise_eq ?_
  intro h l _ _
  exact Guard.divide_eq htwo

/-! ## Oscillators -/

def changes (bars : List (Bar α)) : Guarded (List (Option α)) :=
  eachLagged 1
    (fun entry => pure (entry.2.map fun previous => entry.1 - previous))
    (closes bars)

theorem changes_eq (bars : List (Bar α)) :
    changes bars = pure (Indicator.changes bars) :=
  eachLagged_eq (fun _ => rfl) (closes bars)

def relativeStrength (g : Guard α) (gain loss : α) : Guarded α :=
  if same loss 0 then pure 100
  else do
    let ratio ← g.divide gain loss
    let share ← g.divide 100 (1 + ratio)
    pure (100 - share)

def rsiPoints (g : Guard α) (period : Nat) (bars : List (Bar α)) :
    Guarded (List (Option α)) := do
  let moves ← changes bars
  let gains ← wilder g period (moves.map fun c => c.map fun x => larger x 0)
  let losses ← wilder g period (moves.map fun c => c.map fun x => larger (-x) 0)
  pointwise (relativeStrength g) gains losses

theorem rsiPoints_eq
    (hg : g.AllowsProgram)
    (period : Nat) (bars : List (Bar α)) :
    rsiPoints g period bars = pure (Indicator.rsiPoints period bars) := by
  rw [rsiPoints, changes_eq, pure_bind, wilder_eq hg, pure_bind, wilder_eq hg,
    pure_bind]
  refine pointwise_eq fun gain loss hgain hloss => ?_
  rw [relativeStrength, Indicator.relativeStrength]
  split_ifs with hzero
  · rfl
  · rw [Guard.divide_eq (hg.not_same hzero), pure_bind,
      Guard.divide_eq (hg.strength period bars hgain hloss hzero), pure_bind]

def rateOfChangePoints (g : Guard α) (period : Nat) (bars : List (Bar α)) :
    Guarded (List (Option α)) :=
  if period = 0 then pure (bars.map fun _ => none)
  else eachLagged period (fun entry => match entry.2 with
    | none => pure none
    | some p =>
        if same p 0 then pure none
        else do
          let share ← g.divide (entry.1 - p) p
          pure (some (share * 100))) (closes bars)

theorem rateOfChangePoints_eq
    (hg : g.AllowsProgram)
    (period : Nat) (bars : List (Bar α)) :
    rateOfChangePoints g period bars =
      pure (Indicator.rateOfChangePoints period bars) := by
  rw [rateOfChangePoints, Indicator.rateOfChangePoints]
  split_ifs
  · rfl
  · refine eachLagged_eq ?_ (closes bars)
    rintro ⟨close, earlier⟩
    cases earlier with
    | none => rfl
    | some p =>
        simp only [Option.bind_some]
        split_ifs with hzero
        · rfl
        · rw [Guard.divide_eq (hg.not_same hzero), pure_bind]

/-- The points of two series at one place, if both are there. -/
def bothAt (xs ys : List (Option α)) (place : Nat) :
    Guarded (Option (α × α)) := do
  let x ← read xs place
  let y ← read ys place
  pure (bothDefined Prod.mk x y)

omit [Scalar α] in
theorem bothAt_eq {xs ys : List (Option α)} {place : Nat}
    {both : Option (α × α)}
    (h : (Indicator.pointwise Prod.mk xs ys)[place]? = some both) :
    bothAt xs ys place = pure both := by
  rw [Indicator.pointwise, List.getElem?_zipWith_eq_some] at h
  obtain ⟨x, y, hx, hy, rfl⟩ := h
  rw [bothAt, read_eq hx, pure_bind, read_eq hy, pure_bind]

/-- Where a close lies between the extremes of the window of highs and lows that
ends at its bar. -/
def withinRange (position : α → α → α → Guarded α) (period : Nat)
    (bars : List (Bar α)) : Guarded (List (Option α)) := do
  let greatest ← highest period (highs bars)
  let least ← lowest period (lows bars)
  each (fun place b => do
    let extremes ← bothAt greatest least place
    match extremes with
    | none => pure none
    | some (h, l) =>
        if same (h - l) 0 then pure none
        else some <$> position b.close h l) bars

theorem withinRange_eq {position : α → α → α → Guarded α}
    {ideal : α → α → α → α}
    (hposition :
      ∀ c h l, ¬ same (h - l) 0 = true → position c h l = pure (ideal c h l))
    (period : Nat) (bars : List (Bar α)) :
    withinRange position period bars =
      pure (Indicator.withinRange ideal bars
          (Window.highest period (highs bars))
          (Window.lowest period (lows bars))) := by
  have hhighest := ((causal_highest period).comp causal_highs).length_eq bars
  have hlowest := ((causal_lowest period).comp causal_lows).length_eq bars
  rw [withinRange, highest_eq, pure_bind, lowest_eq, pure_bind]
  generalize Window.highest period (highs bars) = greatest at *
  generalize Window.lowest period (lows bars) = least at *
  have hpoints : Indicator.withinRange ideal bars greatest least =
      (bars.zip (Indicator.pointwise Prod.mk greatest least)).map fun entry =>
        entry.2.bind fun range =>
          if same (range.1 - range.2) 0 then none
          else some (ideal entry.1.close range.1 range.2) := by
    rw [Indicator.withinRange, List.zip, List.map_zipWith]
  rw [hpoints]
  refine each_eq_map (by simp [Indicator.pointwise, hhighest, hlowest]) ?_
  rintro place b ⟨b', extremes⟩ hb hentry
  obtain ⟨hb', hextremes⟩ := List.getElem?_zip_eq_some.mp hentry
  obtain rfl := Option.some.inj (hb.symm.trans hb')
  rw [bothAt_eq hextremes, pure_bind]
  cases extremes with
  | none => rfl
  | some extremes =>
      obtain ⟨h, l⟩ := extremes
      simp only [Option.bind_some]
      split_ifs with hzero
      · rfl
      · rw [hposition _ h l hzero, map_pure]

def stochasticPoints (g : Guard α) :
    Nat → List (Bar α) → Guarded (List (Option α)) :=
  withinRange fun c h l => g.divide (100 * (c - l)) (h - l)

theorem stochasticPoints_eq
    (hg : g.AllowsProgram)
    (period : Nat) (bars : List (Bar α)) :
    stochasticPoints g period bars =
      pure (Indicator.stochasticPoints period bars) := by
  refine withinRange_eq ?_ period bars
  intro c h l hrange
  exact Guard.divide_eq (hg.not_same hrange)

def williamsRPoints (g : Guard α) :
    Nat → List (Bar α) → Guarded (List (Option α)) :=
  withinRange fun c h l => g.divide (-100 * (h - c)) (h - l)

theorem williamsRPoints_eq
    (hg : g.AllowsProgram)
    (period : Nat) (bars : List (Bar α)) :
    williamsRPoints g period bars =
      pure (Indicator.williamsRPoints period bars) := by
  refine withinRange_eq ?_ period bars
  intro c h l hrange
  exact Guard.divide_eq (hg.not_same hrange)

/-- The point at a place, from the mean of the window that ends there. -/
def cciPoint (g : Guard α) (period : Nat) (typical : List α) (place : Nat) :
    Option α → Guarded (Option α)
  | none => pure none
  | some center => do
      let first ← back (place + 1) period
      let window ← slice typical first place
      let distance ← g.divide
        (sum (window.map fun x => Scalar.abs (x - center))) (ofCount period)
      if same distance 0 then pure (some 0)
      else
        let x ← read typical place
        some <$> g.divide (x - center) (0.015 * distance)

def cciPoints (g : Guard α) (period : Nat) (bars : List (Bar α)) :
    Guarded (List (Option α)) := do
  let typical ← bars.mapM (typicalPrice g)
  let means ← mean g period (typical.map some)
  each (cciPoint g period typical) means

theorem stateAfter_cciStep (period : Nat) (entries : List (α × Option α)) :
    stateAfter (cciStep period) [] entries =
      (entries.map Prod.fst).reverse.take period := by
  induction entries using List.reverseRecOn with
  | nil => simp
  | append_singleton entries entry ih =>
      rw [stateAfter_concat, ih, List.map_append, List.map_singleton,
        ← take_cons_take_reverse]
      rfl

/-- A mean is there only where the window has come to its full width. -/
theorem le_of_mean_getElem? {period place : Nat} {xs : List α} {center : α}
    (h : (Window.mean period xs)[place]? = some (some center)) :
    0 < period ∧ period ≤ place + 1 := by
  by_cases hperiod : 0 < period
  · have hfull := (definedFrom_mean hperiod xs place _ h).mp rfl
    exact ⟨hperiod, by omega⟩
  · rw [Window.mean, if_pos (Nat.eq_zero_of_not_pos hperiod), undefined,
      List.getElem?_map, Option.map_eq_some_iff] at h
    obtain ⟨_, -, hnone⟩ := h
    cases hnone

theorem cciPoints_eq
    (hg : g.AllowsProgram)
    (period : Nat) (bars : List (Bar α)) :
    cciPoints g period bars = pure (Indicator.cciPoints period bars) := by
  rw [cciPoints, mapM_eq (typicalPrice_eq hg), pure_bind, mean_eq hg, pure_bind,
    acrossGaps_map_some, Indicator.cciPoints, each]
  generalize bars.map Bar.typicalPrice = typical
  have hmeans : (Window.mean period typical).length = typical.length :=
    (causal_mean period).length_eq typical
  change loop _ ((fun _ : List α => ()) []) 0 _ = _
  refine loop_eq_sweep (fun _ : List α => ()) (by simp [hmeans]) ?_
  rintro place center ⟨x, center'⟩ recent hcenter hentry hrecent
  obtain ⟨hx, hcenter'⟩ := List.getElem?_zip_eq_some.mp hentry
  obtain rfl := Option.some.inj (hcenter.symm.trans hcenter')
  rw [stateAfter_cciStep, List.map_take, List.map_fst_zip hmeans.ge] at hrecent
  subst hrecent
  rw [Nat.zero_add]
  cases center with
  | none => rfl
  | some center =>
      obtain ⟨hperiod, hfull⟩ := le_of_mean_getElem? hcenter
      rw [cciPoint, back_eq hfull, pure_bind, slice_eq period hx, pure_bind,
        Guard.divide_eq (hg.count hperiod), pure_bind, ← meanDistance]
      simp only [cciStep, Option.map_some]
      split_ifs with hzero
      · rfl
      · rw [read_eq hx, pure_bind,
          Guard.divide_eq (hg.share_of_not_same hzero), map_pure, pure_bind]

def relativeClose (g : Guard α) (close highest lowest : α) : Guarded α :=
  if same (highest - lowest) 0 then pure 0
  else do
    let share ← g.divide (close - lowest) (highest - lowest)
    pure (share - 0.5)

def fisherAdvance (g : Guard α) (s : FisherState α) (close highest lowest : α) :
    Guarded (FisherState α) := do
  let relative ← relativeClose g close highest lowest
  let position ← clampTo (-0.999) 0.999 (0.66 * relative + 0.67 * s.position)
  let odds ← g.divide (1 + position) (1 - position)
  let level ← g.logarithm odds
  pure ⟨position, 0.5 * level + 0.5 * s.value⟩

theorem fisherAdvance_eq
    (hg : g.AllowsProgram)
    (s : FisherState α) (close highest lowest : α) :
    fisherAdvance g s close highest lowest =
      pure (Indicator.fisherAdvance s close highest lowest) := by
  have hrelative : relativeClose g close highest lowest =
    pure (if same (highest - lowest) 0 then 0
      else (close - lowest) / (highest - lowest) - 0.5) := by
    rw [relativeClose]
    split_ifs with hzero
    · rfl
    · rw [Guard.divide_eq (hg.not_same hzero), pure_bind]
  rw [fisherAdvance, hrelative, pure_bind, clampTo, if_pos hg.clamp_interval,
    pure_bind, Guard.divide_eq (hg.clamp_complement _), pure_bind,
    Guard.logarithm_eq (hg.clamp_odds _), pure_bind]
  rfl

def fisherStep (g : Guard α) (highest lowest : List (Option α))
    (s : FisherState α) (place : Nat) (close : α) :
    Guarded (FisherState α × Option α) := do
  let extremes ← bothAt highest lowest place
  match extremes with
  | none => pure (s, none)
  | some (h, l) => do
      let next ← fisherAdvance g s close h l
      pure (next, some next.value)

def fisherPoints (g : Guard α) (period : Nat) (bars : List (Bar α)) :
    Guarded (List (Option α)) := do
  let greatest ← highest period (closes bars)
  let least ← lowest period (closes bars)
  loop (fisherStep g greatest least) ⟨0, 0⟩ 0 (closes bars)

theorem fisherPoints_eq
    (hg : g.AllowsProgram)
    (period : Nat) (bars : List (Bar α)) :
    fisherPoints g period bars = pure (Indicator.fisherPoints period bars) := by
  have hextremes :
      (Indicator.pointwise Prod.mk (Window.highest period (closes bars))
          (Window.lowest period (closes bars))).length =
        (closes bars).length := by
    simp [Indicator.pointwise, (causal_highest period).length_eq,
      (causal_lowest period).length_eq]
  rw [fisherPoints, highest_eq, pure_bind, lowest_eq, pure_bind]
  refine loop_eq_sweep id (by simp [hextremes]) ?_
  rintro place close ⟨close', extremes⟩ s hclose hentry -
  obtain ⟨hclose', hboth⟩ := List.getElem?_zip_eq_some.mp hentry
  obtain rfl := Option.some.inj (hclose.symm.trans hclose')
  rw [Nat.zero_add, fisherStep, bothAt_eq hboth, pure_bind]
  cases extremes with
  | none => rfl
  | some extremes =>
      obtain ⟨h, l⟩ := extremes
      simp only [fisherAdvance_eq hg, pure_bind]
      rfl

/-! ## Volume -/

def onBalanceVolumePoints : List (Bar α) → Guarded (List (Option α)) :=
  loopLagged 1 (fun balance entry => pure (balanceStep balance entry)) 0

theorem onBalanceVolumePoints_eq (bars : List (Bar α)) :
    onBalanceVolumePoints bars = pure (Indicator.onBalanceVolumePoints bars) :=
  loopLagged_eq (fun _ _ => rfl) 0 bars

def vwapStep (g : Guard α) (period : Nat) (s : VwapState α)
    (entry : Bar α × Option (Bar α)) : Guarded (VwapState α × Option α) := do
  let b := entry.1
  let count := s.count + 1
  let typical ← typicalPrice g b
  let weighted := s.weighted + typical * b.volumeOrZero
  let volume := s.volume + b.volumeOrZero
  let next ← match entry.2 with
    | none => pure (⟨count, weighted, volume⟩ : VwapState α)
    | some old => do
        let typical ← typicalPrice g old
        pure ⟨count, weighted - typical * old.volumeOrZero,
          volume - old.volumeOrZero⟩
  let point ← whenever (period ≤ count ∧ 0 < next.volume)
    (g.divide next.weighted next.volume)
  pure (next, point)

def vwapPoints (g : Guard α) (period : Nat) (bars : List (Bar α)) :
    Guarded (List (Option α)) :=
  if period = 0 then pure (bars.map fun _ => none)
  else loopLagged period (vwapStep g period) ⟨0, 0, 0⟩ bars

theorem vwapStep_eq (hg : g.AllowsProgram) (period : Nat) (s : VwapState α)
    (entry : Bar α × Option (Bar α)) :
    vwapStep g period s entry = pure (Indicator.vwapStep period s entry) := by
  obtain ⟨b, earlier⟩ := entry
  cases earlier with
  | none =>
      simp only [vwapStep, typicalPrice_eq hg, pure_bind]
      rw [whenever_eq fun h => Guard.divide_eq (hg.positive h.2), pure_bind]
      rfl
  | some old =>
      simp only [vwapStep, typicalPrice_eq hg, pure_bind]
      rw [whenever_eq fun h => Guard.divide_eq (hg.positive h.2), pure_bind]
      rfl

theorem vwapPoints_eq
    (hg : g.AllowsProgram)
    (period : Nat) (bars : List (Bar α)) :
    vwapPoints g period bars = pure (Indicator.vwapPoints period bars) := by
  rw [vwapPoints, Indicator.vwapPoints]
  split_ifs
  · rfl
  · exact loopLagged_eq (vwapStep_eq hg period) _ bars

def closePosition (g : Guard α) (b : Bar α) : Guarded α :=
  g.divideOr 0 (b.close - b.low - (b.high - b.close)) (b.high - b.low)

def accumulationPoints (g : Guard α) :
    List (Bar α) → Guarded (List (Option α)) :=
  loop (fun total _ b => do
    let position ← closePosition g b
    let next := total + position * b.volumeOrZero
    pure (next, some next)) 0 0

theorem accumulationPoints_eq (hg : g.AllowsProgram) (bars : List (Bar α)) :
    accumulationPoints g bars = pure (Indicator.accumulationPoints bars) := by
  refine loop_eq_sweep_self id ?_
  intro place b total _ _
  have hposition : closePosition g b = pure (Indicator.closePosition b) :=
    hg.divideOr_eq 0 _ _
  rw [hposition, pure_bind]
  rfl

/-! ## Trend reversals -/

def stopStep (bars : List (Bar α)) (s : StopState α) (place : Nat) (_ : Bar α) :
    Guarded (StopState α × Option (StopState α)) := do
  let b ← read bars place
  let previous ← readBack bars place 1
  let earlier ← readBack bars place 2
  let next := s.next earlier previous b
  pure (next, some next)

def parabolicStopTrace (bars : List (Bar α)) :
    Guarded (List (Option (StopState α))) :=
  if bars.length < 2 then pure (bars.map fun _ => none)
  else do
    let first ← read bars 0
    let second ← read bars 1
    let start := StopState.initial first second
    let rest ← loop (stopStep bars) start 2 (bars.drop 2)
    pure (none :: some start :: rest)

def parabolicStopPoints (bars : List (Bar α)) : Guarded (List (Option α)) := do
  let trace ← parabolicStopTrace bars
  pure (trace.map fun s => s.map StopState.stop)

/-- The walk takes along the two bars before the rest of the list. -/
theorem stateAfter_stopWalk (start : StopState α) (first second : Bar α)
    (rest : List (Bar α)) :
    (first :: second :: rest)[rest.length]? =
        some (stateAfter StopWalk.step ⟨start, first, second⟩ rest).earlier ∧
      (second :: rest)[rest.length]? =
        some (stateAfter StopWalk.step
            ⟨start, first, second⟩ rest).previous := by
  induction rest using List.reverseRecOn with
  | nil => exact ⟨rfl, rfl⟩
  | append_singleton rest b ih =>
      rw [stateAfter_concat, List.length_append, List.length_singleton,
        List.getElem?_cons_succ, List.getElem?_cons_succ,
        List.getElem?_concat_length, ← List.cons_append,
        List.getElem?_append_left (by simp), ih.2]
      exact ⟨rfl, rfl⟩

theorem stopLoop_eq (start : StopState α) (first second : Bar α)
    (rest : List (Bar α)) :
    loop (stopStep (first :: second :: rest)) start 2 rest =
      pure (sweep StopWalk.step ⟨start, first, second⟩ rest) := by
  change
    loop _ ((fun w : StopWalk α => w.state) ⟨start, first, second⟩) 2 rest = _
  refine loop_eq_sweep_self (fun w : StopWalk α => w.state) ?_
  intro i b w hb hw
  have hi := (List.getElem?_eq_some_iff.mp hb).1
  obtain ⟨hearlier, hprevious⟩ :=
    stateAfter_stopWalk start first second (rest.take i)
  have hfront : first :: second :: rest.take i =
      (first :: second :: rest).take (i + 2) := rfl
  have hback : second :: rest.take i = (second :: rest).take (i + 1) := rfl
  rw [← hw, List.length_take_of_le hi.le, hfront,
    List.getElem?_take_of_lt (by omega)] at hearlier
  rw [← hw, List.length_take_of_le hi.le, hback,
    List.getElem?_take_of_lt (by omega)] at hprevious
  have hlast : (first :: second :: rest)[2 + i]? = some b := by
    rwa [Nat.add_comm]
  have hone : (first :: second :: rest)[2 + i - 1]? = some w.previous := by
    have hplace : 2 + i - 1 = i + 1 := by omega
    rwa [hplace]
  have htwo : (first :: second :: rest)[2 + i - 2]? = some w.earlier := by
    rwa [Nat.add_sub_cancel_left]
  rw [stopStep, read_eq hlast, pure_bind, readBack_eq (by omega) hone,
    pure_bind, readBack_eq (by omega) htwo, pure_bind]
  rfl

theorem parabolicStopTrace_eq (bars : List (Bar α)) :
    parabolicStopTrace bars = pure (Indicator.parabolicStopTrace bars) := by
  match bars with
  | [] => rfl
  | [_] => rfl
  | first :: second :: rest =>
      have hlength : ¬ (first :: second :: rest).length < 2 := by simp
      rw [parabolicStopTrace, if_neg hlength, read_eq rfl, pure_bind,
        read_eq rfl, pure_bind]
      simp only [List.drop_succ_cons, List.drop_zero, stopLoop_eq, pure_bind]
      rfl

theorem parabolicStopPoints_eq (bars : List (Bar α)) :
    parabolicStopPoints bars = pure (Indicator.parabolicStopPoints bars) := by
  rw [parabolicStopPoints, parabolicStopTrace_eq, pure_bind,
    Indicator.parabolicStopPoints]

/-- One bar with its range.  The close before it is read only once the trend has
a state. -/
def trendStep (g : Guard α) (width : α) (bars : List (Bar α))
    (s : Option (TrendState α)) (place : Nat) (entry : Bar α × Option α) :
    Guarded (Option (TrendState α) × Option (TrendState α)) :=
  match entry.2 with
  | none => pure (s, none)
  | some range => do
      let b := entry.1
      let middle ← medianPrice g b
      let basicUpper := middle + width * range
      let basicLower := middle - width * range
      let following ← match s with
        | none =>
            pure (⟨basicUpper, basicLower, decide (middle ≤ b.close)⟩ :
                TrendState α)
        | some s => do
            let previous ← readBack bars place 1
            let upper :=
              if basicUpper < s.upper ∨ s.upper < previous.close then basicUpper
              else s.upper
            let lower :=
              if s.lower < basicLower ∨ previous.close < s.lower then basicLower
              else s.lower
            pure ⟨upper, lower,
              if s.rising then decide (lower ≤ b.close)
              else decide (upper < b.close)⟩
      pure (some following, some following)

def superTrendPoints (g : Guard α) (width : Factor α) (bars : List (Bar α))
    (ranges : List (Option α)) : Guarded (List (Option α)) := do
  let trace ← loop (trendStep g width.value bars) none 0 (bars.zip ranges)
  pure (trace.map fun s => s.map TrendState.line)

theorem superTrendPoints_eq
    (hg : g.AllowsProgram)
    (width : Factor α) (bars : List (Bar α)) (ranges : List (Option α)) :
    superTrendPoints g width bars ranges =
      pure (Indicator.superTrendPoints width bars ranges) := by
  have htrace : loop (trendStep g width.value bars) none 0 (bars.zip ranges) =
      pure (superTrendTrace width bars ranges) := by
    refine loop_eq_sweep id (by simp) ?_
    rintro place ⟨b, range⟩ ⟨⟨b', earlier⟩, range'⟩ s hx hentry hs
    obtain ⟨hb, hrange⟩ := List.getElem?_zip_eq_some.mp hx
    obtain ⟨hlagged, hrange'⟩ := List.getElem?_zip_eq_some.mp hentry
    obtain rfl := Option.some.inj (hrange.symm.trans hrange')
    rw [withLag_getElem?, hb, Option.map_some, Option.some.injEq,
      Prod.mk.injEq] at hlagged
    obtain ⟨rfl, hearlier⟩ := hlagged
    cases range with
    | none => rfl
    | some range =>
        simp only [id, trendStep, medianPrice_eq hg, pure_bind, Nat.zero_add]
        cases s with
        | none => rfl
        | some s =>
            have hplace : 1 ≤ place := by
              by_contra hfirst
              rw [Nat.eq_zero_of_not_pos hfirst] at hs
              cases hs
            have hprevious :=
              List.getElem?_eq_getElem (l := bars) (i := place - 1)
                (by have hlt := (List.getElem?_eq_some_iff.mp hb).1; omega)
            rw [if_pos hplace, hprevious] at hearlier
            subst hearlier
            simp only [readBack_eq hplace hprevious, pure_bind]
            rfl
  rw [superTrendPoints, htrace, pure_bind, Indicator.superTrendPoints]

end Guarded
end RuleBacktest
