import RuleBacktest.Proofs.Compilation.Meaning
import RuleBacktest.Proofs.Scale.Rule
import RuleBacktest.Proofs.Trading.Backtest
import RuleBacktest.Proofs.Trading.MarkToMarket
import RuleBacktest.Proofs.Trading.NoLookAhead

/-!
# Backtests in another unit of money

The prices of a series are multiplied by a positive number, and so is the
capital.  Rules whose comparisons do not depend on the unit hold at the same
indices, so the strategy trades at the same bars. The profits and the values of
the account are then multiplied by that number as well, and every figure that is
a quotient of two amounts stays as it is.
-/

namespace RuleBacktest

open Scalar Performance

noncomputable section

variable {c : ℝ}

/-! ## Amounts of money -/

/-- The series with its prices multiplied by `c`. -/
def PriceSeries.scaled (c : ℝ) (series : PriceSeries ℝ) : PriceSeries ℝ where
  symbol := series.symbol
  bars := series.bars.map (Bar.scaled c)
  ordered := by simpa [List.pairwise_map] using series.ordered
  finite b _ := by simp [Bar.isFinite, Option.all_eq_true]

def BacktestSettings.scaled (c : ℝ) (settings : BacktestSettings ℝ) :
    BacktestSettings ℝ :=
  { settings with capital := c * settings.capital }

def OpenPosition.scaled (c : ℝ) (p : OpenPosition ℝ) : OpenPosition ℝ :=
  { p with entryPrice := c * p.entryPrice }

def ClosedTrade.scaled (c : ℝ) (t : ClosedTrade ℝ) : ClosedTrade ℝ :=
  { t with entryPrice := c * t.entryPrice, exitPrice := c * t.exitPrice }

/-- The record of trades at the same indices for prices multiplied by `c`. -/
def TradingRecord.scaled (c : ℝ) (r : TradingRecord ℝ) : TradingRecord ℝ :=
  ⟨r.closed.map (ClosedTrade.scaled c), r.position.map (OpenPosition.scaled c)⟩

def EquityPoint.scaled (c : ℝ) (p : EquityPoint ℝ) : EquityPoint ℝ :=
  { p with value := c * p.value }

def TradeRow.scaled (c : ℝ) (row : TradeRow ℝ) : TradeRow ℝ :=
  { row with
    entryPrice :=
      c * row.entryPrice, exitPrice :=
        c * row.exitPrice, profit := c * row.profit }

/-- The performance with the profits, the prices and the values of the account
multiplied by `c`.  The win rate, the largest decline, the Sharpe ratio and the
returns in percent are as before. -/
def Performance.scaled (c : ℝ) (p : Performance ℝ) : Performance ℝ :=
  { p with
    profitLoss := c * p.profitLoss
    equityCurve := p.equityCurve.map (EquityPoint.scaled c)
    trades := p.trades.map (TradeRow.scaled c) }

/-! ## Trading -/

theorem Strategy.tradeAt_scaled {s s' : Strategy ℝ} {index : Nat}
    (hentry : s'.entry.holds index = s.entry.holds index)
    (hexit : s'.exit.holds index = s.exit.holds index)
    (r : TradingRecord ℝ) (price : ℝ) :
    s'.tradeAt (r.scaled c) index (c * price) =
      (s.tradeAt r index price).scaled c := by
  rcases s.tradeAt_cases r index price with
    ⟨hflat, hholds, hstep⟩ | ⟨p, hopen, hholds, hstep⟩ | ⟨hflat, hholds, hstep⟩
      | ⟨p, hopen, hholds, hstep⟩
  · rw [hstep]
    simp [tradeAt, TradingRecord.scaled, TradingRecord.isFlat,
      TradingRecord.enter?, hflat, hentry, hholds, OpenPosition.scaled]
  · rw [hstep]
    simp [tradeAt, TradingRecord.scaled, TradingRecord.isFlat,
      TradingRecord.leave?, hopen, hexit, hholds, OpenPosition.scaled,
      ClosedTrade.scaled]
  · rw [hstep]
    simp [tradeAt, TradingRecord.scaled, TradingRecord.isFlat, hflat, hentry,
      hholds]
  · rw [hstep]
    simp [tradeAt, TradingRecord.scaled, TradingRecord.isFlat, hopen, hexit,
      hholds]

theorem Strategy.trade_scaled {s s' : Strategy ℝ}
    (hentry : ∀ index, s'.entry.holds index = s.entry.holds index)
    (hexit : ∀ index, s'.exit.holds index = s.exit.holds index)
    (bars : List (Bar ℝ)) :
    s'.trade (bars.map (Bar.scaled c)) = (s.trade bars).scaled c := by
  induction bars using List.reverseRecOn with
  | nil => rfl
  | append_singleton bars b ih =>
      rw [List.map_append, List.map_singleton, trade_append_singleton,
        trade_append_singleton, ih, List.length_map, Bar.scaled_close]
      exact tradeAt_scaled (hentry _) (hexit _) _ _

/-- The compiled rules hold where the trees hold, which is at the same indices
in both units. -/
theorem Strategy.ofRules_scaled
    (hc : 0 < c)
    {bars : List (Bar ℝ)} {entry exit : RuleGroup} {s : Strategy ℝ}
    (hentry : ∀ leaf ∈ entry.leaves, leaf.Commensurable)
    (hexit : ∀ leaf ∈ exit.leaves, leaf.Commensurable)
    (hs : ofRules bars entry exit = .ok s) :
    ∃ s',
      ofRules (bars.map (Bar.scaled c)) entry exit = .ok s' ∧
      (∀ index, s'.entry.holds index = s.entry.holds index) ∧
      ∀ index, s'.exit.holds index = s.exit.holds index := by
  obtain ⟨s', hs'⟩ :=
    (ofRules_sameOutcome bars (bars.map (Bar.scaled c)) entry exit).exists_ok hs
  refine ⟨s', hs', ?_, ?_⟩ <;>
    intro index <;>
    rw [ofRules_eq_uncached] at hs hs'
  · rw [(holds_uncached hs' index).1, (holds_uncached hs index).1,
      entry.holdsAt_scaled bars hc hentry]
  · rw [(holds_uncached hs' index).2, (holds_uncached hs index).2,
      exit.holdsAt_scaled bars hc hexit]

theorem backtestRecord_scaled
    (hc : 0 < c)
    (series : PriceSeries ℝ) {entry exit : Option RulesConfig}
    (hentry : ∀ g, RulesConfig.groupOf entry = .ok g →
      ∀ leaf ∈ g.leaves, leaf.Commensurable)
    (hexit : ∀ g, RulesConfig.groupOf exit = .ok g →
      ∀ leaf ∈ g.leaves, leaf.Commensurable) :
    backtestRecord (series.scaled c) entry exit =
      (backtestRecord series entry exit).map (TradingRecord.scaled c) := by
  by_cases hbars : series.bars = []
  · simp [backtestRecord, PriceSeries.scaled, hbars, Except.map]
  · have hscaled : (series.scaled c).bars ≠ [] := by
      simpa [PriceSeries.scaled] using hbars
    cases hg : RulesConfig.groupOf entry with
    | error e =>
        simp [backtestRecord, hbars, hscaled, hg, bind, Except.bind, Except.map]
    | ok g =>
        cases hg' : RulesConfig.groupOf exit with
        | error e =>
            simp [backtestRecord, hbars, hscaled, hg, hg', bind, Except.bind,
              Except.map]
        | ok g' =>
            cases hs : Strategy.ofRules series.bars g g' with
            | error e =>
                have hs' :=
                  (Strategy.ofRules_sameOutcome (series.scaled c).bars
                    series.bars g g').error_iff e |>.mpr hs
                simp [backtestRecord, hbars, hscaled, hg, hg', hs, hs', bind,
                  Except.bind, Except.map]
            | ok s =>
                obtain ⟨s', hs', henter, hleave⟩ :=
                  Strategy.ofRules_scaled hc (hentry g hg) (hexit g' hg') hs
                have htrade :=
                  Strategy.trade_scaled (c := c) henter hleave series.bars
                rw [backtestRecord_eq_ok.mpr
                    ⟨hbars, g, g', s, hg, hg', hs, rfl⟩]
                exact backtestRecord_eq_ok.mpr
                  ⟨hscaled, g, g', s', hg, hg', hs', htrade⟩

/-! ## Performance -/

namespace ClosedTrade

@[simp] theorem scaled_entryIndex (c : ℝ) (t : ClosedTrade ℝ) :
    (t.scaled c).entryIndex = t.entryIndex := rfl

@[simp] theorem scaled_exitIndex (c : ℝ) (t : ClosedTrade ℝ) :
    (t.scaled c).exitIndex = t.exitIndex := rfl

theorem profit_scaled (c : ℝ) (t : ClosedTrade ℝ) :
    (t.scaled c).profit = c * t.profit := by
  simp only [profit, scaled]
  exact (mul_sub c t.exitPrice t.entryPrice).symm

theorem returnPercent_scaled (hc : 0 < c) (t : ClosedTrade ℝ) :
    (t.scaled c).returnPercent = t.returnPercent := by
  simp only [returnPercent, profit_scaled]
  simp [scaled, hc.ne', mul_div_mul_left]

theorem isWin_scaled (hc : 0 < c) (t : ClosedTrade ℝ) :
    (t.scaled c).isWin = t.isWin := by
  simp [isWin, profit_scaled, hc]

end ClosedTrade

namespace Performance

theorem settle_scaled (c : ℝ) (index : Nat) (realised : ℝ)
    (pending : List (ClosedTrade ℝ)) :
    settle index (c * realised) (pending.map (ClosedTrade.scaled c)) =
      (settle index realised pending).map (c * ·)
        (List.map (ClosedTrade.scaled c)) := by
  induction pending generalizing realised with
  | nil => rfl
  | cons t pending ih =>
      by_cases hleft : t.exitIndex ≤ index
      · simp [settle, hleft, ClosedTrade.profit_scaled, ← mul_add, ih]
      · simp [settle, hleft]

theorem holding_scaled (c : ℝ) (index : Nat) (price : ℝ)
    (pending : List (ClosedTrade ℝ)) (position : Option (OpenPosition ℝ)) :
    holding index (c * price) (pending.map (ClosedTrade.scaled c))
        (position.map (OpenPosition.scaled c)) =
      c * holding index price pending position := by
  have hnext : ((pending.map (ClosedTrade.scaled c)).head?.filter
      fun t => decide (t.entryIndex ≤ index)) =
        (pending.head?.filter fun t => decide (t.entryIndex ≤ index)).map
          (ClosedTrade.scaled c) := by
    rw [List.head?_map, Option.filter_map]
    rfl
  have hopen :
      ((position.map (OpenPosition.scaled c)).filter fun p =>
          decide (p.entryIndex ≤ index)) =
        (position.filter fun p => decide (p.entryIndex ≤ index)).map
          (OpenPosition.scaled c) := by
    rw [Option.filter_map]
    rfl
  rw [holding, holding, hnext, hopen]
  cases pending.head?.filter fun t => decide (t.entryIndex ≤ index) with
  | some t => exact (mul_sub c price t.entryPrice).symm
  | none =>
      cases position.filter fun p => decide (p.entryIndex ≤ index) with
      | some p => exact (mul_sub c price p.entryPrice).symm
      | none => simp

def Account.scaled (c : ℝ) (a : Account ℝ) : Account ℝ :=
  ⟨a.index, c * a.realised, a.pending.map (ClosedTrade.scaled c), c * a.noise⟩

theorem Account.step_scaled (c : ℝ) {settings : BacktestSettings ℝ}
    (hnoise : settings.noiseSeed = none)
    (position : Option (OpenPosition ℝ)) (a : Account ℝ) (price : ℝ) :
    step (settings.scaled c) (position.map (OpenPosition.scaled c)) (a.scaled c)
        (c * price) =
      (step settings position a price).map (scaled c) (c * ·) := by
  simp [step, scaled, BacktestSettings.scaled, hnoise, settle_scaled,
    holding_scaled, mul_add]

theorem equityValues_scaled (c : ℝ) {settings : BacktestSettings ℝ}
    (hnoise : settings.noiseSeed = none)
    (r : TradingRecord ℝ) (closes : List ℝ) :
    equityValues (settings.scaled c) (r.scaled c) (closes.map (c * ·)) =
      (equityValues settings r closes).map (c * ·) := by
  unfold equityValues
  rw [← sweep_map (Account.step_scaled c hnoise r.position)]
  simp [Account.scaled, TradingRecord.scaled]

theorem declineStep_scaled (hc : 0 < c) (s : ℝ × ℝ) (value : ℝ) :
    declineStep (c * s.1, s.2) (c * value) =
      (declineStep s value).map (c * ·) id := by
  by_cases hpeak : s.1 < value
  · simp [declineStep, hpeak, mul_lt_mul_iff_right₀ hc]
  · by_cases hpositive : 0 < s.1
    · simp [declineStep, hpeak, hpositive, hc, mul_lt_mul_iff_right₀ hc,
        ← mul_sub, mul_div_mul_left, hc.ne']
    · simp [declineStep, hpeak, hpositive, hc, mul_lt_mul_iff_right₀ hc,
        Prod.map]

theorem maxDrawdownOf_scaled (hc : 0 < c) (values : List ℝ) :
    maxDrawdownOf (values.map (c * ·)) = maxDrawdownOf values := by
  have hfold (s : ℝ × ℝ) :
      (values.map (c * ·)).foldl declineStep (s.map (c * ·) id) =
        (values.foldl declineStep s).map (c * ·) id := by
    induction values generalizing s with
    | nil => rfl
    | cons value values ih =>
        rw [List.map_cons, List.foldl_cons, List.foldl_cons, ← ih,
          ← declineStep_scaled hc]
        rfl
  cases values with
  | nil => rfl
  | cons first values =>
      have hdecline := congrArg Prod.snd (hfold (first, 0))
      simpa [maxDrawdownOf] using hdecline

theorem returnsOf_scaled (hc : 0 < c) (values : List ℝ) :
    returnsOf (values.map (c * ·)) = returnsOf values := by
  simp [returnsOf, ← List.map_tail, List.zipWith_map, ← mul_sub, hc,
    mul_div_mul_left, hc.ne']

theorem sharpeRatioOf_scaled (hc : 0 < c) (values : List ℝ) (ratePerBar : ℝ) :
    sharpeRatioOf (values.map (c * ·)) ratePerBar =
      sharpeRatioOf values ratePerBar := by
  simp only [sharpeRatioOf, returnsOf_scaled hc, List.length_map]

theorem curve_scaled (c : ℝ) (values : List ℝ) (bars : List (Bar ℝ)) :
    curve (values.map (c * ·)) (bars.map (Bar.scaled c)) =
      (curve values bars).map (EquityPoint.scaled c) := by
  simp [curve, List.zip_map, List.zipIdx_map, EquityPoint.scaled]

theorem tradeRow_scaled
    (hc : 0 < c)
    (series : PriceSeries ℝ) (t : ClosedTrade ℝ) :
    tradeRow (series.scaled c) (t.scaled c) = (tradeRow series t).scaled c := by
  have hdate (index : Nat) : dateAt (series.scaled c) index =
      dateAt series index := by
    simp [dateAt, PriceSeries.bar?, PriceSeries.scaled, Option.map_map,
      Function.comp_def]
  simp only [tradeRow, ClosedTrade.profit_scaled,
    ClosedTrade.returnPercent_scaled hc, hdate]
  rfl

theorem of_scaled (hc : 0 < c) (series : PriceSeries ℝ) (r : TradingRecord ℝ)
    {settings : BacktestSettings ℝ} (hnoise : settings.noiseSeed = none) :
    Performance.of (series.scaled c) (r.scaled c) (settings.scaled c) =
      (Performance.of series r settings).scaled c := by
  have hcloses : (series.scaled c).bars.map Bar.close =
      (series.bars.map Bar.close).map (c * ·) := by
    simp [PriceSeries.scaled]
  have hwins : ((r.scaled c).closed.filter ClosedTrade.isWin).length =
      (r.closed.filter ClosedTrade.isWin).length := by
    simp [TradingRecord.scaled, List.filter_map, Function.comp_def,
      ClosedTrade.isWin_scaled hc]
  have hprofit : sum ((r.scaled c).closed.map ClosedTrade.profit) =
      c * sum (r.closed.map ClosedTrade.profit) := by
    simp [TradingRecord.scaled, real_sum, Function.comp_def,
      ClosedTrade.profit_scaled, List.sum_map_mul_left]
  have htrades : (r.scaled c).closed.map (tradeRow (series.scaled c)) =
      (r.closed.map (tradeRow series)).map (TradeRow.scaled c) := by
    simp [TradingRecord.scaled, tradeRow_scaled hc]
  simp only [Performance.of, hcloses, equityValues_scaled c hnoise,
    maxDrawdownOf_scaled hc, sharpeRatioOf_scaled hc, hwins, hprofit, htrades]
  simp [Performance.scaled, TradingRecord.scaled, PriceSeries.scaled,
    BacktestSettings.scaled, curve_scaled]

end Performance

/-! ## The unit does not matter -/

/-- No comparison of the rules depends on the unit of the prices. -/
def RulesConfig.Commensurable (rules : Option RulesConfig) : Prop :=
  ∀ g, groupOf rules = .ok g → ∀ leaf ∈ g.leaves, leaf.Commensurable

/-- With all prices multiplied by a positive number, the series of an indicator
in the unit of the prices are multiplied by it where they are defined, and those
of the others are the same.  A backtest whose rules do not depend on the unit,
run without noise and with the capital multiplied as well, trades at the same
bars, and its performance is the same up to that number. -/
theorem runBacktest_in_another_unit (series : PriceSeries ℝ) (c : ℝ)
    (hc : 0 < c) :
    (∀ (i : Indicator ℝ) (requests requests' : List (CacheRequest ℝ)),
      let points :=
        ((IndicatorCache.after series.bars requests).get series.bars i).1.points
      let points' :=
        ((IndicatorCache.after (series.scaled c).bars requests').get
          (series.scaled c).bars i).1.points
      (i.isPriceLevel = true →
          points' = points.map fun (time, x) => (time, x.map (c * ·))) ∧
        (i.isPriceLevel = false → points' = points)) ∧
      ∀ (entry exit : Option RulesConfig) (settings : BacktestSettings ℝ),
          RulesConfig.Commensurable entry →
          RulesConfig.Commensurable exit →
          settings.noiseSeed = none →
          backtestRecord (series.scaled c) entry exit =
              (backtestRecord series entry exit).map (TradingRecord.scaled c) ∧
            runBacktest (series.scaled c) entry exit (settings.scaled c) =
              (runBacktest series entry exit settings).map
                (Performance.scaled c) := by
  constructor
  · intro i requests requests'
    simp only [IndicatorCache.get_after]
    rw [PriceSeries.scaled, IndicatorSeries.points_direct_scaled hc]
    constructor
    · intro hlevel
      rw [Indicator.rescale_of_isPriceLevel c hlevel]
      rfl
    · intro hlevel
      rw [Indicator.rescale_of_not_isPriceLevel c hlevel]
      simp
  · intro entry exit settings hentry hexit hnoise
    have hrecord := backtestRecord_scaled hc series hentry hexit
    refine ⟨hrecord, ?_⟩
    rw [runBacktest_eq_map_record, runBacktest_eq_map_record, hrecord]
    cases backtestRecord series entry exit with
    | error e => rfl
    | ok r => exact congrArg Except.ok (of_scaled hc series r hnoise)

/-- The change since the bar before, in percent, above sixty. -/
def RuleFields.riseAboveSixty : RuleFields where
  indicator := some "ROC"
  params := some [⟨"period", "1"⟩]
  operator := some ">"
  value := some "60"

def RulesConfig.riseAboveSixty : RulesConfig :=
  ⟨none, some [.node .riseAboveSixty none]⟩

def RuleGroup.closeAboveOpen : RuleGroup :=
  ⟨.and, [(none, .comparison ⟨⟨"CLOSE", []⟩, ">", .indicator ⟨"OPEN", []⟩⟩)]⟩

def RuleGroup.riseAboveSixty : RuleGroup :=
  ⟨.and, [(none, .comparison ⟨⟨"ROC", [⟨"period", "1"⟩]⟩, ">", .value "60"⟩)]⟩

theorem RulesConfig.groupOf_riseAboveSixty :
    groupOf (some riseAboveSixty) = .ok .riseAboveSixty := by
  have hname : Text.nonBlank? "ROC" = some "ROC" := by
    decide
  have hcomparison : RuleFields.riseAboveSixty.comparison =
      .ok ⟨⟨"ROC", [⟨"period", "1"⟩]⟩, ">", .value "60"⟩ := by
    simp [RuleFields.comparison, RuleFields.target, RuleFields.comparisonKind,
      RuleFields.riseAboveSixty, hname, Except.map]
  simp only [groupOf, toGroup, riseAboveSixty, RuleConfig.toChildren,
    RuleConfig.toChild, hcomparison, Option.getD_some]
  rfl

theorem IndicatorSpec.resolve_change :
    IndicatorSpec.resolve ⟨"ROC", [⟨"period", "1"⟩]⟩ =
      .ok (Indicator.rateOfChange 1 : Indicator ℝ) := by
  have hkey : ("ROC", Family.rateOfChange) ∈ Family.table := by
    simp [Family.table]
  have hperiod : IndicatorSpec.period ⟨"ROC", [⟨"period", "1"⟩]⟩ 12 = 1 := by
    decide +kernel
  rw [resolve_key _ hkey, Family.configure, hperiod]

theorem literalValue_sixty :
    (literalValue "60" : Except Failure ℝ) = .ok 60 := by
  have hread : Numeral.ofText? (Text.trim "60") =
      some (.finite ⟨false, 60, 0⟩) := by
    decide
  have hvalue : (ofDecimal ⟨false, 60, 0⟩ : ℝ) = 60 := by
    simp [ofDecimal]
  simp [literalValue, hread, ofNumeral?, hvalue]

theorem RulesConfig.commensurable_closeAgainstOpen (operator : String) :
    Commensurable (some (closeAgainstOpen operator)) := by
  intro g hg leaf hleaf i hi
  rw [groupOf_closeAgainstOpen] at hg
  cases hg
  simp only [RuleGroup.leaves, RuleGroup.toNode, RuleNode.leaves,
    RuleNode.leavesOf, List.append_nil, List.mem_singleton] at hleaf
  subst hleaf
  intro j hj
  rw [IndicatorSpec.resolve_close] at hi
  rw [IndicatorSpec.resolve_opening] at hj
  cases hi
  cases hj
  rfl

theorem RulesConfig.commensurable_riseAboveSixty :
    Commensurable (some riseAboveSixty) := by
  intro g hg leaf hleaf i hi
  rw [groupOf_riseAboveSixty] at hg
  cases hg
  simp only [RuleGroup.riseAboveSixty, RuleGroup.leaves, RuleGroup.toNode,
    RuleNode.leaves, RuleNode.leavesOf, List.append_nil,
    List.mem_singleton] at hleaf
  subst hleaf
  rw [IndicatorSpec.resolve_change] at hi
  cases hi
  rfl

/-- Whether the rules are met over the rising bars, at each of their indices. -/
theorem RuleGroup.holdsAt_rising :
    RuleGroup.holdsAt PriceSeries.rising.bars
        RuleGroup.closeAboveOpen 0 = false ∧
      RuleGroup.holdsAt PriceSeries.rising.bars
        RuleGroup.closeAboveOpen 1 = true ∧
      RuleGroup.holdsAt PriceSeries.rising.bars
        RuleGroup.riseAboveSixty 2 = true := by
  have hgreater : Operator.spelledBy? ">" = some .greater := by
    rw [← Operator.ofText?_eq_spelledBy?]
    rfl
  have hclose : (Indicator.price .close).points PriceSeries.rising.bars =
      [some 2, some 3, some 5] := by
    rw [Indicator.points_of_ofBars rfl]
    rfl
  have hopening : (Indicator.price .opening).points PriceSeries.rising.bars =
      [some 2, some 2, some 3] := by
    rw [Indicator.points_of_ofBars rfl]
    rfl
  have hchange : (Indicator.rateOfChange 1).points PriceSeries.rising.bars =
      [none, some ((3 - 2) / 2 * 100), some ((5 - 3) / 3 * 100)] := by
    rw [Indicator.points_of_ofBars rfl]
    simp [Indicator.rateOfChangePoints, PriceSeries.rising, Indicator.closes,
      withLag]
  simp only [closeAboveOpen, riseAboveSixty, holdsAt, RuleNode.holdsAt,
    RuleNode.holdsFrom, Comparison.holdsAt, hgreater, IndicatorSpec.valueAt?,
    CompareTarget.valueAt?, ← toOption_literalValue,
    IndicatorSpec.resolve_close, IndicatorSpec.resolve_opening,
    IndicatorSpec.resolve_change, literalValue_sixty, hclose, hopening, hchange]
  norm_num [Operator.compares, Operator.isCrossing, Except.toOption]

/-- Bought at three, when the close first is above the opening, and sold at
five. -/
theorem backtestRecord_rising :
    backtestRecord .rising (some (.closeAgainstOpen ">"))
        (some .riseAboveSixty) =
      .ok ⟨[⟨1, 3, 2, 5⟩], none⟩ := by
  have hbars : PriceSeries.rising.bars ≠ [] := List.cons_ne_nil _ _
  have hgreater : readOperator ">" = .ok .greater := rfl
  have huncached :
      ∃ s,
        Strategy.uncached PriceSeries.rising.bars RuleGroup.closeAboveOpen
          RuleGroup.riseAboveSixty = .ok s := by
    simp only [RuleGroup.closeAboveOpen, RuleGroup.riseAboveSixty,
      Strategy.uncached, RuleGroup.uncached, RuleGroup.toNode,
      RuleNode.uncached, RuleNode.uncachedRest, Comparison.uncached,
      CompareTarget.uncached, IndicatorSpec.uncached,
      IndicatorSpec.resolve_close, IndicatorSpec.resolve_opening,
      IndicatorSpec.resolve_change, literalValue_sixty, hgreater]
    exact ⟨_, rfl⟩
  obtain ⟨s, hs⟩ := huncached
  obtain ⟨hstay, hbuy, hsell⟩ := RuleGroup.holdsAt_rising
  rw [← (Strategy.holds_uncached hs _).1] at hstay hbuy
  rw [← (Strategy.holds_uncached hs _).2] at hsell
  rw [← Strategy.ofRules_eq_uncached] at hs
  refine backtestRecord_eq_ok.mpr ⟨hbars, _, _, s,
    RulesConfig.groupOf_closeAgainstOpen ">",
    RulesConfig.groupOf_riseAboveSixty, hs, ?_⟩
  simp [Strategy.trade, PriceSeries.rising, Strategy.tradeAt, hstay, hbuy,
    hsell, TradingRecord.isFlat, TradingRecord.empty, TradingRecord.enter?,
    TradingRecord.leave?]

theorem runBacktest_in_another_unit_rising :
    (0 : ℝ) < 2 ∧
      RulesConfig.Commensurable (some (.closeAgainstOpen ">")) ∧
      RulesConfig.Commensurable (some .riseAboveSixty) ∧
      backtestRecord (PriceSeries.rising.scaled 2)
          (some (.closeAgainstOpen ">")) (some .riseAboveSixty) =
        .ok ⟨[⟨1, 6, 2, 10⟩], none⟩ ∧
      ∃ p,
        runBacktest .rising (some (.closeAgainstOpen ">"))
          (some .riseAboveSixty) ⟨1000, 0, none⟩ = .ok p ∧
        p.profitLoss = 2 ∧
        runBacktest (PriceSeries.rising.scaled 2) (some (.closeAgainstOpen ">"))
            (some .riseAboveSixty) ⟨2 * 1000, 0, none⟩ =
          .ok (p.scaled 2) := by
  have hentry := RulesConfig.commensurable_closeAgainstOpen ">"
  have hexit := RulesConfig.commensurable_riseAboveSixty
  obtain ⟨-, hbacktests⟩ := runBacktest_in_another_unit .rising 2 two_pos
  obtain ⟨hrecord, hrun⟩ := hbacktests _ _ ⟨1000, 0, none⟩ hentry hexit rfl
  rw [backtestRecord_rising] at hrecord
  rw [runBacktest_eq_map_record .rising, backtestRecord_rising] at hrun
  refine ⟨two_pos, hentry, hexit, ?_, _, ?_, ?_, hrun⟩
  · rw [hrecord]
    norm_num [Except.map, TradingRecord.scaled, ClosedTrade.scaled]
  · rw [runBacktest_eq_map_record, backtestRecord_rising]
    rfl
  · rw [Performance.profitLoss_of]
    norm_num

end

end RuleBacktest
