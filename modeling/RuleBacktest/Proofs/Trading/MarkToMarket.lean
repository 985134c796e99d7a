import Mathlib.Tactic.Linarith
import Mathlib.Tactic.NormNum
import Mathlib.Tactic.Ring
import RuleBacktest.Proofs.Scalar.Exact
import RuleBacktest.Proofs.Trading.Equity

/-!
# The account is marked to market

Over exact arithmetic and without noise the account at a bar is the capital and
what the record as it stands there is worth at the close.  To trade at a price
leaves the worth at that price as it is, so from one bar to the next the account
moves with the close while something is held, and not at all while nothing is.
What it has come to at the last bar is what the trades and the open position of
the whole record are worth.
-/

namespace RuleBacktest

open Performance

noncomputable section

/-! ## The worth of a record -/

namespace TradingRecord

/-- The profits of the closed trades, and what the open position would bring at
a price. -/
def worth (r : TradingRecord ℝ) (price : ℝ) : ℝ :=
  (r.closed.map fun t => t.exitPrice - t.entryPrice).sum +
    (r.position.map fun p => price - p.entryPrice).getD 0

/-- Whether a position was entered by an index and not left by then. -/
def HoldsAt (r : TradingRecord ℝ) (index : Nat) : Prop :=
  (∃ t ∈ r.closed, t.entryIndex ≤ index ∧ ¬ t.exitIndex ≤ index) ∨
    ∃ p, r.position = some p ∧ p.entryIndex ≤ index

variable {r : TradingRecord ℝ} {stop : Nat}

theorem worth_of_flat (hflat : r.position = none) (price price' : ℝ) :
    r.worth price' = r.worth price := by
  simp [worth, hflat]

theorem worth_of_open {p : OpenPosition ℝ}
    (hopen : r.position = some p)
    (price price' : ℝ) :
    r.worth price' = r.worth price + (price' - price) := by
  simp only [worth, hopen, Option.map_some, Option.getD_some]
  ring

theorem holdsAt_iff (h : r.Ordered stop) (index : Nat) :
    r.HoldsAt index ↔ ∃ p, (r.asOf index).position = some p := by
  have hheld : ∀ p, r.heldAt? index = some p ↔ _ :=
    fun _ => heldAt?_eq_some_iff h
  simp only [asOf, hheld, HoldsAt, ClosedTrade.lastsAt_iff, not_le]
  constructor
  · rintro (⟨t, ht, hspan⟩ | ⟨p, hopen, hentry⟩)
    · exact ⟨t.opened, Or.inl ⟨t, ht, hspan, rfl⟩⟩
    · exact ⟨p, Or.inr ⟨hopen, hentry⟩⟩
  · rintro ⟨p, ⟨t, ht, hspan, _⟩ | ⟨hopen, hentry⟩⟩
    · exact Or.inl ⟨t, ht, hspan⟩
    · exact Or.inr ⟨p, hopen, hentry⟩

theorem addProfits_eq_sum (realised : ℝ) (trades : List (ClosedTrade ℝ)) :
    addProfits realised trades =
      realised + (trades.map fun t => t.exitPrice - t.entryPrice).sum := by
  induction trades generalizing realised with
  | nil => simp [addProfits]
  | cons t trades ih =>
      have hnext : addProfits realised (t :: trades) =
          addProfits (realised + (t.exitPrice - t.entryPrice)) trades := rfl
      rw [hnext, ih, List.map_cons, List.sum_cons, add_assoc]

end TradingRecord

open TradingRecord

/-- To trade at a price changes nothing of what a record is worth at it. -/
theorem Strategy.worth_tradeAt (s : Strategy ℝ) (r : TradingRecord ℝ)
    (index : Nat) (price : ℝ) :
    (s.tradeAt r index price).worth price = r.worth price := by
  rcases s.tradeAt_cases r index price with
    ⟨hflat, _, hstep⟩ | ⟨p, hopen, _, hstep⟩ | ⟨_, _, hstep⟩ | ⟨_, _, _, hstep⟩
  · rw [hstep]
    simp [worth, hflat]
  · rw [hstep]
    simp [worth, hopen]
  · rw [hstep]
  · rw [hstep]

/-! ## The account at a bar -/

variable {settings : BacktestSettings ℝ}

theorem Performance.noiseBefore_eq_zero
    (hnoise : settings.noiseSeed = none)
    (index : Nat) :
    noiseBefore settings index = 0 := by
  induction index with
  | zero => exact Scalar.real_zero
  | succ index ih => simpa [noiseBefore, hnoise] using ih

theorem Performance.markedAt_eq_worth
    (hnoise : settings.noiseSeed = none)
    (r : TradingRecord ℝ) (index : Nat) (price : ℝ) :
    markedAt settings r index price =
      settings.capital + (r.asOf index).worth price := by
  have hclosed : r.closed.filter (fun t => decide (t.exitIndex < index + 1)) =
      (r.asOf index).closed := by
    apply List.filter_congr
    intro t _
    exact decide_eq_decide.mpr Nat.lt_succ_iff
  have hrealised : r.realisedBefore (index + 1) =
      ((r.asOf index).closed.map fun t => t.exitPrice - t.entryPrice).sum := by
    rw [realisedBefore, hclosed, addProfits_eq_sum]
    simp
  have hunrealised : r.unrealisedAt index price =
      ((r.asOf index).position.map fun p => price - p.entryPrice).getD 0 := by
    have hheld : (r.asOf index).position = r.heldAt? index := rfl
    rw [unrealisedAt, hheld]
    cases r.heldAt? index with
    | none => exact Scalar.real_zero
    | some p => rfl
  rw [markedAt, hrealised, hunrealised, noiseBefore_eq_zero hnoise, worth]
  simp [add_assoc]

/-! ## From bar to bar -/

theorem Strategy.trade_take_succ (s : Strategy ℝ) {bars : List (Bar ℝ)}
    {index : Nat} {b : Bar ℝ}
    (hb : bars[index]? = some b) :
    s.trade (bars.take (index + 1)) =
      s.tradeAt (s.trade (bars.take index)) index b.close := by
  obtain ⟨hlt, rfl⟩ := List.getElem?_eq_some_iff.mp hb
  have hlength : (bars.take index).length = index :=
    List.length_take_of_le (Nat.le_of_lt hlt)
  rw [List.take_succ_eq_append_getElem hlt, trade_append_singleton, hlength]

theorem Strategy.worth_asOf_zero (s : Strategy ℝ) {bars : List (Bar ℝ)}
    {b : Bar ℝ}
    (hb : bars[0]? = some b) :
    ((s.trade bars).asOf 0).worth b.close = 0 := by
  have hempty : s.trade (bars.take 0) = .empty := rfl
  rw [← trade_take, trade_take_succ s hb, worth_tradeAt, hempty]
  simp [worth, TradingRecord.empty]

/-- What a record is worth moves with the price while it holds a position, since
the trade at the next bar does not count. -/
theorem Strategy.worth_asOf_succ (s : Strategy ℝ) {bars : List (Bar ℝ)}
    {index : Nat} {b : Bar ℝ}
    (hb : bars[index + 1]? = some b)
    (price : ℝ) :
    ((s.trade bars).HoldsAt index →
        ((s.trade bars).asOf (index + 1)).worth b.close =
          ((s.trade bars).asOf index).worth price + (b.close - price)) ∧
      (¬ (s.trade bars).HoldsAt index →
        ((s.trade bars).asOf (index + 1)).worth b.close =
          ((s.trade bars).asOf index).worth price) := by
  have hfree : ((s.trade bars).asOf (index + 1)).worth b.close =
      ((s.trade bars).asOf index).worth b.close := by
    rw [← trade_take, trade_take_succ s hb, worth_tradeAt, trade_take]
  rw [holdsAt_iff (s.ordered_trade bars), hfree]
  constructor
  · rintro ⟨p, hopen⟩
    exact worth_of_open hopen price b.close
  · intro hnone
    apply worth_of_flat
    rw [Option.eq_none_iff_forall_ne_some]
    intro p hopen
    exact hnone ⟨p, hopen⟩

/-! ## The figures of a run -/

theorem Performance.winRateOf_mem {wins total : Nat} (hwins : wins ≤ total) :
    0 ≤ (winRateOf wins total : ℝ) ∧ (winRateOf wins total : ℝ) ≤ 100 := by
  by_cases htotal : 0 < total
  · have hpositive : (0 : ℝ) < total := by exact_mod_cast htotal
    have hle : (wins : ℝ) ≤ total := by exact_mod_cast hwins
    have hrate : (winRateOf wins total : ℝ) = wins / total * 100 := by
      simp [winRateOf, htotal]
    have hfraction : (wins : ℝ) / total ≤ 1 := (div_le_one hpositive).mpr hle
    have hnonneg : (0 : ℝ) ≤ wins / total := by positivity
    rw [hrate]
    constructor <;> linarith
  · simp [winRateOf, htotal]

theorem Performance.profitLoss_of (series : PriceSeries ℝ) (r : TradingRecord ℝ)
    (settings : BacktestSettings ℝ) :
    (Performance.of series r settings).profitLoss =
      (r.closed.map fun t => t.exitPrice - t.entryPrice).sum :=
  Scalar.real_sum _

theorem Performance.length_equity (series : PriceSeries ℝ) (r : TradingRecord ℝ)
    (settings : BacktestSettings ℝ) :
    ((Performance.of series r settings).equityCurve.map
        EquityPoint.value).length =
      series.bars.length := by
  simp [Performance.of, curve, equityValues]

theorem Strategy.equity_getElem? (s : Strategy ℝ) (series : PriceSeries ℝ)
    (hnoise : settings.noiseSeed = none) (index : Nat) :
    ((Performance.of series (s.trade series.bars) settings).equityCurve.map
        EquityPoint.value)[index]? =
      series.bars[index]?.map fun b =>
        settings.capital +
            ((s.trade series.bars).asOf index).worth b.close := by
  have hcurve :
      (Performance.of series (s.trade series.bars) settings).equityCurve.map
          EquityPoint.value =
        equityValues settings (s.trade series.bars)
          (series.bars.map Bar.close) := by
    apply map_value_curve
    simp [equityValues]
  rw [hcurve, equityValues_getElem? settings (s.ordered_trade series.bars),
    List.getElem?_map, Option.map_map]
  congr 1
  funext b
  exact markedAt_eq_worth hnoise _ index b.close

theorem Strategy.equity_step (s : Strategy ℝ) (series : PriceSeries ℝ)
    (hnoise : settings.noiseSeed = none)
    {index : Nat} {before after close close' : ℝ}
    (hbefore :
      ((Performance.of series (s.trade series.bars) settings).equityCurve.map
          EquityPoint.value)[index]? =
        some before)
    (hafter :
      ((Performance.of series (s.trade series.bars) settings).equityCurve.map
          EquityPoint.value)[index + 1]? =
        some after)
    (hclose : (series.bars.map Bar.close)[index]? = some close)
    (hclose' : (series.bars.map Bar.close)[index + 1]? = some close') :
    ((s.trade series.bars).HoldsAt index → after - before = close' - close) ∧
      (¬ (s.trade series.bars).HoldsAt index → after - before = 0) := by
  rw [equity_getElem? s series hnoise] at hbefore hafter
  obtain ⟨b, hb, rfl⟩ := Option.map_eq_some_iff.mp hbefore
  obtain ⟨b', hb', rfl⟩ := Option.map_eq_some_iff.mp hafter
  rw [List.getElem?_map, hb] at hclose
  rw [List.getElem?_map, hb'] at hclose'
  cases hclose
  cases hclose'
  obtain ⟨hheld, hflat⟩ := s.worth_asOf_succ hb' b.close
  constructor
  · intro hholds
    rw [hheld hholds]
    ring
  · intro hholds
    rw [hflat hholds]
    ring

theorem Strategy.equity_last (s : Strategy ℝ) (series : PriceSeries ℝ)
    (hnoise : settings.noiseSeed = none) {price : ℝ}
    (hprice : (series.bars.map Bar.close).getLast? = some price) :
    ((Performance.of series (s.trade series.bars) settings).equityCurve.map
        EquityPoint.value).getLast? =
      some (settings.capital + (s.trade series.bars).worth price) := by
  obtain ⟨b, hb, rfl⟩ : ∃ b, series.bars[series.bars.length - 1]? = some b ∧
      b.close = price := by
    rw [List.getLast?_eq_getElem?, List.getElem?_map, List.length_map] at hprice
    exact Option.map_eq_some_iff.mp hprice
  have hlast : (s.trade series.bars).asOf (series.bars.length - 1) =
      s.trade series.bars := by
    have hlength := (List.getElem?_eq_some_iff.mp hb).1
    exact ((s.ordered_trade series.bars).mono (by omega)).asOf_eq_self
  rw [List.getLast?_eq_getElem?, length_equity, equity_getElem? s series hnoise,
    hb, hlast]
  rfl

/-- The curve of a simulated strategy starts at the capital, and from a bar to
the next it moves with the close if a position is held over the former, and
stays where it is if none is.  It ends at the capital, the profits of the trades
and what the open position would bring. -/
theorem Strategy.equityCurve_marksToMarket (s : Strategy ℝ)
    (series : PriceSeries ℝ)
    (hbars : series.bars ≠ [])
    (settings : BacktestSettings ℝ)
    (hnoise : settings.noiseSeed = none) :
    ∃ r, s.simulate series = .ok r ∧
      let p := Performance.of series r settings
      let equity := p.equityCurve.map EquityPoint.value
      let closes := series.bars.map Bar.close
      equity.length = closes.length ∧
        equity[0]? = some settings.capital ∧
        (∀ i before after close close', equity[i]? = some before →
          equity[i + 1]? = some after → closes[i]? = some close →
          closes[i + 1]? = some close' →
            (r.HoldsAt i → after - before = close' - close) ∧
              (¬ r.HoldsAt i → after - before = 0)) ∧
        (∀ price, closes.getLast? = some price →
          equity.getLast? = some (settings.capital + p.profitLoss +
            (r.position.map fun q => price - q.entryPrice).getD 0)) ∧
        p.profitLoss = (p.trades.map TradeRow.profit).sum ∧
        p.winningTrades + p.losingTrades = p.totalTrades ∧
        p.totalTrades = p.trades.length ∧
        0 ≤ p.winRate ∧ p.winRate ≤ 100 := by
  refine ⟨s.trade series.bars, s.simulate_eq_trade hbars, ?_, ?_, ?_, ?_, ?_,
    ?_, ?_, ?_⟩
  · rw [length_equity, List.length_map]
  · obtain ⟨b, hb⟩ : ∃ b, series.bars[0]? = some b := by
      cases hseries : series.bars with
      | nil => exact absurd hseries hbars
      | cons b bars => exact ⟨b, rfl⟩
    rw [s.equity_getElem? series hnoise, hb, Option.map_some,
      s.worth_asOf_zero hb, add_zero]
  · intro i before after close close'
    exact s.equity_step series hnoise
  · intro price hprice
    rw [s.equity_last series hnoise hprice, profitLoss_of, worth, add_assoc]
  · rw [profitLoss_of, Performance.of, List.map_map]
    rfl
  · exact Nat.add_sub_cancel' (List.length_filter_le _ _)
  · exact (List.length_map _).symm
  · exact winRateOf_mem (List.length_filter_le _ _)

/-- Three bars that close higher and higher. -/
def PriceSeries.rising : PriceSeries ℝ where
  symbol := "ACME"
  bars :=
    [⟨⟨{ year := 2024, month := 2, day := 6 }, .midnight⟩, 2, 2, 2, 2, none⟩,
      ⟨⟨{ year := 2024, month := 2, day := 7 }, .midnight⟩, 2, 3, 2, 3, none⟩,
      ⟨⟨{ year := 2024, month := 2, day := 8 }, .midnight⟩, 3, 5, 3, 5, none⟩]
  ordered := by decide
  finite := by
    intro b hb
    simp only [List.mem_cons, List.not_mem_nil, or_false] at hb
    rcases hb with rfl | rfl | rfl <;> rfl

/-- Enters at once and never leaves. -/
def Strategy.buyAndHold : Strategy ℝ :=
  ⟨.compare (.constant 0) .less (.constant 1), .never⟩

theorem Strategy.trade_buyAndHold_rising :
    buyAndHold.trade PriceSeries.rising.bars = ⟨[], some ⟨0, 2⟩⟩ := by
  have hentry : ∀ index, buyAndHold.entry.holds index = true := by
    intro index
    simp [buyAndHold, Predicate.holds, Operand.value?, Relation.holds]
  have hexit : ∀ index, buyAndHold.exit.holds index = false := fun _ => rfl
  simp [trade, PriceSeries.rising, tradeAt, hentry, hexit, TradingRecord.isFlat,
    TradingRecord.empty, TradingRecord.enter?]

/-- Bought at two and held up to a close of five. -/
theorem Strategy.equityCurve_marksToMarket_rising :
    PriceSeries.rising.bars ≠ [] ∧
      ∃ r, buyAndHold.simulate .rising = .ok r ∧ r.HoldsAt 1 ∧
        ((Performance.of .rising r ⟨1000, 0, none⟩).equityCurve.map
          EquityPoint.value).getLast? = some 1003 := by
  have hbars : PriceSeries.rising.bars ≠ [] := List.cons_ne_nil _ _
  obtain ⟨r, hrun, -, -, -, hlast, hprofit, -⟩ :=
    buyAndHold.equityCurve_marksToMarket .rising hbars ⟨1000, 0, none⟩ rfl
  have hr : r = ⟨[], some ⟨0, 2⟩⟩ := by
    rw [simulate_eq_trade _ hbars, trade_buyAndHold_rising] at hrun
    exact (Except.ok.inj hrun).symm
  subst hr
  refine ⟨hbars, _, hrun, Or.inr ⟨_, rfl, by simp⟩, ?_⟩
  rw [hlast 5 rfl, hprofit]
  norm_num [Performance.of]

end

end RuleBacktest
