import RuleBacktest.Proofs.Causality.Rule
import RuleBacktest.Proofs.Compilation.Meaning
import RuleBacktest.Proofs.Registry.Names
import RuleBacktest.Proofs.Trading.Alternation
import RuleBacktest.Proofs.Trading.Backtest
import RuleBacktest.Proofs.Trading.Equity

/-!
# No backtest looks ahead

A backtest over the first bars of a series is what the backtest over the whole
series was when it had come that far.  The rules compile over any bars if they
do over some, and what they say at a bar is the same; so the strategies trade
alike up to the last of the first bars, and the account is marked alike.
-/

namespace RuleBacktest

open Performance

variable {α : Type} [Scalar α]

/-! ## Rules over the first bars -/

/-- The strategy over the first bars exists if the one over all bars does, and
gives the same signals at each of them. -/
theorem Strategy.ofRules_take {bars : List (Bar α)} {entry exit : RuleGroup}
    {s : Strategy α}
    (hs : ofRules bars entry exit = .ok s)
    (n : Nat) :
    ∃ s',
      ofRules (bars.take n) entry exit = .ok s' ∧
      (∀ index, index < n → s'.entry.holds index = s.entry.holds index) ∧
      ∀ index, index < n → s'.exit.holds index = s.exit.holds index := by
  obtain ⟨s', hs'⟩ :=
    (ofRules_sameOutcome bars (bars.take n) entry exit).exists_ok hs
  have hlong : Strategy.uncached bars entry exit = .ok s := by
    rw [← ofRules_eq_uncached, hs]
  have hshort : Strategy.uncached (bars.take n) entry exit = .ok s' := by
    rw [← ofRules_eq_uncached, hs']
  refine ⟨s', hs', ?_, ?_⟩
  · intro index hindex
    rw [(holds_uncached hshort index).1, (holds_uncached hlong index).1]
    exact entry.holdsAt_take bars hindex
  · intro index hindex
    rw [(holds_uncached hshort index).2, (holds_uncached hlong index).2]
    exact exit.holdsAt_take bars hindex

theorem backtestRecord_take {series : PriceSeries α}
    {entry exit : Option RulesConfig} {r : TradingRecord α}
    (hrecord : backtestRecord series entry exit = .ok r)
    (last : Nat) :
    backtestRecord (series.take (last + 1)) entry exit = .ok (r.asOf last) := by
  obtain ⟨hbars, g, g', s, hg, hg', hs, rfl⟩ := backtestRecord_eq_ok.mp hrecord
  obtain ⟨s', hs', hentry, hexit⟩ := Strategy.ofRules_take hs (last + 1)
  apply backtestRecord_eq_ok.mpr
  refine ⟨?_, g, g', s', hg, hg', hs', ?_⟩
  · intro hempty
    rcases List.take_eq_nil_iff.mp hempty with hzero | hnil
    · cases hzero
    · exact hbars hnil
  · have hlength : (series.bars.take (last + 1)).length ≤ last + 1 :=
      List.length_take_le _ _
    -- Two strategies that signal alike on these bars, then one strategy on
    -- fewer bars.
    have htrade : s'.trade (series.bars.take (last + 1)) =
        s.trade (series.bars.take (last + 1)) := by
      apply Strategy.trade_congr
      · intro index hindex
        exact hentry index (by omega)
      · intro index hindex
        exact hexit index (by omega)
    exact htrade.trans (s.trade_take series.bars last)

/-! ## Performance over the first bars -/

theorem Performance.dateAt_take (series : PriceSeries α) {n index : Nat}
    (hindex : index < n) :
    dateAt (series.take n) index = dateAt series index := by
  have hbar : (series.take n).bar? index = series.bar? index := by
    rw [PriceSeries.bar?, PriceSeries.bar?, PriceSeries.take,
      List.getElem?_take, if_pos hindex]
  rw [dateAt, dateAt, hbar]

theorem Performance.tradeRow_take (series : PriceSeries α) {n : Nat}
    {t : ClosedTrade α}
    (hentry : t.entryIndex < n)
    (hexit : t.exitIndex < n) :
    tradeRow (series.take n) t = tradeRow series t := by
  rw [tradeRow, tradeRow, dateAt_take series hentry, dateAt_take series hexit]

omit [Scalar α] in
theorem Performance.curve_take (values : List α) (bars : List (Bar α))
    (n : Nat) :
    curve (values.take n) (bars.take n) = (curve values bars).take n := by
  have hzip : (values.take n).zip (bars.take n) = (values.zip bars).take n :=
    List.take_zipWith.symm
  apply List.ext_getElem?
  intro index
  rw [curve, curve, hzip, List.getElem?_take, List.getElem?_map,
    List.getElem?_map, List.getElem?_zipIdx, List.getElem?_zipIdx,
    List.getElem?_take]
  split
  · rfl
  · rfl

theorem Performance.equityCurve_asOf {series : PriceSeries α}
    {r : TradingRecord α} {stop : Nat}
    (h : r.Ordered stop)
    (settings : BacktestSettings α) (last : Nat) :
    (Performance.of (series.take (last + 1))
        (r.asOf last) settings).equityCurve =
      (Performance.of series r settings).equityCurve.take (last + 1) := by
  have hcloses : (series.take (last + 1)).bars.map Bar.close =
      (series.bars.map Bar.close).take (last + 1) := List.map_take
  rw [Performance.of, Performance.of, hcloses, equityValues_asOf settings h]
  exact curve_take _ _ _

theorem Performance.trades_asOf {series : PriceSeries α} {r : TradingRecord α}
    {stop : Nat}
    (h : r.Ordered stop)
    (settings : BacktestSettings α) (last : Nat) :
    (Performance.of (series.take (last + 1)) (r.asOf last) settings).trades =
      (r.closed.filter fun t => decide (t.exitIndex < last + 1)).map
        (tradeRow series) := by
  have hclosed : (r.asOf last).closed =
      r.closed.filter fun t => decide (t.exitIndex < last + 1) := by
    apply List.filter_congr
    intro t _
    exact decide_eq_decide.mpr Nat.lt_succ_iff.symm
  rw [Performance.of, hclosed]
  apply List.map_congr_left
  intro t ht
  obtain ⟨hmem, hexit⟩ := List.mem_filter.mp ht
  have hexit : t.exitIndex < last + 1 := of_decide_eq_true hexit
  have hentry := h.entry_lt_exit t hmem
  exact tradeRow_take series (by omega) hexit

/-- Over its first bars a backtest that succeeds over all of them succeeds as
well.  The curve is the first part of the curve, the trades are those that are
left by then, and the open position is the one that is held at the last of these
bars. -/
theorem runBacktest_take (series : PriceSeries α) (n : Nat)
    (hn : 1 ≤ n)
    (entry exit : Option RulesConfig) (settings : BacktestSettings α)
    (p : Performance α)
    (hrun : runBacktest series entry exit settings = .ok p) :
    ∃ q long short,
      runBacktest (series.take n) entry exit settings = .ok q ∧
      backtestRecord series entry exit = .ok long ∧
      backtestRecord (series.take n) entry exit = .ok short ∧
      q.equityCurve = p.equityCurve.take n ∧
      p.trades = long.closed.map (tradeRow series) ∧
      q.trades =
        (long.closed.filter fun t => decide (t.exitIndex < n)).map
          (tradeRow series) ∧
      ∀ position, short.position = some position ↔
        (∃ t ∈ long.closed,
            t.entryIndex < n ∧ n ≤ t.exitIndex ∧ t.opened = position) ∨
          (long.position = some position ∧ position.entryIndex < n) := by
  obtain ⟨last, rfl⟩ := Nat.exists_eq_add_of_le' hn
  rw [runBacktest_eq_map_record] at hrun
  obtain ⟨long, hlong, rfl⟩ := map_eq_ok.mp hrun
  have hshort := backtestRecord_take hlong last
  obtain ⟨_, _, _, s, _, _, _, htrade⟩ := backtestRecord_eq_ok.mp hlong
  have hordered : long.Ordered series.bars.length := by
    rw [← htrade]
    exact s.ordered_trade series.bars
  refine ⟨Performance.of (series.take (last + 1)) (long.asOf last) settings,
    long, long.asOf last, ?_, hlong, hshort,
    equityCurve_asOf hordered settings last, rfl,
    trades_asOf hordered settings last, ?_⟩
  · rw [runBacktest_eq_map_record, hshort]
    rfl
  · intro position
    have hheld : long.heldAt? last = some position ↔ _ :=
      TradingRecord.heldAt?_eq_some_iff hordered
    simp only [ClosedTrade.lastsAt_iff, and_assoc] at hheld
    simp only [Nat.lt_succ_iff]
    exact hheld

/-- The close compared with the opening of the same bar. -/
def RuleFields.closeAgainstOpen (operator : String) : RuleFields where
  indicator := some "CLOSE"
  operator := some operator
  compareIndicator := some "OPEN"

def RulesConfig.closeAgainstOpen (operator : String) : RulesConfig :=
  ⟨none, some [.node (.closeAgainstOpen operator) none]⟩

theorem RulesConfig.groupOf_closeAgainstOpen (operator : String) :
    groupOf (some (closeAgainstOpen operator)) =
      .ok ⟨.and,
        [(none,
            .comparison
              ⟨⟨"CLOSE", []⟩, operator, .indicator ⟨"OPEN", []⟩⟩)]⟩ := by
  have hclose : Text.nonBlank? "CLOSE" = some "CLOSE" := by
    decide
  have hopening : Text.nonBlank? "OPEN" = some "OPEN" := by
    decide
  have hcomparison : (RuleFields.closeAgainstOpen operator).comparison =
      .ok ⟨⟨"CLOSE", []⟩, operator, .indicator ⟨"OPEN", []⟩⟩ := by
    simp [RuleFields.comparison, RuleFields.target, RuleFields.comparisonKind,
      RuleFields.closeAgainstOpen, hclose, hopening, Except.map]
  simp only [groupOf, toGroup, closeAgainstOpen, RuleConfig.toChildren,
    RuleConfig.toChild, hcomparison, Option.getD_some]
  rfl

/-- These rules compile to the strategy that follows rises. -/
theorem Strategy.ofRules_closeAgainstOpen (bars : List (Bar Float)) :
    ofRules bars ⟨.and,
        [(none, .comparison ⟨⟨"CLOSE", []⟩, ">", .indicator ⟨"OPEN", []⟩⟩)]⟩
        ⟨.and,
        [(none, .comparison ⟨⟨"CLOSE", []⟩, "<", .indicator ⟨"OPEN", []⟩⟩)]⟩ =
      .ok (followRises bars) := by
  have hgreater : readOperator ">" = .ok .greater := rfl
  have hless : readOperator "<" = .ok .less := rfl
  rw [ofRules_eq_uncached]
  simp only [Strategy.uncached, RuleGroup.uncached, RuleGroup.toNode,
    RuleNode.uncached, RuleNode.uncachedRest, Comparison.uncached,
    CompareTarget.uncached, IndicatorSpec.uncached, IndicatorSpec.resolve_close,
    IndicatorSpec.resolve_opening, hgreater, hless]
  rfl

theorem runBacktest_take_riseAndFall :
    1 ≤ 3 ∧
      ∃ p q short,
        runBacktest .riseAndFall (some (.closeAgainstOpen ">"))
          (some (.closeAgainstOpen "<")) ⟨1000, 0, some 7⟩ = .ok p ∧
        runBacktest (PriceSeries.riseAndFall.take 3)
          (some (.closeAgainstOpen ">")) (some (.closeAgainstOpen "<"))
          ⟨1000, 0, some 7⟩ = .ok q ∧
        backtestRecord (PriceSeries.riseAndFall.take 3)
            (some (.closeAgainstOpen ">")) (some (.closeAgainstOpen "<")) =
          .ok short ∧
        q.equityCurve = p.equityCurve.take 3 ∧
        q.trades = [] ∧
        ∃ price, short.position = some ⟨1, price⟩ := by
  have hrecord : backtestRecord .riseAndFall (some (.closeAgainstOpen ">"))
      (some (.closeAgainstOpen "<")) =
        .ok ((Strategy.followRises PriceSeries.riseAndFall.bars).trade
          PriceSeries.riseAndFall.bars) :=
    backtestRecord_eq_ok.mpr ⟨List.cons_ne_nil _ _, _, _, _,
      RulesConfig.groupOf_closeAgainstOpen ">",
      RulesConfig.groupOf_closeAgainstOpen "<",
      Strategy.ofRules_closeAgainstOpen _, rfl⟩
  have hrun :=
    runBacktest_eq_map_record PriceSeries.riseAndFall
      (some (.closeAgainstOpen ">")) (some (.closeAgainstOpen "<"))
      ⟨1000, 0, some 7⟩
  rw [hrecord] at hrun
  obtain ⟨q, long, short, hq, hlong, hshort, hcurve, _, htrades, hposition⟩ :=
    runBacktest_take PriceSeries.riseAndFall 3 (by decide) _ _ _ _ hrun
  -- The record over all bars has one trade, from index 1 to index 3.
  have hspans : [(1, 3)] = long.spans := by
    rw [← Except.ok.inj (hrecord.symm.trans hlong)]
    exact (Strategy.alternation_riseAndFall.eq_and_eq
        (Strategy.alternation_trade _ _)).1
  obtain ⟨t, hclosed, hspan⟩ := List.map_eq_singleton_iff.mp hspans.symm
  obtain ⟨hentry, hexit⟩ := Prod.mk.inj hspan
  have hnone : q.trades = [] := by
    rw [htrades, hclosed]
    simp [hexit]
  have hopened : short.position = some ⟨1, t.entryPrice⟩ := by
    apply (hposition _).mpr
    refine Or.inl ⟨t, by simp [hclosed], by omega, by omega, ?_⟩
    rw [ClosedTrade.opened, hentry]
  exact ⟨by decide, _, q, short, hrun, hq, hshort, hcurve, hnone, t.entryPrice,
    hopened⟩

end RuleBacktest
