import RuleBacktest.Backtest.Request
import RuleBacktest.Proofs.Outcome
import RuleBacktest.Proofs.Trading.Run

/-!
# The record behind a backtest

A backtest reads the rules, compiles them over its bars, trades by the strategy
that they compile to and measures what came of it.  Only the last of these steps
depends on the settings, and it never fails.
-/

namespace RuleBacktest

variable {α : Type} [Scalar α]

/-- The record of a backtest, before its performance is measured. -/
def backtestRecord (series : PriceSeries α) (entry exit : Option RulesConfig) :
    Except Failure (TradingRecord α) :=
  if series.bars.isEmpty then .error (.noData series.symbol)
  else do
    let entry ← RulesConfig.groupOf entry
    let exit ← RulesConfig.groupOf exit
    let strategy ← Strategy.ofRules series.bars entry exit
    strategy.simulate series

theorem runBacktest_eq_map_record (series : PriceSeries α)
    (entry exit : Option RulesConfig) (settings : BacktestSettings α) :
    runBacktest series entry exit settings =
      (backtestRecord series entry exit).map fun r =>
        Performance.of series r settings := by
  unfold runBacktest backtestRecord
  split
  · rfl
  · cases RulesConfig.groupOf entry with
    | error e => rfl
    | ok g =>
        cases RulesConfig.groupOf exit with
        | error e => rfl
        | ok g' =>
            simp only [bind, Except.bind]
            cases Strategy.ofRules series.bars g g' with
            | error e => rfl
            | ok s =>
                simp only
                cases s.simulate series <;> rfl

/-- A backtest that succeeds has bars, and trades by the strategy that its rules
compile to. -/
theorem backtestRecord_eq_ok {series : PriceSeries α}
    {entry exit : Option RulesConfig} {r : TradingRecord α} :
    backtestRecord series entry exit = .ok r ↔
      series.bars ≠ [] ∧
        ∃ g g' s,
          RulesConfig.groupOf entry = .ok g ∧
          RulesConfig.groupOf exit = .ok g' ∧
          Strategy.ofRules series.bars g g' = .ok s ∧
          s.trade series.bars = r := by
  by_cases hbars : series.bars = []
  · simp [backtestRecord, hbars]
  · have hnot : ¬ series.bars.isEmpty = true := by
      rw [List.isEmpty_iff]
      exact hbars
    rw [backtestRecord, if_neg hnot]
    constructor
    · intro h
      obtain ⟨g, hg, h⟩ := bind_eq_ok.mp h
      obtain ⟨g', hg', h⟩ := bind_eq_ok.mp h
      obtain ⟨s, hs, h⟩ := bind_eq_ok.mp h
      rw [s.simulate_eq_trade hbars] at h
      exact ⟨hbars, g, g', s, hg, hg', hs, Except.ok.inj h⟩
    · rintro ⟨_, g, g', s, hg, hg', hs, rfl⟩
      apply bind_eq_ok.mpr
      refine ⟨g, hg, bind_eq_ok.mpr ⟨g', hg', bind_eq_ok.mpr ⟨s, hs, ?_⟩⟩⟩
      exact s.simulate_eq_trade hbars

end RuleBacktest
