import RuleBacktest.Command.Run
import RuleBacktest.Proofs.Trading.NoLookAhead

/-!
# Rules that pass the check run

The check compiles the rules over no bars, and a backtest compiles them over the
bars of its series. Since the bars decide nothing about whether rules compile,
the two fail on the same rules and with the same failure; and once the rules are
compiled, a backtest over bars has nothing left to fail with. What a request
that passed the check may still fail with is then a matter of its source of
prices.
-/

namespace RuleBacktest

variable {α : Type} [Scalar α]

theorem runBacktest_sameOutcome_checkRules {series : PriceSeries α}
    (hbars : series.bars ≠ [])
    (entry exit : Option RulesConfig) (settings : BacktestSettings α) :
    SameOutcome (runBacktest series entry exit settings)
      (checkRules α entry exit) := by
  have hnot : ¬ series.bars.isEmpty = true := by
    rw [List.isEmpty_iff]
    exact hbars
  rw [runBacktest, if_neg hnot]
  -- Both read the two rule trees; only then do they compile, each over its own
  -- bars.
  apply SameOutcome.bind_left
  intro enter
  apply SameOutcome.bind_left
  intro leave
  apply (Strategy.ofRules_sameOutcome series.bars [] enter leave).bind
  intro s _
  rw [s.simulate_eq_trade hbars]
  exact trivial

/-! ## Requests -/

theorem runBacktest_of_no_bars {series : PriceSeries α}
    (hbars : series.bars = [])
    (entry exit : Option RulesConfig) (settings : BacktestSettings α) :
    runBacktest series entry exit settings =
      .error (.noData series.symbol) := by
  rw [runBacktest, hbars]
  rfl

/-- Over rules that compile a backtest fails only for want of bars. -/
theorem runBacktest_eq_error_iff {series : PriceSeries α}
    {entry exit : Option RulesConfig} {settings : BacktestSettings α}
    {counts : Nat × Nat}
    (hrules : checkRules α entry exit = .ok counts)
    {e : Failure} :
    runBacktest series entry exit settings = .error e ↔
      series.bars = [] ∧ e = .noData series.symbol := by
  by_cases hbars : series.bars = []
  · rw [runBacktest_of_no_bars hbars]
    simp [hbars, eq_comm]
  · rw [(runBacktest_sameOutcome_checkRules hbars entry exit settings).error_iff
        e, hrules]
    simp [hbars]

theorem BacktestRequest.run_eq_error_iff {request : BacktestRequest}
    {range : HistoryRange}
    (hrange : HistoryRange.ofText request.range = .ok range)
    {counts : Nat × Nat}
    (hrules : checkRules α request.entry request.exit = .ok counts)
    (source : PriceSource α) (settings : BacktestSettings α) (e : Failure) :
    request.run source settings = .error e ↔
      source request.stockSymbol range request.interval = .error e ∨
        ∃ records,
          source request.stockSymbol range request.interval = .ok records ∧
          (PriceSeries.ofRecords request.stockSymbol records).bars = [] ∧
          e = .noData request.stockSymbol := by
  have hfetch : request.run source settings =
      source request.stockSymbol range request.interval >>= fun records =>
        runBacktest (.ofRecords request.stockSymbol records) request.entry
            request.exit settings := by
    rw [run, hrange]
    rfl
  rw [hfetch, bind_eq_error]
  apply or_congr Iff.rfl
  apply exists_congr
  intro records
  exact and_congr_right fun _ => runBacktest_eq_error_iff hrules

theorem BacktestRequest.run_ne_ok {request : BacktestRequest} {e : Failure}
    (hrules : checkRules α request.entry request.exit = .error e)
    (source : PriceSource α) (settings : BacktestSettings α)
    (p : Performance α) :
    request.run source settings ≠ .ok p := by
  intro hrun
  obtain ⟨range, _, hrun⟩ := bind_eq_ok.mp hrun
  obtain ⟨records, _, hrun⟩ := bind_eq_ok.mp hrun
  by_cases hbars : (PriceSeries.ofRecords request.stockSymbol records).bars = []
  · rw [runBacktest_of_no_bars hbars] at hrun
    cases hrun
  · have hsame :=
      runBacktest_sameOutcome_checkRules hbars request.entry
        request.exit settings
    rw [(hsame.error_iff e).mpr hrules] at hrun
    cases hrun

theorem Command.checkRequest_eq_ok {request : BacktestRequest}
    {counts : Nat × Nat} :
    checkRequest request = .ok counts ↔
      ∃ range, HistoryRange.ofText request.range = .ok range ∧
        checkRules Float request.entry request.exit = .ok counts :=
  bind_eq_ok

/-- Over a series with bars a backtest fails exactly when the check of its rules
does, and with the same failure.  A request that passed the check fails only
with what the source of prices fails with, or for want of bars; and one whose
rules did not pass gives no result, whatever the prices are. -/
theorem runBacktest_eq_error_iff_checkRules
    (settings : BacktestSettings Float) :
    (∀ (series : PriceSeries Float) (entry exit : Option RulesConfig),
        series.bars ≠ [] →
        ∀ e, runBacktest series entry exit settings = .error e ↔
          checkRules Float entry exit = .error e) ∧
      (∀ (request : BacktestRequest) (counts : Nat × Nat),
        Command.checkRequest request = .ok counts →
        ∃ range, HistoryRange.ofText request.range = .ok range ∧
          ∀ (source : PriceSource Float) (e : Failure),
            request.run source settings = .error e ↔
            source request.stockSymbol range request.interval = .error e ∨
              ∃ records,
                source request.stockSymbol range request.interval =
                  .ok records ∧
                (PriceSeries.ofRecords request.stockSymbol records).bars = [] ∧
                e = .noData request.stockSymbol) ∧
      ∀ (request : BacktestRequest) (e : Failure),
        checkRules Float request.entry request.exit = .error e →
        ∀ (source : PriceSource Float) (p : Performance Float),
          request.run source settings ≠ .ok p := by
  refine ⟨?_, ?_, ?_⟩
  · intro series entry exit hbars e
    exact
      (runBacktest_sameOutcome_checkRules hbars entry exit settings).error_iff e
  · intro request counts hchecked
    obtain ⟨range, hrange, hrules⟩ := Command.checkRequest_eq_ok.mp hchecked
    refine ⟨range, hrange, ?_⟩
    intro source e
    exact BacktestRequest.run_eq_error_iff hrange hrules source settings e
  · intro request e hrules source p
    exact BacktestRequest.run_ne_ok hrules source settings p

theorem checkRules_closeAgainstOpen :
    checkRules Float (some (.closeAgainstOpen ">"))
        (some (.closeAgainstOpen "<")) =
      .ok (1, 1) := by
  rw [checkRules, RulesConfig.groupOf_closeAgainstOpen,
    RulesConfig.groupOf_closeAgainstOpen]
  simp only [bind, Except.bind, Strategy.ofRules_closeAgainstOpen]
  rfl

theorem checkRules_closeAgainstOpen_unknownOperator :
    checkRules Float (some (.closeAgainstOpen "!")) none =
      .error (.unknownOperator "!") := by
  have hoperator : readOperator "!" = .error (.unknownOperator "!") := by
    decide +kernel
  rw [checkRules, RulesConfig.groupOf_closeAgainstOpen]
  simp only [bind, Except.bind, RulesConfig.groupOf,
    Strategy.ofRules_eq_uncached, Strategy.uncached, RuleGroup.uncached,
    RuleGroup.toNode, RuleNode.uncached, Comparison.uncached,
    CompareTarget.uncached, IndicatorSpec.uncached, IndicatorSpec.resolve_close,
    IndicatorSpec.resolve_opening, hoperator, Except.map]

/-- Rules that pass the check meet a source that is out of reach, and rules with
an operator that does not exist meet bars. -/
theorem runBacktest_eq_error_iff_checkRules_closeAgainstOpen :
    (BacktestRequest.run ⟨"ACME", "1y", "1d", some (.closeAgainstOpen ">"),
          some (.closeAgainstOpen "<")⟩
          (fun _ _ _ => .error (.database "out of reach"))
          (⟨1000, 0, none⟩ : BacktestSettings Float) =
        .error (.database "out of reach")) ∧
      runBacktest .riseAndFall (some (.closeAgainstOpen "!")) none
          ⟨1000, 0, none⟩ =
        .error (.unknownOperator "!") := by
  have hvalidation := runBacktest_eq_error_iff_checkRules ⟨1000, 0, none⟩
  have hrange : HistoryRange.ofText "1y" = .ok (.years 1) := by
    decide +kernel
  have hchecked :
      Command.checkRequest ⟨"ACME", "1y", "1d", some (.closeAgainstOpen ">"),
          some (.closeAgainstOpen "<")⟩ =
        .ok (1, 1) :=
    Command.checkRequest_eq_ok.mpr ⟨_, hrange, checkRules_closeAgainstOpen⟩
  constructor
  · obtain ⟨range, _, hfails⟩ := hvalidation.2.1 _ _ hchecked
    exact (hfails _ _).mpr (Or.inl rfl)
  · exact (hvalidation.1 .riseAndFall _ _ (List.cons_ne_nil _ _) _).mpr
      checkRules_closeAgainstOpen_unknownOperator

end RuleBacktest
