import RuleBacktest.Proofs.Compilation.Vacant
import RuleBacktest.Proofs.Scalar.Vanishing
import RuleBacktest.Proofs.Trading.NoLookAhead

/-!
# Runs without a trade

A strategy that never enters has nothing to leave, and its account stays at the
capital.  On a curve that does not move nothing declines, and the returns
deviate from their mean by nothing that is positive, so that the Sharpe ratio is
not divided by it, whatever rate the mean is compared with.  All this is said of
binary numbers, among them the infinite ones, whose differences are no numbers.
-/

namespace RuleBacktest

open Binary64 Performance

theorem Strategy.trade_of_neverHolds {α : Type} [Scalar α] {s : Strategy α}
    (hentry : s.entry.NeverHolds)
    (bars : List (Bar α)) :
    s.trade bars = .empty := by
  apply s.trade_induction bars (motive := fun _ r => r = .empty) rfl
  rintro index b r - rfl
  rcases s.tradeAt_cases .empty index b.close with
    ⟨-, henter, -⟩ | ⟨p, hopen, -⟩ | ⟨-, -, hstep⟩ | ⟨p, hopen, -⟩
  · rw [hentry index] at henter
    cases henter
  · cases hopen
  · exact hstep
  · cases hopen

namespace Performance

/-! ## The account without trades -/

theorem step_idle {settings : BacktestSettings Float}
    (hcapital : 0 < settings.capital)
    (hnoise : settings.noiseSeed = none)
    (index : Nat) (price : Float) :
    Account.step settings none ⟨index, 0, [], 0⟩ price =
      (⟨index + 1, 0, [], 0⟩, settings.capital) := by
  have hsum : settings.capital + 0 + 0 + 0 = settings.capital := by
    rw [add_zero_of_pos hcapital, add_zero_of_pos hcapital,
      add_zero_of_pos hcapital]
  simp only [Account.step, settle, hnoise]
  exact congrArg (Prod.mk _) hsum

theorem equityValues_empty {settings : BacktestSettings Float}
    (hcapital : 0 < settings.capital)
    (hnoise : settings.noiseSeed = none)
    (closes : List Float) :
    equityValues settings .empty closes =
      List.replicate closes.length settings.capital := by
  have hsweep (index : Nat) :
      sweep (Account.step settings none) ⟨index, 0, [], 0⟩ closes =
        List.replicate closes.length settings.capital := by
    induction closes generalizing index with
    | nil => rfl
    | cons price closes ih =>
        rw [sweep_cons, step_idle hcapital hnoise, ih, List.length_cons,
          List.replicate_succ]
  exact hsweep 0

/-! ## Curves that do not move -/

theorem declineStep_flat (value : Float) :
    declineStep (value, 0) value = (value, 0) := by
  by_cases hrise : value < value
  · rw [declineStep, if_pos hrise]
  · by_cases hpeak : 0 < value
    · have hdecline : ¬ 0 < (value - value) / value :=
        ((vanishes_sub_self value).div value).not_pos
      have hlarger : Scalar.larger 0 ((value - value) / value) = 0 := by
        rw [Scalar.larger, if_neg hdecline]
        rfl
      rw [declineStep, if_neg hrise, if_pos hpeak, hlarger]
    · rw [declineStep, if_neg hrise, if_neg hpeak]

theorem maxDrawdownOf_flat (n : Nat) (value : Float) :
    maxDrawdownOf (List.replicate n value) = 0 := by
  have hfold :
      (List.replicate n value).foldl declineStep (value, 0) = (value, 0) := by
    induction n with
    | zero => rfl
    | succ n ih =>
        rw [List.replicate_succ, List.foldl_cons, declineStep_flat, ih]
  have hpercent : (0 : Float) * 100 = 0 := by
    decide
  cases n with
  | zero => rfl
  | succ n =>
      exact (congrArg (fun s : Float × Float => s.2 * 100) hfold).trans hpercent

theorem vanishes_of_mem_returnsOf_flat {n : Nat} {value r : Float}
    (hr : r ∈ returnsOf (List.replicate n value)) : Vanishes r := by
  rw [returnsOf, List.tail_replicate, List.zipWith_replicate] at hr
  rw [List.eq_of_mem_replicate hr]
  split
  · exact (vanishes_sub_self value).div value
  · exact isNull_zero .positive

theorem vanishes_deviation {returns : List Float}
    (hreturns : ∀ r ∈ returns, Vanishes r)
    (n : Float) :
    Vanishes (Float.sqrt (Scalar.sum (returns.map fun r =>
      (r - Scalar.sum returns / n) * (r - Scalar.sum returns / n)) / n)) := by
  have hmean : Vanishes (Scalar.sum returns / n) :=
    (vanishes_sum hreturns).div n
  refine (Vanishes.div (vanishes_sum ?_) n).sqrt
  intro x hx
  obtain ⟨r, hr, rfl⟩ := List.mem_map.mp hx
  exact ((hreturns r hr).sub hmean).mul ((hreturns r hr).sub hmean)

theorem sharpeRatioOf_flat (n : Nat) (value rate : Float) :
    sharpeRatioOf (List.replicate n value) rate = 0 := by
  rw [sharpeRatioOf]
  split
  · rfl
  · exact if_neg
      (vanishes_deviation (fun r hr => vanishes_of_mem_returnsOf_flat hr)
        _).not_pos

end Performance

/-! ## Rules without a comparison -/

theorem Performance.of_empty {settings : BacktestSettings Float}
    (series : PriceSeries Float)
    (hcapital : 0 < settings.capital)
    (hnoise : settings.noiseSeed = none) :
    let p := Performance.of series .empty settings
    p.equityCurve.map EquityPoint.value =
          List.replicate series.bars.length settings.capital ∧
        p.maxDrawdown = 0 ∧
        p.sharpeRatio = 0 := by
  have hvalues := equityValues_empty hcapital hnoise (series.bars.map Bar.close)
  rw [List.length_map] at hvalues
  refine ⟨?_, ?_, ?_⟩
  · exact (map_value_curve (by simp [equityValues])).trans hvalues
  · exact (congrArg maxDrawdownOf hvalues).trans (maxDrawdownOf_flat _ _)
  · exact (congrArg (sharpeRatioOf · _) hvalues).trans
      (sharpeRatioOf_flat _ _ _)

/-- If the entry rules have no comparison they compile, whatever the cache
holds, to a predicate that never holds.  With any exit rules that compile, a run
over any bars makes no trade, its curve is the capital at every bar, and win
rate, decline and Sharpe ratio are zero. -/
theorem Strategy.never_trades_without_comparison (series : PriceSeries Float)
    (hbars : series.bars ≠ [])
    (entry exit : RuleGroup)
    (hleaves : entry.leafCount = 0)
    {leave : Predicate Float}
    (hexit : ((exit.compile series.bars).run .empty).1 = .ok leave)
    (settings : BacktestSettings Float)
    (hcapital : 0 < settings.capital)
    (hnoise : settings.noiseSeed = none) :
    ∃ enter : Predicate Float,
      (∀ cache, (entry.compile series.bars).run cache = (.ok enter, cache)) ∧
      (∀ index, enter.holds index = false) ∧
      Strategy.ofRules series.bars entry exit = .ok ⟨enter, leave⟩ ∧
      simulate ⟨enter, leave⟩ series = .ok ⟨[], none⟩ ∧
      let p := Performance.of series ⟨[], none⟩ settings
      (∀ entryRules exitRules, RulesConfig.groupOf entryRules = .ok entry →
        RulesConfig.groupOf exitRules = .ok exit →
          runBacktest series entryRules exitRules settings = .ok p) ∧
      p.totalTrades = 0 ∧ p.trades = [] ∧
      p.equityCurve.map EquityPoint.value =
        List.replicate series.bars.length settings.capital ∧
      p.winRate = 0 ∧ p.maxDrawdown = 0 ∧ p.sharpeRatio = 0 := by
  obtain ⟨enter, hnever, hcompile⟩ :=
    entry.compile_of_leafCount_eq_zero (α := Float) series.bars hleaves
  have hrules : Strategy.ofRules series.bars entry exit =
      .ok ⟨enter, leave⟩ := by
    rw [ofRules, Strategy.compile, hcompile, pure_bind, Compilation.run_bind]
    rcases hrun : (exit.compile series.bars).run .empty with ⟨result, cache⟩
    rw [hrun] at hexit
    cases hexit
    rfl
  have hrun : simulate ⟨enter, leave⟩ series = .ok ⟨[], none⟩ := by
    rw [simulate_eq_trade _ hbars, trade_of_neverHolds hnever]
    rfl
  obtain ⟨hcurve, hdrawdown, hsharpe⟩ :=
    Performance.of_empty series hcapital hnoise
  refine ⟨enter, ?_, hnever, hrules, hrun, ?_, rfl, rfl, hcurve, rfl, hdrawdown,
    hsharpe⟩
  · intro cache
    rw [hcompile]
    rfl
  · intro entryRules exitRules hentry hexit
    have hrecord : backtestRecord series entryRules exitRules = .ok .empty :=
      backtestRecord_eq_ok.mpr ⟨hbars, entry, exit, ⟨enter, leave⟩, hentry,
        hexit, hrules, trade_of_neverHolds hnever series.bars⟩
    rw [runBacktest_eq_map_record, hrecord]
    rfl

/-- Empty groups with combinators of all kinds. -/
def RuleGroup.vacant : RuleGroup :=
  ⟨.and,
    [(none, .group .or []),
      (some .or, .group .and [(some .and, .group .or [])])]⟩

/-- The close is below the opening on the fourth bar, but there is nothing to
leave. -/
theorem Strategy.never_trades_without_comparison_vacant :
    PriceSeries.riseAndFall.bars ≠ [] ∧
      RuleGroup.vacant.leafCount = 0 ∧
      (0 : Float) < 1000 ∧
      ∃ enter leave : Predicate Float,
        ((RuleGroup.compile PriceSeries.riseAndFall.bars ⟨.and,
            [(none,
                .comparison
                  ⟨⟨"CLOSE", []⟩, "<", .indicator ⟨"OPEN", []⟩⟩)]⟩).run
            .empty).1 =
          .ok leave ∧
        leave.holds 3 = true ∧
        simulate ⟨enter, leave⟩ .riseAndFall = .ok ⟨[], none⟩ ∧
        (Performance.of .riseAndFall ⟨[], none⟩
            ⟨(1000 : Float), 0.05, none⟩).equityCurve.map EquityPoint.value =
          [1000, 1000, 1000, 1000, 1000] ∧
        (Performance.of .riseAndFall ⟨[], none⟩
          ⟨(1000 : Float), 0.05, none⟩).sharpeRatio = 0 := by
  have hbars : PriceSeries.riseAndFall.bars ≠ [] := List.cons_ne_nil _ _
  have hleaves : RuleGroup.vacant.leafCount = 0 := by
    decide
  have hcapital : (0 : Float) < 1000 := by
    decide +kernel
  obtain ⟨leave, hexit, hleave⟩ : ∃ leave : Predicate Float,
      ((RuleGroup.compile PriceSeries.riseAndFall.bars ⟨.and,
          [(none,
              .comparison ⟨⟨"CLOSE", []⟩, "<", .indicator ⟨"OPEN", []⟩⟩)]⟩).run
          .empty).1 =
        .ok leave ∧
      leave.holds 3 = true := by
    have hrules := ofRules_closeAgainstOpen PriceSeries.riseAndFall.bars
    rw [ofRules_eq_uncached] at hrules
    obtain ⟨rises, -, hrules⟩ := bind_eq_ok.mp hrules
    obtain ⟨falls, hfalls, hrules⟩ := bind_eq_ok.mp hrules
    have hexit : falls = (followRises PriceSeries.riseAndFall.bars).exit :=
      congrArg Strategy.exit (Except.ok.inj hrules)
    refine ⟨falls,
      (RuleGroup.computes_compile _ .empty
        (IndicatorCache.faithful_empty _)).1.trans hfalls, ?_⟩
    rw [hexit, followRises_exit_holds]
    decide
  obtain ⟨enter, -, -, -, hrun, -, -, -, hcurve, -, -, hsharpe⟩ :=
    never_trades_without_comparison .riseAndFall hbars .vacant _ hleaves hexit
      ⟨1000, 0.05, none⟩ hcapital rfl
  exact ⟨hbars, hleaves, hcapital, enter, leave, hexit, hleave, hrun, hcurve,
    hsharpe⟩

end RuleBacktest
