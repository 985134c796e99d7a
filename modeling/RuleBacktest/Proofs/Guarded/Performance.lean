import RuleBacktest.Proofs.Guarded.Cache

/-!
# Guarded figures of a run

The figures of a performance with every quotient and root guarded.  The win rate
has trades to divide by, a return an entry price that is not zero, a decline a
peak above zero and the Sharpe ratio a deviation above zero, and the variance
under the root is a mean of squares.
-/

namespace RuleBacktest
namespace Guarded

open Scalar Performance

variable {α : Type} [Scalar α] {g : Guard α}

/-! ## Trades -/

def returnPercent (g : Guard α) (t : ClosedTrade α) : Guarded α :=
  if same t.entryPrice 0 then pure 0
  else do
    let share ← g.divide t.profit t.entryPrice
    pure (share * 100)

theorem returnPercent_eq (hg : g.AllowsProgram) (t : ClosedTrade α) :
    returnPercent g t = pure t.returnPercent := by
  rw [returnPercent, ClosedTrade.returnPercent]
  split_ifs with hzero
  · rfl
  · rw [Guard.divide_eq (hg.not_same hzero), pure_bind]

def tradeRow (g : Guard α) (series : PriceSeries α) (t : ClosedTrade α) :
    Guarded (TradeRow α) := do
  let percent ← returnPercent g t
  pure ⟨dateAt series t.entryIndex, t.entryPrice, dateAt series t.exitIndex,
    t.exitPrice, t.profit, percent⟩

theorem tradeRow_eq
    (hg : g.AllowsProgram)
    (series : PriceSeries α) (t : ClosedTrade α) :
    tradeRow g series t = pure (Performance.tradeRow series t) := by
  rw [tradeRow, returnPercent_eq hg, pure_bind]
  rfl

def winRate (g : Guard α) (wins total : Nat) : Guarded α :=
  if 0 < total then do
    let share ← g.divide (ofCount wins) (ofCount total)
    pure (share * 100)
  else pure 0

theorem winRate_eq (hg : g.AllowsProgram) (wins total : Nat) :
    winRate g wins total = pure (winRateOf wins total) := by
  rw [winRate, winRateOf]
  split_ifs with htotal
  · rw [Guard.divide_eq (hg.count htotal), pure_bind]
  · rfl

/-! ## The account -/

def noiseAt (g : Guard α) (seed index : Nat) : Guarded α := do
  let share ← g.divide (ofCount (Noise.fraction seed index))
    (ofCount (Nat.pow 2 52))
  pure (share * (noiseAmplitude - -noiseAmplitude) + -noiseAmplitude)

theorem noiseAt_eq (hg : g.AllowsProgram) (seed index : Nat) :
    noiseAt g seed index = pure (Performance.noiseAt seed index) := by
  have hrange : g.divides (ofCount (Nat.pow 2 52)) = true :=
    hg.count (Nat.pow_pos Nat.two_pos)
  rw [noiseAt, Guard.divide_eq hrange, pure_bind]
  rfl

def accountStep (g : Guard α) (settings : BacktestSettings α)
    (position : Option (OpenPosition α)) (a : Account α) (price : α) :
    Guarded (Account α × α) := do
  let (realised, pending) := settle a.index a.realised a.pending
  let noise ← match settings.noiseSeed with
    | some seed => do
        let change ← noiseAt g seed a.index
        pure (a.noise + change)
    | none => pure a.noise
  pure (⟨a.index + 1, realised, pending, noise⟩,
      settings.capital + realised + holding a.index price pending position +
        noise)

def equityValues (g : Guard α) (settings : BacktestSettings α)
    (record : TradingRecord α) (closes : List α) : Guarded (List α) :=
  loop (fun a _ price => accountStep g settings record.position a price)
    ⟨0, 0, record.closed, 0⟩ 0 closes

theorem equityValues_eq (hg : g.AllowsProgram) (settings : BacktestSettings α)
    (record : TradingRecord α) (closes : List α) :
    equityValues g settings record closes =
      pure (Performance.equityValues settings record closes) := by
  refine loop_eq_sweep_self id ?_
  intro index price a _ _
  rw [accountStep, Account.step]
  cases settings.noiseSeed with
  | none => rfl
  | some seed => simp only [noiseAt_eq hg, pure_bind]; rfl

/-! ## Decline and Sharpe ratio -/

def declineStep (g : Guard α) (s : α × α) (value : α) : Guarded (α × α) :=
  if s.1 < value then pure (value, s.2)
  else if 0 < s.1 then do
    let decline ← g.divide (s.1 - value) s.1
    pure (s.1, larger s.2 decline)
  else pure s

theorem declineStep_eq (hg : g.AllowsProgram) (s : α × α) (value : α) :
    declineStep g s value = pure (Performance.declineStep s value) := by
  rw [declineStep, Performance.declineStep]
  split_ifs with hpeak hpositive
  · rfl
  · rw [Guard.divide_eq (hg.positive hpositive), pure_bind]
  · rfl

def maxDrawdown (g : Guard α) (values : List α) : Guarded α :=
  match values with
  | [] => pure 0
  | first :: _ => do
      let s ← values.foldlM (declineStep g) (first, 0)
      pure (s.2 * 100)

theorem maxDrawdown_eq (hg : g.AllowsProgram) (values : List α) :
    maxDrawdown g values = pure (maxDrawdownOf values) := by
  have hstep : declineStep g =
    fun s value => pure (Performance.declineStep s value) :=
    funext fun s => funext (declineStep_eq hg s)
  cases values with
  | nil => rfl
  | cons first rest => rw [maxDrawdown, hstep, List.foldlM_pure, pure_bind]; rfl

def returns (g : Guard α) (values : List α) : Guarded (List α) :=
  (values.zip values.tail).mapM fun (before, after) =>
    if 0 < before then g.divide (after - before) before else pure 0

theorem returns_eq (hg : g.AllowsProgram) (values : List α) :
    returns g values = pure (returnsOf values) := by
  have hreturn (pair : α × α) :
      (if 0 < pair.1 then g.divide (pair.2 - pair.1) pair.1 else pure 0) =
        pure (if 0 < pair.1 then (pair.2 - pair.1) / pair.1 else 0) := by
    split_ifs with hpositive
    · exact Guard.divide_eq (hg.positive hpositive)
    · rfl
  rw [returns, mapM_eq hreturn, returnsOf, List.zip, List.map_zipWith]

def sharpeRatio (g : Guard α) (values : List α) (ratePerBar : α) : Guarded α :=
  if values.length < 2 then pure 0
  else do
    let changes ← returns g values
    let n : α := ofCount changes.length
    let mean ← g.divide (sum changes) n
    let variance ← g.divide
      (sum (changes.map fun r => (r - mean) * (r - mean))) n
    let deviation ← g.root variance
    if 0 < deviation then
      let excess ← g.divide (mean - ratePerBar) deviation
      let yearly ← g.root barsPerYear
      pure (excess * yearly)
    else pure 0

theorem sharpeRatio_eq
    (hg : g.AllowsProgram)
    (values : List α) (ratePerBar : α) :
    sharpeRatio g values ratePerBar =
      pure (sharpeRatioOf values ratePerBar) := by
  rw [sharpeRatio, sharpeRatioOf]
  split_ifs with hfew
  · rfl
  · have hcount : 0 < (returnsOf values).length := by
      rw [returnsOf, List.length_zipWith, List.length_tail]
      omega
    have hyear : g.hasRoot barsPerYear = true := hg.root_count 252
    simp only [returns_eq hg, pure_bind, Guard.divide_eq (hg.count hcount),
      Guard.root_eq (hg.root_squares _ _ _)]
    split_ifs with hspread
    · rw [Guard.divide_eq (hg.positive hspread), pure_bind, Guard.root_eq hyear,
        pure_bind]
    · rfl

/-! ## All figures -/

def performance (g : Guard α) (series : PriceSeries α)
    (record : TradingRecord α) (settings : BacktestSettings α) :
    Guarded (Performance α) := do
  let total := record.closed.length
  let wins := (record.closed.filter ClosedTrade.isWin).length
  let winRate ← winRate g wins total
  let trades ← record.closed.mapM (tradeRow g series)
  let values ← equityValues g settings record (series.bars.map Bar.close)
  let maxDrawdown ← maxDrawdown g values
  let ratePerBar ← g.divide settings.riskFreeRate barsPerYear
  let sharpeRatio ← sharpeRatio g values ratePerBar
  pure
    { profitLoss := sum (record.closed.map ClosedTrade.profit)
      totalTrades := total
      winningTrades := wins
      losingTrades := total - wins
      winRate := winRate
      maxDrawdown := maxDrawdown
      sharpeRatio := sharpeRatio
      equityCurve := curve values series.bars
      trades := trades }

theorem performance_eq
    (hg : g.AllowsProgram)
    (series : PriceSeries α) (record : TradingRecord α)
    (settings : BacktestSettings α) :
    performance g series record settings =
      pure (Performance.of series record settings) := by
  have hyear : g.divides barsPerYear = true := hg.count (Nat.succ_pos 251)
  rw [performance, winRate_eq hg, pure_bind, mapM_eq (tradeRow_eq hg series),
    pure_bind, equityValues_eq hg, pure_bind, maxDrawdown_eq hg, pure_bind,
    Guard.divide_eq hyear, pure_bind, sharpeRatio_eq hg, pure_bind]
  rfl

/-- In exact arithmetic no divisor is zero, no root is of a negative number and
no logarithm of a number that is not positive: neither in an indicator over any
bars, whatever was asked before, nor in the figures of any record. -/
theorem exact_operations_are_defined (bars : List (Bar ℝ))
    (requests : List (CacheRequest ℝ)) (i : Indicator ℝ)
    (series : PriceSeries ℝ) (record : TradingRecord ℝ)
    (settings : BacktestSettings ℝ) :
    (IndicatorCache.after bars requests).getGuarded .exact bars i =
        .ok ((IndicatorCache.after bars requests).get bars i) ∧
      performance .exact series record settings =
        .ok (Performance.of series record settings) := by
  have hcache := IndicatorCache.faithful_after bars requests
  constructor
  · exact hcache.getGuarded_eq Guard.exact_allowsProgram i
  · exact performance_eq Guard.exact_allowsProgram series record settings

end Guarded
end RuleBacktest
