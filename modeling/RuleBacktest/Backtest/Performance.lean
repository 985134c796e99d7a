import RuleBacktest.Backtest.Noise
import RuleBacktest.Backtest.Record
import RuleBacktest.Calendar.Text
import RuleBacktest.PriceSeries
import RuleBacktest.Sweep

/-!
# Performance of a run

The account is marked to market at every bar: the capital, what the trades
closed so far have brought, what the position at hand would bring at the close,
and noise if a seed is given, added in this order.  From the curve of these
values come the largest decline and the Sharpe ratio.
-/

namespace RuleBacktest

open Scalar Calendar

structure BacktestSettings (α : Type) where
  capital : α
  riskFreeRate : α
  noiseSeed : Option Nat
  deriving DecidableEq, Repr

structure EquityPoint (α : Type) where
  day : Nat
  value : α
  date : String
  deriving DecidableEq, Repr

structure TradeRow (α : Type) where
  entryDate : String
  entryPrice : α
  exitDate : String
  exitPrice : α
  profit : α
  returnPercent : α
  deriving DecidableEq, Repr

structure Performance (α : Type) where
  profitLoss : α
  totalTrades : Nat
  winningTrades : Nat
  losingTrades : Nat
  winRate : α
  maxDrawdown : α
  sharpeRatio : α
  equityCurve : List (EquityPoint α)
  trades : List (TradeRow α)
  deriving DecidableEq, Repr

variable {α : Type} [Scalar α]

def BacktestSettings.standard : BacktestSettings α := ⟨100000, 0, none⟩

namespace Performance

/-- Adds up the trades at the front that are closed at an index, and gives those
behind them. -/
def settle (index : Nat) (realised : α) :
    List (ClosedTrade α) → α × List (ClosedTrade α)
  | [] => (realised, [])
  | t :: ts =>
      if t.exitIndex ≤ index then settle index (realised + t.profit) ts
      else (realised, t :: ts)

/-- What the position held at an index would bring at a price.  The next trade
to be closed comes before the position that stays open. -/
def holding (index : Nat) (price : α) (pending : List (ClosedTrade α))
    (position : Option (OpenPosition α)) : α :=
  match pending.head?.filter fun t => decide (t.entryIndex ≤ index) with
  | some t => price - t.entryPrice
  | none =>
      match position.filter fun p => decide (p.entryIndex ≤ index) with
      | some p => p.unrealised price
      | none => 0

structure Account (α : Type) where
  index : Nat
  realised : α
  pending : List (ClosedTrade α)
  noise : α

def noiseAmplitude : α := 100

/-- The noise of one bar, between minus and plus the amplitude. -/
def noiseAt (seed index : Nat) : α :=
  ofCount (Noise.fraction seed index) / ofCount (Nat.pow 2 52) *
    (noiseAmplitude - -noiseAmplitude) + -noiseAmplitude

def Account.step (settings : BacktestSettings α)
    (position : Option (OpenPosition α)) (a : Account α) (price : α) :
    Account α × α :=
  let (realised, pending) := settle a.index a.realised a.pending
  let noise := match settings.noiseSeed with
    | some seed => a.noise + noiseAt seed a.index
    | none => a.noise
  (⟨a.index + 1, realised, pending, noise⟩,
    settings.capital + realised + holding a.index price pending position +
      noise)

def equityValues (settings : BacktestSettings α) (record : TradingRecord α)
    (closes : List α) : List α :=
  sweep (Account.step settings record.position) ⟨0, 0, record.closed, 0⟩ closes

/-- The peak so far and the largest decline from a peak, as a fraction of the
peak. -/
def declineStep (s : α × α) (value : α) : α × α :=
  if s.1 < value then (value, s.2)
  else if 0 < s.1 then (s.1, larger s.2 ((s.1 - value) / s.1))
  else s

def maxDrawdownOf (values : List α) : α :=
  match values with
  | [] => 0
  | first :: _ => (values.foldl declineStep (first, 0)).2 * 100

def returnsOf (values : List α) : List α :=
  List.zipWith
    (fun before after => if 0 < before then (after - before) / before else 0)
    values values.tail

def barsPerYear : α := 252

def sharpeRatioOf (values : List α) (ratePerBar : α) : α :=
  if values.length < 2 then 0
  else
    let returns := returnsOf values
    let n : α := ofCount returns.length
    let mean := sum returns / n
    let variance := sum (returns.map fun r => (r - mean) * (r - mean)) / n
    let deviation := sqrt variance
    if 0 < deviation then (mean - ratePerBar) / deviation * sqrt barsPerYear
    else 0

def winRateOf (wins total : Nat) : α :=
  if 0 < total then ofCount wins / ofCount total * 100 else 0

def dateAt (series : PriceSeries α) (index : Nat) : String :=
  ((series.bar? index).map fun b => b.time.reportText).getD ""

def tradeRow (series : PriceSeries α) (t : ClosedTrade α) : TradeRow α :=
  ⟨dateAt series t.entryIndex, t.entryPrice, dateAt series t.exitIndex,
    t.exitPrice, t.profit, t.returnPercent⟩

def curve (values : List α) (bars : List (Bar α)) : List (EquityPoint α) :=
  (values.zip bars).zipIdx.map fun ((value, b), index) =>
    ⟨index + 1, value, b.time.curveLabel⟩

def of (series : PriceSeries α) (record : TradingRecord α)
    (settings : BacktestSettings α) : Performance α :=
  let total := record.closed.length
  let wins := (record.closed.filter ClosedTrade.isWin).length
  let values := equityValues settings record (series.bars.map Bar.close)
  { profitLoss := sum (record.closed.map ClosedTrade.profit)
    totalTrades := total
    winningTrades := wins
    losingTrades := total - wins
    winRate := winRateOf wins total
    maxDrawdown := maxDrawdownOf values
    sharpeRatio := sharpeRatioOf values (settings.riskFreeRate / barsPerYear)
    equityCurve := curve values series.bars
    trades := record.closed.map (tradeRow series) }

end Performance
end RuleBacktest
