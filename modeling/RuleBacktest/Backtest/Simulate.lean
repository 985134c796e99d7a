import RuleBacktest.Backtest.Record
import RuleBacktest.Rule.Compile

/-!
# Simulation of a strategy

The simulation goes through the bars once.  On each bar it asks one predicate:
the entry predicate while there is no position, and the exit predicate while
there is one.  It trades at the close.
-/

namespace RuleBacktest

variable {α : Type} [Scalar α]

namespace Strategy

def tradeAt (s : Strategy α) (r : TradingRecord α) (index : Nat) (price : α) :
    TradingRecord α :=
  if r.isFlat then
    if s.entry.holds index then (r.enter? index price).getD r else r
  else
    if s.exit.holds index then (r.leave? index price).getD r else r

def trade (s : Strategy α) (bars : List (Bar α)) : TradingRecord α :=
  bars.zipIdx.foldl (fun r (b, index) => s.tradeAt r index b.close) .empty

def simulate (s : Strategy α) (series : PriceSeries α) :
    Except Failure (TradingRecord α) :=
  if series.bars.isEmpty then .error (.noData series.symbol)
  else .ok (s.trade series.bars)

end Strategy
end RuleBacktest
