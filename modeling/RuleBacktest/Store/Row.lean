import RuleBacktest.Backtest.Request
import RuleBacktest.Calendar.Reading
import RuleBacktest.Calendar.Text

/-!
# Rows of a store

What a store keeps of a price record, of a saved strategy and of a run of a
strategy.  A moment is kept as a text, down to the second, and is a moment again
when the row is read.  Of the numbers, one that is not a number is kept as
missing, where a value may be missing at all, and a zero loses its sign.  A
count is kept in 64 bits with a sign; what reads as negative counts as zero.
-/

namespace RuleBacktest

open Calendar Scalar

structure StoredStrategy where
  id : String
  name : String
  rules : String
  createdAt : Moment
  deriving DecidableEq, Repr

structure StrategyRun (α : Type) where
  strategyId : String
  strategyName : String
  symbol : String
  range : String
  interval : String
  profitLoss : α
  totalTrades : Nat
  winRate : α
  ranAt : Moment
  deriving DecidableEq, Repr

structure PriceRow (α : Type) where
  symbol : String
  interval : String
  time : String
  opening : Option α
  high : Option α
  low : Option α
  close : Option α
  adjustedClose : Option α
  volume : Option α
  deriving DecidableEq, Repr

structure StrategyRow where
  id : String
  name : String
  rules : String
  createdAt : String
  deriving DecidableEq, Repr

structure RunRow (α : Type) where
  strategyId : String
  strategyName : String
  symbol : String
  range : String
  interval : String
  profitLoss : α
  totalTrades : Int
  winRate : α
  ranAt : String
  deriving DecidableEq, Repr

variable {α : Type}

def unreadableTime (column : Nat) (fault : ReadingFault) : Failure :=
  .databaseQuery
    ("Conversion error from type Text at index: " ++ toString column ++ ", " ++
      fault.message)

/-- The moment in a column, which is counted from zero. -/
def columnTime (column : Nat) (content : String) : Except Failure Moment :=
  match Moment.ofTableText content with
  | .ok t => .ok t
  | .error fault => .error (unreadableTime column fault)

/-- The value that is kept of a number. -/
def storedValue? [Scalar α] (x : α) : Option α :=
  if x ≤ x then some (if same x 0 then 0 else x) else none

def missingValue (column : String) : Failure :=
  .databaseQuery ("NOT NULL constraint failed: strategy_run_results." ++ column)

/-- The number of different counts that can be kept. -/
def countRange : Nat := Nat.pow 2 64

namespace PriceRow

def ofRecord [Scalar α] (symbol interval : String) (r : PriceRecord α) :
    PriceRow α :=
  ⟨symbol, interval, r.time.tableText, r.opening.bind storedValue?,
    r.high.bind storedValue?, r.low.bind storedValue?,
    r.close.bind storedValue?, r.adjustedClose.bind storedValue?,
    r.volume.bind storedValue?⟩

def record (row : PriceRow α) : Except Failure (PriceRecord α) := do
  let time ← columnTime 0 row.time
  .ok ⟨time, row.opening, row.high, row.low, row.close, row.adjustedClose,
    row.volume⟩

end PriceRow

namespace StrategyRow

def ofStrategy (t : StoredStrategy) : StrategyRow :=
  ⟨t.id, t.name, t.rules, t.createdAt.tableText⟩

def strategy (row : StrategyRow) : Except Failure StoredStrategy := do
  let createdAt ← columnTime 3 row.createdAt
  .ok ⟨row.id, row.name, row.rules, createdAt⟩

/-- Whether a strategy is listed before another, or with it. -/
def listedBefore (a b : StrategyRow) : Bool :=
  decide (a.createdAt < b.createdAt) ||
    (a.createdAt == b.createdAt && decide (a.name ≤ b.name))

end StrategyRow

namespace RunRow

/-- A run without a profit or without a rate of wins cannot be kept. -/
def ofRun [Scalar α] (r : StrategyRun α) : Except Failure (RunRow α) :=
  match storedValue? r.profitLoss, storedValue? r.winRate with
  | none, _ => .error (missingValue "profit_loss")
  | some _, none => .error (missingValue "win_rate")
  | some profitLoss, some winRate =>
      .ok ⟨r.strategyId, r.strategyName, r.symbol, r.range, r.interval,
        profitLoss, Int.bmod r.totalTrades countRange, winRate,
        r.ranAt.tableText⟩

def run (row : RunRow α) : Except Failure (StrategyRun α) := do
  let ranAt ← columnTime 8 row.ranAt
  .ok ⟨row.strategyId, row.strategyName, row.symbol, row.range, row.interval,
    row.profitLoss, row.totalTrades.toNat, row.winRate, ranAt⟩

end RunRow
end RuleBacktest
