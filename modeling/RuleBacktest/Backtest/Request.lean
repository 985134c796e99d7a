import RuleBacktest.Backtest.Performance
import RuleBacktest.Backtest.Simulate
import RuleBacktest.HistoryRange
import RuleBacktest.Rule.ConfigJson

/-!
# Backtest requests

A request names a symbol, how far back its history goes, the interval of the
bars, and the rules to enter and to leave.  Running it reads the range, fetches
the records, and then runs the rules over the bars among them.
-/

namespace RuleBacktest

open Json

structure BacktestRequest where
  stockSymbol : String
  range : String
  interval : String
  entry : Option RulesConfig
  exit : Option RulesConfig
  deriving Repr

namespace BacktestRequest

def toJson (r : BacktestRequest) : Json :=
  .record [("stockSymbol", ofString r.stockSymbol), ("range", ofString r.range),
    ("interval", ofString r.interval),
    ("entry", orNull RulesConfig.toJson r.entry),
    ("exit", orNull RulesConfig.toJson r.exit)]

def ofJson? : Nat → Json → Option BacktestRequest
  | 0, _ => none
  | depth + 1, j =>
      match members?
        ["stockSymbol", "range", "interval", "entry", "exit"] j with
      | some [stockSymbol, range, interval, entry, exit] => do
          let stockSymbol ← required? string? stockSymbol
          let range ← required? string? range
          let interval ← required? string? interval
          let entry ← optional? (RulesConfig.ofJson? depth) entry
          let exit ← optional? (RulesConfig.ofJson? depth) exit
          some ⟨stockSymbol, range, interval, entry, exit⟩
      | _ => none

def ofText (s : String) : Except Failure BacktestRequest :=
  match (read? s).bind (ofJson? depthLimit) with
  | some request => .ok request
  | none => .error .malformedJson

end BacktestRequest

def HistoryRange.ofText (s : String) : Except Failure HistoryRange :=
  match HistoryRange.ofText? s with
  | some range => .ok range
  | none => .error (.invalidRequest ("unsupported range '" ++ s ++ "'"))

variable {α : Type} [Scalar α]

/-- A source of price records: those of a symbol and an interval inside a range,
or a failure. -/
abbrev PriceSource (α : Type) :=
  String → HistoryRange → String → Except Failure (List (PriceRecord α))

/-- Compiles the rules over a series and measures how they would have traded. -/
def runBacktest (series : PriceSeries α) (entry exit : Option RulesConfig)
    (settings : BacktestSettings α) : Except Failure (Performance α) :=
  if series.bars.isEmpty then .error (.noData series.symbol)
  else do
    let entry ← RulesConfig.groupOf entry
    let exit ← RulesConfig.groupOf exit
    let strategy ← Strategy.ofRules series.bars entry exit
    let record ← strategy.simulate series
    .ok (Performance.of series record settings)

def BacktestRequest.run (r : BacktestRequest) (source : PriceSource α)
    (settings : BacktestSettings α) : Except Failure (Performance α) := do
  let range ← HistoryRange.ofText r.range
  let records ← source r.stockSymbol range r.interval
  runBacktest (PriceSeries.ofRecords r.stockSymbol records) r.entry
    r.exit settings

/-- Compiles the rules over no bars at all, and counts their comparisons. -/
def checkRules (α : Type) [Scalar α] (entry exit : Option RulesConfig) :
    Except Failure (Nat × Nat) := do
  let entry ← RulesConfig.groupOf entry
  let exit ← RulesConfig.groupOf exit
  let _ ← Strategy.ofRules ([] : List (Bar α)) entry exit
  .ok (entry.leafCount, exit.leafCount)

end RuleBacktest
