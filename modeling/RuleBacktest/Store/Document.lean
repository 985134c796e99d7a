import RuleBacktest.Json.Decode
import RuleBacktest.Json.Writer
import RuleBacktest.Store.Basic

/-!
# Store documents

The text in which a store is kept between commands: its three tables, each in
its own order. Numbers are written in the shortest digits, and infinities as
texts, so that every number reads back as it was.
-/

namespace RuleBacktest

open Json

namespace StoreDocument

def number (x : Float) : Json :=
  match Binary64.documentText? x with
  | some spelling => .number spelling
  | none => ofString (Binary64.plainText x)

def number? : Json → Option Float
  | .number spelling => Binary64.ofText? spelling
  | .text (some s) => Binary64.ofText? s
  | _ => none

def integer? : Json → Option Int
  | .number spelling => Text.integer? Text.maxSigned64 spelling
  | _ => none

def price (row : PriceRow Float) : Json :=
  .list [ofString row.symbol, ofString row.interval, ofString row.time,
    orNull number row.opening, orNull number row.high, orNull number row.low,
    orNull number row.close, orNull number row.adjustedClose,
    orNull number row.volume]

def price? : Json → Option (PriceRow Float)
  | .list [symbol, interval, time, opening, high, low, close, adjustedClose,
      volume] => do
      let symbol ← string? symbol
      let interval ← string? interval
      let time ← string? time
      let opening ← optional? number? (some opening)
      let high ← optional? number? (some high)
      let low ← optional? number? (some low)
      let close ← optional? number? (some close)
      let adjustedClose ← optional? number? (some adjustedClose)
      let volume ← optional? number? (some volume)
      some ⟨symbol, interval, time, opening, high, low, close, adjustedClose,
        volume⟩
  | _ => none

def strategy (row : StrategyRow) : Json :=
  .list [ofString row.id, ofString row.name, ofString row.rules,
    ofString row.createdAt]

def strategy? : Json → Option StrategyRow
  | .list [id, name, rules, createdAt] => do
      let id ← string? id
      let name ← string? name
      let rules ← string? rules
      let createdAt ← string? createdAt
      some ⟨id, name, rules, createdAt⟩
  | _ => none

def run (row : RunRow Float) : Json :=
  .list [ofString row.strategyId, ofString row.strategyName,
    ofString row.symbol, ofString row.range, ofString row.interval,
    number row.profitLoss, ofInt row.totalTrades, number row.winRate,
    ofString row.ranAt]

def run? : Json → Option (RunRow Float)
  | .list [strategyId, strategyName, symbol, range, interval, profitLoss,
      totalTrades, winRate, ranAt] => do
      let strategyId ← string? strategyId
      let strategyName ← string? strategyName
      let symbol ← string? symbol
      let range ← string? range
      let interval ← string? interval
      let profitLoss ← number? profitLoss
      let totalTrades ← integer? totalTrades
      let winRate ← number? winRate
      let ranAt ← string? ranAt
      some ⟨strategyId, strategyName, symbol, range, interval, profitLoss,
        totalTrades, winRate, ranAt⟩
  | _ => none

def rows? {β : Type} (read : Json → Option β) : Json → Option (List β)
  | .list items => items.mapM read
  | _ => none

end StoreDocument

namespace Store

def toJson (s : Store Float) : Json :=
  .record [("prices", .list (s.prices.map StoreDocument.price)),
    ("strategies", .list (s.strategies.map StoreDocument.strategy)),
    ("runs", .list (s.runs.map StoreDocument.run))]

def ofJson? (j : Json) : Option (Store Float) :=
  match members? ["prices", "strategies", "runs"] j with
  | some [prices, strategies, runs] => do
      let prices ← required? (StoreDocument.rows? StoreDocument.price?) prices
      let strategies ← required? (StoreDocument.rows? StoreDocument.strategy?)
        strategies
      let runs ← required? (StoreDocument.rows? StoreDocument.run?) runs
      some ⟨prices, strategies, runs⟩
  | _ => none

/-- The store in the text of a file.  A file without a character in it is an
empty store. -/
def ofText (content : String) : Except Failure (Store Float) :=
  if content.isEmpty then .ok .empty
  else
    match (read? content).bind ofJson? with
    | some store => .ok store
    | none => .error Store.unreadable

end Store
end RuleBacktest
