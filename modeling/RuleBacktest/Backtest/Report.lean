import RuleBacktest.Backtest.Request

/-!
# Result documents and reports

A result is written to a document with its numbers in the shortest digits and
the return of each trade in percent to two places.  A report puts the symbol,
the range and the interval of the request in front of it.
-/

namespace RuleBacktest

open Json

structure TradeDocument where
  kind : String
  entryDate : String
  entryPrice : Float
  exitDate : String
  exitPrice : Float
  profit : Float
  returnText : String

structure ResultDocument where
  profitLoss : Float
  totalTrades : Nat
  winningTrades : Nat
  losingTrades : Nat
  winRate : Float
  maxDrawdown : Float
  sharpeRatio : Float
  equityCurve : List (EquityPoint Float)
  trades : List TradeDocument

def EquityPoint.toJson (p : EquityPoint Float) : Json :=
  .record [("day", ofNat p.day), ("value", ofFloat p.value),
    ("date", ofString p.date)]

def EquityPoint.ofJson? : Nat → Json → Option (EquityPoint Float)
  | 0, _ => none
  | _ + 1, j =>
      match members? ["day", "value", "date"] j with
      | some [day, value, date] => do
          let day ← required? count? day
          let value ← required? float? value
          let date ← required? string? date
          some ⟨day, value, date⟩
      | _ => none

namespace TradeDocument

def ofRow (row : TradeRow Float) : TradeDocument :=
  ⟨"BUY", row.entryDate, row.entryPrice, row.exitDate, row.exitPrice,
    row.profit, Binary64.fixedText 2 row.returnPercent⟩

def toJson (t : TradeDocument) : Json :=
  .record [("type", ofString t.kind), ("entryDate", ofString t.entryDate),
    ("entryPrice", ofFloat t.entryPrice), ("exitDate", ofString t.exitDate),
    ("exitPrice", ofFloat t.exitPrice), ("profit", ofFloat t.profit),
    ("return", ofString t.returnText)]

def ofJson? : Nat → Json → Option TradeDocument
  | 0, _ => none
  | _ + 1, j =>
      match members? ["type", "entryDate", "entryPrice", "exitDate",
          "exitPrice", "profit", "return"] j with
      | some [kind, entryDate, entryPrice, exitDate, exitPrice, profit,
          returnText] => do
          let kind ← required? string? kind
          let entryDate ← required? string? entryDate
          let entryPrice ← required? float? entryPrice
          let exitDate ← required? string? exitDate
          let exitPrice ← required? float? exitPrice
          let profit ← required? float? profit
          let returnText ← required? string? returnText
          some ⟨kind, entryDate, entryPrice, exitDate, exitPrice, profit,
            returnText⟩
      | _ => none

end TradeDocument

namespace ResultDocument

def ofPerformance (p : Performance Float) : ResultDocument :=
  ⟨p.profitLoss, p.totalTrades, p.winningTrades, p.losingTrades, p.winRate,
    p.maxDrawdown, p.sharpeRatio, p.equityCurve,
    p.trades.map TradeDocument.ofRow⟩

def fields (r : ResultDocument) : List (String × Json) :=
  [("profitLoss", ofFloat r.profitLoss), ("totalTrades", ofNat r.totalTrades),
    ("winningTrades", ofNat r.winningTrades),
    ("losingTrades", ofNat r.losingTrades), ("winRate", ofFloat r.winRate),
    ("maxDrawdown", ofFloat r.maxDrawdown),
    ("sharpeRatio", ofFloat r.sharpeRatio),
    ("equityCurve", .list (r.equityCurve.map EquityPoint.toJson)),
    ("trades", .list (r.trades.map TradeDocument.toJson))]

def toJson (r : ResultDocument) : Json :=
  .record r.fields

def ofJson? : Nat → Json → Option ResultDocument
  | 0, _ => none
  | depth + 1, j =>
      match members? ["profitLoss", "totalTrades", "winningTrades",
          "losingTrades", "winRate", "maxDrawdown", "sharpeRatio",
          "equityCurve", "trades"] j with
      | some [profitLoss, totalTrades, winningTrades, losingTrades, winRate,
          maxDrawdown, sharpeRatio, equityCurve, trades] => do
          let profitLoss ← required? float? profitLoss
          let totalTrades ← required? count? totalTrades
          let winningTrades ← required? count? winningTrades
          let losingTrades ← required? count? losingTrades
          let winRate ← required? float? winRate
          let maxDrawdown ← required? float? maxDrawdown
          let sharpeRatio ← required? float? sharpeRatio
          let equityCurve ← required? (items? EquityPoint.ofJson? depth)
            equityCurve
          let trades ← required? (items? TradeDocument.ofJson? depth) trades
          some ⟨profitLoss, totalTrades, winningTrades, losingTrades, winRate,
            maxDrawdown, sharpeRatio, equityCurve, trades⟩
      | _ => none

def ofText (s : String) : Except Failure ResultDocument :=
  match (read? s).bind (ofJson? depthLimit) with
  | some result => .ok result
  | none => .error .malformedJson

/-- The report on a request, indented. -/
def report (r : ResultDocument) (request : BacktestRequest) : String :=
  (Json.record
    ([("stockSymbol", ofString request.stockSymbol),
      ("range", ofString request.range),
      ("interval", ofString request.interval)] ++ r.fields)).indented

end ResultDocument
end RuleBacktest
