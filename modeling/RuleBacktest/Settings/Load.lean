import RuleBacktest.Backtest.Request
import RuleBacktest.Scalar.Binary64
import RuleBacktest.Settings.Ini

/-!
# Settings out of a configuration

Where prices come from, how a backtest is accounted for, and which market saved
strategies run on. Every setting has a value that holds when it is not given;
one that is given and out of bounds is refused.
-/

namespace RuleBacktest

inductive DataSource where
  | csv
  | sqlite
  deriving DecidableEq, Repr

def DataSource.text : DataSource → String
  | csv => "csv"
  | sqlite => "sqlite"

structure Schedule where
  symbol : String := "TCS.NS"
  range : String := "1y"
  interval : String := "1d"
  deriving DecidableEq, Repr

namespace Ini

def dataSource (c : Ini) : Except Failure DataSource :=
  let word := Text.lower ((c.nonBlank? "data" "source").getD "csv")
  if word = "csv" then .ok .csv
  else if word = "sqlite" then .ok .sqlite
  else
    .error (.configInvalid "data" "source"
      ("unknown data source '" ++ word ++ "', expected csv or sqlite"))

def required (c : Ini) (group key : String) : Except Failure String :=
  match c.nonBlank? group key with
  | some value => .ok value
  | none => .error (.configMissing group key)

def csvDirectory (c : Ini) : Except Failure String :=
  c.required "data" "csv_dir"

def storePath (c : Ini) : Except Failure String := c.required "sqlite" "path"

def poolSize (c : Ini) : Except Failure Int :=
  let size := c.integer "sqlite" "pool_size" 4
  if 1 ≤ size ∧ size ≤ 64 then .ok size
  else .error
    (.configInvalid "sqlite" "pool_size" "pool_size must be between 1 and 64")

def double (c : Ini) (group key : String) (otherwise : Float) : Float :=
  ((c.numeral? group key).map Binary64.ofNumeral).getD otherwise

def capital (c : Ini) : Except Failure Float :=
  let x := c.double "backtest" "initial_capital" 100000
  if x.isFinite && decide (0 < x) then .ok x
  else .error
    (.configInvalid "backtest" "initial_capital"
      "initial_capital must be positive")

def riskFreeRate (c : Ini) : Except Failure Float :=
  let x := c.double "backtest" "risk_free_rate" 0
  if 0 ≤ x ∧ x < 1 then .ok x
  else .error
    (.configInvalid "backtest" "risk_free_rate"
      "risk_free_rate must be between 0 and 1")

def noiseSeed (c : Ini) : Except Failure (Option Nat) :=
  match c.nonBlank? "backtest" "equity_noise_seed" with
  | none => .ok none
  | some raw =>
      match Text.count? Text.maxUnsigned64 raw with
      | some seed => .ok (some seed)
      | none =>
          .error (.configInvalid "backtest" "equity_noise_seed"
            ("'" ++ raw ++ "' is not an unsigned integer"))

def backtestSettings (c : Ini) : Except Failure (BacktestSettings Float) := do
  let capital ← c.capital
  let riskFreeRate ← c.riskFreeRate
  let noiseSeed ← c.noiseSeed
  .ok ⟨capital, riskFreeRate, noiseSeed⟩

def schedule (c : Ini) : Except Failure Schedule :=
  let standard : Schedule := {}
  let s : Schedule :=
    ⟨(c.nonBlank? "schedule" "symbol").getD standard.symbol,
      (c.nonBlank? "schedule" "range").getD standard.range,
      (c.nonBlank? "schedule" "interval").getD standard.interval⟩
  match HistoryRange.ofText s.range with
  | .ok _ => .ok s
  | .error e => .error (.configInvalid "schedule" "range" e.message)

/-- Checks the location of the prices, the accounting and the schedule, in this
order. -/
def validate (c : Ini) : Except Failure Unit := do
  match ← c.dataSource with
  | .csv => let _ ← c.csvDirectory
  | .sqlite => let _ ← c.storePath
  let _ ← c.backtestSettings
  let _ ← c.schedule

end Ini
end RuleBacktest
