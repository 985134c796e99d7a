import RuleBacktest.Backtest.Report
import RuleBacktest.Command.Basic
import RuleBacktest.Command.Host
import RuleBacktest.Json.Sorted
import RuleBacktest.PriceFile.Source
import RuleBacktest.Store.Batch

/-!
# Running commands

What each command does on a host.  A command reads its configuration first and
judges it before it reads anything else; what saves and manages strategies needs
of a configuration only the place of the store.  A command that fails tells the
failure and ends with its exit code.
-/

namespace RuleBacktest

open Calendar Host

variable {m : Type → Type} [Monad m] [Host m]

abbrev Attempt (m : Type → Type) (β : Type) : Type :=
  ExceptT Failure m β

/-- The value of an outcome, or its failure. -/
def conclude {β : Type} (outcome : Except Failure β) : Attempt m β :=
  ExceptT.mk (pure outcome)

def ioFailure {β : Type} : Except FileFault β → Except Failure β
  | .ok x => .ok x
  | .error fault => .error (.io fault.message)

namespace Command

def configUnreadable (path reason : String) : Failure :=
  .configParse path ("couldn't read " ++ path ++ ": " ++ reason)

/-- The configuration in a text that was read from a path. -/
def configOf (path : String) : Except FileFault String → Except Failure Ini
  | .error fault => .error (configUnreadable path fault.message)
  | .ok content =>
      match Ini.ofText content with
      | .ok config => .ok config
      | .error fault => .error (configUnreadable path fault.message)

def loadConfig (path : String) : Attempt m Ini := do
  let content ← readText path
  conclude (configOf path content)

def loadValidConfig (path : String) : Attempt m Ini := do
  let config ← loadConfig path
  conclude config.validate
  pure config

def readFile (path : String) : Attempt m String := do
  let content ← readText path
  conclude (ioFailure content)

def readRequest (path : String) : Attempt m BacktestRequest := do
  let content ← readFile path
  conclude (BacktestRequest.ofText content)

/-- The source of the prices of a symbol and an interval. -/
def openSource (config : Ini) (symbol interval : String) :
    Attempt m (PriceSource Float) := do
  match ← conclude config.dataSource with
  | .csv =>
      let directory ← conclude config.csvDirectory
      let content ← readText (PriceFile.path directory symbol interval)
      pure (PriceFile.source (fun _ => content) directory)
  | .sqlite =>
      let name ← conclude config.storePath
      let store ← openStore name >>= conclude
      pure store.content.source

def summaryLines (request : BacktestRequest) (p : Performance Float) :
    List String :=
  ["",
    "=== " ++ request.stockSymbol ++ " (" ++ request.range ++ " / " ++
      request.interval ++ ") ===",
    "Profit/Loss:      " ++ Binary64.fixedText 2 p.profitLoss,
    "Trades:           " ++ toString p.totalTrades ++ " (" ++
      toString p.winningTrades ++ " won, " ++ toString p.losingTrades ++
      " lost)", "Win Rate:         " ++ Binary64.fixedText 1 p.winRate ++ "%",
    "Max Drawdown:     -" ++ Binary64.fixedText 2 p.maxDrawdown ++ "%",
    "Sharpe Ratio:     " ++ Binary64.fixedText 2 p.sharpeRatio]

def sayAll (lines : List String) : m Unit :=
  lines.forM say

def tellAll (lines : List String) : m Unit :=
  lines.forM tell

def runBacktest (configPath requestPath : String) (output : Option String) :
    Attempt m Unit := do
  let config ← loadValidConfig configPath
  let settings ← conclude config.backtestSettings
  let request ← readRequest requestPath
  let source ← openSource config request.stockSymbol request.interval
  let p ← conclude (request.run source settings)
  tellAll (summaryLines request p)
  let report := (ResultDocument.ofPerformance p).report request
  match output with
  | none => say report
  | some path =>
      let written ← writeText path report
      conclude (ioFailure written)
      tell ("Report written to " ++ path)

/-- The counts of the comparisons to enter and to leave, if a run could
begin. -/
def checkRequest (request : BacktestRequest) : Except Failure (Nat × Nat) := do
  let _ ← HistoryRange.ofText request.range
  checkRules Float request.entry request.exit

def runValidate (requestPath : String) : Attempt m Unit := do
  let request ← readRequest requestPath
  let (entry, exit) ← conclude (checkRequest request)
  say ("ok: " ++ toString entry ++ " entry rule(s), " ++ toString exit ++
      " exit rule(s)")

/-- Whether the rules of a saved strategy can be read and compiled. -/
def checkSaved (rules : String) : Except Failure Unit := do
  let saved ← SavedStrategy.ofText rules
  let _ ← checkRules Float saved.entryConfig saved.exitConfig

def strategyLine (t : StoredStrategy) : String :=
  t.id ++ "\t" ++ t.name ++ "\t" ++ t.createdAt.exactTableText

def runLine (r : StrategyRun Float) : String :=
  "\t".intercalate [r.ranAt.exactTableText, r.symbol, r.range, r.interval,
    Binary64.fixedText 2 r.profitLoss, toString r.totalTrades,
    Binary64.fixedText 1 r.winRate]

def runAction (place : String) (store : OpenStore Float) :
    StrategyAction → Attempt m Unit
  | .save name file => do
      let rules ← readFile file
      conclude (checkSaved rules)
      let id ← freshId
      let createdAt ← now
      let content ← conclude store.forChange
      let content ← conclude (content.save ⟨id, name, rules, createdAt⟩)
      keepStore place content >>= conclude
      say id
  | .list => do
      let strategies ← conclude store.content.list
      sayAll (strategies.map strategyLine)
  | .show id => do
      let stored ← conclude (store.content.get id)
      let shown ← conclude (Json.sortedText stored.rules)
      say shown
  | .delete id => do
      let content ← conclude store.forChange
      let content ← conclude (content.delete id)
      keepStore place content >>= conclude
      tell ("Deleted " ++ id)
  | .runs id => do
      let _ ← conclude (store.content.get id)
      let runs ← conclude (store.content.runsOf id)
      sayAll (runs.map runLine)

def runStrategy (configPath : String) (action : StrategyAction) :
    Attempt m Unit := do
  let config ← loadConfig configPath
  let place ← conclude config.storePath
  let store ← openStore place >>= conclude
  runAction place store action

def batchLines (b : BatchSummary Float) : List String :=
  ("Ran " ++ toString b.total ++ " strategies: " ++
    toString b.succeeded.length ++ " succeeded, " ++ toString b.failed.length ++
    " failed") :: b.failed.map fun f =>
      "  " ++ f.strategyName ++ " (" ++ f.strategyId ++ "): " ++
        f.failure.message

/-- Runs the strategies of a store at work on a market, and records what
succeeds. -/
def runOpened (config : Ini) (settings : BacktestSettings Float)
    (schedule : Schedule) (place : String) (store : OpenStore Float) :
    Attempt m (BatchSummary Float) := do
  let source ← openSource config schedule.symbol schedule.interval
  let ran ← store.book.runSaved now source schedule settings store.content
  let (content, summary) ← conclude ran
  if !summary.succeeded.isEmpty then keepStore place content >>= conclude
  pure summary

/-- Runs the strategies of the store that a configuration names on the market
that it schedules. -/
def runBatch (configPath : String) : Attempt m (BatchSummary Float) := do
  let config ← loadValidConfig configPath
  let settings ← conclude config.backtestSettings
  let schedule ← conclude config.schedule
  let place ← conclude config.storePath
  let store ← openStore place >>= conclude
  runOpened config settings schedule place store

def runAllSaved (configPath : String) : Attempt m Unit := do
  let summary ← runBatch configPath
  tellAll (batchLines summary)

def attempt : Command → Attempt m Unit
  | backtest config request output => runBacktest config request output
  | validate request => runValidate request
  | strategy config action => runStrategy config action
  | runSaved config => runAllSaved config

/-- Runs a command and gives its exit code. -/
def run (c : Command) : m Nat := do
  match ← (attempt c : Attempt m Unit).run with
  | .ok () => pure 0
  | .error e =>
      tell ("error: " ++ e.message)
      pure e.exitCode

end Command
end RuleBacktest
