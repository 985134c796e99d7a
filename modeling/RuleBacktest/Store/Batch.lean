import RuleBacktest.Settings.Load
import RuleBacktest.Store.Place

/-!
# Runs of all saved strategies

Every saved strategy is run once on the scheduled market, in the order of the
list and at the moment when its turn comes.  A run that succeeds is recorded; a
failure, of the run or of recording it, is kept with the strategy that failed
and stops nothing.
-/

namespace RuleBacktest

open Calendar

variable {α σ : Type}

structure StrategyFailure where
  strategyId : String
  strategyName : String
  failure : Failure
  deriving DecidableEq, Repr

structure BatchSummary (α : Type) where
  succeeded : List (StrategyRun α)
  failed : List StrategyFailure
  deriving DecidableEq, Repr

def BatchSummary.total (b : BatchSummary α) : Nat :=
  b.succeeded.length + b.failed.length

/-- What lists saved strategies and records their runs. -/
structure StrategyBook (σ α : Type) where
  list : σ → Except Failure (List StoredStrategy)
  record : σ → StrategyRun α → Except Failure σ

/-- The request with which a saved strategy runs on a schedule. -/
def StoredStrategy.request (t : StoredStrategy) (schedule : Schedule) :
    Except Failure BacktestRequest := do
  let saved ← SavedStrategy.ofText t.rules
  .ok ⟨schedule.symbol, schedule.range, schedule.interval, saved.entryConfig,
    saved.exitConfig⟩

namespace Batch

/-- What one strategy achieves on the scheduled market. -/
def runOne [Scalar α] (source : PriceSource α) (schedule : Schedule)
    (settings : BacktestSettings α) (t : StoredStrategy) (ranAt : Moment) :
    Except Failure (StrategyRun α) := do
  let request ← t.request schedule
  let p ← request.run source settings
  .ok ⟨t.id, t.name, request.stockSymbol, request.range, request.interval,
    p.profitLoss, p.totalTrades, p.winRate, ranAt⟩

/-- Records what a run achieved, if it achieved anything. -/
def recordOne (book : StrategyBook σ α) (log : σ)
    (outcome : Except Failure (StrategyRun α)) :
    Except Failure (σ × StrategyRun α) := do
  let r ← outcome
  let log ← book.record log r
  .ok (log, r)

def step (book : StrategyBook σ α)
    (run : StoredStrategy → Moment → Except Failure (StrategyRun α))
    (state : σ × BatchSummary α) (t : StoredStrategy) (ranAt : Moment) :
    σ × BatchSummary α :=
  let (log, summary) := state
  match recordOne book log (run t ranAt) with
  | .ok (log, r) =>
      (log, { summary with succeeded := summary.succeeded ++ [r] })
  | .error e =>
      (log, { summary with failed := summary.failed ++ [⟨t.id, t.name, e⟩] })

/-- Runs strategies one after the other.  The clock is read before each. -/
def runEach {m : Type → Type} [Monad m] (clock : m Moment)
    (book : StrategyBook σ α)
    (run : StoredStrategy → Moment → Except Failure (StrategyRun α)) (log : σ)
    (strategies : List StoredStrategy) : m (σ × BatchSummary α) :=
  strategies.foldlM
    (fun state t => do
      let ranAt ← clock
      return step book run state t ranAt)
    (log, ⟨[], []⟩)

end Batch

/-- Runs the strategies that are listed over a source of prices. -/
def StrategyBook.runSaved {m : Type → Type} [Monad m] [Scalar α]
    (book : StrategyBook σ α) (clock : m Moment) (source : PriceSource α)
    (schedule : Schedule) (settings : BacktestSettings α) (log : σ) :
    m (Except Failure (σ × BatchSummary α)) :=
  match book.list log with
  | .error e => return .error e
  | .ok strategies => do
      let ran ← Batch.runEach clock book (Batch.runOne source schedule settings)
        log strategies
      return .ok ran

def Store.book [Scalar α] : StrategyBook (Store α) α :=
  ⟨Store.list, Store.recordRun⟩

/-- The strategies and runs of a store at work.  Where it may not be written, no
run is recorded. -/
def OpenStore.book [Scalar α] (s : OpenStore α) : StrategyBook (Store α) α :=
  ⟨Store.list, s.recordRun⟩

end RuleBacktest
