import RuleBacktest.Command.Workspace
import RuleBacktest.Indicator.Text
import RuleBacktest.Main
import RuleBacktest.Rule.Meaning
import RuleBacktest.Proofs.Batch.Isolation
import RuleBacktest.Proofs.Cache.Growth
import RuleBacktest.Proofs.Causality.Indicator
import RuleBacktest.Proofs.Causality.Rule
import RuleBacktest.Proofs.Command.SavedStrategies
import RuleBacktest.Proofs.Compilation.Joining
import RuleBacktest.Proofs.Compilation.Meaning
import RuleBacktest.Proofs.History.Request
import RuleBacktest.Proofs.Indicator.WarmUp
import RuleBacktest.Proofs.Rule.SavedForm
import RuleBacktest.Proofs.Store.Ledger
import RuleBacktest.Proofs.Trading.Alternation
import RuleBacktest.Proofs.Trading.MarkToMarket
import RuleBacktest.Proofs.Trading.NoLookAhead
import RuleBacktest.Proofs.Trading.Validation
import RuleBacktest.Proofs.Calendar.TableText
import RuleBacktest.Proofs.Store.Row
import RuleBacktest.Proofs.File.Tree
import RuleBacktest.Proofs.Batch.Soundness
import RuleBacktest.Proofs.Command.Attempt
import RuleBacktest.Proofs.Store.Opening
import RuleBacktest.Proofs.Sorting
import RuleBacktest.Proofs.Store.Prices
import RuleBacktest.Proofs.PriceFile.RowOrder
import RuleBacktest.Proofs.Rule.WireForm
import RuleBacktest.Proofs.Scale.Backtest
import RuleBacktest.Proofs.Settings.Written
import RuleBacktest.Proofs.Window.Deviation
import RuleBacktest.Proofs.Window.Sums
import RuleBacktest.Proofs.Window.Extreme
import RuleBacktest.Proofs.Window.Restart
import RuleBacktest.Proofs.Compilation.Reading
import RuleBacktest.Proofs.Rule.RequestForm
import RuleBacktest.Proofs.Compilation.Crossing
import RuleBacktest.Proofs.Trading.Drawdown
import RuleBacktest.Proofs.History.RunningMaxima
import RuleBacktest.Proofs.Trading.Idle
import RuleBacktest.Proofs.Indicator.StopSide
import RuleBacktest.Proofs.Indicator.SuperTrend
import RuleBacktest.Proofs.Indicator.Position
import RuleBacktest.Proofs.Indicator.Bands
import RuleBacktest.Proofs.Calendar.Reach
import RuleBacktest.Proofs.History.Clipping
import RuleBacktest.Proofs.History.RangeText
import RuleBacktest.Proofs.Guarded.Operation
import RuleBacktest.Proofs.Guarded.Permission
import RuleBacktest.Proofs.Guarded.Window
import RuleBacktest.Proofs.Guarded.Indicator
import RuleBacktest.Proofs.Guarded.Cache
import RuleBacktest.Proofs.Guarded.Performance
import RuleBacktest.Proofs.Registry.Resolution
