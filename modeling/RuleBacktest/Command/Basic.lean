/-!
# Commands

What a command line can ask for.  Configurations, requests and strategies are
named by the paths of their files, and saved strategies by their ids.
-/

namespace RuleBacktest

inductive StrategyAction where
  | save (name file : String)
  | list
  | show (id : String)
  | delete (id : String)
  | runs (id : String)
  deriving DecidableEq, Repr

inductive Command where
  | backtest (config request : String) (output : Option String)
  | validate (request : String)
  | strategy (config : String) (action : StrategyAction)
  | runSaved (config : String)
  deriving DecidableEq, Repr

end RuleBacktest
