/-!
# Errors

The causes for which a request is refused or a run fails, with the text and the
exit code of each.
-/

namespace RuleBacktest

inductive Failure where
  | unknownIndicator (name : String)
  | unknownOperator (operator : String)
  | invalidRuleValue (value : String)
  | invalidRule (reason : String)
  | noData (symbol : String)
  | invalidRequest (reason : String)
  | strategyNotFound (id : String)
  | database (reason : String)
  | databaseQuery (reason : String)
  | configParse (file reason : String)
  | configMissing (group key : String)
  | configInvalid (group key reason : String)
  | malformedJson
  | io (reason : String)
  deriving DecidableEq, Repr

namespace Failure

def message : Failure → String
  | unknownIndicator name => "unknown indicator: " ++ name
  | unknownOperator operator => "unknown operator: " ++ operator
  | invalidRuleValue value =>
      "invalid rule value '" ++ value ++ "': expected a number"
  | invalidRule reason => "invalid rule: " ++ reason
  | noData symbol => "no price data for " ++ symbol
  | invalidRequest reason => "invalid request: " ++ reason
  | strategyNotFound id => "strategy not found: " ++ id
  | database reason => "database error: " ++ reason
  | databaseQuery reason => "database query error: " ++ reason
  | configParse file reason =>
      "config parse error in " ++ file ++ ": " ++ reason
  | configMissing group key => "missing config key [" ++ group ++ "] " ++ key
  | configInvalid group key reason =>
      "invalid config value [" ++ group ++ "] " ++ key ++ ": " ++ reason
  | malformedJson => "malformed JSON"
  | io reason => reason

/-- Whether the failure arises while a rule tree is turned into a predicate. -/
def isCompilation : Failure → Bool
  | unknownIndicator _ => true
  | unknownOperator _ => true
  | invalidRuleValue _ => true
  | invalidRule _ => true
  | _ => false

def exitCode : Failure → Nat
  | io _ => 1
  | configParse _ _ => 2
  | configMissing _ _ => 2
  | configInvalid _ _ _ => 2
  | database _ => 3
  | databaseQuery _ => 3
  | strategyNotFound _ => 3
  | unknownIndicator _ => 4
  | unknownOperator _ => 4
  | invalidRuleValue _ => 4
  | invalidRule _ => 4
  | malformedJson => 4
  | noData _ => 5
  | invalidRequest _ => 5

end Failure
end RuleBacktest
