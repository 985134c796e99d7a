import RuleBacktest.Json.Decode
import RuleBacktest.Json.Writer
import RuleBacktest.Rule.Config

/-!
# Configured rule trees in JSON

Fields are written in a fixed order, and those of a rule node that are absent
are left out.  Values of literals and parameters are read from texts, numbers
and truth values alike.
-/

namespace RuleBacktest

open Json

namespace RuleParam

def toJson (p : RuleParam) : Json :=
  .record [("name", ofString p.name), ("value", ofString p.value)]

def ofJson? : Nat → Json → Option RuleParam
  | 0, _ => none
  | _ + 1, j =>
      match members? ["name", "value"] j with
      | some [name, value] => do
          let name ← required? string? name
          let value ← required? scalarText? value
          some ⟨name, value⟩
      | _ => none

def listToJson (ps : List RuleParam) : Json :=
  .list (ps.map toJson)

end RuleParam

namespace RuleFields

def beforeRules (f : RuleFields) : List (String × Json) :=
  ifPresent "indicator" ofString f.indicator ++
    ifPresent "params" RuleParam.listToJson f.params ++
    ifPresent "operator" ofString f.operator ++
    ifPresent "compareType" ofString f.compareType ++
    ifPresent "value" ofString f.value ++
    ifPresent "compareIndicator" ofString f.compareIndicator ++
    ifPresent "compareParams" RuleParam.listToJson f.compareParams ++
    ifPresent "condition" ofString f.condition

end RuleFields

mutual

def RuleConfig.toJson : RuleConfig → Json
  | .node fields none => .record fields.beforeRules
  | .node fields (some rules) =>
      .record
        (fields.beforeRules ++ [("rules", .list (RuleConfig.toJsons rules))])

def RuleConfig.toJsons : List RuleConfig → List Json
  | [] => []
  | rule :: rules => rule.toJson :: RuleConfig.toJsons rules

end

mutual

def RuleConfig.ofJson? : Nat → Json → Option RuleConfig
  | 0, _ => none
  | depth + 1, j =>
      match members? ["indicator", "params", "operator", "compareType", "value",
          "compareIndicator", "compareParams", "condition", "rules"] j with
      | some [indicator, params, operator, compareType, value,
          compareIndicator, compareParams, condition, rules] => do
          let indicator ← optional? string? indicator
          let params ← optional? (items? RuleParam.ofJson? depth) params
          let operator ← optional? string? operator
          let compareType ← optional? string? compareType
          let value ← optional? scalarText? value
          let compareIndicator ← optional? string? compareIndicator
          let compareParams ← optional? (items? RuleParam.ofJson? depth)
            compareParams
          let condition ← optional? string? condition
          let rules ← optional? (RuleConfig.listOfJson? depth) rules
          some (.node ⟨indicator, params, operator, compareType, value,
              compareIndicator, compareParams, condition⟩ rules)
      | _ => none

def RuleConfig.listOfJson? : Nat → Json → Option (List RuleConfig)
  | 0, _ => none
  | depth + 1, .list items => items.mapM (RuleConfig.ofJson? depth)
  | _ + 1, _ => none

end

namespace RulesConfig

def toJson (c : RulesConfig) : Json :=
  .record (ifPresent "condition" ofString c.condition ++
    ifPresent "rules" (fun rules => .list (RuleConfig.toJsons rules)) c.rules)

def ofJson? : Nat → Json → Option RulesConfig
  | 0, _ => none
  | depth + 1, j =>
      match members? ["condition", "rules"] j with
      | some [condition, rules] => do
          let condition ← optional? string? condition
          let rules ← optional? (RuleConfig.listOfJson? depth) rules
          some ⟨condition, rules⟩
      | _ => none

def ofText? (s : String) : Option RulesConfig :=
  (read? s).bind (ofJson? depthLimit)

end RulesConfig

mutual

def SavedNode.toJson : SavedNode → Json
  | .node kind condition none rule =>
      .record
        (ifPresent "type" ofString kind ++
          ifPresent "condition" ofString condition ++
          ifPresent "rule" RuleConfig.toJson rule)
  | .node kind condition (some nodes) rule =>
      .record
        (ifPresent "type" ofString kind ++
          ifPresent "condition" ofString condition ++
          [("rules", .list (SavedNode.toJsons nodes))] ++
          ifPresent "rule" RuleConfig.toJson rule)

def SavedNode.toJsons : List SavedNode → List Json
  | [] => []
  | first :: rest => first.toJson :: SavedNode.toJsons rest

end

mutual

def SavedNode.ofJson? : Nat → Json → Option SavedNode
  | 0, _ => none
  | depth + 1, j =>
      match members? ["type", "condition", "rules", "rule"] j with
      | some [kind, condition, rules, rule] => do
          let kind ← optional? string? kind
          let condition ← optional? string? condition
          let rules ← optional? (SavedNode.listOfJson? depth) rules
          let rule ← optional? (RuleConfig.ofJson? depth) rule
          some (.node kind condition rules rule)
      | _ => none

def SavedNode.listOfJson? : Nat → Json → Option (List SavedNode)
  | 0, _ => none
  | depth + 1, .list items => items.mapM (SavedNode.ofJson? depth)
  | _ + 1, _ => none

end

namespace SavedGroup

def toJson (g : SavedGroup) : Json :=
  .record (ifPresent "condition" ofString g.condition ++
    ifPresent "rules" (fun nodes => .list (SavedNode.toJsons nodes)) g.rules)

def ofJson? : Nat → Json → Option SavedGroup
  | 0, _ => none
  | depth + 1, j =>
      match members? ["condition", "rules"] j with
      | some [condition, rules] => do
          let condition ← optional? string? condition
          let rules ← optional? (SavedNode.listOfJson? depth) rules
          some ⟨condition, rules⟩
      | _ => none

end SavedGroup

namespace SavedStrategy

def toJson (s : SavedStrategy) : Json :=
  .record [("entryRules", orNull SavedGroup.toJson s.entryRules),
    ("exitRules", orNull SavedGroup.toJson s.exitRules)]

def ofJson? : Nat → Json → Option SavedStrategy
  | 0, _ => none
  | depth + 1, j =>
      match members? ["entryRules", "exitRules"] j with
      | some [entryRules, exitRules] => do
          let entryRules ← optional? (SavedGroup.ofJson? depth) entryRules
          let exitRules ← optional? (SavedGroup.ofJson? depth) exitRules
          some ⟨entryRules, exitRules⟩
      | _ => none

def ofText (s : String) : Except Failure SavedStrategy :=
  match (read? s).bind (ofJson? depthLimit) with
  | some saved => .ok saved
  | none => .error .malformedJson

end SavedStrategy
end RuleBacktest
