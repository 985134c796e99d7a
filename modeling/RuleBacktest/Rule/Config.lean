import RuleBacktest.Error
import RuleBacktest.Rule.Tree

/-!
# Rule trees as they are configured

Requests carry rule trees in one form, and saved strategies in another.  In a
request a node is a group when it has a list of rules that is not empty, and a
comparison otherwise.  In a saved strategy a node says of itself that it is a
group; any other node carries its comparison under a field of its own.  The
saved form becomes the request form, and that becomes a rule tree.
-/

namespace RuleBacktest

open Text

/-- What a node of the request form says, its list of rules excepted. -/
structure RuleFields where
  indicator : Option String := none
  params : Option (List RuleParam) := none
  operator : Option String := none
  compareType : Option String := none
  value : Option String := none
  compareIndicator : Option String := none
  compareParams : Option (List RuleParam) := none
  condition : Option String := none
  deriving DecidableEq, Repr

inductive RuleConfig where
  | node (fields : RuleFields) (rules : Option (List RuleConfig))
  deriving Repr

structure RulesConfig where
  condition : Option String
  rules : Option (List RuleConfig)
  deriving Repr

inductive SavedNode where
  | node (kind condition : Option String) (rules : Option (List SavedNode))
      (rule : Option RuleConfig)
  deriving Repr

structure SavedGroup where
  condition : Option String
  rules : Option (List SavedNode)
  deriving Repr

structure SavedStrategy where
  entryRules : Option SavedGroup
  exitRules : Option SavedGroup
  deriving Repr

def combinatorOf (condition : Option String) : Option Combinator :=
  condition.bind Combinator.ofText?

namespace RuleFields

def nameless : Failure :=
  .invalidRule "rule has neither an indicator nor nested rules"

def withoutOther (name : String) : Failure :=
  .invalidRule (name ++ ": indicator comparison without compareIndicator")

def unknownType (kind : String) : Failure :=
  .invalidRule ("unknown compareType '" ++ kind ++ "'")

/-- The kind of comparison.  Where none is stated, naming another indicator
states it. -/
def comparisonKind (f : RuleFields) : String :=
  match f.compareType.bind nonBlank? with
  | some kind => lowerAscii kind
  | none =>
      if (f.compareIndicator.bind nonBlank?).isSome then "indicator"
      else "value"

def target (f : RuleFields) (name : String) : Except Failure CompareTarget :=
  let kind := f.comparisonKind
  if kind = "value" then .ok (.value (f.value.getD ""))
  else if kind = "indicator" then
    match f.compareIndicator.bind nonBlank? with
    | some other => .ok (.indicator ⟨other, f.compareParams.getD []⟩)
    | none => .error (withoutOther name)
  else .error (unknownType kind)

def comparison (f : RuleFields) : Except Failure Comparison :=
  match f.indicator.bind nonBlank? with
  | none => .error nameless
  | some name =>
      (f.target name).map fun target =>
        ⟨⟨name, f.params.getD []⟩, f.operator.getD "", target⟩

end RuleFields

mutual

/-- The child of a group that a node stands for.  The condition of a comparison
joins it to what comes before it; the condition of a group joins the children of
that group. -/
def RuleConfig.toChild :
    RuleConfig → Except Failure (Option Combinator × RuleNode)
  | .node fields none => do
      let c ← fields.comparison
      .ok (combinatorOf fields.condition, .comparison c)
  | .node fields (some []) => do
      let c ← fields.comparison
      .ok (combinatorOf fields.condition, .comparison c)
  | .node fields (some (rule :: rules)) => do
      let child ← rule.toChild
      let children ← RuleConfig.toChildren rules
      .ok (none,
          .group ((combinatorOf fields.condition).getD .and)
            (child :: children))

def RuleConfig.toChildren :
    List RuleConfig → Except Failure (List (Option Combinator × RuleNode))
  | [] => .ok []
  | rule :: rules => do
      let child ← rule.toChild
      let children ← RuleConfig.toChildren rules
      .ok (child :: children)

end

def RulesConfig.toGroup (c : RulesConfig) : Except Failure RuleGroup := do
  let children ← RuleConfig.toChildren (c.rules.getD [])
  .ok ⟨(combinatorOf c.condition).getD .and, children⟩

/-- The group of a configuration that may be missing. -/
def RulesConfig.groupOf (c : Option RulesConfig) : Except Failure RuleGroup :=
  match c with
  | none => .ok .empty
  | some c => c.toGroup

/-- The comparison of a saved node, joined by the condition of that node and not
by its own. -/
def RuleConfig.underCondition (condition : Option String)
    (rule : Option RuleConfig) : RuleConfig :=
  match rule with
  | none => .node { condition := condition } none
  | some (.node fields _) => .node { fields with condition := condition } none

mutual

def SavedNode.toConfig : SavedNode → RuleConfig
  | .node kind condition none rule =>
      if kind = some "group" then .node { condition := condition } none
      else RuleConfig.underCondition condition rule
  | .node kind condition (some nodes) rule =>
      if kind = some "group" then
        .node { condition := condition } (some (SavedNode.toConfigs nodes))
      else RuleConfig.underCondition condition rule

def SavedNode.toConfigs : List SavedNode → List RuleConfig
  | [] => []
  | first :: rest => first.toConfig :: SavedNode.toConfigs rest

end

def SavedGroup.toConfig (g : SavedGroup) : RulesConfig :=
  ⟨g.condition, g.rules.map SavedNode.toConfigs⟩

namespace SavedStrategy

def entryConfig (s : SavedStrategy) : Option RulesConfig :=
  s.entryRules.map SavedGroup.toConfig

def exitConfig (s : SavedStrategy) : Option RulesConfig :=
  s.exitRules.map SavedGroup.toConfig

end SavedStrategy
end RuleBacktest
