import RuleBacktest.Rule.Config

/-!
# Request form and saved form

A tree of the request form is written in the saved form node by node.  A node
with rules becomes a group of its own, under the condition that it has; any
other node is kept whole, and its condition is repeated where the saved form
looks for it.  What a group says beside its condition is lost on the way, and so
is the empty list of rules of a comparison.  Neither is asked for when the tree
is built, so both forms give the same tree or the same failure.
-/

namespace RuleBacktest

mutual

def RuleConfig.toSaved : RuleConfig → SavedNode
  | .node fields none =>
      .node (some "rule") fields.condition none (some (.node fields none))
  | .node fields (some []) =>
      .node (some "rule") fields.condition none (some (.node fields (some [])))
  | .node fields (some (rule :: rules)) =>
      .node (some "group") fields.condition
        (some (rule.toSaved :: RuleConfig.toSavedList rules)) none

def RuleConfig.toSavedList : List RuleConfig → List SavedNode
  | [] => []
  | rule :: rules => rule.toSaved :: RuleConfig.toSavedList rules

end

def RulesConfig.toSaved (c : RulesConfig) : SavedGroup :=
  ⟨c.condition, c.rules.map RuleConfig.toSavedList⟩

/-! ## Nodes read back -/

/-- A saved comparison is joined by the condition of its node, which is its own
again. -/
theorem RuleConfig.toConfig_toSaved_comparison (fields : RuleFields) :
    (RuleConfig.node fields none).toSaved.toConfig = .node fields none ∧
      (RuleConfig.node fields (some [])).toSaved.toConfig =
        .node fields none := by
  have hkind : some "rule" ≠ some "group" := by
    decide
  constructor <;>
    simp only [toSaved, SavedNode.toConfig, if_neg hkind, underCondition]

theorem RuleConfig.toConfig_toSaved_group (fields : RuleFields)
    (rule : RuleConfig) (rules : List RuleConfig) :
    (RuleConfig.node fields (some (rule :: rules))).toSaved.toConfig =
      .node { condition := fields.condition }
        (some (rule.toSaved.toConfig ::
              SavedNode.toConfigs (toSavedList rules))) := by
  simp only [toSaved, SavedNode.toConfig, if_true, SavedNode.toConfigs]

mutual

theorem RuleConfig.toChild_toSaved : ∀ rule : RuleConfig,
    rule.toSaved.toConfig.toChild = rule.toChild
  | .node fields none => by
      rw [(toConfig_toSaved_comparison fields).1]
  | .node fields (some []) => by
      rw [(toConfig_toSaved_comparison fields).2, toChild, toChild]
  | .node fields (some (rule :: rules)) => by
      have hfirst := RuleConfig.toChild_toSaved rule
      have hrest := RuleConfig.toChildren_toSavedList rules
      rw [toConfig_toSaved_group, toChild, toChild, hfirst, hrest]

theorem RuleConfig.toChildren_toSavedList : ∀ rules : List RuleConfig,
    RuleConfig.toChildren (SavedNode.toConfigs (RuleConfig.toSavedList rules)) =
      RuleConfig.toChildren rules
  | [] => rfl
  | rule :: rules => by
      have hfirst := RuleConfig.toChild_toSaved rule
      have hrest := RuleConfig.toChildren_toSavedList rules
      rw [RuleConfig.toSavedList, SavedNode.toConfigs, RuleConfig.toChildren,
        RuleConfig.toChildren, hfirst, hrest]

end

theorem RulesConfig.toGroup_toSaved (c : RulesConfig) :
    c.toSaved.toConfig.toGroup = c.toGroup := by
  have hrules : RuleConfig.toChildren (c.toSaved.toConfig.rules.getD []) =
      RuleConfig.toChildren (c.rules.getD []) := by
    cases hc : c.rules with
    | none => simp [toSaved, SavedGroup.toConfig, hc]
    | some rules =>
        simpa [toSaved, SavedGroup.toConfig, hc]
          using RuleConfig.toChildren_toSavedList rules
  rw [toGroup, toGroup, hrules]
  rfl

end RuleBacktest
