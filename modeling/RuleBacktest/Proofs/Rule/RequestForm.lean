import RuleBacktest.Proofs.Outcome
import RuleBacktest.Proofs.Text.Trimming
import RuleBacktest.Rule.Config

/-!
# Trees that a request expresses

Configured rules become a tree in which every group below the root has children
and declares no combinator for itself, and in which names are trimmed and not
empty.  Every such tree comes from some configuration, which is written down
node by node: a comparison as a node without rules, and a group as a node whose
rules are its children.
-/

namespace RuleBacktest

open Text

/-! ## What can be expressed -/

mutual

/-- The children at every depth, each with the combinator that it declares. -/
def RuleNode.descendants : RuleNode → List (Option Combinator × RuleNode)
  | .comparison _ => []
  | .group _ children => RuleNode.descendantsOf children

def RuleNode.descendantsOf :
    List (Option Combinator × RuleNode) → List (Option Combinator × RuleNode)
  | [] => []
  | (own, node) :: rest =>
      (own, node) :: (node.descendants ++ RuleNode.descendantsOf rest)

end

def IndicatorSpec.IsNamed (spec : IndicatorSpec) : Prop :=
  trim spec.name = spec.name ∧ spec.name ≠ ""

def Comparison.IsNamed (leaf : Comparison) : Prop :=
  leaf.indicator.IsNamed ∧
    ∀ other, leaf.target = .indicator other → other.IsNamed

namespace RuleNode

/-- A comparison of something with a name, or a group with children that
declares no combinator. -/
def IsExpressible (own : Option Combinator) : RuleNode → Prop
  | comparison leaf => leaf.IsNamed
  | group _ children => own = none ∧ children ≠ []

def AreExpressible (children : List (Option Combinator × RuleNode)) : Prop :=
  ∀ child ∈ descendantsOf children, child.2.IsExpressible child.1

variable {own : Option Combinator}
  {children rest : List (Option Combinator × RuleNode)}

theorem areExpressible_nil : AreExpressible [] := by
  rw [AreExpressible, descendantsOf]
  exact List.forall_mem_nil _

theorem areExpressible_cons_iff {child : Option Combinator × RuleNode} :
    AreExpressible (child :: rest) ↔
      AreExpressible [child] ∧ AreExpressible rest := by
  obtain ⟨own, node⟩ := child
  simp only [AreExpressible, descendantsOf, List.forall_mem_cons,
    List.forall_mem_append, List.append_nil, and_assoc]

theorem areExpressible_comparison_iff (leaf : Comparison) :
    AreExpressible [(own, comparison leaf)] ↔ leaf.IsNamed := by
  simp only [AreExpressible, descendantsOf, descendants, List.append_nil,
    List.forall_mem_singleton, IsExpressible]

theorem areExpressible_group_iff (combinator : Combinator) :
    AreExpressible [(own, group combinator children)] ↔
      (own = none ∧ children ≠ []) ∧ AreExpressible children := by
  simp only [AreExpressible, descendantsOf, descendants, List.append_nil,
    List.forall_mem_cons, IsExpressible]

end RuleNode

/-- Only the root may be a group without children. -/
def RuleGroup.IsExpressible (g : RuleGroup) : Prop :=
  RuleNode.AreExpressible g.children

/-! ## Nodes that are comparisons -/

mutual

/-- How many nodes have no rules of their own. -/
def RuleConfig.leafCount : RuleConfig → Nat
  | .node _ none => 1
  | .node _ (some []) => 1
  | .node _ (some (rule :: rules)) =>
      rule.leafCount + RuleConfig.leafCountOf rules

def RuleConfig.leafCountOf : List RuleConfig → Nat
  | [] => 0
  | rule :: rules => rule.leafCount + RuleConfig.leafCountOf rules

end

def RulesConfig.leafCount (c : RulesConfig) : Nat :=
  RuleConfig.leafCountOf (c.rules.getD [])

/-! ## From a configuration to its tree -/

namespace RuleFields

variable {f : RuleFields}

theorem isNamed_of_bind_nonBlank? {said : Option String} {name : String}
    (params : List RuleParam)
    (h : said.bind nonBlank? = some name) :
    IndicatorSpec.IsNamed ⟨name, params⟩ := by
  obtain ⟨raw, -, hname⟩ := Option.bind_eq_some_iff.mp h
  obtain ⟨rfl, hnonempty⟩ := nonBlank?_eq_some_iff.mp hname
  exact ⟨trim_trim raw, hnonempty⟩

theorem isNamed_of_target {name : String} {target : CompareTarget}
    (h : f.target name = .ok target)
    {other : IndicatorSpec}
    (hother : target = .indicator other) :
    other.IsNamed := by
  subst hother
  unfold RuleFields.target at h
  simp only at h
  split at h
  · cases h
  · split at h
    · split at h
      next name' hname =>
        cases h
        exact isNamed_of_bind_nonBlank? _ hname
      next => cases h
    · cases h

theorem isNamed_of_comparison {leaf : Comparison}
    (h : f.comparison = .ok leaf) :
    leaf.IsNamed := by
  unfold comparison at h
  split at h
  next => cases h
  next name hname =>
    obtain ⟨target, htarget, rfl⟩ := map_eq_ok.mp h
    exact ⟨isNamed_of_bind_nonBlank? _ hname,
      fun other => isNamed_of_target htarget⟩

end RuleFields

namespace RuleConfig

open RuleNode

theorem expressible_of_comparison {fields : RuleFields}
    {child : Option Combinator × RuleNode} (h : (fields.comparison >>= fun c =>
      .ok (combinatorOf fields.condition, RuleNode.comparison c)) = .ok child) :
    AreExpressible [child] ∧ child.2.leafCount = 1 := by
  obtain ⟨leaf, hleaf, hchild⟩ := bind_eq_ok.mp h
  cases hchild
  rw [areExpressible_comparison_iff, RuleNode.leafCount]
  exact ⟨RuleFields.isNamed_of_comparison hleaf, rfl⟩

mutual

theorem expressible_of_toChild :
    ∀ (rule : RuleConfig) {child : Option Combinator × RuleNode},
      rule.toChild = .ok child →
      AreExpressible [child] ∧ child.2.leafCount = rule.leafCount
  | .node fields none, child, h => by
      rw [toChild] at h
      rw [leafCount]
      exact expressible_of_comparison h
  | .node fields (some []), child, h => by
      rw [toChild] at h
      rw [leafCount]
      exact expressible_of_comparison h
  | .node fields (some (rule :: rules)), child, h => by
      rw [toChild] at h
      obtain ⟨first, hfirst, h⟩ := bind_eq_ok.mp h
      obtain ⟨rest, hrest, h⟩ := bind_eq_ok.mp h
      cases h
      obtain ⟨hfirstOk, hfirstCount⟩ := expressible_of_toChild rule hfirst
      obtain ⟨hrestOk, hrestCount⟩ := expressible_of_toChildren rules hrest
      constructor
      · exact (areExpressible_group_iff _).mpr ⟨⟨rfl, List.cons_ne_nil _ _⟩,
          areExpressible_cons_iff.mpr ⟨hfirstOk, hrestOk⟩⟩
      · rw [RuleNode.leafCount, RuleNode.leafCountOf, leafCount, hfirstCount,
          hrestCount]

theorem expressible_of_toChildren :
    ∀ (rules : List RuleConfig)
      {children : List (Option Combinator × RuleNode)},
      toChildren rules = .ok children →
      AreExpressible children ∧
        RuleNode.leafCountOf children = leafCountOf rules
  | [], children, h => by
      cases h
      exact ⟨areExpressible_nil, rfl⟩
  | rule :: rules, children, h => by
      rw [toChildren] at h
      obtain ⟨first, hfirst, h⟩ := bind_eq_ok.mp h
      obtain ⟨rest, hrest, h⟩ := bind_eq_ok.mp h
      cases h
      obtain ⟨hfirstOk, hfirstCount⟩ := expressible_of_toChild rule hfirst
      obtain ⟨hrestOk, hrestCount⟩ := expressible_of_toChildren rules hrest
      refine ⟨areExpressible_cons_iff.mpr ⟨hfirstOk, hrestOk⟩, ?_⟩
      rw [RuleNode.leafCountOf, leafCountOf, hfirstCount, hrestCount]

end

end RuleConfig

/-! ## From a tree to a configuration -/

def CompareTarget.fields : CompareTarget → RuleFields
  | .value raw => { compareType := some "value", value := some raw }
  | .indicator other =>
      { compareType := some "indicator", compareIndicator := some other.name,
        compareParams := some other.params }

/-- A comparison written down, with the combinator that joins it to what comes
before. -/
def Comparison.fields (own : Option Combinator) (leaf : Comparison) :
    RuleFields :=
  { leaf.target.fields with
    indicator := some leaf.indicator.name
    params := some leaf.indicator.params
    operator := some leaf.operator
    condition := own.map Combinator.text }

mutual

def RuleNode.toConfig (own : Option Combinator) : RuleNode → RuleConfig
  | .comparison leaf => .node (leaf.fields own) none
  | .group combinator children =>
      .node { condition := some combinator.text }
        (some (RuleNode.toConfigs children))

def RuleNode.toConfigs : List (Option Combinator × RuleNode) → List RuleConfig
  | [] => []
  | (own, node) :: rest => node.toConfig own :: RuleNode.toConfigs rest

end

def RuleGroup.toConfig (g : RuleGroup) : RulesConfig :=
  ⟨some g.combinator.text, some (RuleNode.toConfigs g.children)⟩

/-! ## A tree read back -/

theorem Combinator.ofText?_text (combinator : Combinator) :
    ofText? combinator.text = some combinator := by
  cases combinator <;> decide +kernel

theorem combinatorOf_map_text (own : Option Combinator) :
    combinatorOf (own.map Combinator.text) = own := by
  cases own with
  | none => rfl
  | some combinator => exact combinator.ofText?_text

theorem IndicatorSpec.IsNamed.nonBlank?_name {spec : IndicatorSpec}
    (h : spec.IsNamed) :
    nonBlank? spec.name = some spec.name :=
  nonBlank?_eq_some_iff.mpr h

theorem RuleFields.comparisonKind_of_stated {f : RuleFields} {kind : String}
    (hstated : f.compareType = some kind)
    (htrimmed : nonBlank? kind = some kind)
    (hlower : lowerAscii kind = kind) :
    f.comparisonKind = kind := by
  simp only [comparisonKind, hstated, Option.bind_some, htrimmed, hlower]

namespace Comparison

theorem target_fields {leaf : Comparison}
    (h : leaf.IsNamed)
    (own : Option Combinator) (name : String) :
    (leaf.fields own).target name = .ok leaf.target := by
  obtain ⟨left, operator, target⟩ := leaf
  cases target with
  | value raw =>
      have hkind :
          (fields own ⟨left, operator, .value raw⟩).comparisonKind = "value" :=
        RuleFields.comparisonKind_of_stated rfl (by decide +kernel)
          (by decide +kernel)
      simp only [RuleFields.target, hkind, if_true]
      rfl
  | indicator other =>
      have hkind :
          (fields own ⟨left, operator, .indicator other⟩).comparisonKind =
            "indicator" :=
        RuleFields.comparisonKind_of_stated rfl (by decide +kernel)
          (by decide +kernel)
      have hother :
          (fields own ⟨left, operator, .indicator other⟩).compareIndicator.bind
              nonBlank? =
            some other.name := by
        change (some other.name).bind nonBlank? = some other.name
        rw [Option.bind_some, (h.2 other rfl).nonBlank?_name]
      simp only [RuleFields.target, hkind, hother]
      rfl

theorem comparison_fields {leaf : Comparison}
    (h : leaf.IsNamed)
    (own : Option Combinator) :
    (leaf.fields own).comparison = .ok leaf := by
  have hname : (leaf.fields own).indicator.bind nonBlank? =
      some leaf.indicator.name := by
    change (some leaf.indicator.name).bind nonBlank? = some leaf.indicator.name
    rw [Option.bind_some, h.1.nonBlank?_name]
  simp only [RuleFields.comparison, hname, target_fields h]
  rfl

end Comparison

open RuleNode

mutual

theorem RuleNode.toChild_toConfig :
    ∀ (node : RuleNode) {own : Option Combinator},
      AreExpressible [(own, node)] →
      (node.toConfig own).toChild = .ok (own, node)
  | .comparison leaf, own, h => by
      have hleaf := (areExpressible_comparison_iff leaf).mp h
      have hown : combinatorOf (leaf.fields own).condition = own :=
        combinatorOf_map_text own
      rw [toConfig, RuleConfig.toChild, Comparison.comparison_fields hleaf,
        hown]
      rfl
  | .group combinator [], own, h =>
      absurd rfl ((areExpressible_group_iff combinator).mp h).1.2
  | .group combinator ((own', node) :: rest), own, h => by
      obtain ⟨⟨rfl, -⟩, hchildren⟩ := (areExpressible_group_iff combinator).mp h
      obtain ⟨hfirst, hrest⟩ := areExpressible_cons_iff.mp hchildren
      rw [toConfig, toConfigs, RuleConfig.toChild, toChild_toConfig node hfirst,
        toChildren_toConfigs rest hrest]
      simp only [combinatorOf, Option.bind_some, combinator.ofText?_text]
      rfl

theorem RuleNode.toChildren_toConfigs :
    ∀ children : List (Option Combinator × RuleNode), AreExpressible children →
      RuleConfig.toChildren (toConfigs children) = .ok children
  | [], _ => rfl
  | (own, node) :: rest, h => by
      obtain ⟨hfirst, hrest⟩ := areExpressible_cons_iff.mp h
      rw [toConfigs, RuleConfig.toChildren, toChild_toConfig node hfirst,
        toChildren_toConfigs rest hrest]
      rfl

end

/-- A configuration that becomes a tree becomes one that can be expressed, with
one comparison for each node without rules; and a tree that can be expressed is
what its configuration becomes. -/
theorem RulesConfig.toGroup_onto_expressible :
    (∀ (c : RulesConfig) (g : RuleGroup), c.toGroup = .ok g →
      g.IsExpressible ∧ g.leafCount = c.leafCount) ∧
    ∀ g : RuleGroup, g.IsExpressible → g.toConfig.toGroup = .ok g := by
  constructor
  · intro c g h
    obtain ⟨children, hchildren, hg⟩ := bind_eq_ok.mp h
    cases hg
    exact RuleConfig.expressible_of_toChildren _ hchildren
  · intro g hg
    rw [toGroup, RuleGroup.toConfig, Option.getD_some,
      RuleNode.toChildren_toConfigs g.children hg]
    simp only [combinatorOf, Option.bind_some, g.combinator.ofText?_text]
    rfl

/-- Neither the operators nor the literal of this tree mean anything, and yet it
can be expressed. -/
def RuleGroup.unreadable : RuleGroup :=
  ⟨.or,
    [(some .and,
        .comparison ⟨⟨"RSI", [⟨"period", "fourteen"⟩]⟩, "=>", .value " ten "⟩),
      (none,
        .group .and [(some .or,
            .comparison ⟨⟨"NOTHING", []⟩, "", .indicator ⟨"SMA", []⟩⟩)])]⟩

theorem RulesConfig.toGroup_onto_expressible_unreadable :
    RuleGroup.unreadable.IsExpressible ∧
      RuleGroup.unreadable.toConfig.toGroup = .ok .unreadable ∧
      RuleGroup.unreadable.leafCount =
        RuleGroup.unreadable.toConfig.leafCount := by
  have hstrength : Comparison.IsNamed
      ⟨⟨"RSI", [⟨"period", "fourteen"⟩]⟩, "=>", .value " ten "⟩ :=
    ⟨⟨by decide +kernel, by decide⟩, nofun⟩
  have hnothing :
      Comparison.IsNamed ⟨⟨"NOTHING", []⟩, "", .indicator ⟨"SMA", []⟩⟩ := by
    refine ⟨⟨by decide +kernel, by decide⟩, ?_⟩
    rintro other ⟨⟩
    exact ⟨by decide +kernel, by decide⟩
  have hexpressible : RuleGroup.unreadable.IsExpressible :=
    areExpressible_cons_iff.mpr ⟨(areExpressible_comparison_iff _).mpr
        hstrength,
      (areExpressible_group_iff _).mpr ⟨⟨rfl, List.cons_ne_nil _ _⟩,
        (areExpressible_comparison_iff _).mpr hnothing⟩⟩
  obtain ⟨hgives, hgiven⟩ := toGroup_onto_expressible
  have hback := hgiven .unreadable hexpressible
  exact ⟨hexpressible, hback, (hgives _ _ hback).2⟩

end RuleBacktest
