import RuleBacktest.Text.AsciiCase
import RuleBacktest.Text.Blank

/-!
# Rule trees

A rule tree is a group of comparisons and nested groups.  The children of a
group are joined from left to right by the combinator of the group, or by one
that a child declares for itself.  Names, operators and values are kept as text;
whether they mean anything is found out by the compilation.
-/

namespace RuleBacktest

structure RuleParam where
  name : String
  value : String
  deriving DecidableEq, Repr

structure IndicatorSpec where
  name : String
  params : List RuleParam
  deriving DecidableEq, Repr

/-- The value of the first parameter of that name. -/
def IndicatorSpec.param? (spec : IndicatorSpec) (name : String) :
    Option String :=
  (spec.params.find? fun p => Text.sameIgnoringAsciiCase p.name name).map
    RuleParam.value

inductive Combinator where
  | and
  | or
  deriving DecidableEq, Repr

namespace Combinator

def ofText? (s : String) : Option Combinator :=
  let word := Text.upperAscii (Text.trim s)
  if word = "AND" then some and
  else if word = "OR" then some or
  else none

def text : Combinator → String
  | and => "AND"
  | or => "OR"

/-- Joins two truth values. -/
def join : Combinator → Bool → Bool → Bool
  | and, a, b => a && b
  | or, a, b => a || b

end Combinator

inductive CompareTarget where
  | value (raw : String)
  | indicator (spec : IndicatorSpec)
  deriving DecidableEq, Repr

structure Comparison where
  indicator : IndicatorSpec
  operator : String
  target : CompareTarget
  deriving DecidableEq, Repr

/-- A comparison or a group.  Each child of a group comes with the combinator it
declares. -/
inductive RuleNode where
  | comparison (leaf : Comparison)
  | group (combinator : Combinator)
      (children : List (Option Combinator × RuleNode))
  deriving Repr

structure RuleGroup where
  combinator : Combinator
  children : List (Option Combinator × RuleNode)
  deriving Repr

namespace RuleGroup

/-- The group of a missing configuration. -/
def empty : RuleGroup := ⟨.and, []⟩

def toNode (g : RuleGroup) : RuleNode := .group g.combinator g.children

end RuleGroup

mutual

def RuleNode.leafCount : RuleNode → Nat
  | .comparison _ => 1
  | .group _ children => RuleNode.leafCountOf children

def RuleNode.leafCountOf : List (Option Combinator × RuleNode) → Nat
  | [] => 0
  | (_, node) :: rest => node.leafCount + RuleNode.leafCountOf rest

end

def RuleGroup.leafCount (g : RuleGroup) : Nat :=
  RuleNode.leafCountOf g.children

mutual

/-- The comparisons of a tree, from left to right. -/
def RuleNode.leaves : RuleNode → List Comparison
  | .comparison leaf => [leaf]
  | .group _ children => RuleNode.leavesOf children

def RuleNode.leavesOf : List (Option Combinator × RuleNode) → List Comparison
  | [] => []
  | (_, node) :: rest => node.leaves ++ RuleNode.leavesOf rest

end

def RuleGroup.leaves (g : RuleGroup) : List Comparison :=
  g.toNode.leaves

end RuleBacktest
