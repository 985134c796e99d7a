import RuleBacktest.Indicator.Registry
import RuleBacktest.Rule.Operator
import RuleBacktest.Rule.Predicate

/-!
# Compilation of rule trees

A tree becomes a predicate over a list of bars.  The indicators that it names
are taken from one cache, which grows along the way and keeps what it holds when
a leaf turns out to be wrong.  The children of a group are joined from left to
right, and a group without children never holds.

The compilation of a leaf reads the left name, the right side and the operator,
in this order, and fails at the first of them that means nothing.
-/

namespace RuleBacktest

open Scalar

variable {α : Type} [Scalar α]

/-- A computation that may fail and that goes through the cache. -/
abbrev Compilation (α β : Type) := ExceptT Failure (StateM (IndicatorCache α)) β

namespace Compilation

def run {β : Type} (c : Compilation α β) (cache : IndicatorCache α) :
    Except Failure β × IndicatorCache α :=
  (ExceptT.run c).run cache

def series (bars : List (Bar α)) (spec : IndicatorSpec) :
    Compilation α (IndicatorSeries α) := do
  let i : Indicator α ← ExceptT.mk (pure spec.resolve)
  modifyGet fun cache => cache.get bars i

end Compilation

/-- The number that a literal denotes. -/
def literalValue (raw : String) : Except Failure α :=
  match (Numeral.ofText? (Text.trim raw)).bind ofNumeral? with
  | some x => .ok x
  | none => .error (.invalidRuleValue raw)

def readOperator (raw : String) : Except Failure Operator :=
  match Operator.ofText? raw with
  | some o => .ok o
  | none => .error (.unknownOperator raw)

/-- A comparison that includes equality is a strict comparison or an
equality. -/
def Operator.predicate (left right : Operand α) : Operator → Predicate α
  | .less => .compare left .less right
  | .greater => .compare left .greater right
  | .equal => .compare left .equal right
  | .lessOrEqual => .or (.compare left .less right) (.compare left .equal right)
  | .greaterOrEqual =>
      .or (.compare left .greater right) (.compare left .equal right)
  | .crossesUp => .crossUp left right
  | .crossesDown => .crossDown left right

def CompareTarget.compile (bars : List (Bar α)) :
    CompareTarget → Compilation α (Operand α)
  | .value raw => do
      let x ← ExceptT.mk (pure (literalValue raw))
      pure (.constant x)
  | .indicator spec => do
      let s ← Compilation.series bars spec
      pure (.series s)

def Comparison.compile (bars : List (Bar α)) (c : Comparison) :
    Compilation α (Predicate α) := do
  let left ← Compilation.series bars c.indicator
  let right ← c.target.compile bars
  let operator ← ExceptT.mk (pure (readOperator c.operator))
  pure (operator.predicate (.series left) right)

mutual

def RuleNode.compile (bars : List (Bar α)) :
    RuleNode → Compilation α (Predicate α)
  | .comparison c => c.compile bars
  | .group _ [] => pure .never
  | .group combinator ((_, first) :: rest) => do
      let p ← first.compile bars
      RuleNode.compileRest bars combinator p rest

/-- Joins the children of a group behind its first one. -/
def RuleNode.compileRest (bars : List (Bar α)) (combinator : Combinator)
    (running : Predicate α) :
    List (Option Combinator × RuleNode) → Compilation α (Predicate α)
  | [] => pure running
  | (own, node) :: rest => do
      let p ← node.compile bars
      RuleNode.compileRest bars combinator
        (running.joined (own.getD combinator) p) rest

end

def RuleGroup.compile (bars : List (Bar α)) (g : RuleGroup) :
    Compilation α (Predicate α) :=
  g.toNode.compile bars

/-- A pair of predicates: when to enter a position and when to leave it. -/
structure Strategy (α : Type) where
  entry : Predicate α
  exit : Predicate α

namespace Strategy

/-- A strategy that never trades. -/
def idle : Strategy α := ⟨.never, .never⟩

def compile (bars : List (Bar α)) (entry exit : RuleGroup) :
    Compilation α (Strategy α) := do
  let enter ← entry.compile bars
  let leave ← exit.compile bars
  pure ⟨enter, leave⟩

/-- The compilation with a cache of its own. -/
def ofRules (bars : List (Bar α)) (entry exit : RuleGroup) :
    Except Failure (Strategy α) :=
  ((compile bars entry exit).run .empty).1

end Strategy
end RuleBacktest
