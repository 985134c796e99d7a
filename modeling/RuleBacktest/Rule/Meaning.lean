import RuleBacktest.Indicator.Formula
import RuleBacktest.Indicator.Registry
import RuleBacktest.Rule.Operator

/-!
# The meaning of rule trees

Whether a rule tree holds at an index, said by recursion on the tree and
without predicates or a cache.  Every indicator is computed on its own, and a
leaf that cannot be read holds nowhere.

What is written in a leaf is understood from a list of spellings, and each
operator has its comparison here, so that nothing of the compilation is used.
-/

namespace RuleBacktest

open Scalar

variable {α : Type} [Scalar α]

def IndicatorSpec.valueAt? (bars : List (Bar α)) (spec : IndicatorSpec)
    (index : Nat) : Option α :=
  match (spec.resolve : Except Failure (Indicator α)) with
  | .ok i => ((i.points bars)[index]?).join
  | .error _ => none

/-- A fixed number has its value at every index, if it is a finite one. -/
def CompareTarget.valueAt? (bars : List (Bar α)) (index : Nat) :
    CompareTarget → Option α
  | .value raw => (Numeral.ofText? (Text.trim raw)).bind ofNumeral?
  | .indicator spec => spec.valueAt? bars index

/-- How the operators are written, in small letters. -/
def Operator.spellings : List (String × Operator) :=
  [("<", .less),
   (">", .greater),
   ("<=", .lessOrEqual),
   (">=", .greaterOrEqual),
   ("=", .equal),
   ("==", .equal),
   ("crossesup", .crossesUp),
   ("crossesdown", .crossesDown)]

/-- The operator that a text spells, blanks around it and the case of its
letters apart. -/
def Operator.spelledBy? (raw : String) : Option Operator :=
  spellings.lookup (Text.lowerAscii (Text.trim raw))

/-- Neither value is above the other. -/
def Operator.tied (l r : α) : Bool :=
  decide (l ≤ r) && decide (r ≤ l)

/-- Compares two values that are both defined. -/
def Operator.compares : Operator → α → α → Bool
  | .less, l, r => decide (l < r)
  | .greater, l, r => decide (r < l)
  | .equal, l, r => tied l r
  | .lessOrEqual, l, r => decide (l < r) || tied l r
  | .greaterOrEqual, l, r => decide (r < l) || tied l r
  | .crossesUp, l, r => decide (r < l)
  | .crossesDown, l, r => decide (l < r)

/-- What a crossing asks of the values before. -/
def Operator.comparesBefore : Operator → α → α → Bool
  | .crossesUp, l, r => decide (l ≤ r)
  | .crossesDown, l, r => decide (r ≤ l)
  | _, _, _ => true

def Operator.isCrossing : Operator → Bool
  | .crossesUp => true
  | .crossesDown => true
  | _ => false

def Comparison.holdsAt (bars : List (Bar α)) (c : Comparison) (index : Nat) :
    Bool :=
  let test (compares : α → α → Bool) (i : Nat) : Bool :=
    match c.indicator.valueAt? bars i, c.target.valueAt? bars i with
    | some l, some r => compares l r
    | _, _ => false
  match Operator.spelledBy? c.operator with
  | none => false
  | some o =>
      test o.compares index &&
        (!o.isCrossing ||
          (decide (0 < index) && test o.comparesBefore (index - 1)))

mutual

def RuleNode.holdsAt (bars : List (Bar α)) (index : Nat) : RuleNode → Bool
  | .comparison c => c.holdsAt bars index
  | .group _ [] => false
  | .group combinator ((_, first) :: rest) =>
      RuleNode.holdsFrom bars index combinator (first.holdsAt bars index) rest

def RuleNode.holdsFrom (bars : List (Bar α)) (index : Nat)
    (combinator : Combinator) (running : Bool) :
    List (Option Combinator × RuleNode) → Bool
  | [] => running
  | (own, node) :: rest =>
      RuleNode.holdsFrom bars index combinator
        ((own.getD combinator).join running (node.holdsAt bars index)) rest

end

def RuleGroup.holdsAt (bars : List (Bar α)) (g : RuleGroup) (index : Nat) :
    Bool :=
  (RuleNode.group g.combinator g.children).holdsAt bars index

end RuleBacktest
