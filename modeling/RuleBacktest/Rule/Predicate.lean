import RuleBacktest.Indicator.Cache
import RuleBacktest.Rule.Tree

/-!
# Predicates on bars

A predicate holds or fails at the index of a bar.  A comparison with an
undefined operand fails.  A crossing looks at the index before as well, and
fails at the first index.
-/

namespace RuleBacktest

open Scalar

variable {α : Type} [Scalar α]

inductive Operand (α : Type) where
  | series (s : IndicatorSeries α)
  | constant (value : α)

def Operand.value? (index : Nat) : Operand α → Option α
  | series s => s.value? index
  | constant value => some value

inductive Relation where
  | less
  | greater
  | equal
  deriving DecidableEq, Repr

def Relation.holds (l r : α) : Relation → Bool
  | less => decide (l < r)
  | greater => decide (r < l)
  | equal => same l r

inductive Predicate (α : Type) where
  | never
  | compare (left : Operand α) (relation : Relation) (right : Operand α)
  | crossUp (left right : Operand α)
  | crossDown (left right : Operand α)
  | and (first second : Predicate α)
  | or (first second : Predicate α)

/-- Tests the values of two operands at the index before and at the index
itself. -/
def crossed (test : α → α → α → α → Bool) (left right : Operand α) : Nat → Bool
  | 0 => false
  | index + 1 =>
      match left.value? index, right.value? index,
          left.value? (index + 1), right.value? (index + 1) with
      | some previousLeft, some previousRight, some l, some r =>
          test previousLeft previousRight l r
      | _, _, _, _ => false

namespace Predicate

def holds (index : Nat) : Predicate α → Bool
  | never => false
  | compare left relation right =>
      match left.value? index, right.value? index with
      | some l, some r => relation.holds l r
      | _, _ => false
  | crossUp left right =>
      crossed (fun pl pr l r => decide (pl ≤ pr) && decide (r < l)) left
        right index
  | crossDown left right =>
      crossed (fun pl pr l r => decide (pr ≤ pl) && decide (l < r)) left
        right index
  | and first second => first.holds index && second.holds index
  | or first second => first.holds index || second.holds index

def joined (first : Predicate α) : Combinator → Predicate α → Predicate α
  | .and, second => and first second
  | .or, second => or first second

end Predicate
end RuleBacktest
