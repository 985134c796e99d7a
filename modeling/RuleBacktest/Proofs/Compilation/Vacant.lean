import RuleBacktest.Rule.Compile

/-!
# Trees without comparisons

A tree without a comparison names no indicator and has no text that could be
misread, so it compiles and leaves the cache alone.  What it compiles to never
holds: the empty groups in which it ends never do, and neither combinator joins
two predicates that never hold to one that does.
-/

namespace RuleBacktest

variable {α : Type} [Scalar α]

def Predicate.NeverHolds (p : Predicate α) : Prop :=
  ∀ index, p.holds index = false

theorem Predicate.NeverHolds.joined {p q : Predicate α}
    (hp : p.NeverHolds)
    (hq : q.NeverHolds)
    (combinator : Combinator) :
    (p.joined combinator q).NeverHolds := by
  intro index
  cases combinator with
  | and => rw [Predicate.joined, Predicate.holds, hp index, Bool.false_and]
  | or =>
      rw [Predicate.joined, Predicate.holds, hp index, hq index, Bool.or_false]

mutual

theorem RuleNode.compile_of_leafCount_eq_zero (bars : List (Bar α)) :
    ∀ node : RuleNode, node.leafCount = 0 →
      ∃ p : Predicate α, p.NeverHolds ∧ node.compile bars = pure p
  | .comparison _, hleaves => by
      rw [RuleNode.leafCount] at hleaves
      cases hleaves
  | .group _ [], _ => by
      rw [RuleNode.compile]
      exact ⟨.never, fun _ => rfl, rfl⟩
  | .group combinator ((_, first) :: rest), hleaves => by
      rw [RuleNode.leafCount, RuleNode.leafCountOf,
        Nat.add_eq_zero_iff] at hleaves
      obtain ⟨p, hp, hfirst⟩ :=
        first.compile_of_leafCount_eq_zero bars hleaves.1
      rw [RuleNode.compile, hfirst, pure_bind]
      exact RuleNode.compileRest_of_leafCountOf_eq_zero bars combinator hp rest
        hleaves.2

theorem RuleNode.compileRest_of_leafCountOf_eq_zero (bars : List (Bar α))
    (combinator : Combinator) {running : Predicate α}
    (hrunning : running.NeverHolds) :
    ∀ rest : List (Option Combinator × RuleNode),
      RuleNode.leafCountOf rest = 0 →
      ∃ p : Predicate α, p.NeverHolds ∧
        RuleNode.compileRest bars combinator running rest = pure p
  | [], _ => by
      rw [RuleNode.compileRest]
      exact ⟨running, hrunning, rfl⟩
  | (own, node) :: rest, hleaves => by
      rw [RuleNode.leafCountOf, Nat.add_eq_zero_iff] at hleaves
      obtain ⟨p, hp, hnode⟩ := node.compile_of_leafCount_eq_zero bars hleaves.1
      rw [RuleNode.compileRest, hnode, pure_bind]
      exact RuleNode.compileRest_of_leafCountOf_eq_zero bars combinator
        (hrunning.joined hp (own.getD combinator)) rest hleaves.2

end

theorem RuleGroup.compile_of_leafCount_eq_zero (bars : List (Bar α))
    {g : RuleGroup}
    (hleaves : g.leafCount = 0) :
    ∃ p : Predicate α, p.NeverHolds ∧ g.compile bars = pure p := by
  refine g.toNode.compile_of_leafCount_eq_zero bars ?_
  rwa [toNode, RuleNode.leafCount]

end RuleBacktest
