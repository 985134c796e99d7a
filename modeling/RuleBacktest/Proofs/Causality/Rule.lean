import RuleBacktest.Proofs.Cache.Faithful
import RuleBacktest.Rule.Meaning

/-!
# No rule looks ahead

The series that a cache hands out for the first bars are the first points of
those for all bars, and so whether a rule tree holds at an index does not depend
on the bars behind that index.
-/

namespace RuleBacktest

variable {α : Type} [Scalar α]

/-- The series that is computed from the first bars has one point for each of
them, and these are the first points of the series computed from all bars.
Neither depends on what the caches were asked for before. -/
theorem IndicatorCache.points_get_take (bars : List (Bar α)) (n : Nat)
    (i : Indicator α) (requestsOnFirst requestsOnAll : List (CacheRequest α)) :
    ((after (bars.take n) requestsOnFirst).get (bars.take n) i).1.points =
        ((after bars requestsOnAll).get bars i).1.points.take n ∧
      ((after (bars.take n) requestsOnFirst).get (bars.take n)
          i).1.points.length =
        (bars.take n).length := by
  rw [get_after, get_after, IndicatorSeries.length_points_direct]
  exact ⟨IndicatorSeries.points_direct_take bars n i, rfl⟩

variable {n index : Nat}

theorem IndicatorSpec.valueAt?_take (bars : List (Bar α))
    (hindex : index < n)
    (spec : IndicatorSpec) :
    spec.valueAt? (bars.take n) index = spec.valueAt? bars index := by
  unfold valueAt?
  cases (spec.resolve : Except Failure (Indicator α)) with
  | error e => rfl
  | ok i =>
      simp only
      rw [Indicator.points_take, List.getElem?_take_of_lt hindex]

theorem CompareTarget.valueAt?_take (bars : List (Bar α)) (hindex : index < n)
    (target : CompareTarget) :
    target.valueAt? (bars.take n) index = target.valueAt? bars index := by
  cases target with
  | value raw => rfl
  | indicator spec => exact spec.valueAt?_take bars hindex

/-- A crossing reads the index before as well, which is no later. -/
theorem Comparison.holdsAt_take (bars : List (Bar α))
    (hindex : index < n)
    (c : Comparison) :
    c.holdsAt (bars.take n) index = c.holdsAt bars index := by
  have hbefore : index - 1 < n := by omega
  simp only [holdsAt, IndicatorSpec.valueAt?_take bars hindex,
    IndicatorSpec.valueAt?_take bars hbefore,
    CompareTarget.valueAt?_take bars hindex,
    CompareTarget.valueAt?_take bars hbefore]

mutual

theorem RuleNode.holdsAt_take (bars : List (Bar α)) (hindex : index < n) :
    ∀ node : RuleNode,
      node.holdsAt (bars.take n) index = node.holdsAt bars index
  | .comparison c => c.holdsAt_take bars hindex
  | .group _ [] => rfl
  | .group combinator ((_, first) :: rest) => by
      rw [holdsAt, holdsAt, first.holdsAt_take bars hindex,
        RuleNode.holdsFrom_take bars hindex combinator _ rest]

theorem RuleNode.holdsFrom_take (bars : List (Bar α)) (hindex : index < n)
    (combinator : Combinator) (running : Bool) :
    ∀ rest : List (Option Combinator × RuleNode),
      RuleNode.holdsFrom (bars.take n) index combinator running rest =
        RuleNode.holdsFrom bars index combinator running rest
  | [] => rfl
  | (own, node) :: rest => by
      rw [holdsFrom, holdsFrom, node.holdsAt_take bars hindex,
        RuleNode.holdsFrom_take bars hindex combinator _ rest]

end

theorem RuleGroup.holdsAt_take (bars : List (Bar α))
    (hindex : index < n)
    (g : RuleGroup) :
    g.holdsAt (bars.take n) index = g.holdsAt bars index :=
  g.toNode.holdsAt_take bars hindex

end RuleBacktest
