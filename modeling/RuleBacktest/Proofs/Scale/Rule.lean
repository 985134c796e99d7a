import RuleBacktest.Proofs.Scale.Indicator
import RuleBacktest.Rule.Meaning

/-!
# Rules over prices in another unit

A comparison of two prices comes out the same in every unit, and so does one of
two numbers without a unit; a comparison of a price with a fixed number does
not.  A rule tree that makes comparisons of the first two kinds only holds at
the same indices when the prices are multiplied by a positive number.
-/

namespace RuleBacktest

open Scalar

noncomputable section

variable {c : ℝ}

/-! ## Leaves -/

/-- Both sides are in the unit of the prices, or neither is.  A fixed number has
no unit. -/
def Comparison.Commensurable (leaf : Comparison) : Prop :=
  ∀ i : Indicator ℝ, leaf.indicator.resolve = .ok i →
    match leaf.target with
    | .value _ => i.isPriceLevel = false
    | .indicator other =>
        ∀ j : Indicator ℝ, other.resolve = .ok j →
          j.isPriceLevel = i.isPriceLevel

/-! ## Values -/

theorem Indicator.strictMono_rescale (hc : 0 < c) (i : Indicator ℝ) :
    StrictMono (i.rescale c) := by
  cases hlevel : i.isPriceLevel with
  | true =>
      rw [rescale_of_isPriceLevel c hlevel]
      exact strictMono_mul_left_of_pos hc
  | false =>
      rw [rescale_of_not_isPriceLevel c hlevel]
      exact strictMono_id

variable (bars : List (Bar ℝ))

theorem IndicatorSpec.valueAt?_scaled
    (hc : 0 < c)
    {spec : IndicatorSpec} {i : Indicator ℝ}
    (hresolve : spec.resolve = .ok i)
    (index : Nat) :
    spec.valueAt? (bars.map (Bar.scaled c)) index =
      (spec.valueAt? bars index).map (i.rescale c) := by
  simp only [valueAt?, hresolve, Indicator.points_scaled hc, List.getElem?_map]
  cases (i.points bars)[index]? <;> rfl

/-- The right side of a comparison changes as its left side does. -/
theorem Comparison.target_valueAt?_scaled
    (hc : 0 < c)
    {leaf : Comparison}
    (hleaf : leaf.Commensurable)
    {i : Indicator ℝ}
    (hresolve : leaf.indicator.resolve = .ok i)
    (index : Nat) :
    leaf.target.valueAt? (bars.map (Bar.scaled c)) index =
      (leaf.target.valueAt? bars index).map (i.rescale c) := by
  have hsides := hleaf i hresolve
  cases htarget : leaf.target with
  | value raw =>
      rw [htarget] at hsides
      simp [CompareTarget.valueAt?,
        Indicator.rescale_of_not_isPriceLevel c hsides]
  | indicator other =>
      rw [htarget] at hsides
      cases hother : (other.resolve : Except Failure (Indicator ℝ)) with
      | error e => simp [CompareTarget.valueAt?, IndicatorSpec.valueAt?, hother]
      | ok j =>
          have hsame : j.rescale c = i.rescale c := by
            funext x
            simp [Indicator.rescale, hsides j hother]
          rw [CompareTarget.valueAt?, CompareTarget.valueAt?,
            IndicatorSpec.valueAt?_scaled bars hc hother, hsame]

/-! ## Comparisons -/

section

variable {k : ℝ → ℝ}

theorem Operator.compares_of_strictMono
    (hk : StrictMono k)
    (o : Operator) (l r : ℝ) :
    o.compares (k l) (k r) = o.compares l r := by
  cases o <;> simp [compares, tied, hk.lt_iff_lt, hk.le_iff_le]

theorem Operator.comparesBefore_of_strictMono
    (hk : StrictMono k)
    (o : Operator) (l r : ℝ) :
    o.comparesBefore (k l) (k r) = o.comparesBefore l r := by
  cases o <;> simp [comparesBefore, hk.le_iff_le]

end

theorem Comparison.holdsAt_scaled
    (hc : 0 < c)
    {leaf : Comparison}
    (hleaf : leaf.Commensurable)
    (index : Nat) :
    leaf.holdsAt (bars.map (Bar.scaled c)) index = leaf.holdsAt bars index := by
  cases hresolve : (leaf.indicator.resolve : Except Failure (Indicator ℝ)) with
  | error e => simp only [holdsAt, IndicatorSpec.valueAt?, hresolve]
  | ok i =>
      have hmono := i.strictMono_rescale hc
      simp only [holdsAt, IndicatorSpec.valueAt?_scaled bars hc hresolve,
        target_valueAt?_scaled bars hc hleaf hresolve]
      cases Operator.spelledBy? leaf.operator with
      | none => rfl
      | some o =>
          simp only
          congr 1
          · cases leaf.indicator.valueAt? bars index <;>
              cases leaf.target.valueAt? bars index <;>
              simp [o.compares_of_strictMono hmono]
          · cases leaf.indicator.valueAt? bars (index - 1) <;>
              cases leaf.target.valueAt? bars (index - 1) <;>
                simp [o.comparesBefore_of_strictMono hmono]

/-! ## Trees -/

mutual

theorem RuleNode.holdsAt_scaled (hc : 0 < c) (index : Nat) :
    ∀ node : RuleNode, (∀ leaf ∈ node.leaves, leaf.Commensurable) →
      node.holdsAt (bars.map (Bar.scaled c)) index = node.holdsAt bars index
  | .comparison leaf, hleaves => by
      rw [RuleNode.leaves] at hleaves
      exact leaf.holdsAt_scaled bars hc
        (hleaves leaf (List.mem_singleton_self leaf)) index
  | .group _ [], _ => rfl
  | .group combinator ((_, first) :: rest), hleaves => by
      rw [RuleNode.leaves, RuleNode.leavesOf, List.forall_mem_append] at hleaves
      rw [holdsAt, holdsAt, first.holdsAt_scaled hc index hleaves.1,
        RuleNode.holdsFrom_scaled hc index combinator _ rest hleaves.2]

theorem RuleNode.holdsFrom_scaled
    (hc : 0 < c)
    (index : Nat) (combinator : Combinator) (running : Bool) :
    ∀ rest : List (Option Combinator × RuleNode),
      (∀ leaf ∈ RuleNode.leavesOf rest, leaf.Commensurable) →
      RuleNode.holdsFrom (bars.map (Bar.scaled c)) index combinator
          running rest =
        RuleNode.holdsFrom bars index combinator running rest
  | [], _ => rfl
  | (own, node) :: rest, hleaves => by
      rw [RuleNode.leavesOf, List.forall_mem_append] at hleaves
      rw [holdsFrom, holdsFrom, node.holdsAt_scaled hc index hleaves.1,
        RuleNode.holdsFrom_scaled hc index combinator _ rest hleaves.2]

end

theorem RuleGroup.holdsAt_scaled (hc : 0 < c) {g : RuleGroup}
    (hleaves : ∀ leaf ∈ g.leaves, leaf.Commensurable) (index : Nat) :
    g.holdsAt (bars.map (Bar.scaled c)) index = g.holdsAt bars index :=
  g.toNode.holdsAt_scaled bars hc index hleaves

end

end RuleBacktest
