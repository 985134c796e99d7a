import Mathlib.Logic.Relation
import RuleBacktest.Proofs.Indicator.Points

/-!
# Components and parts

What an indicator is made of, said without its formula.  The parts of an
indicator are the indicator itself, its components, and theirs.  Every component
is of a lower rank, so there is no endless descent through components, and no
indicator is a part of one of its components.
-/

namespace RuleBacktest
namespace Indicator

variable {α : Type} [Scalar α]

inductive IsComponent : Indicator α → Indicator α → Prop
  | hmaHalf (period : Nat) : IsComponent (wma (halfPeriod period)) (hma period)
  | hmaFull (period : Nat) : IsComponent (wma period) (hma period)
  | macdFast (fast slow : Nat) : IsComponent (ema fast) (macd fast slow)
  | macdSlow (fast slow : Nat) : IsComponent (ema slow) (macd fast slow)
  | adxPlus (period : Nat) : IsComponent (directional .plus period) (adx period)
  | adxMinus (period : Nat) : IsComponent (directional .minus period)
      (adx period)
  | directional (direction : Direction) (period : Nat) :
      IsComponent (atr period) (directional direction period)
  | bollingerMiddle (band : Band) (period : Nat) (width : Factor α) :
      IsComponent (sma period) (bollinger band period width)
  | bollingerWidth (band : Band) (period : Nat) (width : Factor α) :
      IsComponent (standardDeviation period) (bollinger band period width)
  | keltnerMiddle (band : Band) (period rangePeriod : Nat) (width : Factor α) :
      IsComponent (keltnerMiddle period) (keltner band period rangePeriod width)
  | keltnerWidth (band : Band) (period rangePeriod : Nat) (width : Factor α) :
      IsComponent (atr rangePeriod) (keltner band period rangePeriod width)
  | ichimokuHighest (line : IchimokuLine) (period : Nat) :
      IsComponent (donchian .upper period) (ichimoku line period)
  | ichimokuLowest (line : IchimokuLine) (period : Nat) :
      IsComponent (donchian .lower period) (ichimoku line period)
  | superTrend (period : Nat) (width : Factor α) :
      IsComponent (atr period) (superTrend period width)

/-- An indicator is a part of another one that is reached by going from
component to component. -/
def IsPart : Indicator α → Indicator α → Prop :=
  Relation.ReflTransGen IsComponent

variable {c i j : Indicator α}

theorem mem_components_iff : c ∈ i.components ↔ IsComponent c i := by
  constructor
  · intro hc
    cases i <;> simp [components, formula, Formula.components] at hc <;>
      rcases hc with rfl | rfl <;> constructor
  · intro hc
    cases hc <;> simp [components, formula, Formula.components]

theorem IsComponent.rank_lt (h : IsComponent c i) : c.rank < i.rank :=
  rank_lt_of_mem_components (mem_components_iff.mpr h)

theorem wellFounded_isComponent : WellFounded (IsComponent (α := α)) := by
  have hrank : WellFounded fun c i : Indicator α => c.rank < i.rank :=
    (measure rank).wf
  exact Subrelation.wf IsComponent.rank_lt hrank

theorem IsPart.rank_le (h : IsPart j i) : j.rank ≤ i.rank := by
  induction h with
  | refl => exact Nat.le_refl _
  | tail _ hstep ih => exact Nat.le_trans ih (Nat.le_of_lt hstep.rank_lt)

theorem isPart_iff : IsPart j i ↔ j = i ∨ ∃ c ∈ i.components, IsPart j c := by
  rw [IsPart, Relation.ReflTransGen.cases_tail_iff]
  constructor
  · rintro (rfl | ⟨c, hpart, hc⟩)
    · exact Or.inl rfl
    · exact Or.inr ⟨c, mem_components_iff.mpr hc, hpart⟩
  · rintro (rfl | ⟨c, hc, hpart⟩)
    · exact Or.inl rfl
    · exact Or.inr ⟨c, hpart, mem_components_iff.mp hc⟩

theorem not_isPart_of_mem_components (hc : c ∈ i.components) :
    ¬ IsPart i c := by
  intro hpart
  have hle := hpart.rank_le
  have hlt := rank_lt_of_mem_components hc
  omega

end Indicator
end RuleBacktest
