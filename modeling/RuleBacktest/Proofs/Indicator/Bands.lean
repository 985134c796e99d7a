import RuleBacktest.Proofs.Cache.Growth
import RuleBacktest.Proofs.Indicator.Bounds

/-!
# Bands around a middle line

Both kinds of bands are put together in one way: a middle line, and a factor of
a width on each side of it. In exact arithmetic neither width is negative, one
being a square root and the other an average of true ranges, so a smaller factor
gives the inner band on either side.  The lines and widths go through the cache,
and what it answers with does not depend on what it was asked for before.
-/

namespace RuleBacktest

open Indicator

variable {α : Type} [Scalar α]

/-! ## Answers of a cache -/

namespace IndicatorCache

/-- The series of an indicator by a cache that has gone through some
requests. -/
def answerAfter (bars : List (Bar α)) (requests : List (CacheRequest α))
    (i : Indicator α) : IndicatorSeries α :=
  ((after bars requests).get bars i).1

theorem value?_answerAfter (bars : List (Bar α))
    (requests : List (CacheRequest α)) (i : Indicator α) (index : ℕ) :
    (answerAfter bars requests i).value? index =
      (i.points bars)[index]?.join := by
  rw [answerAfter, get_after, IndicatorSeries.value?_direct]

/-- A request leaves the parts of its indicator in the cache as they are
computed on their own. -/
theorem find?_part_get_after {bars : List (Bar α)}
    {requests : List (CacheRequest α)} {i part : Indicator α}
    (hpart : IsPart part i) :
    ((after bars requests).get bars i).2.find? part =
      some (answerAfter bars requests part) := by
  have hgrown := (grown_after bars requests).wellKept.grown_get bars i
  have hfaithful := ((faithful_after bars requests).get i).2
  have hkept :=
    (hgrown.mem_keys part).mpr (Or.inr ⟨i, List.mem_singleton_self i, hpart⟩)
  rw [answerAfter, get_after]
  cases hfound : ((after bars requests).get bars i).2.find? part with
  | none => exact absurd hkept (find?_eq_none_iff.mp hfound)
  | some s => rw [hfaithful.eq_direct_of_find? hfound]

end IndicatorCache

namespace Indicator

theorem pointwise_getElem?_join {ι κ ο : Type} (f : ι → κ → ο)
    (xs : List (Option ι)) (ys : List (Option κ)) (i : ℕ) :
    (pointwise f xs ys)[i]?.join = bothDefined f xs[i]?.join ys[i]?.join := by
  rw [pointwise, List.getElem?_zipWith]
  cases xs[i]? with
  | none => rfl
  | some x =>
      cases ys[i]? with
      | none => cases x <;> rfl
      | some y => rfl

/-! ## One place -/

noncomputable section

/-- The edge of a channel whose middle is at `m` and whose width is `w`. -/
def edge (band : Band) (k m w : ℝ) : ℝ :=
  match band with
  | .upper => m + k * w
  | .lower => m - k * w

theorem bandPoints_of (band : Band) (k : ℝ) (middle width : List (Option ℝ)) :
    bandPoints band (Factor.of k) middle width =
      pointwise (edge band k) middle width := by
  have hvalue : (Factor.of k).value = k := by
    by_cases hzero : k = 0 <;> simp [Factor.of, hzero]
  cases band <;> simp only [bandPoints, hvalue] <;> rfl

theorem edges_nest {k₁ k₂ w : ℝ}
    (hk : 0 < k₁)
    (hle : k₁ ≤ k₂)
    (hw : 0 ≤ w)
    (m : ℝ) :
    edge .lower k₂ m w ≤ edge .lower k₁ m w ∧
      edge .lower k₁ m w ≤ m ∧
      m ≤ edge .upper k₁ m w ∧
      edge .upper k₁ m w ≤ edge .upper k₂ m w := by
  have hinner : 0 ≤ k₁ * w := mul_nonneg hk.le hw
  have houter : k₁ * w ≤ k₂ * w := mul_le_mul_of_nonneg_right hle hw
  simp only [edge]
  refine ⟨?_, ?_, ?_, ?_⟩ <;> linarith

theorem edge_upper_sub (k m w : ℝ) :
    edge .upper k m w - m = m - edge .lower k m w := by
  simp only [edge]
  ring

end

/-! ## All places -/

open IndicatorCache

/-- The bands by factors `k` of a width around a middle line, as a cache gives
them. -/
structure BandsNest (bars : List (Bar ℝ)) (requests : List (CacheRequest ℝ))
    (middle width : Indicator ℝ) (band : Band → ℝ → Indicator ℝ) : Prop where
  /-- The middle line and the width are in the cache behind a request for a
  band. -/
  kept : ∀ side k, ∀ part ∈ [middle, width],
    ((after bars requests).get bars (band side k)).2.find? part =
      some (answerAfter bars requests part)
  isSome_iff : ∀ side k index,
    ((answerAfter bars requests (band side k)).value? index).isSome = true ↔
      ((answerAfter bars requests middle).value? index).isSome = true ∧
        ((answerAfter bars requests width).value? index).isSome = true
  nested : ∀ k₁ k₂,
    0 < k₁ →
    k₁ ≤ k₂ →
    ∀ index m w,
      (answerAfter bars requests middle).value? index = some m →
      (answerAfter bars requests width).value? index = some w →
      ∃ outerLower innerLower innerUpper outerUpper,
        (answerAfter bars requests (band .lower k₂)).value? index =
          some outerLower ∧
        (answerAfter bars requests (band .lower k₁)).value? index =
          some innerLower ∧
        (answerAfter bars requests (band .upper k₁)).value? index =
          some innerUpper ∧
        (answerAfter bars requests (band .upper k₂)).value? index =
          some outerUpper ∧
        outerLower ≤ innerLower ∧
        innerLower ≤ m ∧
        m ≤ innerUpper ∧
        innerUpper ≤ outerUpper ∧
        innerUpper - m = m - innerLower ∧
        outerUpper - m = m - outerLower

theorem bandsNest_of {bars : List (Bar ℝ)} {middle width : Indicator ℝ}
    {band : Band → ℝ → Indicator ℝ}
    (hmiddle : ∀ side k, IsComponent middle (band side k))
    (hwidth : ∀ side k, IsComponent width (band side k))
    (hpoints : ∀ side k, (band side k).points bars =
      bandPoints side (Factor.of k) (middle.points bars) (width.points bars))
    (hbound : PointsIn (Set.Ici 0) (width.points bars))
    (requests : List (CacheRequest ℝ)) :
    BandsNest bars requests middle width band := by
  have hedge (side : Band) (k : ℝ) (index : ℕ) :
      (answerAfter bars requests (band side k)).value? index =
        bothDefined (edge side k)
          ((answerAfter bars requests middle).value? index)
          ((answerAfter bars requests width).value? index) := by
    rw [value?_answerAfter, hpoints, bandPoints_of, pointwise_getElem?_join,
      value?_answerAfter, value?_answerAfter]
  refine ⟨?_, ?_, ?_⟩
  · intro side k part hpart
    have hcomponent : IsComponent part (band side k) := by
      simp only [List.mem_cons, List.not_mem_nil, or_false] at hpart
      rcases hpart with rfl | rfl
      · exact hmiddle side k
      · exact hwidth side k
    exact find?_part_get_after (.single hcomponent)
  · intro side k index
    rw [hedge]
    cases (answerAfter bars requests middle).value? index <;>
      cases (answerAfter bars requests width).value? index <;>
      simp [bothDefined]
  · intro k₁ k₂ hk hle index m w hm hw
    have hnonneg : 0 ≤ w := by
      rw [value?_answerAfter, Option.join_eq_some_iff] at hw
      exact hbound w (List.mem_of_getElem? hw)
    obtain ⟨houterLower, hlower, hupper, houterUpper⟩ :=
      edges_nest hk hle hnonneg m
    have hanswer (side : Band) (k : ℝ) :
        (answerAfter bars requests (band side k)).value? index =
          some (edge side k m w) := by
      rw [hedge, hm, hw]
      rfl
    exact ⟨_, _, _, _, hanswer .lower k₂, hanswer .lower k₁, hanswer .upper k₁,
      hanswer .upper k₂, houterLower, hlower, hupper, houterUpper,
      edge_upper_sub k₁ m w, edge_upper_sub k₂ m w⟩

/-- The bands around the mean of the closes, and where the first bar is in order
also those around the smoothed typical price, are where their middle line and
their width are, and they nest around the middle line.  What the cache gives
does not depend on what it was asked for before. -/
theorem bands_nest_around_middle (bars : List (Bar ℝ))
    (requests : List (CacheRequest ℝ)) (period rangePeriod : ℕ) :
    (∀ (i : Indicator ℝ) (others : List (CacheRequest ℝ)),
        answerAfter bars requests i = answerAfter bars others i) ∧
      BandsNest bars requests (sma period) (standardDeviation period)
        (fun side k => bollinger side period (Factor.of k)) ∧
      ((∀ b ∈ bars.head?, b.low ≤ b.high) →
        BandsNest bars requests (keltnerMiddle period) (atr rangePeriod)
          (fun side k => keltner side period rangePeriod (Factor.of k))) := by
  refine ⟨?_, ?_, ?_⟩
  · intro i others
    rw [answerAfter, answerAfter, get_after, get_after]
  · refine bandsNest_of (fun _ _ => .bollingerMiddle _ _ _)
      (fun _ _ => .bollingerWidth _ _ _) (fun _ _ => points_of_ofTwo rfl bars)
      ?_ requests
    rw [points_of_ofBars rfl]
    exact Window.pointsIn_deviation period (closes bars)
  · intro hfirst
    refine bandsNest_of (fun _ _ => .keltnerMiddle _ _ _ _)
      (fun _ _ => .keltnerWidth _ _ _ _) (fun _ _ => points_of_ofTwo rfl bars)
      ?_ requests
    rw [points_of_ofBars rfl]
    exact pointsIn_atrPoints rangePeriod hfirst

/-- Three bars with more extent from one to the next. -/
noncomputable def widening : List (Bar ℝ) :=
  [wholeBarOn { year := 2024, month := 12, day := 2 } 11 9 10,
    wholeBarOn { year := 2024, month := 12, day := 3 } 13 8 12,
    wholeBarOn { year := 2024, month := 12, day := 4 } 16 7 9]

/-- A cache that has been asked for the inner upper band before. -/
noncomputable def wideningAnswer (i : Indicator ℝ) : IndicatorSeries ℝ :=
  answerAfter widening [.indicator (keltner .upper 2 1 (Factor.of 1))] i

theorem bands_nest_around_middle_widening :
    (∀ b ∈ widening.head?, b.low ≤ b.high) ∧
      (0 : ℝ) < 1 ∧
      (1 : ℝ) ≤ 2 ∧
      ∃ m outerLower innerLower innerUpper outerUpper,
        (wideningAnswer (keltnerMiddle 2)).value? 2 = some m ∧
        (wideningAnswer (keltner .lower 2 1 (Factor.of 2))).value? 2 =
          some outerLower ∧
        (wideningAnswer (keltner .lower 2 1 (Factor.of 1))).value? 2 =
          some innerLower ∧
        (wideningAnswer (keltner .upper 2 1 (Factor.of 1))).value? 2 =
          some innerUpper ∧
        (wideningAnswer (keltner .upper 2 1 (Factor.of 2))).value? 2 =
          some outerUpper ∧
        outerLower ≤ innerLower ∧
        innerLower ≤ m ∧
        m ≤ innerUpper ∧
        innerUpper ≤ outerUpper := by
  have hfirst : ∀ b ∈ widening.head?, b.low ≤ b.high := by
    norm_num [widening, wholeBarOn, barOn]
  have hthere (i : Indicator ℝ) (hsteady : i.IsSteady)
      (hperiods : ∀ period ∈ i.periods, 1 ≤ period) (hfits : i.barsNeeded ≤ 3) :
      ∃ x, (wideningAnswer i).value? 2 = some x := by
    have hlength : 2 < (i.points widening).length := by
      simp [length_points, widening]
    rw [wideningAnswer, value?_answerAfter, ← Option.isSome_iff_exists,
      (hsteady.definedFrom_points hperiods widening).isSome_join_iff hlength]
    omega
  obtain ⟨-, -, hkeltner⟩ := bands_nest_around_middle widening
    [.indicator (keltner .upper 2 1 (Factor.of 1))] 2 1
  obtain ⟨m, hm⟩ :=
    hthere (keltnerMiddle 2) trivial (by simp [periods]) (by decide)
  obtain ⟨w, hw⟩ := hthere (atr 1) trivial (by simp [periods]) (by decide)
  obtain ⟨outerLower, innerLower, innerUpper, outerUpper, houterLower,
      hinnerLower, hinnerUpper, houterUpper, hlower, hleft, hright, hupper, -,
      -⟩ :=
    (hkeltner hfirst).nested 1 2 one_pos one_le_two 2 m w hm hw
  exact ⟨hfirst, one_pos, one_le_two, m, outerLower, innerLower, innerUpper,
    outerUpper, hm, houterLower, hinnerLower, hinnerUpper, houterUpper, hlower,
    hleft, hright, hupper⟩

end Indicator
end RuleBacktest
