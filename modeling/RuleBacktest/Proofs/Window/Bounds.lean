import Mathlib.Order.Interval.Set.OrdConnected
import RuleBacktest.Indicator.Pointwise
import RuleBacktest.Proofs.Causality.Indicator
import RuleBacktest.Proofs.Window.Smoothing

/-!
# Bounds of points

A bound on the inputs of a formula becomes a bound on its points.  Points by
themselves and side by side are bounded by what is done with them.  A smoothed
value is an average, so in exact arithmetic it is between two of its inputs and
stays in every interval that holds them all, also where the smoothing starts
again after a gap.
-/

namespace RuleBacktest

variable {σ ι κ ο : Type}

/-- Every point that is there is in `S`. -/
def PointsIn (S : Set ο) (points : List (Option ο)) : Prop :=
  ∀ x, some x ∈ points → x ∈ S

variable {S : Set ι} {T : Set κ} {U : Set ο}

theorem pointsIn_univ (points : List (Option ι)) : PointsIn Set.univ points :=
  fun _ _ => trivial

theorem PointsIn.map {points : List (Option ι)}
    (h : PointsIn S points)
    {f : ι → ο}
    (hf : ∀ x ∈ S, f x ∈ U) :
    PointsIn U (points.map fun p => p.map f) := by
  intro y hy
  obtain ⟨p, hp, hpoint⟩ := List.mem_map.mp hy
  obtain ⟨x, rfl, rfl⟩ := Option.map_eq_some_iff.mp hpoint
  exact hf x (h x hp)

theorem PointsIn.pointwise {xs : List (Option ι)} {ys : List (Option κ)}
    (hx : PointsIn S xs)
    (hy : PointsIn T ys)
    {f : ι → κ → ο}
    (hf : ∀ x ∈ S, ∀ y ∈ T, f x y ∈ U) :
    PointsIn U (Indicator.pointwise f xs ys) := by
  intro z hz
  obtain ⟨i, hi⟩ := List.mem_iff_getElem?.mp hz
  rw [Indicator.pointwise, List.getElem?_zipWith_eq_some] at hi
  obtain ⟨p, q, hp, hq, hboth⟩ := hi
  obtain ⟨x, rfl, hrest⟩ := Option.bind_eq_some_iff.mp hboth
  obtain ⟨y, rfl, rfl⟩ := Option.map_eq_some_iff.mp hrest
  exact hf x (hx x (List.mem_of_getElem? hp)) y (hy y (List.mem_of_getElem? hq))

theorem pointsIn_sweep {step : σ → ι → σ × Option ο}
    (hstep : ∀ s x y, (step s x).2 = some y → y ∈ U)
    (start : σ) (xs : List ι) :
    PointsIn U (sweep step start xs) := by
  intro y hy
  obtain ⟨i, hi⟩ := List.mem_iff_getElem?.mp hy
  rw [sweep_getElem?, Option.map_eq_some_iff] at hi
  obtain ⟨x, -, hpoint⟩ := hi
  exact hstep _ x y hpoint

/-- What keeps a bound on every list keeps it on the stretches between gaps. -/
theorem PointsIn.acrossGaps {source : List (Option ι)}
    (h : PointsIn S source)
    {f : List ι → List (Option ο)}
    (hf : Causal f)
    (hbound : ∀ xs, (∀ x ∈ xs, x ∈ S) → PointsIn U (f xs)) :
    PointsIn U (acrossGaps f source) := by
  intro y hy
  obtain ⟨i, hi⟩ := List.mem_iff_getElem?.mp hy
  rw [acrossGaps_getElem? hf (hf.acrossGaps.lt_length hi)] at hi
  have hstretch : ∀ x ∈ lastStretch (source.take (i + 1)), x ∈ S := by
    intro x hx
    have hmem :=
      (map_some_lastStretch_suffix (source.take (i + 1))).subset
        (List.mem_map_of_mem hx)
    exact h x (List.mem_of_mem_take hmem)
  rcases List.mem_cons.mp (List.mem_of_getElem? hi) with hgap | hpoint
  · cases hgap
  · exact hbound _ hstretch y hpoint

namespace Window

/-! ## Smoothed values -/

variable {period : ℕ} {S : Set ℝ} [S.OrdConnected] {xs : List ℝ}

theorem pointsIn_smoothed {k : ℝ}
    (hperiod : 0 < period)
    (hk : 0 ≤ k)
    (hk' : k ≤ 1)
    (hxs : ∀ x ∈ xs, x ∈ S) :
    PointsIn S (smoothed period (mixed k) xs) := by
  intro y hy
  obtain ⟨i, hi⟩ := List.mem_iff_getElem?.mp hy
  have hlength := (causal_smoothed period (mixed k)).lt_length hi
  have hfull : period ≤ i + 1 := by
    by_contra hfew
    rw [smoothed_getElem? hperiod _ hlength,
      if_pos (Nat.lt_of_not_le hfew)] at hi
    cases hi
  obtain ⟨z, hz, -, -, least, hleast, greatest, hgreatest, -, hlow, hhigh⟩ :=
    (isWeightedAverage_smoothed hperiod hk hk').point xs i hlength hfull
  rw [acrossGaps_map_some, hi] at hz
  cases hz
  exact Set.OrdConnected.out ‹_› (hxs _ (List.mem_of_mem_take hleast))
    (hxs _ (List.mem_of_mem_take hgreatest)) ⟨hlow, hhigh⟩

theorem pointsIn_undefined (S : Set ℝ) (xs : List ℝ) :
    PointsIn S (undefined xs) := by
  intro y hy
  obtain ⟨_, -, hnone⟩ := List.mem_map.mp hy
  cases hnone

theorem pointsIn_wilder (period : ℕ) (hxs : ∀ x ∈ xs, x ∈ S) :
    PointsIn S (wilder period xs) := by
  by_cases hperiod : 0 < period
  · have hcount : (1 : ℝ) ≤ period := by exact_mod_cast hperiod
    rw [wilder_eq_smoothed hperiod]
    exact pointsIn_smoothed hperiod (by positivity)
      (div_le_one_of_le₀ hcount (by positivity)) hxs
  · rw [wilder, smoothed, if_pos (Nat.eq_zero_of_not_pos hperiod)]
    exact pointsIn_undefined S xs

theorem pointsIn_acrossGaps_wilder (period : ℕ) {source : List (Option ℝ)}
    (h : PointsIn S source) :
    PointsIn S (acrossGaps (wilder period) source) := by
  refine h.acrossGaps (causal_wilder period) ?_
  intro xs hxs
  exact pointsIn_wilder period hxs

/-! ## Deviations -/

theorem pointsIn_deviation (period : ℕ) (xs : List ℝ) :
    PointsIn (Set.Ici 0) (deviation period xs) := by
  unfold deviation
  split_ifs
  · exact pointsIn_undefined _ xs
  · refine pointsIn_sweep ?_ _ _
    intro s entry y hy
    obtain ⟨-, hroot⟩ := Option.ite_none_right_eq_some.mp hy
    rw [← Option.some.inj hroot]
    exact Real.sqrt_nonneg _

end Window

end RuleBacktest
