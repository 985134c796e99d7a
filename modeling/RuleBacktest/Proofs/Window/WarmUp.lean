import RuleBacktest.Indicator.Pointwise
import RuleBacktest.Proofs.Causality.Indicator
import RuleBacktest.Proofs.Window.Deviation
import RuleBacktest.Proofs.Window.Extreme
import RuleBacktest.Proofs.Window.Smoothing
import RuleBacktest.Proofs.Window.Sums

/-!
# Warming up

A window has no point until it is full, and one at every place from there on.
Points that are combined are there from the later of the two places on.  A
window over points that warm up themselves starts where they do, so the two
delays add up.
-/

namespace RuleBacktest

variable {σ ι κ ο : Type}

/-- The points are missing before place `n` and present from there on. -/
def DefinedFrom (n : Nat) (points : List (Option ο)) : Prop :=
  ∀ i p, points[i]? = some p → (p.isSome = true ↔ n ≤ i)

theorem DefinedFrom.of_eq {m n : Nat} {points : List (Option ο)}
    (h : DefinedFrom m points)
    (hmn : m = n) :
    DefinedFrom n points := by
  rwa [← hmn]

theorem DefinedFrom.isSome_join_iff {n i : Nat} {points : List (Option ο)}
    (h : DefinedFrom n points)
    (hi : i < points.length) :
    points[i]?.join.isSome = true ↔ n ≤ i := by
  rw [List.getElem?_eq_getElem hi, Option.join_some]
  exact h i _ (List.getElem?_eq_getElem hi)

/-! ## Points by themselves and side by side -/

theorem definedFrom_map {f : ι → Option ο}
    (hf : ∀ x, (f x).isSome = true)
    (xs : List ι) :
    DefinedFrom 0 (xs.map f) := by
  intro i p hp
  rw [List.getElem?_map, Option.map_eq_some_iff] at hp
  obtain ⟨x, -, rfl⟩ := hp
  simp [hf]

theorem DefinedFrom.map {n : Nat} {points : List (Option κ)}
    (h : DefinedFrom n points)
    (f : κ → ο) :
    DefinedFrom n (points.map fun p => p.map f) := by
  intro i p hp
  rw [List.getElem?_map, Option.map_eq_some_iff] at hp
  obtain ⟨q, hq, rfl⟩ := hp
  rw [Option.isSome_map, h i q hq]

theorem DefinedFrom.pointwise {m n : Nat} {xs : List (Option ι)}
    {ys : List (Option κ)}
    (hx : DefinedFrom m xs)
    (hy : DefinedFrom n ys)
    (f : ι → κ → ο) :
    DefinedFrom (max m n) (Indicator.pointwise f xs ys) := by
  intro i p hp
  rw [Indicator.pointwise, List.getElem?_zipWith_eq_some] at hp
  obtain ⟨a, b, ha, hb, rfl⟩ := hp
  have hboth : (Indicator.bothDefined f a b).isSome = true ↔
      a.isSome = true ∧ b.isSome = true := by
    cases a <;> cases b <;> simp [Indicator.bothDefined]
  rw [hboth, hx i a ha, hy i b hb, Nat.max_le]

theorem definedFrom_nil (n : Nat) : DefinedFrom n ([] : List (Option ο)) := by
  intro i p hp
  cases hp

theorem DefinedFrom.cons_none {n : Nat} {points : List (Option ο)}
    (h : DefinedFrom n points) :
    DefinedFrom (n + 1) (none :: points) := by
  intro i p hp
  cases i with
  | zero =>
      rw [List.getElem?_cons_zero, Option.some.injEq] at hp
      simp [← hp]
  | succ i => rw [h i p hp, Nat.add_le_add_iff_right]

theorem DefinedFrom.cons_some {points : List (Option ο)}
    (h : DefinedFrom 0 points)
    (x : ο) :
    DefinedFrom 0 (some x :: points) := by
  intro i p hp
  cases i with
  | zero =>
      rw [List.getElem?_cons_zero, Option.some.injEq] at hp
      simp [← hp]
  | succ i => exact iff_of_true ((h i p hp).mpr (Nat.zero_le i)) (Nat.zero_le _)

theorem definedFrom_withLag (lag : Nat) (f : ι → ι → ο) (xs : List ι) :
    DefinedFrom lag
      ((withLag lag xs).map fun entry => entry.2.map (f entry.1)) := by
  intro i p hp
  rw [List.getElem?_map, withLag_getElem?, Option.map_map,
    Option.map_eq_some_iff] at hp
  obtain ⟨x, hx, rfl⟩ := hp
  have hi := (List.getElem?_eq_some_iff.mp hx).1
  by_cases hlag : lag ≤ i
  · have hearlier : i - lag < xs.length := by omega
    simp [hlag, hearlier]
  · simp [hlag]

/-! ## Sweeps -/

theorem definedFrom_sweep {step : σ → ι → σ × Option ο}
    (hstep : ∀ s x, (step s x).2.isSome = true)
    (start : σ) (xs : List ι) :
    DefinedFrom 0 (sweep step start xs) := by
  intro i p hp
  rw [sweep_getElem?, Option.map_eq_some_iff] at hp
  obtain ⟨x, -, rfl⟩ := hp
  simp [hstep]

/-- A sweep that answers where its second input is present. -/
theorem DefinedFrom.sweep {n : Nat} {points : List (Option κ)}
    (h : DefinedFrom n points)
    {step : σ → ι × Option κ → σ × Option ο}
    (hstep : ∀ s entry, (step s entry).2.isSome = entry.2.isSome)
    (start : σ) (xs : List ι) :
    DefinedFrom n (sweep step start (xs.zip points)) := by
  intro i p hp
  rw [sweep_getElem?, Option.map_eq_some_iff] at hp
  obtain ⟨entry, hentry, rfl⟩ := hp
  rw [hstep, h i entry.2 (List.getElem?_zip_eq_some.mp hentry).2]

/-! ## Windows -/

theorem WindowPass.definedFrom_onStretch (p : WindowPass σ ι ο)
    (hread : ∀ s, p.period ≤ p.count s → (p.read s).isSome = true)
    (xs : List ι) :
    DefinedFrom (p.period - 1) (p.onStretch xs) := by
  intro i point hpoint
  rw [onStretch_getElem?, Option.map_eq_some_iff] at hpoint
  obtain ⟨x, hx, rfl⟩ := hpoint
  have hcount := p.count_stateOn (xs.take (i + 1))
  rw [List.length_take_of_le (List.getElem?_eq_some_iff.mp hx).1] at hcount
  by_cases hfull : p.period ≤ i + 1
  · exact iff_of_true (hread _ (by omega)) (by omega)
  · rw [p.read_of_lt _ (by omega)]
    exact iff_of_false (by simp) (by omega)

namespace Window

open Scalar

variable {α : Type} [Scalar α] {period : Nat}

theorem definedFrom_mean (hperiod : 0 < period) (xs : List α) :
    DefinedFrom (period - 1) (mean period xs) := by
  rw [MeanState.mean_eq_onStretch hperiod]
  exact (MeanState.pass hperiod).definedFrom_onStretch
    (fun _ hfull => Option.isSome_of_eq_some (if_pos hfull)) xs

theorem definedFrom_deviation (hperiod : 0 < period) (xs : List α) :
    DefinedFrom (period - 1) (deviation period xs) := by
  rw [DeviationState.deviation_eq_onStretch hperiod]
  exact (DeviationState.pass hperiod).definedFrom_onStretch
    (fun _ hfull => Option.isSome_of_eq_some (if_pos hfull)) xs

theorem definedFrom_weightedMean (hperiod : 0 < period) (xs : List α) :
    DefinedFrom (period - 1) (weightedMean period xs) := by
  rw [WeightedState.weightedMean_eq_onStretch hperiod]
  exact (WeightedState.pass hperiod).definedFrom_onStretch
    (fun _ hfull => Option.isSome_of_eq_some (if_pos hfull)) xs

theorem definedFrom_smoothed
    (hperiod : 0 < period)
    (blend : α → α → α) (xs : List α) :
    DefinedFrom (period - 1) (smoothed period blend xs) := by
  intro i p hp
  have hi := (causal_smoothed period blend).lt_length hp
  rw [smoothed_getElem? hperiod blend hi, Option.some.injEq] at hp
  rw [← hp]
  by_cases hfew : i + 1 < period
  · rw [if_pos hfew]
    exact iff_of_false (by simp) (by omega)
  · rw [if_neg hfew]
    exact iff_of_true rfl (by omega)

theorem definedFrom_exponential (hperiod : 0 < period) (xs : List α) :
    DefinedFrom (period - 1) (exponential period xs) :=
  definedFrom_smoothed hperiod _ xs

theorem definedFrom_wilder (hperiod : 0 < period) (xs : List α) :
    DefinedFrom (period - 1) (wilder period xs) :=
  definedFrom_smoothed hperiod _ xs

omit [Scalar α] in
theorem definedFrom_undefined (xs : List α) :
    DefinedFrom xs.length (undefined xs) := by
  intro i p hp
  have hi := causal_undefined.lt_length hp
  rw [undefined, List.getElem?_map, Option.map_eq_some_iff] at hp
  obtain ⟨_, -, rfl⟩ := hp
  exact iff_of_false (by simp) (by omega)

/-- Also a smoother without a period has its points from some place on, as it
has none. -/
theorem exists_definedFrom_wilder (period : Nat) (xs : List α) :
    ∃ n, DefinedFrom n (wilder period xs) := by
  by_cases hperiod : 0 < period
  · exact ⟨_, definedFrom_wilder hperiod xs⟩
  · refine ⟨xs.length, ?_⟩
    rw [wilder, smoothed, if_pos (Nat.eq_zero_of_not_pos hperiod)]
    exact definedFrom_undefined xs

/-! ## Extremes -/

namespace ExtremeState

omit [Scalar α] in
/-- The newest value is always a candidate, as it has not left the window when
it enters. -/
theorem advance_candidates_ne_nil
    (hperiod : 0 < period)
    (dominates : α → α → Bool) (s : ExtremeState α) (x : α) :
    (s.advance period dominates x).candidates ≠ [] := by
  rw [advance, push]
  generalize s.candidates.dropWhile _ = older
  cases older with
  | nil => simp [expire, Nat.not_le_of_lt hperiod]
  | cons c older =>
      unfold expire
      split
      · simp
      · split <;> simp

omit [Scalar α] in
theorem count_stateAfter (dominates : α → α → Bool) (xs : List α) :
    (stateAfter (step period dominates) initial xs).count = xs.length := by
  induction xs using List.reverseRecOn with
  | nil => rfl
  | append_singleton xs x ih =>
      rw [stateAfter_concat, List.length_append, ← ih]
      rfl

end ExtremeState

omit [Scalar α] in
theorem definedFrom_extreme
    (hperiod : 0 < period)
    (dominates : α → α → Bool) (xs : List α) :
    DefinedFrom (period - 1) (extreme period dominates xs) := by
  intro i p hp
  have hi := (causal_extreme period dominates).lt_length hp
  rw [extreme_getElem? dominates hperiod hi, Option.some.injEq,
    ExtremeState.extreme?, ExtremeState.count_stateAfter,
    List.length_take_of_le hi] at hp
  rw [← hp]
  by_cases hfull : period ≤ i + 1
  · have hcandidates :=
      ExtremeState.advance_candidates_ne_nil hperiod dominates
        (stateAfter (ExtremeState.step period dominates) ExtremeState.initial
          (xs.take i)) xs[i]
    rw [if_pos hfull, List.take_succ_eq_append_getElem hi, stateAfter_concat,
      Option.isSome_map]
    exact iff_of_true (List.getLast?_isSome.mpr hcandidates) (by omega)
  · rw [if_neg hfull]
    exact iff_of_false (by simp) (by omega)

end Window

/-! ## Windows over points that warm up -/

theorem DefinedFrom.length_lastStretch {n : Nat} {source : List (Option ι)}
    (h : DefinedFrom n source) :
    (lastStretch source).length = source.length - n := by
  induction source using List.reverseRecOn with
  | nil => simp
  | append_singleton source v ih =>
      have hbefore : DefinedFrom n source := by
        intro i p hp
        refine h i p ?_
        rw [List.getElem?_append_left (List.getElem?_eq_some_iff.mp hp).1, hp]
      have hlast := h source.length v List.getElem?_concat_length
      cases v with
      | none =>
          have hfew : ¬ n ≤ source.length :=
            fun hn => by simpa using hlast.mpr hn
          rw [lastStretch_concat_none, List.length_nil, List.length_append,
            List.length_singleton]
          omega
      | some x =>
          have hfull := hlast.mp rfl
          rw [lastStretch_concat_some, List.length_append, ih hbefore,
            List.length_append, List.length_singleton, List.length_singleton]
          omega

/-- The delays add up. -/
theorem DefinedFrom.acrossGaps {m n : Nat} {source : List (Option ι)}
    (h : DefinedFrom m source)
    {f : List ι → List (Option ο)}
    (hf : Causal f)
    (hwarm : ∀ xs, DefinedFrom n (f xs)) :
    DefinedFrom (m + n) (acrossGaps f source) := by
  intro i p hp
  have hi := hf.acrossGaps.lt_length hp
  have hsource : DefinedFrom m (source.take (i + 1)) := by
    intro j q hq
    refine h j q ?_
    have hj := (List.getElem?_eq_some_iff.mp hq).1
    rw [List.length_take_of_le hi] at hj
    rw [← hq, List.getElem?_take_of_lt hj]
  have hlength := hsource.length_lastStretch
  rw [List.length_take_of_le hi] at hlength
  rw [acrossGaps_getElem? hf hi, hlength] at hp
  by_cases hstarted : m ≤ i
  · have hplace : i + 1 - m = i - m + 1 := by omega
    rw [hplace, List.getElem?_cons_succ] at hp
    rw [hwarm _ _ p hp]
    omega
  · have hplace : i + 1 - m = 0 := by omega
    rw [hplace, List.getElem?_cons_zero, Option.some.injEq] at hp
    rw [← hp]
    exact iff_of_false (by simp) (by omega)

end RuleBacktest
