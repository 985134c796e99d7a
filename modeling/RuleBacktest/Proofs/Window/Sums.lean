import Mathlib.Tactic.NormNum
import Mathlib.Tactic.Ring
import RuleBacktest.Indicator.Volume
import RuleBacktest.Proofs.Scalar.Exact
import RuleBacktest.Proofs.Window.Pass
import RuleBacktest.Window.Average

/-!
# Sums over a sliding window

A mean, a weighted mean and an average by volume are quotients of sums that are
carried along.  In exact arithmetic, what the values that have left had added is
taken out again without a rest, so the sums are those of the window at hand.  In
the weighted mean all weights fall by one at once, and the plain sum is what
they lose together.
-/

namespace RuleBacktest

open Scalar

variable {α : Type} [Scalar α] {period : Nat}

namespace Window

/-! ## The mean -/

namespace MeanState

def pass (hperiod : 0 < period) : WindowPass (MeanState α) α α where
  period := period
  start := initial
  step := step period
  count := count
  read s := if period ≤ s.count then some (s.total / ofCount period) else none
  period_pos := hperiod
  count_start := rfl
  count_step _ _ := rfl
  snd_step _ _ := rfl
  read_of_lt _ hfew := if_neg (Nat.not_le_of_lt hfew)

theorem mean_eq_onStretch (hperiod : 0 < period) :
    (mean period : List α → List (Option α)) = (pass hperiod).onStretch := by
  funext xs
  exact if_neg (Nat.ne_of_gt hperiod)

theorem tracks_pass (hperiod : 0 < period) :
    (pass hperiod : WindowPass (MeanState ℝ) ℝ ℝ).Tracks fun w s =>
      s.total = w.sum where
  start := by
    simp [pass, initial]
  grow w s x hroom hcount hs := by
    simp [pass, step, hs]
  slide old w s x hwidth hs := by
    have hsum : (old :: w).sum = old + w.sum := List.sum_cons
    simp [pass, step, hs, hsum]
    ring

theorem read_pass
    (hperiod : 0 < period)
    {w : List ℝ} {s : MeanState ℝ}
    (hfull : period ≤ s.count)
    (hs : s.total = w.sum) :
    (pass hperiod).read s = some (w.sum / period) := by
  simp [pass, hfull, hs]

end MeanState

/-! ## The weighted mean -/

/-- The oldest value counts once, and each one counts once more than the one
before it. -/
noncomputable def weightedSum (w : List ℝ) : ℝ :=
  (w.mapIdx fun k x => ((k : ℝ) + 1) * x).sum

theorem weightedSum_concat (w : List ℝ) (x : ℝ) :
    weightedSum (w ++ [x]) = weightedSum w + (w.length + 1) * x := by
  simp [weightedSum, List.mapIdx_concat]

theorem weightedSum_cons (old : ℝ) (w : List ℝ) :
    weightedSum (old :: w) = old + w.sum + weightedSum w := by
  induction w using List.reverseRecOn with
  | nil => simp [weightedSum]
  | append_singleton w x ih =>
      rw [← List.cons_append, weightedSum_concat, weightedSum_concat, ih,
        List.sum_append, List.sum_singleton, List.length_cons, Nat.cast_add,
        Nat.cast_one]
      ring

namespace WeightedState

def pass (hperiod : 0 < period) : WindowPass (WeightedState α) α α where
  period := period
  start := initial
  step := step period
  count := count
  read s :=
    if period ≤ s.count then
      some (s.weighted / (ofCount period * (ofCount period + 1) / 2))
    else none
  period_pos := hperiod
  count_start := rfl
  count_step s entry := by cases hold : entry.2 <;> simp [step, hold]
  snd_step s entry := by cases hold : entry.2 <;> simp [step, hold]
  read_of_lt _ hfew := if_neg (Nat.not_le_of_lt hfew)

theorem weightedMean_eq_onStretch (hperiod : 0 < period) :
    (weightedMean period : List α → List (Option α)) =
      (pass hperiod).onStretch := by
  funext xs
  exact if_neg (Nat.ne_of_gt hperiod)

def Describes (w : List ℝ) (s : WeightedState ℝ) : Prop :=
  s.total = w.sum ∧ s.weighted = weightedSum w

theorem tracks_pass (hperiod : 0 < period) :
    (pass hperiod : WindowPass (WeightedState ℝ) ℝ ℝ).Tracks Describes where
  start := by
    simp [pass, initial, Describes, weightedSum]
  grow w s x hroom hcount hs := by
    have hcount : s.count = w.length := hcount
    constructor
    · simp [pass, step, hs.1]
    · rw [weightedSum_concat, ← hcount]
      simp [pass, step, hs.2]
  slide old w s x hwidth hs := by
    have hwidth : (w.length : ℝ) + 1 = period := by
      exact_mod_cast hwidth
    have htotal : s.total = old + w.sum := hs.1.trans List.sum_cons
    have hweighted : s.weighted = old + w.sum + weightedSum w :=
      hs.2.trans (weightedSum_cons old w)
    constructor
    · simp [pass, step, htotal]
      ring
    · rw [weightedSum_concat, hwidth]
      simp [pass, step, htotal, hweighted]

theorem read_pass
    (hperiod : 0 < period)
    {w : List ℝ} {s : WeightedState ℝ}
    (hfull : period ≤ s.count)
    (hs : Describes w s) :
    (pass hperiod).read s =
      some (weightedSum w / (period * (period + 1) / 2)) := by
  simp [pass, hfull, hs.2]

end WeightedState

end Window

/-! ## The average by volume -/

namespace Indicator

noncomputable def tradedVolume (w : List (Bar ℝ)) : ℝ :=
  (w.map Bar.volumeOrZero).sum

noncomputable def tradedWorth (w : List (Bar ℝ)) : ℝ :=
  (w.map fun b => b.typicalPrice * b.volumeOrZero).sum

namespace VwapState

def pass (hperiod : 0 < period) : WindowPass (VwapState α) (Bar α) α where
  period := period
  start := ⟨0, 0, 0⟩
  step := vwapStep period
  count := count
  read s :=
    if period ≤ s.count ∧ 0 < s.volume then some (s.weighted / s.volume)
    else none
  period_pos := hperiod
  count_start := rfl
  count_step s entry := by cases hold : entry.2 <;> simp [vwapStep, hold]
  snd_step s entry := by cases hold : entry.2 <;> simp [vwapStep, hold]
  read_of_lt _ hfew := if_neg fun h => Nat.not_le_of_lt hfew h.1

theorem vwapPoints_eq_onStretch (hperiod : 0 < period) :
    (vwapPoints period : List (Bar α) → List (Option α)) =
      (pass hperiod).onStretch := by
  funext bars
  exact if_neg (Nat.ne_of_gt hperiod)

def Describes (w : List (Bar ℝ)) (s : VwapState ℝ) : Prop :=
  s.weighted = tradedWorth w ∧ s.volume = tradedVolume w

theorem tracks_pass (hperiod : 0 < period) :
    (pass hperiod : WindowPass (VwapState ℝ) (Bar ℝ) ℝ).Tracks Describes where
  start := by
    simp [pass, Describes, tradedWorth, tradedVolume]
  grow w s b hroom hcount hs := by
    constructor
    · simp [pass, vwapStep, hs.1, tradedWorth]
    · simp [pass, vwapStep, hs.2, tradedVolume]
  slide old w s b hwidth hs := by
    obtain ⟨hworth, hvolume⟩ := hs
    constructor
    · simp [pass, vwapStep, hworth, tradedWorth]
      ring
    · simp [pass, vwapStep, hvolume, tradedVolume]
      ring

theorem read_pass_iff
    (hperiod : 0 < period)
    {w : List (Bar ℝ)} {s : VwapState ℝ} (y : ℝ)
    (hfull : period ≤ s.count)
    (hs : Describes w s) :
    (pass hperiod).read s = some y ↔
      0 < tradedVolume w ∧ y = tradedWorth w / tradedVolume w := by
  by_cases htraded : 0 < tradedVolume w
  · simp [pass, hfull, hs.1, hs.2, htraded, eq_comm]
  · simp [pass, hs.2, htraded]

end VwapState

end Indicator

/-! ## All three -/

open Window Indicator

/-- In exact arithmetic the mean and the weighted mean have a point exactly
where the last `period` values exist and none of them is missing, and it is that
of these values.  The average by volume has one exactly where the last `period`
bars exist and have a positive volume together, and it is what they traded for
divided by it. -/
theorem slidingSums_eq_windows (hperiod : 1 ≤ period) :
    (∀ (source : List (Option ℝ)) (i : Nat),
        ((∃ y, (acrossGaps (mean period) source)[i]? = some (some y)) ↔
          ∃ w, FullWindow period i source w) ∧
        ∀ w, FullWindow period i source w →
          (acrossGaps (mean period) source)[i]? =
            some (some (w.sum / period))) ∧
      (∀ (source : List (Option ℝ)) (i : Nat),
        ((∃ y, (acrossGaps (weightedMean period) source)[i]? = some (some y)) ↔
          ∃ w, FullWindow period i source w) ∧
        ∀ w, FullWindow period i source w →
          (acrossGaps (weightedMean period) source)[i]? =
            some (some ((w.mapIdx fun k x => ((k : ℝ) + 1) * x).sum /
                  (period * (period + 1) / 2)))) ∧
      ∀ (bars : List (Bar ℝ)) (i : Nat),
        ((∃ y, (vwapPoints period bars)[i]? = some (some y)) ↔
          ∃ w, FullWindow period i (bars.map some) w ∧
            0 < (w.map Bar.volumeOrZero).sum) ∧
        ∀ w,
          FullWindow period i (bars.map some) w →
          0 < (w.map Bar.volumeOrZero).sum →
          (vwapPoints period bars)[i]? =
            some (some ((w.map fun b => b.typicalPrice * b.volumeOrZero).sum /
                  (w.map Bar.volumeOrZero).sum)) := by
  refine ⟨?_, ?_, ?_⟩
  · rw [MeanState.mean_eq_onStretch hperiod]
    exact (MeanState.tracks_pass hperiod).exists_point_iff fun _ _ _ =>
      MeanState.read_pass hperiod
  · rw [WeightedState.weightedMean_eq_onStretch hperiod]
    exact (WeightedState.tracks_pass hperiod).exists_point_iff fun _ _ _ =>
      WeightedState.read_pass hperiod
  · intro bars i
    have hpoint := (VwapState.tracks_pass hperiod).point_iff
      (fun _ _ y _ => VwapState.read_pass_iff hperiod y) (bars.map some) i
    rw [acrossGaps_map_some,
      ← VwapState.vwapPoints_eq_onStretch hperiod] at hpoint
    constructor
    · constructor
      · rintro ⟨y, hy⟩
        obtain ⟨w, hw, htraded, -⟩ := (hpoint y).mp hy
        exact ⟨w, hw, htraded⟩
      · rintro ⟨w, hw, htraded⟩
        exact ⟨_, (hpoint _).mpr ⟨w, hw, htraded, rfl⟩⟩
    · intro w hw htraded
      exact (hpoint _).mpr ⟨w, hw, htraded, rfl⟩

noncomputable def tradingDay (price : ℝ) (volume : Option ℝ) : Bar ℝ :=
  ⟨⟨{ year := 2024, month := 6, day := 3 }, .midnight⟩, price, price, price,
    price, volume⟩

/-- A window behind a gap, and one of two days on which one and three pieces
were traded. -/
theorem slidingSums_eq_windows_behindGap :
    1 ≤ 2 ∧
      (acrossGaps (mean 2) [some (2 : ℝ), none, some 1, some 3, some 5])[4]? =
        some (some 4) ∧
      (acrossGaps (weightedMean 2)
          [some (2 : ℝ), none, some 1, some 3, some 5])[4]? =
        some (some (13 / 3)) ∧
      (vwapPoints 2 [tradingDay 10 none, tradingDay 20 (some 1),
          tradingDay 40 (some 3)])[2]? =
        some (some 35) := by
  have hsums := slidingSums_eq_windows (show 1 ≤ 2 by decide)
  have hwindow :
      FullWindow 2 4 [some (2 : ℝ), none, some 1, some 3, some 5] [3, 5] := by
    refine ⟨rfl, by decide, ?_⟩
    intro k hk
    match k, hk with
    | 0, _ => rfl
    | 1, _ => rfl
  have hdays : FullWindow 2 2
      ([tradingDay 10 none, tradingDay 20 (some 1), tradingDay 40 (some 3)].map
        some) [tradingDay 20 (some 1), tradingDay 40 (some 3)] := by
    refine ⟨rfl, by decide, ?_⟩
    intro k hk
    match k, hk with
    | 0, _ => rfl
    | 1, _ => rfl
  refine ⟨by decide, ?_, ?_, ?_⟩
  · rw [(hsums.1 _ 4).2 _ hwindow]
    norm_num
  · rw [(hsums.2.1 _ 4).2 _ hwindow]
    norm_num [List.mapIdx_cons]
  · rw [(hsums.2.2 _ 2).2 _ hdays
        (by simp [tradingDay, Bar.volumeOrZero]; norm_num)]
    simp [tradingDay, Bar.volumeOrZero, Bar.typicalPrice]
    norm_num

end RuleBacktest
