import Mathlib.Algebra.BigOperators.Field
import Mathlib.Algebra.BigOperators.Intervals
import Mathlib.Algebra.Order.BigOperators.Group.Finset
import Mathlib.Data.Finset.Max
import Mathlib.Data.List.GetD
import Mathlib.Tactic.FieldSimp
import Mathlib.Tactic.Linarith
import Mathlib.Tactic.NormNum
import Mathlib.Tactic.Ring
import RuleBacktest.Proofs.Scalar.Exact
import RuleBacktest.Proofs.Window.Stretch
import RuleBacktest.Window.Smoothing

/-!
# Smoothed values

A smoother adds up its first inputs until there are `period` of them, takes
their mean, and blends every later input into the level before it.  In exact
arithmetic both blends take a part `k` of the new input and the rest of the old
level.  So a smoothed value is a weighted average of all inputs so far: the
first `period` of them weigh the same, a later one weighs `k` when it is new,
and with every further input all weights shrink by `1 - k`.
-/

namespace RuleBacktest

namespace Window

open Scalar

/-! ## The level of a smoother -/

section

variable {α : Type} [Scalar α] {period : Nat} {blend : α → α → α}

/-- The mean of the first `period` values, with the later ones blended into
it. -/
def blendedLevel (period : Nat) (blend : α → α → α) (xs : List α) : α :=
  (xs.drop period).foldl blend
    ((xs.take period).foldl (fun total x => total + x) 0 / ofCount period)

theorem blendedLevel_concat {xs : List α} (hfull : period ≤ xs.length) (x : α) :
    blendedLevel period blend (xs ++ [x]) =
      blend (blendedLevel period blend xs) x := by
  rw [blendedLevel, List.drop_append_of_le_length hfull,
    List.take_append_of_le_length hfull, List.foldl_append, blendedLevel]
  rfl

namespace Smoother

def level? : Smoother α → Option α
  | warming _ _ => none
  | running level => some level

theorem snd_step (period : Nat) (blend : α → α → α) (s : Smoother α) (x : α) :
    (step period blend s x).2 = (step period blend s x).1.level? := by
  cases s with
  | warming count total =>
      by_cases hfew : count + 1 < period <;> simp [step, hfew, level?]
  | running level => rfl

/-- The state behind `xs`: their sum while there are too few of them, then the
level. -/
def reached (period : Nat) (blend : α → α → α) (xs : List α) : Smoother α :=
  if xs.length < period then
    warming xs.length (xs.foldl (fun total x => total + x) 0)
  else running (blendedLevel period blend xs)

theorem step_reached (period : Nat) (blend : α → α → α) (xs : List α) (x : α) :
    (step period blend (reached period blend xs) x).1 =
      reached period blend (xs ++ [x]) := by
  have hlength : (xs ++ [x]).length = xs.length + 1 := by simp
  unfold reached
  rw [hlength]
  by_cases hfew : xs.length < period
  · rw [if_pos hfew]
    by_cases hnext : xs.length + 1 < period
    · simp [step, hnext]
    · -- The mean is taken as soon as the inputs are complete.
      have hcomplete : (xs ++ [x]).length ≤ period := by omega
      rw [if_neg hnext, blendedLevel, List.drop_of_length_le hcomplete,
        List.take_of_length_le hcomplete, List.foldl_append]
      simp [step, hnext]
  · rw [if_neg hfew, if_neg (by omega),
      blendedLevel_concat (Nat.le_of_not_lt hfew)]
    rfl

theorem stateAfter_step
    (hperiod : 0 < period)
    (blend : α → α → α) (xs : List α) :
    stateAfter (step period blend) initial xs = reached period blend xs := by
  induction xs using List.reverseRecOn with
  | nil => simp [reached, hperiod, initial]
  | append_singleton xs x ih => rw [stateAfter_concat, ih, step_reached]

end Smoother

/-- There is no point until the first `period` inputs are complete, and the
level from there on. -/
theorem smoothed_getElem?
    (hperiod : 0 < period)
    (blend : α → α → α) {xs : List α} {i : Nat}
    (hi : i < xs.length) :
    (smoothed period blend xs)[i]? =
      some (if i + 1 < period then none
        else some (blendedLevel period blend (xs.take (i + 1)))) := by
  rw [smoothed, if_neg (Nat.ne_of_gt hperiod),
    sweep_getElem?_of_read (Smoother.snd_step period blend),
    List.getElem?_eq_getElem hi, Option.map_some,
    Smoother.stateAfter_step hperiod, Smoother.reached,
    List.length_take_of_le hi]
  by_cases hfew : i + 1 < period <;> simp [hfew, Smoother.level?]

end

/-! ## Blending by parts -/

noncomputable section

open Finset

/-- The part `k` of the new value and the rest of the old level. -/
def mixed (k level x : ℝ) : ℝ :=
  k * x + (1 - k) * level

theorem exponential_eq_smoothed (period : ℕ) :
    exponential period = smoothed period (mixed (2 / (period + 1))) := by
  have hblend : mixed (2 / (period + 1)) = fun level x : ℝ =>
      x * (2 / (period + 1)) + level * (1 - 2 / (period + 1)) := by
    funext level x
    rw [mixed]
    ring
  rw [hblend]
  funext xs
  simp [exponential]

theorem wilder_eq_smoothed {period : ℕ} (hperiod : 0 < period) :
    wilder period = smoothed period (mixed (1 / period)) := by
  have hcount : (period : ℝ) ≠ 0 := by
    exact_mod_cast hperiod.ne'
  have hblend : mixed (1 / period) =
    fun level x : ℝ => (level * (period - 1) + x) / period := by
    funext level x
    rw [mixed]
    field_simp
    ring
  rw [hblend]
  funext xs
  simp [wilder]

/-! ## The weights -/

/-- What the first `period` values and then the later ones contribute to the
level behind place `i`. -/
def weightedSums (period : ℕ) (k : ℝ) (x : ℕ → ℝ) (i : ℕ) : ℝ :=
  (1 - k) ^ (i + 1 - period) * ((∑ j ∈ range period, x j) / period) +
    ∑ j ∈ Ico period (i + 1), k * (1 - k) ^ (i - j) * x j

variable {period : ℕ} {k : ℝ}

theorem weightedSums_first (hperiod : 0 < period) (k : ℝ) (x : ℕ → ℝ) :
    weightedSums period k x (period - 1) =
      (∑ j ∈ range period, x j) / period := by
  rw [weightedSums, Nat.sub_add_cancel hperiod]
  simp

theorem weightedSums_succ (k : ℝ) (x : ℕ → ℝ) {i : ℕ} (hfull : period ≤ i + 1) :
    weightedSums period k x (i + 1) =
      mixed k (weightedSums period k x i) (x (i + 1)) := by
  have hfirst : i + 1 + 1 - period = i + 1 - period + 1 := by omega
  have hlater : ∑ j ∈ Ico period (i + 1), k * (1 - k) ^ (i + 1 - j) * x j =
      (1 - k) * ∑ j ∈ Ico period (i + 1), k * (1 - k) ^ (i - j) * x j := by
    rw [mul_sum]
    refine sum_congr rfl fun j hj => ?_
    have hage : i + 1 - j = i - j + 1 := by
      have hplace := (mem_Ico.mp hj).2
      omega
    rw [hage, pow_succ]
    ring
  rw [weightedSums, sum_Ico_succ_top hfull, hlater, hfirst, pow_succ,
    Nat.sub_self, pow_zero, mixed, weightedSums]
  ring

/-- The weight of input `j` behind place `i`. -/
def smoothingWeight (period : ℕ) (k : ℝ) (i j : ℕ) : ℝ :=
  if j < period then (1 - k) ^ (i + 1 - period) / period
  else k * (1 - k) ^ (i - j)

theorem sum_smoothingWeight_mul (k : ℝ) (x : ℕ → ℝ) {i : ℕ}
    (hfull : period ≤ i + 1) :
    ∑ j ∈
      range (i + 1), smoothingWeight period k i j * x j =
      weightedSums period k x i := by
  have hfirst : ∑ j ∈ range period, smoothingWeight period k i j * x j =
      (1 - k) ^ (i + 1 - period) * ((∑ j ∈ range period, x j) / period) := by
    rw [sum_div, mul_sum]
    refine sum_congr rfl fun j hj => ?_
    rw [smoothingWeight, if_pos (mem_range.mp hj)]
    ring
  have hlater : ∑ j ∈ Ico period (i + 1), smoothingWeight period k i j * x j =
      ∑ j ∈ Ico period (i + 1), k * (1 - k) ^ (i - j) * x j := by
    refine sum_congr rfl fun j hj => ?_
    rw [smoothingWeight, if_neg (Nat.not_lt_of_le (mem_Ico.mp hj).1)]
  rw [← sum_range_add_sum_Ico _ hfull, hfirst, hlater, weightedSums]

theorem smoothingWeight_nonneg
    (hk : 0 ≤ k)
    (hk' : k ≤ 1)
    (period i j : ℕ) :
    0 ≤ smoothingWeight period k i j := by
  have hrest : 0 ≤ 1 - k := sub_nonneg.mpr hk'
  unfold smoothingWeight
  split
  · exact div_nonneg (pow_nonneg hrest _) (Nat.cast_nonneg period)
  · exact mul_nonneg hk (pow_nonneg hrest _)

/-- A level of one stays at one when ones are blended into it. -/
theorem weightedSums_one
    (hperiod : 0 < period)
    (k : ℝ) {i : ℕ}
    (hfull : period ≤ i + 1) :
    weightedSums period k (fun _ => 1) i = 1 := by
  have hcount : (period : ℝ) ≠ 0 := by
    exact_mod_cast hperiod.ne'
  have hplace : period - 1 ≤ i := by omega
  induction i, hplace using Nat.le_induction with
  | base =>
      rw [weightedSums_first hperiod]
      simp [hcount]
  | succ i hplace ih =>
      rw [weightedSums_succ k _ (by omega), ih (by omega), mixed]
      ring

theorem sum_smoothingWeight
    (hperiod : 0 < period)
    (k : ℝ) {i : ℕ}
    (hfull : period ≤ i + 1) :
    ∑ j ∈ range (i + 1), smoothingWeight period k i j = 1 := by
  rw [← weightedSums_one hperiod k hfull, ← sum_smoothingWeight_mul k _ hfull]
  simp only [mul_one]

theorem weightedSums_mem_Icc
    (hperiod : 0 < period)
    (hk : 0 ≤ k)
    (hk' : k ≤ 1)
    {x : ℕ → ℝ} {i : ℕ}
    (hfull : period ≤ i + 1)
    {lowest highest : ℝ}
    (hx : ∀ j ≤ i, lowest ≤ x j ∧ x j ≤ highest) :
    lowest ≤ weightedSums period k x i ∧
      weightedSums period k x i ≤ highest := by
  have hconstant (c : ℝ) :
      ∑ j ∈ range (i + 1), smoothingWeight period k i j * c = c := by
    rw [← sum_mul, sum_smoothingWeight hperiod k hfull, one_mul]
  rw [← sum_smoothingWeight_mul k x hfull]
  constructor
  · calc lowest
        = ∑ j ∈ range (i + 1), smoothingWeight period k i j * lowest :=
          (hconstant _).symm
      _ ≤ _ :=
          sum_le_sum fun j hj =>
            mul_le_mul_of_nonneg_left
              (hx j (Nat.le_of_lt_succ (mem_range.mp hj))).1
              (smoothingWeight_nonneg hk hk' period i j)
  · calc ∑ j ∈ range (i + 1), smoothingWeight period k i j * x j
        ≤ ∑ j ∈ range (i + 1), smoothingWeight period k i j * highest :=
          sum_le_sum fun j hj =>
            mul_le_mul_of_nonneg_left
              (hx j (Nat.le_of_lt_succ (mem_range.mp hj))).2
              (smoothingWeight_nonneg hk hk' period i j)
      _ = highest := hconstant _

/-- Every input that two sources share brings their levels nearer by the part
that is kept. -/
theorem weightedSums_sub (k : ℝ) {x y : ℕ → ℝ} {a n : ℕ}
    (hfull : period ≤ a + 1)
    (hsame : ∀ j, a < j → j ≤ a + n → x j = y j) :
    weightedSums period k x (a + n) - weightedSums period k y (a + n) =
      (1 - k) ^ n *
        (weightedSums period k x a - weightedSums period k y a) := by
  induction n with
  | zero => simp
  | succ n ih =>
      have hbefore := ih fun j hj hjn => hsame j hj (by omega)
      rw [← Nat.add_assoc, weightedSums_succ k x (by omega),
        weightedSums_succ k y (by omega),
        hsame (a + n + 1) (by omega) (by omega), mixed, mixed, pow_succ,
        mul_assoc]
      linear_combination (1 - k) * hbefore

/-! ## Smoothed points -/

theorem sum_take_eq_sum_range (xs : List ℝ) (n : ℕ) :
    (xs.take n).foldl (fun total x => total + x) 0 =
      ∑ j ∈ range n, xs.getD j 0 := by
  induction n with
  | zero => simp
  | succ n ih =>
      rw [sum_range_succ, ← ih, List.take_add_one, List.foldl_append,
        List.getD_eq_getElem?_getD]
      cases xs[n]? <;> simp

theorem blendedLevel_mixed
    (hperiod : 0 < period)
    (k : ℝ) {xs : List ℝ} {i : ℕ}
    (hi : i < xs.length)
    (hfull : period ≤ i + 1) :
    blendedLevel period (mixed k) (xs.take (i + 1)) =
      weightedSums period k (fun j => xs.getD j 0) i := by
  have hplace : period - 1 ≤ i := by omega
  induction i, hplace using Nat.le_induction with
  | base =>
      rw [weightedSums_first hperiod, Nat.sub_add_cancel hperiod, blendedLevel,
        List.take_take, Nat.min_self,
        List.drop_of_length_le (List.length_take_le period xs), List.foldl_nil]
      simp [sum_take_eq_sum_range]
  | succ i hplace ih =>
      have hbefore : period ≤ (xs.take (i + 1)).length := by
        rw [List.length_take_of_le hi.le]
        omega
      have hentry : xs.getD (i + 1) 0 = xs[i + 1] := List.getD_eq_getElem _ _ hi
      rw [List.take_succ_eq_append_getElem hi, blendedLevel_concat hbefore,
        ih (by omega) (by omega), weightedSums_succ k _ (by omega), hentry]

theorem smoothed_mixed_getElem?
    (hperiod : 0 < period)
    (k : ℝ) {xs : List ℝ} {i : ℕ}
    (hi : i < xs.length)
    (hfull : period ≤ i + 1) :
    (acrossGaps (smoothed period (mixed k)) (xs.map some))[i]? =
      some (some (weightedSums period k (fun j => xs.getD j 0) i)) := by
  rw [acrossGaps_map_some, smoothed_getElem? hperiod _ hi,
    if_neg (Nat.not_lt_of_le hfull), blendedLevel_mixed hperiod k hi hfull]

/-- Over a source without gaps, the points of `smooth` are averages of all
inputs so far with the weights of `smoothingWeight`, and every shared input
brings two of them nearer by `1 - k`. -/
structure IsWeightedAverage (period : ℕ) (k : ℝ)
    (smooth : List (Option ℝ) → List (Option ℝ)) : Prop where
  point : ∀ (xs : List ℝ) (i : ℕ),
    i < xs.length →
    period ≤ i + 1 →
    ∃ y, (smooth (xs.map some))[i]? = some (some y) ∧
      y =
        (1 - k) ^ (i + 1 - period) *
          ((∑ j ∈ range period, xs.getD j 0) / period) +
          ∑ j ∈ Ico period (i + 1), k * (1 - k) ^ (i - j) * xs.getD j 0 ∧
            y =
              ∑ j ∈ range (i + 1), smoothingWeight period k i j * xs.getD j 0 ∧
                ∃ least ∈ xs.take (i + 1), ∃ greatest ∈ xs.take (i + 1),
                  (∀ x ∈ xs.take (i + 1), least ≤ x ∧ x ≤ greatest) ∧
                  least ≤ y ∧
                  y ≤ greatest
  weights : ∀ i : ℕ, period ≤ i + 1 →
    (∀ j, 0 ≤ smoothingWeight period k i j) ∧
      ∑ j ∈ range (i + 1), smoothingWeight period k i j = 1
  forgets : ∀ (xs ys : List ℝ) (a n : ℕ),
    period ≤ a + 1 →
    a + n < xs.length →
    a + n < ys.length →
    (∀ j, a < j → j ≤ a + n → xs[j]? = ys[j]?) →
    ∃ x y x' y',
      (smooth (xs.map some))[a]? = some (some x) ∧
      (smooth (ys.map some))[a]? = some (some y) ∧
      (smooth (xs.map some))[a + n]? = some (some x') ∧
      (smooth (ys.map some))[a + n]? = some (some y') ∧
      x' - y' = (1 - k) ^ n * (x - y)

theorem exists_extremes_of_take {xs : List ℝ} {i : ℕ} (hi : i < xs.length) :
    ∃ least ∈ xs.take (i + 1), ∃ greatest ∈ xs.take (i + 1),
      ∀ x ∈ xs.take (i + 1), least ≤ x ∧ x ≤ greatest := by
  have hnonempty : (xs.take (i + 1)).toFinset.Nonempty :=
    ⟨xs[i],
      List.mem_toFinset.mpr (List.mem_take_iff_getElem.mpr ⟨i, by omega, rfl⟩)⟩
  obtain ⟨least, hleast, hmin⟩ := exists_min_image _ id hnonempty
  obtain ⟨greatest, hgreatest, hmax⟩ := exists_max_image _ id hnonempty
  refine ⟨least, List.mem_toFinset.mp hleast, greatest,
    List.mem_toFinset.mp hgreatest, ?_⟩
  intro x hx
  exact ⟨hmin x (List.mem_toFinset.mpr hx), hmax x (List.mem_toFinset.mpr hx)⟩

theorem isWeightedAverage_smoothed
    (hperiod : 0 < period)
    (hk : 0 ≤ k)
    (hk' : k ≤ 1) :
    IsWeightedAverage period k (acrossGaps (smoothed period (mixed k))) where
  point xs i hi hfull := by
    obtain ⟨least, hleast, greatest, hgreatest, hbounds⟩ :=
      exists_extremes_of_take hi
    have hinputs (j : ℕ) (hj : j ≤ i) : least ≤ xs.getD j 0 ∧
        xs.getD j 0 ≤ greatest := by
      have hplace : j < xs.length := by omega
      rw [List.getD_eq_getElem _ _ hplace]
      exact hbounds _ (List.mem_take_iff_getElem.mpr ⟨j, by omega, rfl⟩)
    exact ⟨_, smoothed_mixed_getElem? hperiod k hi hfull, rfl,
      (sum_smoothingWeight_mul k _ hfull).symm, least, hleast, greatest,
      hgreatest, hbounds, weightedSums_mem_Icc hperiod hk hk' hfull hinputs⟩
  weights i hfull :=
    ⟨smoothingWeight_nonneg hk hk' period i,
      sum_smoothingWeight hperiod k hfull⟩
  forgets xs ys a n hfull hxs hys hsame := by
    have hshared (j : ℕ) (hj : a < j) (hjn : j ≤ a + n) :
        xs.getD j 0 = ys.getD j 0 := by
      rw [List.getD_eq_getElem?_getD, hsame j hj hjn,
        List.getD_eq_getElem?_getD]
    exact ⟨_, _, _, _, smoothed_mixed_getElem? hperiod k (by omega) hfull,
      smoothed_mixed_getElem? hperiod k (by omega) hfull,
      smoothed_mixed_getElem? hperiod k hxs (by omega),
      smoothed_mixed_getElem? hperiod k hys (by omega),
      weightedSums_sub k hfull hshared⟩

/-- In exact arithmetic both smoothings are weighted averages of all inputs so
far, with the weight `2 / (period + 1)` or `1 / period` on the newest. -/
theorem smoothings_are_weighted_averages {period : ℕ} (hperiod : 1 ≤ period) :
    IsWeightedAverage period (2 / (period + 1))
        (acrossGaps (exponential period)) ∧
      IsWeightedAverage period (1 / period) (acrossGaps (wilder period)) := by
  have hcount : (1 : ℝ) ≤ period := by
    exact_mod_cast hperiod
  constructor
  · rw [exponential_eq_smoothed]
    refine isWeightedAverage_smoothed hperiod (by positivity) ?_
    rw [div_le_one (by positivity)]
    linarith
  · rw [wilder_eq_smoothed hperiod]
    refine isWeightedAverage_smoothed hperiod (by positivity) ?_
    rw [div_le_one (by positivity)]
    exact hcount

/-- The mean of one and three is two, and two thirds or a half of the way from
there to five is gone. -/
theorem smoothings_are_weighted_averages_of_two :
    1 ≤ 2 ∧
      (acrossGaps (exponential 2) ([(1 : ℝ), 3, 5].map some))[2]? =
        some (some 4) ∧
      (acrossGaps (wilder 2) ([(1 : ℝ), 3, 5].map some))[2]? =
        some (some (7 / 2)) := by
  obtain ⟨hexponential, hwilder⟩ :=
    smoothings_are_weighted_averages (show 1 ≤ 2 by decide)
  obtain ⟨x, hx, hvalue, -⟩ :=
    hexponential.point [1, 3, 5] 2 (by decide) (by decide)
  obtain ⟨y, hy, hvalue', -⟩ :=
    hwilder.point [1, 3, 5] 2 (by decide) (by decide)
  refine ⟨by decide, ?_, ?_⟩
  · rw [hx, hvalue]
    norm_num [sum_range_succ]
  · rw [hy, hvalue']
    norm_num [sum_range_succ]

end

end Window

end RuleBacktest
