import RuleBacktest.Backtest.Performance
import RuleBacktest.Proofs.Guarded.Operation
import RuleBacktest.Proofs.Indicator.Bounds
import RuleBacktest.Scalar.Binary64

/-!
# What a guard has to allow

The program divides by counts and by values that it has compared with zero
first, takes roots of values that it has cut off at zero and of means of
squares, and takes one logarithm, of the odds of a clamped value.  A guard that
allows these operands lets the whole program through.

Binary arithmetic has a value for every operand, so its guard allows all of
them.  Exact arithmetic has no quotient by zero, no root of a negative number
and no logarithm of a number that is not positive.  Its guard allows what the
program does: the averages of gains and losses are not negative, and the clamp
keeps its value away from one and from minus one.
-/

namespace RuleBacktest
namespace Guard

section

open Scalar Window Indicator

variable {α : Type} [Scalar α]

structure AllowsProgram (g : Guard α) : Prop where
  count {n : Nat} (hn : 0 < n) : g.divides (ofCount n) = true
  count_add_one (n : Nat) : g.divides (ofCount n + 1) = true
  weights {n : Nat} (hn : 0 < n) :
    g.divides (ofCount n * (ofCount n + 1) / 2) = true
  not_same {x : α} (hx : ¬ same x 0 = true) : g.divides x = true
  share_of_not_same {x : α} (hx : ¬ same x 0 = true) :
    g.divides (0.015 * x) = true
  positive {x : α} (hx : 0 < x) : g.divides x = true
  root_larger (x : α) : g.hasRoot (larger x 0) = true
  root_squares (xs : List α) (m : α) (n : Nat) :
    g.hasRoot (sum (xs.map fun x => (x - m) * (x - m)) / ofCount n) = true
  root_count (n : Nat) : g.hasRoot (ofCount n) = true
  clamp_interval : (-0.999 : α) ≤ 0.999
  clamp_complement (x : α) : g.divides (1 - clamp (-0.999) 0.999 x) = true
  clamp_odds (x : α) : g.hasLogarithm
    ((1 + clamp (-0.999) 0.999 x) / (1 - clamp (-0.999) 0.999 x)) = true
  strength (period : Nat) (bars : List (Bar α)) {gain loss : α}
    (hgain : some gain ∈
      acrossGaps (wilder period)
        ((changes bars).map fun c => c.map fun x => larger x 0))
    (hloss : some loss ∈
      acrossGaps (wilder period)
        ((changes bars).map fun c => c.map fun x => larger (-x) 0))
    (hzero : ¬ same loss 0 = true) :
    g.divides (1 + gain / loss) = true

theorem AllowsProgram.divideOr_eq {g : Guard α}
    (hg : g.AllowsProgram)
    (other x y : α) :
    g.divideOr other x y = pure (if same y 0 then other else x / y) := by
  by_cases hzero : same y 0 = true
  · rw [if_pos hzero, divideOr]
    exact if_pos hzero
  · rw [if_neg hzero, divideOr, ← divide_eq (hg.not_same hzero)]
    exact if_neg hzero

end

/-! ## Binary arithmetic -/

def machine : Guard Float where
  divides _ := true
  hasRoot _ := true
  hasLogarithm _ := true

theorem machine_allowsProgram : machine.AllowsProgram where
  count _ := rfl
  count_add_one _ := rfl
  weights _ := rfl
  not_same _ := rfl
  share_of_not_same _ := rfl
  positive _ := rfl
  root_larger _ := rfl
  root_squares _ _ _ := rfl
  root_count _ := rfl
  clamp_interval := by decide
  clamp_complement _ := rfl
  clamp_odds _ := rfl
  strength _ _ _ _ _ _ _ := rfl

/-! ## Exact arithmetic -/

noncomputable def exact : Guard ℝ where
  divides y := decide (y ≠ 0)
  hasRoot x := decide (0 ≤ x)
  hasLogarithm x := decide (0 < x)

theorem exact_divides {y : ℝ} : exact.divides y = true ↔ y ≠ 0 :=
  decide_eq_true_iff

theorem exact_hasRoot {x : ℝ} : exact.hasRoot x = true ↔ 0 ≤ x :=
  decide_eq_true_iff

theorem exact_hasLogarithm {x : ℝ} : exact.hasLogarithm x = true ↔ 0 < x :=
  decide_eq_true_iff

theorem clamp_mem {lowest highest : ℝ} (h : lowest ≤ highest) (x : ℝ) :
    Scalar.clamp lowest highest x ∈ Set.Icc lowest highest := by
  have heq : Scalar.clamp lowest highest x =
      if x < lowest then lowest else if highest < x then highest else x := by
    simp [Scalar.clamp]
  rw [heq]
  split_ifs with hlow hhigh
  · exact Set.left_mem_Icc.mpr h
  · exact Set.right_mem_Icc.mpr h
  · exact ⟨not_lt.mp hlow, not_lt.mp hhigh⟩

theorem real_fisherLimit :
    @OfScientific.ofScientific ℝ Scalar.instOfScientific 999 true 3 =
      999 / 1000 := by
  norm_num [OfScientific.ofScientific, Scalar.ofDecimal]

theorem real_cciConstant :
    @OfScientific.ofScientific ℝ Scalar.instOfScientific 15
      true 3 = 3 / 200 := by
  norm_num [OfScientific.ofScientific, Scalar.ofDecimal]

/-- What the Fisher transform clamps stays away from one and from minus one. -/
theorem clamp_fisherLimit_mem (x : ℝ) :
    Scalar.clamp (-(999 / 1000)) (999 / 1000) x ∈ Set.Ioo (-1 : ℝ) 1 := by
  have hinterval : (-(999 / 1000) : ℝ) ≤ 999 / 1000 := by norm_num
  obtain ⟨hlow, hhigh⟩ := clamp_mem hinterval x
  constructor <;> linarith

theorem exact_allowsProgram : exact.AllowsProgram where
  count {n} hn := by
    rw [exact_divides, Scalar.real_ofCount]
    positivity
  count_add_one n := by
    simp only [exact_divides, Scalar.real_ofCount, Scalar.real_add,
      Scalar.real_one]
    positivity
  weights {n} hn := by
    simp only [exact_divides, Scalar.real_ofCount, Scalar.real_add,
      Scalar.real_mul, Scalar.real_div, Scalar.real_one, Scalar.real_ofNat]
    positivity
  not_same {x} hx := by
    simpa [exact_divides] using hx
  share_of_not_same {x} hx := by
    have hnonzero : x ≠ 0 := by simpa using hx
    simp only [exact_divides, real_cciConstant, Scalar.real_mul]
    positivity
  positive {x} hx := by
    rw [Scalar.real_lt, Scalar.real_zero] at hx
    exact exact_divides.mpr hx.ne'
  root_larger x := by
    rw [exact_hasRoot, Scalar.real_larger, Scalar.real_zero]
    exact le_max_right _ _
  root_squares xs m n := by
    rw [exact_hasRoot, Scalar.real_sum, Scalar.real_ofCount, Scalar.real_div]
    refine div_nonneg (List.sum_nonneg ?_) n.cast_nonneg
    intro y hy
    obtain ⟨x, -, rfl⟩ := List.mem_map.mp hy
    exact mul_self_nonneg (x - m)
  root_count n := exact_hasRoot.mpr n.cast_nonneg
  clamp_interval := by
    rw [Scalar.real_le, Scalar.real_neg, real_fisherLimit]
    norm_num
  clamp_complement x := by
    rw [exact_divides, Scalar.real_sub, Scalar.real_one, Scalar.real_neg,
      real_fisherLimit]
    exact (sub_pos.mpr (clamp_fisherLimit_mem x).2).ne'
  clamp_odds x := by
    obtain ⟨hlow, hhigh⟩ := clamp_fisherLimit_mem x
    simp only [exact_hasLogarithm, Scalar.real_div, Scalar.real_add,
      Scalar.real_sub, Scalar.real_one, Scalar.real_neg, real_fisherLimit]
    exact div_pos (by linarith) (by linarith)
  strength period bars gain loss hgain hloss hzero := by
    have hgain : 0 ≤ gain := Window.pointsIn_acrossGaps_wilder period
      (Indicator.pointsIn_map_changes (fun x => x) bars) gain hgain
    have hloss : 0 ≤ loss := Window.pointsIn_acrossGaps_wilder period
      (Indicator.pointsIn_map_changes (fun x => -x) bars) loss hloss
    simp only [exact_divides, Scalar.real_add, Scalar.real_div, Scalar.real_one]
    positivity

end Guard
end RuleBacktest
