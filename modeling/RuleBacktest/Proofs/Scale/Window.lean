import Mathlib.Tactic.Ring
import RuleBacktest.Proofs.Scalar.Exact
import RuleBacktest.Proofs.Scale.Equivariance
import RuleBacktest.Window.Extreme
import RuleBacktest.Window.Smoothing

/-!
# Windows over values in another unit

Values are given in another unit by multiplying them with a positive number.
The selections and the comparisons go along with it, and so does every window:
each of its sums is of the first degree in the values, except for the sum of
squared deviations, which is of the second.
-/

namespace RuleBacktest

open Scalar

noncomputable section

variable {c : ℝ}

/-! ## Numbers -/

namespace Scalar

theorem larger_mul (hc : 0 < c) (x y : ℝ) :
    larger (c * x) (c * y) = c * larger x y := by
  rw [real_larger, real_larger, mul_max_of_nonneg x y hc.le]

theorem smaller_mul (hc : 0 < c) (x y : ℝ) :
    smaller (c * x) (c * y) = c * smaller x y := by
  rw [real_smaller, real_smaller, mul_min_of_nonneg x y hc.le]

end Scalar

/-! ## Averages -/

namespace Window

theorem equivariant_undefined {α : Type} (g : α → α) :
    Equivariant g (Option.map g) (undefined : List α → List (Option α)) :=
  Equivariant.map fun _ => rfl

def MeanState.scaled (c : ℝ) (s : MeanState ℝ) : MeanState ℝ :=
  ⟨s.count, c * s.total⟩

theorem MeanState.snd_step (period : Nat) (s : MeanState ℝ)
    (entry : ℝ × Option ℝ) :
    (step period s entry).2 =
      if period ≤ s.count + 1 then some ((step period s entry).1.total / period)
      else none :=
  rfl

theorem MeanState.step_scaled (c : ℝ) (period : Nat) (s : MeanState ℝ) (x : ℝ)
    (old : Option ℝ) :
    step period (s.scaled c) (c * x, old.map (c * ·)) =
      (step period s (x, old)).map (scaled c) (Option.map (c * ·)) := by
  have hnext : (step period (s.scaled c) (c * x, old.map (c * ·))).1 =
      (step period s (x, old)).1.scaled c := by
    cases old <;> simp [step, scaled, mul_add, mul_sub]
  apply Prod.ext hnext
  rw [snd_step, hnext, Prod.map_snd, snd_step]
  by_cases hfull : period ≤ s.count + 1
  · simp [hfull, scaled, mul_div_assoc]
  · simp [hfull, scaled]

theorem equivariant_mean (c : ℝ) (period : Nat) :
    Equivariant (c * ·) (Option.map (c * ·)) (mean period) := by
  apply Equivariant.ite _ (equivariant_undefined _)
  apply Equivariant.lagged (MeanState.scaled c)
  · simp [MeanState.scaled, MeanState.initial]
  · exact MeanState.step_scaled c period

def DeviationState.scaled (c : ℝ) (s : DeviationState ℝ) : DeviationState ℝ :=
  ⟨s.count, c * s.mean, c ^ 2 * s.squares⟩

theorem DeviationState.snd_step (period : Nat) (s : DeviationState ℝ)
    (entry : ℝ × Option ℝ) :
    (step period s entry).2 =
      if period ≤ s.count + 1 then
        some √(larger ((step period s entry).1.squares / period) 0)
      else none := by
  simp [step]

theorem DeviationState.step_scaled
    (hc : 0 < c)
    (period : Nat) (s : DeviationState ℝ) (x : ℝ) (old : Option ℝ) :
    step period (s.scaled c) (c * x, old.map (c * ·)) =
      (step period s (x, old)).map (scaled c) (Option.map (c * ·)) := by
  have hnext : (step period (s.scaled c) (c * x, old.map (c * ·))).1 =
      (step period s (x, old)).1.scaled c := by
    cases old with
    | none =>
        simp only [step, scaled, Option.map_none]
        congr 1 <;> simp <;> ring
    | some old =>
        simp only [step, scaled, Option.map_some]
        congr 1 <;> simp <;> ring
  have hspread (squares n : ℝ) :
      √(larger (c ^ 2 * squares / n) 0) = c * √(larger (squares / n) 0) := by
    have hlarger := larger_mul (pow_pos hc 2) (squares / n) 0
    rw [mul_zero, ← mul_div_assoc] at hlarger
    calc
      √(larger (c ^ 2 * squares / n) 0) =
          √(c ^ 2 * larger (squares / n) 0) := by
        rw [hlarger]
      _ = √(c ^ 2) * √(larger (squares / n) 0) := Real.sqrt_mul (sq_nonneg c) _
      _ = c * √(larger (squares / n) 0) := by
        rw [Real.sqrt_sq hc.le]
  apply Prod.ext hnext
  rw [snd_step, hnext, Prod.map_snd, snd_step]
  by_cases hfull : period ≤ s.count + 1
  · simp [hfull, scaled, hspread]
  · simp [hfull, scaled]

theorem equivariant_deviation (hc : 0 < c) (period : Nat) :
    Equivariant (c * ·) (Option.map (c * ·)) (deviation period) := by
  apply Equivariant.ite _ (equivariant_undefined _)
  apply Equivariant.lagged (DeviationState.scaled c)
  · simp [DeviationState.scaled, DeviationState.initial]
  · exact DeviationState.step_scaled hc period

def WeightedState.scaled (c : ℝ) (s : WeightedState ℝ) : WeightedState ℝ :=
  ⟨s.count, c * s.total, c * s.weighted⟩

theorem WeightedState.snd_step (period : Nat) (s : WeightedState ℝ)
    (entry : ℝ × Option ℝ) :
    (step period s entry).2 =
      if period ≤ s.count + 1 then
        some ((step period s entry).1.weighted / (period * (period + 1) / 2))
      else none := by
  simp [step]

theorem WeightedState.step_scaled (c : ℝ) (period : Nat) (s : WeightedState ℝ)
    (x : ℝ) (old : Option ℝ) :
    step period (s.scaled c) (c * x, old.map (c * ·)) =
      (step period s (x, old)).map (scaled c) (Option.map (c * ·)) := by
  have hnext : (step period (s.scaled c) (c * x, old.map (c * ·))).1 =
      (step period s (x, old)).1.scaled c := by
    cases old with
    | none =>
        simp only [step, scaled, Option.map_none]
        congr 1 <;> simp <;> ring
    | some old =>
        simp only [step, scaled, Option.map_some]
        congr 1 <;> simp <;> ring
  apply Prod.ext hnext
  rw [snd_step, hnext, Prod.map_snd, snd_step]
  by_cases hfull : period ≤ s.count + 1
  · simp [hfull, scaled, mul_div_assoc]
  · simp [hfull, scaled]

theorem equivariant_weightedMean (c : ℝ) (period : Nat) :
    Equivariant (c * ·) (Option.map (c * ·)) (weightedMean period) := by
  apply Equivariant.ite _ (equivariant_undefined _)
  apply Equivariant.lagged (WeightedState.scaled c)
  · simp [WeightedState.scaled, WeightedState.initial]
  · exact WeightedState.step_scaled c period

/-! ## Smoothing -/

def Smoother.scaled (c : ℝ) : Smoother ℝ → Smoother ℝ
  | warming count total => warming count (c * total)
  | running level => running (c * level)

theorem Smoother.step_scaled {blend : ℝ → ℝ → ℝ}
    (hblend : ∀ level x, blend (c * level) (c * x) = c * blend level x)
    (period : Nat) (s : Smoother ℝ) (x : ℝ) :
    step period blend (s.scaled c) (c * x) =
      (step period blend s x).map (scaled c) (Option.map (c * ·)) := by
  cases s with
  | warming count total =>
      by_cases hwarm : count + 1 < period
      · simp [step, scaled, hwarm, mul_add]
      · simp [step, scaled, hwarm, ← mul_add, mul_div_assoc]
  | running level => simp [step, scaled, hblend]

theorem equivariant_smoothed {blend : ℝ → ℝ → ℝ}
    (hblend : ∀ level x, blend (c * level) (c * x) = c * blend level x)
    (period : Nat) :
    Equivariant (c * ·) (Option.map (c * ·)) (smoothed period blend) := by
  apply Equivariant.ite _ (equivariant_undefined _)
  apply Equivariant.sweep (Smoother.scaled c)
  · simp [Smoother.scaled, Smoother.initial]
  · exact Smoother.step_scaled hblend period

theorem equivariant_exponential (c : ℝ) (period : Nat) :
    Equivariant (c * ·) (Option.map (c * ·)) (exponential period) := by
  apply equivariant_smoothed
  intro level x
  simp only [real_add, real_mul]
  ring

theorem equivariant_wilder (c : ℝ) (period : Nat) :
    Equivariant (c * ·) (Option.map (c * ·)) (wilder period) := by
  apply equivariant_smoothed
  intro level x
  simp only [real_add, real_mul, real_div]
  ring

/-! ## Extremes -/

def Candidate.scaled (c : ℝ) (k : Candidate ℝ) : Candidate ℝ :=
  ⟨k.place, c * k.value⟩

namespace ExtremeState

def scaled (c : ℝ) (s : ExtremeState ℝ) : ExtremeState ℝ :=
  ⟨s.count, s.candidates.map (Candidate.scaled c)⟩

variable {dominates : ℝ → ℝ → Bool}

/-- The order of the candidates is that of their places, which do not change. -/
theorem advance_scaled
    (hdominates : ∀ x y, dominates (c * x) (c * y) = dominates x y)
    (period : Nat) (s : ExtremeState ℝ) (x : ℝ) :
    (s.scaled c).advance period dominates (c * x) =
      (s.advance period dominates x).scaled c := by
  have hpush :
      push dominates ⟨s.count, c * x⟩ (s.candidates.map (Candidate.scaled c)) =
        (push dominates ⟨s.count, x⟩ s.candidates).map
          (Candidate.scaled c) := by
    simp [push, List.dropWhile_map, Function.comp_def, Candidate.scaled,
      hdominates]
  have hexpire (place : Nat) (kept : List (Candidate ℝ)) :
      expire period place (kept.map (Candidate.scaled c)) =
        (expire period place kept).map (Candidate.scaled c) := by
    cases hlast : kept.getLast? with
    | none => simp [expire, hlast]
    | some oldest =>
        by_cases hold : period ≤ place - oldest.place
        · simp [expire, hlast, Candidate.scaled, hold, List.map_dropLast]
        · simp [expire, hlast, Candidate.scaled, hold]
  simp only [advance, scaled, hpush, hexpire]

theorem extreme?_scaled (c : ℝ) (period : Nat) (s : ExtremeState ℝ) :
    (s.scaled c).extreme? period = (s.extreme? period).map (c * ·) := by
  by_cases hfull : period ≤ s.count
  · cases hlast : s.candidates.getLast? <;>
      simp [extreme?, scaled, hfull, hlast, Candidate.scaled]
  · simp [extreme?, scaled, hfull]

end ExtremeState

theorem equivariant_extreme {dominates : ℝ → ℝ → Bool}
    (hdominates : ∀ x y, dominates (c * x) (c * y) = dominates x y)
    (period : Nat) :
    Equivariant (c * ·) (Option.map (c * ·)) (extreme period dominates) := by
  apply Equivariant.ite _ (equivariant_undefined _)
  apply Equivariant.sweep (ExtremeState.scaled c)
  · rfl
  · intro s x
    simp [ExtremeState.step, ExtremeState.advance_scaled hdominates,
      ExtremeState.extreme?_scaled]

theorem equivariant_highest (hc : 0 < c) (period : Nat) :
    Equivariant (c * ·) (Option.map (c * ·)) (highest period) := by
  apply equivariant_extreme
  intro x y
  simp [mul_le_mul_iff_right₀ hc]

theorem equivariant_lowest (hc : 0 < c) (period : Nat) :
    Equivariant (c * ·) (Option.map (c * ·)) (lowest period) := by
  apply equivariant_extreme
  intro x y
  simp [mul_le_mul_iff_right₀ hc]

end Window

end

end RuleBacktest
