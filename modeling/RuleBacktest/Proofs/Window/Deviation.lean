import Mathlib.Tactic.FieldSimp
import Mathlib.Tactic.Positivity
import Mathlib.Tactic.Ring
import RuleBacktest.Proofs.Scalar.Exact
import RuleBacktest.Proofs.Window.Pass
import RuleBacktest.Window.Average

/-!
# The standard deviation of a sliding window

The pass keeps the mean of the window and the sum of the squared deviations from
it.  Both grow with a value that enters, and a value that leaves changes them by
what the two means differ.  In exact arithmetic they are those of the window,
taken in two passes over its values.
-/

namespace RuleBacktest

open Scalar

namespace Window

/-! ## Deviations of a list -/

noncomputable section

def average (w : List ℝ) : ℝ :=
  w.sum / w.length

def squaredDeviations (w : List ℝ) : ℝ :=
  (w.map fun x => (x - average w) ^ 2).sum

theorem sum_map_sq_sub (m : ℝ) (w : List ℝ) :
    (w.map fun x => (x - m) ^ 2).sum =
      (w.map (· ^ 2)).sum - 2 * m * w.sum + w.length * m ^ 2 := by
  induction w with
  | nil => simp
  | cons x w ih =>
      simp only [List.map_cons, List.sum_cons, List.length_cons, ih,
        Nat.cast_add, Nat.cast_one]
      ring

theorem squaredDeviations_eq (w : List ℝ) :
    squaredDeviations w = (w.map (· ^ 2)).sum - w.sum ^ 2 / w.length := by
  rw [squaredDeviations, sum_map_sq_sub, average]
  by_cases hempty : (w.length : ℝ) = 0
  · simp [hempty]
  · field_simp
    ring

theorem squaredDeviations_nonneg (w : List ℝ) : 0 ≤ squaredDeviations w := by
  apply List.sum_nonneg
  intro y hy
  obtain ⟨x, -, rfl⟩ := List.mem_map.mp hy
  exact sq_nonneg _

theorem average_concat (w : List ℝ) (x : ℝ) :
    average (w ++ [x]) = average w + (x - average w) / (w.length + 1) := by
  have hcount : (w.length : ℝ) + 1 ≠ 0 := by positivity
  simp only [average, List.sum_append, List.sum_singleton, List.length_append,
    List.length_singleton, Nat.cast_add, Nat.cast_one]
  cases w with
  | nil => simp
  | cons y w =>
      have hlength : ((y :: w).length : ℝ) ≠ 0 := by
        rw [List.length_cons]
        positivity
      field_simp
      ring

theorem squaredDeviations_concat (w : List ℝ) (x : ℝ) :
    squaredDeviations (w ++ [x]) =
      squaredDeviations w + (x - average w) * (x - average (w ++ [x])) := by
  have hcount : (w.length : ℝ) + 1 ≠ 0 := by positivity
  rw [squaredDeviations_eq, squaredDeviations_eq, average, average]
  simp only [List.map_append, List.map_singleton, List.sum_append,
    List.sum_singleton, List.length_append, List.length_singleton, Nat.cast_add,
    Nat.cast_one]
  cases w with
  | nil => simp
  | cons y w =>
      have hlength : ((y :: w).length : ℝ) ≠ 0 := by
        rw [List.length_cons]
        positivity
      field_simp
      ring

/-- The window keeps its width, so its mean moves by the difference of the two
values. -/
theorem average_slide (old : ℝ) (w : List ℝ) (x : ℝ) :
    average (w ++ [x]) = average (old :: w) + (x - old) / (w.length + 1) := by
  simp only [average, List.sum_append, List.sum_cons, List.sum_nil,
    List.length_append, List.length_cons, List.length_nil, Nat.cast_add,
    Nat.cast_one]
  ring

theorem squaredDeviations_slide (old : ℝ) (w : List ℝ) (x : ℝ) :
    squaredDeviations (w ++ [x]) =
      squaredDeviations (old :: w) +
        (x - old) * (x - average (w ++ [x]) + old - average (old :: w)) := by
  have hcount : (w.length : ℝ) + 1 ≠ 0 := by positivity
  rw [squaredDeviations_eq, squaredDeviations_eq, average, average]
  simp only [List.map_append, List.map_cons, List.map_nil, List.sum_append,
    List.sum_cons, List.sum_nil, List.length_append, List.length_cons,
    List.length_nil, Nat.cast_add, Nat.cast_one]
  field_simp
  ring

end

/-! ## The pass -/

namespace DeviationState

variable {α : Type} [Scalar α] {period : Nat}

def pass (hperiod : 0 < period) : WindowPass (DeviationState α) α α where
  period := period
  start := initial
  step := step period
  count := count
  read s :=
    if period ≤ s.count then some (sqrt (larger (s.squares / ofCount period) 0))
    else none
  period_pos := hperiod
  count_start := rfl
  count_step s entry := by cases hold : entry.2 <;> simp [step, hold]
  snd_step s entry := by cases hold : entry.2 <;> simp [step, hold]
  read_of_lt s hfew := if_neg (Nat.not_le_of_lt hfew)

theorem deviation_eq_onStretch (hperiod : 0 < period) :
    (deviation period : List α → List (Option α)) =
      (pass hperiod).onStretch := by
  funext xs
  exact if_neg (Nat.ne_of_gt hperiod)

/-- The state holds the mean of the window and the squared deviations from
it. -/
def Describes (w : List ℝ) (s : DeviationState ℝ) : Prop :=
  s.mean = average w ∧ s.squares = squaredDeviations w

theorem tracks_pass (hperiod : 0 < period) :
    (pass hperiod : WindowPass (DeviationState ℝ) ℝ ℝ).Tracks Describes where
  start := by
    constructor
    · simp [pass, initial, average]
    · simp [pass, initial, squaredDeviations]
  grow w s x hroom hcount hs := by
    obtain ⟨hmean, hsquares⟩ := hs
    have hcount : s.count = w.length := hcount
    have hnext : average (w ++ [x]) =
        s.mean + (x - s.mean) / (s.count + 1) := by
      rw [average_concat, hmean, hcount]
    constructor
    · simp [pass, step, hnext]
    · rw [squaredDeviations_concat, hnext, ← hmean, ← hsquares]
      simp [pass, step]
  slide old w s x hwidth hs := by
    obtain ⟨hmean, hsquares⟩ := hs
    have hwidth : (w.length : ℝ) + 1 = period := by
      exact_mod_cast hwidth
    have hnext : average (w ++ [x]) = s.mean + (x - old) / period := by
      rw [average_slide old, hmean, hwidth]
    constructor
    · simp [pass, step, hnext]
    · rw [squaredDeviations_slide old, hnext, ← hmean, ← hsquares]
      simp [pass, step]

theorem squares_nonneg {w : List ℝ} {s : DeviationState ℝ} (h : Describes w s) :
    0 ≤ s.squares := by
  rw [h.2]
  exact squaredDeviations_nonneg w

/-- The clamp leaves the mean of the squared deviations as it is. -/
theorem read_pass
    (hperiod : 0 < period)
    {w : List ℝ} {s : DeviationState ℝ}
    (hfull : period ≤ s.count)
    (h : Describes w s) :
    (pass hperiod).read s = some √(squaredDeviations w / period) := by
  have hquotient : (0 : ℝ) ≤ s.squares / period :=
    div_nonneg (squares_nonneg h) (Nat.cast_nonneg period)
  have hread : (pass hperiod).read s =
      some √(larger (s.squares / period) 0) := by
    simp [pass, hfull]
  rw [hread, real_larger, max_eq_left hquotient, h.2]

end DeviationState

/-- In exact arithmetic a point of the sliding standard deviation is there
exactly when the last `period` values exist and none of them is missing, and its
square is then the mean of their squared deviations from their mean.  The pass
in one loop over the source gives the same points.  Its sum of squares is never
below zero, and whenever more than `period` values have come since the last gap,
the one that leaves is present. -/
theorem deviation_eq_twoPass {period : Nat}
    (hperiod : 1 ≤ period)
    (source : List (Option ℝ)) :
    (∀ i,
        ((∃ y, (acrossGaps (deviation period) source)[i]? = some (some y)) ↔
          ∃ w, FullWindow period i source w) ∧
        ∀ w, FullWindow period i source w →
          ∃ y,
            (acrossGaps (deviation period) source)[i]? = some (some y) ∧
            0 ≤ y ∧
            y ^ 2 =
              1 / period * (w.map fun x => (x - w.sum / period) ^ 2).sum) ∧
      ∀ blank,
        (DeviationState.pass hperiod).inPlace blank source =
          acrossGaps (deviation period) source ∧
        ∀ i,
          let before :=
            (DeviationState.pass hperiod).stateInPlace blank (source.take i)
          0 ≤ before.squares / period ∧
            ∀ x, source[i]? = some (some x) → period ≤ before.count →
              ∃ old, source[i - period]? = some (some old) := by
  have htracks := DeviationState.tracks_pass hperiod
  have hpoints :=
    htracks.exists_point_iff fun _ _ _ => DeviationState.read_pass hperiod
  rw [← DeviationState.deviation_eq_onStretch hperiod] at hpoints
  constructor
  · intro i
    constructor
    · exact (hpoints source i).1
    · intro w hw
      refine ⟨_, (hpoints source i).2 w hw, Real.sqrt_nonneg _, ?_⟩
      rw [Real.sq_sqrt
          (div_nonneg (squaredDeviations_nonneg w) (Nat.cast_nonneg period)),
        squaredDeviations, average, hw.length_eq, one_div, inv_mul_eq_div]
  · intro blank
    constructor
    · rw [WindowPass.inPlace_eq_acrossGaps,
        DeviationState.deviation_eq_onStretch hperiod]
    · intro i
      constructor
      · rw [WindowPass.stateInPlace_eq]
        exact div_nonneg (DeviationState.squares_nonneg (htracks.stateOn _))
          (Nat.cast_nonneg period)
      · intro x hx hfull
        have hi := (List.getElem?_eq_some_iff.mp hx).1
        exact (DeviationState.pass hperiod).exists_leaving blank hi.le hfull

/-- The stretch behind the gap starts a window of its own. -/
theorem deviation_eq_twoPass_behindGap :
    1 ≤ 2 ∧
      (∀ y,
        (acrossGaps (deviation 2)
          [some (2 : ℝ), none, some 1, some 3, some 5])[2]? ≠ some (some y)) ∧
      ∃ y,
        (acrossGaps (deviation 2)
          [some (2 : ℝ), none, some 1, some 3, some 5])[4]? = some (some y) ∧
        0 ≤ y ∧
        y ^ 2 = 1 := by
  have htwoPass := (deviation_eq_twoPass (show 1 ≤ 2 by decide)
    [some (2 : ℝ), none, some 1, some 3, some 5]).1
  refine ⟨by decide, ?_, ?_⟩
  · intro y hy
    obtain ⟨w, hw⟩ := (htwoPass 2).1.mp ⟨y, hy⟩
    have hgap := hw.present 0 (by rw [hw.length_eq]; decide)
    simp at hgap
  · have hwindow :
        FullWindow 2 4 [some (2 : ℝ), none, some 1, some 3, some 5] [3, 5] := by
      refine ⟨rfl, by decide, ?_⟩
      intro k hk
      match k, hk with
      | 0, _ => rfl
      | 1, _ => rfl
    obtain ⟨y, hy, hpos, hsquare⟩ := (htwoPass 4).2 _ hwindow
    refine ⟨y, hy, hpos, ?_⟩
    rw [hsquare]
    norm_num

end Window

end RuleBacktest
