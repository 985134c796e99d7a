import RuleBacktest.Proofs.Indicator.ParabolicStop
import RuleBacktest.Proofs.Indicator.WarmUp
import RuleBacktest.Proofs.Window.Bounds

/-!
# Oscillators within their bounds

In exact arithmetic no true range behind the first bar is negative, whatever its
high and low are, since it reaches to the close before.  No movement is
negative, and of the two movements of a bar one is zero. Smoothing keeps these
bounds, a quotient of two of the smoothed values is a share of their sum, and
smoothing such shares once more keeps them between nothing and all.
-/

namespace RuleBacktest

theorem Bar.trueRange_nonneg (b : Bar ℝ) (previousClose : ℝ) :
    0 ≤ b.trueRange previousClose := by
  rw [Bar.trueRange, Scalar.real_larger, Scalar.real_larger]
  exact (abs_nonneg (b.low - previousClose)).trans (le_max_right _ _)

namespace Indicator

/-! ## One bar -/

theorem movement_nonneg (direction : Direction) (previous b : Bar ℝ) :
    0 ≤ movement direction previous b := by
  have hchosen (own other : ℝ) : 0 ≤
      if other < own ∧ 0 < own then own else 0 := by
    split_ifs with hfurther
    · exact hfurther.2.le
    · exact le_rfl
  cases direction with
  | plus =>
      simpa [movement] using hchosen (b.high - previous.high)
        (previous.low - b.low)
  | minus =>
      simpa [movement] using hchosen (previous.low - b.low)
        (b.high - previous.high)

/-- A bar that reaches further in one direction does not move in the other. -/
theorem movement_eq_zero_or (previous b : Bar ℝ) :
    movement .plus previous b = 0 ∨ movement .minus previous b = 0 := by
  rcases lt_or_ge (previous.low - b.low)
    (b.high - previous.high) with hup | hdown
  · right
    simp [movement, not_lt.mpr hup.le]
  · left
    simp [movement, not_lt.mpr hdown]

theorem relativeStrength_mem {gain loss : ℝ}
    (hgain : 0 ≤ gain)
    (hloss : 0 ≤ loss) :
    relativeStrength gain loss ∈ Set.Icc 0 100 := by
  have heq : relativeStrength gain loss =
      if loss = 0 then 100 else 100 - 100 / (1 + gain / loss) := by
    simp [relativeStrength]
  have hratio : 0 ≤ gain / loss := div_nonneg hgain hloss
  have hshare : 100 / (1 + gain / loss) ≤ 100 :=
    div_le_self (by norm_num) (le_add_of_nonneg_right hratio)
  have hpart : 0 ≤ 100 / (1 + gain / loss) := by positivity
  rw [heq]
  split_ifs
  · norm_num
  · constructor <;> linarith

theorem directionalContrast_mem {plus minus : ℝ}
    (hplus : 0 ≤ plus)
    (hminus : 0 ≤ minus) :
    directionalContrast plus minus ∈ Set.Icc 0 100 := by
  have heq : directionalContrast plus minus =
      if plus + minus = 0 then 0
      else 100 * |plus - minus| / (plus + minus) := by
    simp [directionalContrast]
  have hsum : 0 ≤ plus + minus := add_nonneg hplus hminus
  have hcontrast : |plus - minus| ≤ plus + minus := by
    rw [abs_le]
    constructor <;> linarith
  rw [heq]
  split_ifs with hzero
  · norm_num
  · refine ⟨by positivity, ?_⟩
    rw [div_le_iff₀ (hsum.lt_of_ne' hzero)]
    linarith

/-! ## All bars -/

section

variable {bars : List (Bar ℝ)} {period : ℕ}

theorem trueRanges_nonneg (hfirst : ∀ b ∈ bars.head?, b.low ≤ b.high) :
    ∀ x ∈ trueRanges bars, 0 ≤ x := by
  intro x hx
  obtain ⟨i, hi⟩ := List.mem_iff_getElem?.mp hx
  rw [trueRanges, List.getElem?_map, withLag_getElem?, Option.map_map,
    Option.map_eq_some_iff] at hi
  obtain ⟨b, hb, rfl⟩ := hi
  cases i with
  | zero =>
      rw [← List.head?_eq_getElem?] at hb
      exact sub_nonneg.mpr (hfirst b hb)
  | succ i =>
      have hi := Nat.lt_of_succ_lt (List.getElem?_eq_some_iff.mp hb).1
      simp only [Function.comp, Nat.le_add_left, if_true, Nat.add_sub_cancel,
        List.getElem?_eq_getElem hi]
      exact b.trueRange_nonneg _

theorem exists_of_movements_getElem? {direction : Direction} {i : ℕ} {x : ℝ}
    (hx : (movements direction bars)[i]? = some (some x)) :
    ∃ previous b, bars[i - 1]? = some previous ∧ bars[i]? = some b ∧
      movement direction previous b = x := by
  rw [movements, List.getElem?_map, withLag_getElem?, Option.map_map,
    Option.map_eq_some_iff] at hx
  obtain ⟨b, hb, hmovement⟩ := hx
  obtain ⟨previous, hprevious, rfl⟩ := Option.map_eq_some_iff.mp hmovement
  obtain ⟨-, hearlier⟩ := Option.ite_none_right_eq_some.mp hprevious
  exact ⟨previous, b, hearlier, hb, rfl⟩

theorem pointsIn_movements (direction : Direction) (bars : List (Bar ℝ)) :
    PointsIn (Set.Ici 0) (movements direction bars) := by
  intro x hx
  obtain ⟨i, hi⟩ := List.mem_iff_getElem?.mp hx
  obtain ⟨previous, b, -, -, rfl⟩ := exists_of_movements_getElem? hi
  exact movement_nonneg direction previous b

/-- Gains and losses are changes of the close that are cut off at zero. -/
theorem pointsIn_map_changes (part : ℝ → ℝ) (bars : List (Bar ℝ)) :
    PointsIn (Set.Ici 0)
      ((changes bars).map fun c =>
        c.map fun x => Scalar.larger (part x) (Scalar.ofCount 0)) := by
  refine (pointsIn_univ (changes bars)).map ?_
  intro x _
  rw [Scalar.real_larger, Scalar.real_ofCount, Nat.cast_zero]
  exact Set.mem_Ici.mpr (le_max_right _ _)

theorem pointsIn_rsiPoints (period : ℕ) (bars : List (Bar ℝ)) :
    PointsIn (Set.Icc 0 100) (rsiPoints period bars) := by
  have hgains :=
    Window.pointsIn_acrossGaps_wilder period
      (pointsIn_map_changes (fun x => x) bars)
  have hlosses :=
    Window.pointsIn_acrossGaps_wilder period
      (pointsIn_map_changes (fun x => -x) bars)
  exact hgains.pointwise hlosses fun _ hgain _ hloss =>
    relativeStrength_mem hgain hloss

theorem pointsIn_atrPoints (period : ℕ)
    (hfirst : ∀ b ∈ bars.head?, b.low ≤ b.high) :
    PointsIn (Set.Ici 0) (atrPoints period bars) := by
  have hranges := trueRanges_nonneg hfirst
  exact Window.pointsIn_wilder period hranges

theorem pointsIn_directionalPoints (direction : Direction) (period : ℕ)
    {ranges : List (Option ℝ)}
    (hranges : PointsIn (Set.Ici 0) ranges) :
    PointsIn (Set.Ici 0) (directionalPoints direction period bars ranges) := by
  have hmovements :=
    Window.pointsIn_acrossGaps_wilder period (pointsIn_movements direction bars)
  refine hmovements.pointwise hranges ?_
  intro m (hm : 0 ≤ m) range (hrange : 0 ≤ range)
  simp only [Scalar.real_zero, Scalar.real_ofNat, Scalar.real_mul,
    Scalar.real_div]
  split_ifs
  · exact Set.self_mem_Ici
  · exact Set.mem_Ici.mpr (by positivity)

theorem pointsIn_adxPoints (period : ℕ) {plus minus : List (Option ℝ)}
    (hplus : PointsIn (Set.Ici 0) plus)
    (hminus : PointsIn (Set.Ici 0) minus) :
    PointsIn (Set.Icc 0 100) (adxPoints period plus minus) := by
  have hcontrasts : PointsIn (Set.Icc 0 100)
      (pointwise directionalContrast plus minus) :=
    hplus.pointwise hminus fun _ hp _ hm => directionalContrast_mem hp hm
  exact Window.pointsIn_acrossGaps_wilder period hcontrasts

end

/-! ## Their series -/

/-- The points are there from place `n` on, and each of them is in `S`. -/
structure BoundedFrom (n : ℕ) (S : Set ℝ) (points : List (Option ℝ)) :
    Prop where
  definedFrom : DefinedFrom n points
  pointsIn : PointsIn S points

theorem BoundedFrom.exists_mem {n i : ℕ} {S : Set ℝ} {points : List (Option ℝ)}
    (h : BoundedFrom n S points)
    (hn : n ≤ i)
    (hi : i < points.length) :
    ∃ x ∈ S, points[i]? = some (some x) := by
  have hpoint := List.getElem?_eq_getElem hi
  obtain ⟨x, hx⟩ :=
    Option.isSome_iff_exists.mp ((h.definedFrom i _ hpoint).mpr hn)
  rw [hx] at hpoint
  exact ⟨x, h.pointsIn x (List.mem_of_getElem? hpoint), hpoint⟩

/-- The relative strength is between 0 and 100.  Where the first bar is in
order, true ranges and directional movements smooth to values that are not
negative, and the contrast of the latter to values between 0 and 100.  No bar
moves in both directions. -/
theorem oscillators_keep_bounds (bars : List (Bar ℝ)) {period : ℕ}
    (hperiod : 1 ≤ period) :
    BoundedFrom period (Set.Icc 0 100) ((rsi period).points bars) ∧
      ((∀ b ∈ bars.head?, b.low ≤ b.high) →
        BoundedFrom (period - 1) (Set.Ici 0) ((atr period).points bars) ∧
          (∀ direction,
            BoundedFrom period (Set.Ici 0)
              ((directional direction period).points bars)) ∧
          BoundedFrom (2 * period - 1) (Set.Icc 0 100)
            ((adx period).points bars)) ∧
      ∀ (i : ℕ) (up down : ℝ),
        (movements .plus bars)[i]? = some (some up) →
        (movements .minus bars)[i]? = some (some down) →
        ¬ (0 < up ∧ 0 < down) := by
  have hdefined (i : Indicator ℝ) (hsteady : i.IsSteady)
      (hperiods : i.periods = [period]) :
      DefinedFrom (i.barsNeeded - 1) (i.points bars) := by
    refine hsteady.definedFrom_points ?_ bars
    rw [hperiods]
    simpa using hperiod
  refine ⟨⟨hdefined (rsi period) trivial rfl, ?_⟩, ?_, ?_⟩
  · rw [points_of_ofBars rfl]
    exact pointsIn_rsiPoints period bars
  · intro hfirst
    have hranges : PointsIn (Set.Ici 0) ((atr period).points bars) := by
      rw [points_of_ofBars rfl]
      exact pointsIn_atrPoints period hfirst
    have hmovements (direction : Direction) :
        PointsIn (Set.Ici 0) ((directional direction period).points bars) := by
      rw [points_of_ofOne rfl]
      exact pointsIn_directionalPoints direction period hranges
    refine ⟨⟨hdefined (atr period) trivial rfl, hranges⟩,
      fun direction =>
        ⟨hdefined (directional direction period) trivial rfl,
          hmovements direction⟩, hdefined (adx period) trivial rfl, ?_⟩
    rw [points_of_ofTwo rfl]
    exact pointsIn_adxPoints period (hmovements .plus) (hmovements .minus)
  · rintro i up down hup hdown ⟨hrises, hfalls⟩
    obtain ⟨previous, b, hprevious, hb, rfl⟩ := exists_of_movements_getElem? hup
    obtain ⟨previous', b', hprevious', hb', rfl⟩ :=
      exists_of_movements_getElem? hdown
    obtain rfl := Option.some.inj (hprevious.symm.trans hprevious')
    obtain rfl := Option.some.inj (hb.symm.trans hb')
    rcases movement_eq_zero_or previous b with hzero | hzero
    · exact hrises.ne' hzero
    · exact hfalls.ne' hzero

/-- The second bar has its low above its high. -/
noncomputable def twisted : List (Bar ℝ) :=
  [wholeBarOn { year := 2024, month := 10, day := 1 } 11 9 10,
    wholeBarOn { year := 2024, month := 10, day := 2 } 8 12 9,
    wholeBarOn { year := 2024, month := 10, day := 3 } 13 11 14]

theorem oscillators_keep_bounds_twisted :
    1 ≤ 1 ∧
      (∀ b ∈ twisted.head?, b.low ≤ b.high) ∧
      (∃ b ∈ twisted, b.high < b.low) ∧
      (∃ x ∈ Set.Icc (0 : ℝ) 100,
        ((rsi 1).points twisted)[1]? = some (some x)) ∧
      (∃ x ∈ Set.Ici (0 : ℝ), ((atr 1).points twisted)[1]? = some (some x)) ∧
      ∃ x ∈ Set.Icc (0 : ℝ) 100,
        ((adx 1).points twisted)[1]? = some (some x) := by
  have hfirst : ∀ b ∈ twisted.head?, b.low ≤ b.high := by
    norm_num [twisted, wholeBarOn, barOn]
  have hlength (i : Indicator ℝ) : 1 < (i.points twisted).length := by
    simp [length_points, twisted]
  obtain ⟨hstrength, hrest, -⟩ := oscillators_keep_bounds twisted (le_refl 1)
  obtain ⟨hranges, -, hcontrast⟩ := hrest hfirst
  refine ⟨le_rfl, hfirst, ⟨_, List.mem_cons_of_mem _ List.mem_cons_self, ?_⟩,
    ?_, ?_, ?_⟩
  · norm_num [wholeBarOn, barOn]
  · exact hstrength.exists_mem le_rfl (hlength _)
  · exact hranges.exists_mem (Nat.zero_le 1) (hlength _)
  · exact hcontrast.exists_mem le_rfl (hlength _)

end Indicator
end RuleBacktest
