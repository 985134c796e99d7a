import RuleBacktest.Proofs.Indicator.Extent
import RuleBacktest.Proofs.Indicator.ParabolicStop

/-!
# The position of the close in its range

Two oscillators read off where the close lies between the lowest low and the
highest high of the last bars, one from below in parts of a hundred and one from
above in negative parts.  In exact arithmetic the two readings differ by a
hundred, wherever there is one.  A bar belongs to its own window, so a close
within its bar is within the range.
-/

namespace RuleBacktest
namespace Indicator

open Window

/-! ## Positions -/

section

open Scalar

variable {α : Type} [Scalar α] {bars : List (Bar α)} {i : ℕ}
  {highest lowest : List (Option α)}

theorem withinRange_getElem? (position : α → α → α → α) {b : Bar α} {h l : α}
    (hb : bars[i]? = some b)
    (hh : highest[i]? = some (some h))
    (hl : lowest[i]? = some (some l)) :
    (withinRange position bars highest lowest)[i]? =
      some (if same (h - l) 0 then none else some (position b.close h l)) := by
  rw [withinRange, List.getElem?_zipWith, hb, pointwise, List.getElem?_zipWith,
    hh, hl]
  rfl

theorem withinRange_eq_none (position : α → α → α → α)
    (hi : i < bars.length)
    (hh : highest[i]? = some none)
    {l : Option α}
    (hl : lowest[i]? = some l) :
    (withinRange position bars highest lowest)[i]? = some none := by
  rw [withinRange, List.getElem?_zipWith, List.getElem?_eq_getElem hi,
    pointwise, List.getElem?_zipWith, hh, hl]
  rfl

/-- Where one reading is a function of the other, it is so at every place with
an extent. -/
theorem withinRange_map {position position' : α → α → α → α} {f : α → α}
    (hf :
      ∀ c h l, same (h - l) 0 = false → position' c h l = f (position c h l)) :
    withinRange position' bars highest lowest =
      (withinRange position bars highest lowest).map (Option.map f) := by
  rw [withinRange, withinRange, List.map_zipWith]
  congr 1
  funext b extremes
  cases extremes with
  | none => rfl
  | some pair =>
      obtain ⟨h, l⟩ := pair
      cases hextent : same (h - l) 0 with
      | true => simp [hextent]
      | false => simp [hextent, hf b.close h l hextent]

end

/-- How far the close has come from the lowest to the highest, in parts of a
hundred. -/
noncomputable def hundredths (close highest lowest : ℝ) : ℝ :=
  100 * (close - lowest) / (highest - lowest)

section

variable {c h l : ℝ} (hextent : h ≠ l)
include hextent

theorem hundredths_sub : -100 * (h - c) / (h - l) = hundredths c h l - 100 := by
  have hwidth := sub_ne_zero.mpr hextent
  rw [hundredths]
  field_simp
  ring

theorem hundredths_eq_hundred_iff : hundredths c h l = 100 ↔ c = h := by
  rw [hundredths, div_eq_iff (sub_ne_zero.mpr hextent)]
  constructor <;> intro heq <;> linarith

theorem hundredths_eq_zero_iff : hundredths c h l = 0 ↔ c = l := by
  rw [hundredths, div_eq_iff (sub_ne_zero.mpr hextent)]
  constructor <;> intro heq <;> linarith

theorem hundredths_mem
    (hlow : l ≤ c)
    (hhigh : c ≤ h) :
    hundredths c h l ∈ Set.Icc 0 100 := by
  have hwidth : 0 < h - l := sub_pos.mpr ((hlow.trans hhigh).lt_of_ne' hextent)
  have hreach : 0 ≤ c - l := sub_nonneg.mpr hlow
  refine ⟨by rw [hundredths]; positivity, ?_⟩
  rw [hundredths, div_le_iff₀ hwidth]
  linarith

end

/-! ## Extremes of the last bars -/

theorem highest_dominates (xs : List ℝ) :
    ∀ x ∈ xs, ∀ y ∈ xs, decide (y ≤ x) = true ↔ id y ≤ id x := by
  intro x _ y _
  exact decide_eq_true_iff

/-- For the lowest the order is reversed. -/
theorem lowest_dominates (xs : List ℝ) :
    ∀ x ∈ xs, ∀ y ∈ xs,
      decide (x ≤ y) = true ↔ OrderDual.toDual y ≤ OrderDual.toDual x := by
  intro x _ y _
  rw [decide_eq_true_iff, OrderDual.toDual_le_toDual]

section Extremes

variable {bars : List (Bar ℝ)} {period i : ℕ} (hperiod : 0 < period)
  (hi : i < bars.length) (hfits : period ≤ i + 1)
include hperiod hi hfits

theorem exists_highest_high :
    ∃ h, (highest period (highs bars))[i]? = some (some h) ∧
      IsGreatest {x | x ∈ highs (lastBars period i bars)} h := by
  obtain ⟨b, hb, hpoint, hgreatest⟩ := exists_extreme_bar Bar.high
    (highest_dominates (highs bars)) hperiod hi hfits
  refine ⟨b.high, hpoint, List.mem_map_of_mem hb, ?_⟩
  intro x hx
  obtain ⟨c, hc, rfl⟩ := List.mem_map.mp hx
  exact hgreatest c hc

theorem exists_lowest_low :
    ∃ l, (lowest period (lows bars))[i]? = some (some l) ∧
      IsLeast {x | x ∈ lows (lastBars period i bars)} l := by
  obtain ⟨b, hb, hpoint, hleast⟩ := exists_extreme_bar Bar.low
    (lowest_dominates (lows bars)) hperiod hi hfits
  refine ⟨b.low, hpoint, List.mem_map_of_mem hb, ?_⟩
  intro x hx
  obtain ⟨c, hc, rfl⟩ := List.mem_map.mp hx
  exact OrderDual.toDual_le_toDual.mp (hleast c hc)

end Extremes

/-! ## The two readings -/

theorem stochastic_points (period : ℕ) (bars : List (Bar ℝ)) :
    (stochastic period).points bars =
      withinRange hundredths bars (highest period (highs bars))
        (lowest period (lows bars)) := by
  rw [points_of_ofBars rfl]
  rfl

theorem williamsR_points (period : ℕ) (bars : List (Bar ℝ)) :
    (williamsR period).points bars =
      ((stochastic period).points bars).map (Option.map (· - 100)) := by
  rw [points_of_ofBars rfl, williamsRPoints, stochastic_points]
  refine withinRange_map ?_
  intro c h l hextent
  have hne : h ≠ l := by
    simpa [sub_eq_zero] using hextent
  exact hundredths_sub hne

section

variable {bars : List (Bar ℝ)} {period i : ℕ} {b : Bar ℝ} {h l : ℝ}

theorem stochastic_of_few
    (hi : i < bars.length)
    (hfew : i + 1 < period) :
    ((stochastic period).points bars)[i]? = some none := by
  have hlength : i < (lowest period (lows bars)).length := by
    rwa [((causal_lowest period).comp causal_lows).length_eq]
  have hhigh : (highest period (highs bars))[i]? = some none :=
    extreme_eq_none (highest_dominates (highs bars)) (by simpa [highs] using hi)
      (Or.inr hfew)
  rw [stochastic_points]
  exact withinRange_eq_none _ hi hhigh (List.getElem?_eq_getElem hlength)

theorem stochastic_of_full
    (hperiod : 0 < period)
    (hb : bars[i]? = some b)
    (hfits : period ≤ i + 1)
    (hgreatest : IsGreatest {x | x ∈ highs (lastBars period i bars)} h)
    (hleast : IsLeast {x | x ∈ lows (lastBars period i bars)} l) :
    ((stochastic period).points bars)[i]? =
      some (if h = l then none else some (hundredths b.close h l)) := by
  have hi := (List.getElem?_eq_some_iff.mp hb).1
  obtain ⟨h', hhigh, hgreatest'⟩ := exists_highest_high hperiod hi hfits
  obtain ⟨l', hlow, hleast'⟩ := exists_lowest_low hperiod hi hfits
  obtain rfl := hgreatest.unique hgreatest'
  obtain rfl := hleast.unique hleast'
  rw [stochastic_points, withinRange_getElem? hundredths hb hhigh hlow]
  simp [sub_eq_zero]

/-- A bar belongs to its own window. -/
theorem hundredths_mem_of_bar
    (hperiod : 0 < period)
    (hb : bars[i]? = some b)
    (hextent : h ≠ l)
    (hgreatest : IsGreatest {x | x ∈ highs (lastBars period i bars)} h)
    (hleast : IsLeast {x | x ∈ lows (lastBars period i bars)} l)
    (hlow : b.low ≤ b.close)
    (hhigh : b.close ≤ b.high) :
    hundredths b.close h l ∈ Set.Icc 0 100 := by
  have hmem : b ∈ lastBars period i bars :=
    mem_lastBars_iff.mpr ⟨i, hb, le_rfl, Nat.lt_add_of_pos_right hperiod⟩
  have hlowest : l ≤ b.low := hleast.2 (List.mem_map_of_mem hmem)
  have hhighest : b.high ≤ h := hgreatest.2 (List.mem_map_of_mem hmem)
  exact hundredths_mem hextent (hlowest.trans hlow) (hhigh.trans hhighest)

end

/-- The reading from above is a hundred less than the one from below, and both
are there or neither.  They are there from the first full window on, unless its
highest high is its lowest low.  The reading from below is a hundred where the
close is the highest high and zero where it is the lowest low, and it is between
the two for a close within its bar. -/
theorem stochastic_williamsR_agree (bars : List (Bar ℝ)) {period : ℕ}
    (hperiod : 1 ≤ period) :
    (williamsR period).points bars =
        ((stochastic period).points bars).map (Option.map (· - 100)) ∧
      ∀ (i : ℕ) (b : Bar ℝ), bars[i]? = some b →
        (i + 1 < period → ((stochastic period).points bars)[i]? = some none) ∧
          (period ≤ i + 1 →
            ∃ h l,
              IsGreatest {x | x ∈ highs (lastBars period i bars)} h ∧
              IsLeast {x | x ∈ lows (lastBars period i bars)} l ∧
              (h = l → ((stochastic period).points bars)[i]? = some none) ∧
              (h ≠ l →
                ∃ k,
                  ((stochastic period).points bars)[i]? = some (some k) ∧
                  (k = 100 ↔ b.close = h) ∧
                  (k = 0 ↔ b.close = l) ∧
                  (b.low ≤ b.close →
                    b.close ≤ b.high →
                    k ∈ Set.Icc 0 100 ∧ k - 100 ∈ Set.Icc (-100) 0))) := by
  refine ⟨williamsR_points period bars, ?_⟩
  intro i b hb
  have hi := (List.getElem?_eq_some_iff.mp hb).1
  refine ⟨stochastic_of_few hi, ?_⟩
  intro hfits
  obtain ⟨h, -, hgreatest⟩ := exists_highest_high hperiod hi hfits
  obtain ⟨l, -, hleast⟩ := exists_lowest_low hperiod hi hfits
  have hpoint := stochastic_of_full hperiod hb hfits hgreatest hleast
  refine ⟨h, l, hgreatest, hleast, ?_, ?_⟩
  · intro hextent
    rw [hpoint, if_pos hextent]
  · intro hextent
    rw [if_neg hextent] at hpoint
    refine ⟨hundredths b.close h l, hpoint, hundredths_eq_hundred_iff hextent,
      hundredths_eq_zero_iff hextent, ?_⟩
    intro hlow hhigh
    have hmem :=
      hundredths_mem_of_bar hperiod hb hextent hgreatest hleast hlow hhigh
    exact ⟨hmem, by linarith [hmem.1], by linarith [hmem.2]⟩

/-- Two bars without any extent, and one that closes at its high. -/
noncomputable def stalledThenRisen : List (Bar ℝ) :=
  [wholeBarOn { year := 2024, month := 11, day := 1 } 10 10 10,
    wholeBarOn { year := 2024, month := 11, day := 4 } 10 10 10,
    wholeBarOn { year := 2024, month := 11, day := 5 } 14 9 14]

theorem stochastic_williamsR_agree_stalled :
    1 ≤ 2 ∧ ((stochastic 2).points stalledThenRisen)[1]? = some none ∧
      ((stochastic 2).points stalledThenRisen)[2]? = some (some 100) ∧
      ((williamsR 2).points stalledThenRisen)[2]? = some (some 0) := by
  obtain ⟨hagree, hpositions⟩ :=
    stochastic_williamsR_agree stalledThenRisen one_le_two
  have hflat : ((stochastic 2).points stalledThenRisen)[1]? = some none := by
    obtain ⟨-, hfull⟩ := hpositions 1 _ rfl
    obtain ⟨h, l, hgreatest, hleast, hnone, -⟩ := hfull le_rfl
    have hhigh : h = 10 := by
      simpa [highs, lastBars, stalledThenRisen, wholeBarOn, barOn]
        using hgreatest.1
    have hlow : l = 10 := by
      simpa [lows, lastBars, stalledThenRisen, wholeBarOn, barOn] using hleast.1
    exact hnone (hhigh.trans hlow.symm)
  have hrisen :
      ((stochastic 2).points stalledThenRisen)[2]? = some (some 100) := by
    obtain ⟨-, hfull⟩ := hpositions 2 _ rfl
    obtain ⟨h, l, hgreatest, hleast, -, hsome⟩ := hfull (by decide)
    have hhigh : h = 14 := by
      refine hgreatest.unique ⟨?_, ?_⟩
      · simp [highs, lastBars, stalledThenRisen, wholeBarOn, barOn]
      · norm_num [upperBounds, highs, lastBars, stalledThenRisen, wholeBarOn,
          barOn]
    have hlow : l = 9 := by
      refine hleast.unique ⟨?_, ?_⟩
      · simp [lows, lastBars, stalledThenRisen, wholeBarOn, barOn]
      · norm_num [lowerBounds, lows, lastBars, stalledThenRisen, wholeBarOn,
          barOn]
    obtain ⟨k, hk, hhundred, -, -⟩ := hsome (by rw [hhigh, hlow]; norm_num)
    rw [hk, hhundred.mpr hhigh.symm]
  refine ⟨one_le_two, hflat, hrisen, ?_⟩
  rw [hagree, List.getElem?_map, hrisen]
  norm_num

end Indicator
end RuleBacktest
