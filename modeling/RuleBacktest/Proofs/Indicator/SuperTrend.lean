import Mathlib.Tactic.IntervalCases
import RuleBacktest.Proofs.Indicator.ParabolicStop
import RuleBacktest.Proofs.Indicator.WarmUp

/-!
# Trends of the super trend

Below the price a band rises and above it one falls, and the line of a trend
lies on one of the two.  A band moves the other way only if the close before was
beyond it, and a close beyond the band of the trend turns the trend.  So while a
trend goes on, every close from its second bar on holds the band, and from the
third bar on the line moves with the trend only.  Nothing is asked of the ranges
and of the factor, with which the bands may even cross.
-/

namespace RuleBacktest
namespace Indicator

open Scalar (Before LawfulComparison)

/-! ## From one bar to the next -/

namespace TrendState

section

variable {α : Type} [Scalar α]

/-- The band that the line of a trend lies on. -/
def band (rising : Bool) (s : TrendState α) : α :=
  match rising with
  | true => s.lower
  | false => s.upper

/-- The place of the band by the prices of one bar. -/
def basicBand (width : α) (rising : Bool) (b : Bar α) (range : α) : α :=
  match rising with
  | true => b.medianPrice - width * range
  | false => b.medianPrice + width * range

variable {width range : α} {rising : Bool} {s : TrendState α}
  {previous b : Bar α}

omit [Scalar α] in
theorem line_eq_band (s : TrendState α) : s.line = s.band s.rising := by
  obtain ⟨upper, lower, rising⟩ := s
  cases rising <;> rfl

theorem band_next (width : α) (rising : Bool) (s : TrendState α)
    (previous b : Bar α) (range : α) :
    (s.next width previous b range).band rising =
      if Before rising (s.band rising) (basicBand width rising b range) ∨
          Before rising previous.close (s.band rising) then
        basicBand width rising b range
      else s.band rising := by
  cases rising <;> rfl

/-- A band gives way only if the close before was beyond it. -/
theorem before_close_of_before_band [LawfulComparison α] (rising : Bool)
    (hback :
      Before rising ((s.next width previous b range).band rising)
        (s.band rising)) :
    Before rising previous.close (s.band rising) := by
  rw [band_next] at hback
  split_ifs at hback with hmoves
  · exact hmoves.resolve_left hback.asymm
  · exact absurd hback Before.irrefl

end

/-! The trend goes on exactly where the close holds the band of the trend. -/

variable {width range : ℝ} {s : TrendState ℝ} {previous b : Bar ℝ}

theorem rising_next_iff (width : ℝ) (s : TrendState ℝ) (previous b : Bar ℝ)
    (range : ℝ) :
    (s.next width previous b range).rising = !s.rising ↔
      Before s.rising b.close
        ((s.next width previous b range).band s.rising) := by
  obtain ⟨upper, lower, rising⟩ := s
  cases rising with
  | true =>
      change decide (_ ≤ b.close) = false ↔ b.close < _
      rw [decide_eq_false_iff_not]
      exact not_le
  | false => exact decide_eq_true_iff

theorem not_before_line_next
    (hhold : (s.next width previous b range).rising = s.rising) :
    ¬ Before s.rising b.close (s.next width previous b range).line := by
  rw [line_eq_band, hhold, ← rising_next_iff, hhold]
  simp

end TrendState

/-! ## The state at a place -/

section Places

variable {α : Type} [Scalar α] {width : Factor α} {bars : List (Bar α)}
  {ranges : List (Option α)} {i : ℕ} {s s' : TrendState α}

/-- The state after the bar at place `i`. -/
def TrendAt (width : Factor α) (bars : List (Bar α)) (ranges : List (Option α))
    (i : ℕ) (s : TrendState α) : Prop :=
  (superTrendTrace width bars ranges)[i]? = some (some s)

theorem TrendAt.unique
    (hs : TrendAt width bars ranges i s)
    (hs' : TrendAt width bars ranges i s') :
    s = s' := by
  have hsame : some (some s) = some (some s') := hs.symm.trans hs'
  rwa [Option.some.injEq, Option.some.injEq] at hsame

theorem superTrendPoints_getElem?_iff {x : α} :
    (superTrendPoints width bars ranges)[i]? = some (some x) ↔
      ∃ s, TrendAt width bars ranges i s ∧ s.line = x := by
  rw [superTrendPoints, List.getElem?_map, Option.map_eq_some_iff]
  constructor
  · rintro ⟨p, hp, hx⟩
    obtain ⟨s, rfl, hline⟩ := Option.map_eq_some_iff.mp hx
    exact ⟨s, hp, hline⟩
  · rintro ⟨s, hs, rfl⟩
    exact ⟨some s, hs, rfl⟩

theorem TrendState.fst_step {width : α} {start : Option (TrendState α)}
    {entry : (Bar α × Option (Bar α)) × Option α}
    (hstep : (step width start entry).2 = some s) :
    (step width start entry).1 = some s := by
  cases hrange : entry.2 with
  | none => simp [step, hrange] at hstep
  | some range => simpa [step, hrange] using hstep

/-- A state that comes after another one follows from it by the two bars and a
range. -/
theorem TrendAt.exists_next (hs : TrendAt width bars ranges i s)
    (hs' : TrendAt width bars ranges (i + 1) s') :
    ∃ previous b range, bars[i]? = some previous ∧ bars[i + 1]? = some b ∧
      s' = s.next width.value previous b range := by
  rw [TrendAt, superTrendTrace, sweep_getElem?,
    Option.map_eq_some_iff] at hs hs'
  obtain ⟨entry, hentry, hstep⟩ := hs
  obtain ⟨⟨⟨b, earlier⟩, range⟩, hentry', hstep'⟩ := hs'
  have hstate : stateAfter (TrendState.step width.value) none
      (((withLag 1 bars).zip ranges).take (i + 1)) = some s := by
    rw [List.take_add_one, hentry, Option.toList_some, stateAfter_concat]
    exact TrendState.fst_step hstep
  have hbars := (List.getElem?_zip_eq_some.mp hentry').1
  rw [withLag_getElem?, if_pos (Nat.le_add_left 1 i), Nat.add_sub_cancel,
    Option.map_eq_some_iff] at hbars
  obtain ⟨_, hb, hpair⟩ := hbars
  obtain ⟨rfl, hprevious⟩ := Prod.mk.inj hpair
  have hi : i < bars.length := by
    have hnext := (List.getElem?_eq_some_iff.mp hb).1
    omega
  rw [List.getElem?_eq_getElem hi] at hprevious ⊢
  rw [hstate, ← hprevious] at hstep'
  cases range with
  | none => simp [TrendState.step] at hstep'
  | some range => exact ⟨_, _, range, rfl, hb, (Option.some.inj hstep').symm⟩

/-- Over ranges that are there from some place on, only the first state has none
before it. -/
theorem TrendAt.first_or_exists_before {n : ℕ}
    (hranges : DefinedFrom n ranges)
    (hs' : TrendAt width bars ranges (i + 1) s') :
    (∀ j ≤ i, ∀ s, ¬ TrendAt width bars ranges j s) ∨
      ∃ s, TrendAt width bars ranges i s := by
  have hdefined := definedFrom_superTrendTrace bars width hranges
  by_cases hn : n ≤ i
  · right
    have hlength := (List.getElem?_eq_some_iff.mp hs').1
    have hi : i < (superTrendTrace width bars ranges).length := by omega
    have hpoint := List.getElem?_eq_getElem hi
    obtain ⟨s, hs⟩ := Option.isSome_iff_exists.mp ((hdefined i _ hpoint).mpr hn)
    exact ⟨s, hpoint.trans (congrArg some hs)⟩
  · left
    intro j hj s hs
    have hplace := (hdefined j _ hs).mp rfl
    omega

/-! ## Trends -/

/-- From place `first` to place `last` every bar has a state, and all of these
have one direction. -/
def IsTrendRun (width : Factor α) (bars : List (Bar α))
    (ranges : List (Option α)) (rising : Bool) (first last : ℕ) : Prop :=
  ∀ i,
    first ≤ i →
    i ≤ last →
    ∃ s, TrendAt width bars ranges i s ∧ s.rising = rising

theorem IsTrendRun.rising_eq {rising : Bool} {first last : ℕ}
    (hrun : IsTrendRun width bars ranges rising first last)
    (hfirst : first ≤ i)
    (hlast : i ≤ last)
    (hs : TrendAt width bars ranges i s) :
    s.rising = rising := by
  obtain ⟨r, hr, hrising⟩ := hrun i hfirst hlast
  rwa [hs.unique hr]

end Places

theorem not_before_iff {rising : Bool} {x y : ℝ} :
    ¬ Before rising x y ↔
      (rising = true → y ≤ x) ∧ (rising = false → x ≤ y) := by
  cases rising <;> simp [Before]

namespace IsTrendRun

variable {width : Factor ℝ} {bars : List (Bar ℝ)} {ranges : List (Option ℝ)}
  {rising : Bool} {first last i j : ℕ} {s s' : TrendState ℝ}

/-- From the second bar of a run on, the close holds the line. -/
theorem not_before_line
    (hrun : IsTrendRun width bars ranges rising first last)
    (hfirst : first < i)
    (hlast : i ≤ last)
    (hs : TrendAt width bars ranges i s)
    {b : Bar ℝ}
    (hb : bars[i]? = some b) :
    ¬ Before rising b.close s.line := by
  obtain ⟨k, rfl⟩ := Nat.exists_eq_add_of_lt (Nat.zero_lt_of_lt hfirst)
  rw [Nat.zero_add] at hs hb hfirst hlast
  obtain ⟨r, hr, hrising⟩ :=
    hrun k (Nat.le_of_lt_succ hfirst) (Nat.le_of_succ_le hlast)
  obtain ⟨previous, c, range, -, hc, rfl⟩ := hr.exists_next hs
  obtain rfl := Option.some.inj (hb.symm.trans hc)
  have hhold := hrun.rising_eq hfirst.le hlast hs
  rw [← hrising] at hhold ⊢
  exact TrendState.not_before_line_next hhold

/-- The line of the next bar is not behind it, since the close before held the
band. -/
theorem not_before_line_succ
    (hrun : IsTrendRun width bars ranges rising first last)
    (hfirst : first < i)
    (hlast : i + 1 ≤ last)
    (hs : TrendAt width bars ranges i s)
    (hs' : TrendAt width bars ranges (i + 1) s') :
    ¬ Before rising s'.line s.line := by
  have hrising := hrun.rising_eq hfirst.le (Nat.le_of_succ_le hlast) hs
  have hrising' := hrun.rising_eq (hfirst.le.trans (Nat.le_succ i)) hlast hs'
  obtain ⟨previous, b, range, hprevious, -, rfl⟩ := hs.exists_next hs'
  have hheld :=
    hrun.not_before_line hfirst (Nat.le_of_succ_le hlast) hs hprevious
  rw [TrendState.line_eq_band, hrising] at hheld
  rw [TrendState.line_eq_band, hrising', TrendState.line_eq_band, hrising]
  exact fun hback => hheld (TrendState.before_close_of_before_band rising hback)

/-- From the second bar of a run on, no line is behind an earlier one. -/
theorem not_before_line_of_le
    (hrun : IsTrendRun width bars ranges rising first last)
    (hfirst : first < i)
    (hle : i ≤ j)
    (hlast : j ≤ last)
    (hs : TrendAt width bars ranges i s)
    (hs' : TrendAt width bars ranges j s') :
    ¬ Before rising s'.line s.line := by
  induction j, hle using Nat.le_induction generalizing s' with
  | base =>
      rw [hs.unique hs']
      exact Before.irrefl
  | succ j hle ih =>
      obtain ⟨r, hr, -⟩ :=
        hrun j (hfirst.le.trans hle) (Nat.le_of_succ_le hlast)
      have hstep := hrun.not_before_line_succ (hfirst.trans_le hle) hlast hr hs'
      intro hback
      -- What lies behind the first line lies behind the line of bar `j` too, or
      -- that line does.
      rcases hback.before_or_before (le_refl r.line) with hlater | hearlier
      · exact hstep hlater
      · exact ih (Nat.le_of_succ_le hlast) hr hearlier

end IsTrendRun

/-- From the second bar of a run on, the line is on its side of the close, and
it moves with the trend only.  At every bar but the first the trend turns
exactly where the close is beyond the band that the trend holds, and a band
moves away from the price only if the close before was beyond it. -/
theorem superTrend_ratchets (bars : List (Bar ℝ)) (period : ℕ)
    (width : Factor ℝ) :
    let ranges := (atr period).points bars
    (∀ i x, ((superTrend period width).points bars)[i]? = some (some x) ↔
      ∃ s, TrendAt width bars ranges i s ∧ s.line = x) ∧
    (∀ rising first last, IsTrendRun width bars ranges rising first last →
      (∀ i s b,
          first < i →
          i ≤ last →
          TrendAt width bars ranges i s →
          bars[i]? = some b →
          (rising = true → s.line ≤ b.close) ∧
            (rising = false → b.close ≤ s.line)) ∧
        ∀ i j s s',
          first < i →
          i ≤ j →
          j ≤ last →
          TrendAt width bars ranges i s →
          TrendAt width bars ranges j s' →
          (rising = true → s.line ≤ s'.line) ∧
            (rising = false → s'.line ≤ s.line)) ∧
    ∀ i s', TrendAt width bars ranges (i + 1) s' →
      (∀ j ≤ i, ∀ s, ¬ TrendAt width bars ranges j s) ∨
      ∃ s previous b, TrendAt width bars ranges i s ∧
        bars[i]? = some previous ∧ bars[i + 1]? = some b ∧
        (s.rising = true → (s'.rising = false ↔ b.close < s'.lower)) ∧
        (s.rising = false → (s'.rising = true ↔ s'.upper < b.close)) ∧
        (s.upper < s'.upper → s.upper < previous.close) ∧
        (s'.lower < s.lower → previous.close < s.lower) := by
  intro ranges
  have hpoints : (superTrend period width).points bars =
      superTrendPoints width bars ranges :=
    points_of_ofOne rfl bars
  refine ⟨?_, ?_, ?_⟩
  · intro i x
    rw [hpoints]
    exact superTrendPoints_getElem?_iff
  · intro rising first last hrun
    constructor
    · intro i s b hfirst hlast hs hb
      exact not_before_iff.mp (hrun.not_before_line hfirst hlast hs hb)
    · intro i j s s' hfirst hle hlast hs hs'
      exact not_before_iff.mp
        (hrun.not_before_line_of_le hfirst hle hlast hs hs')
  · intro i s' hs'
    obtain ⟨n, hn⟩ : ∃ n, DefinedFrom n ranges := by
      rw [show ranges = atrPoints period bars from points_of_ofBars rfl bars]
      exact Window.exists_definedFrom_wilder period (trueRanges bars)
    refine (hs'.first_or_exists_before hn).imp_right ?_
    rintro ⟨s, hs⟩
    obtain ⟨previous, b, range, hprevious, hb, rfl⟩ := hs.exists_next hs'
    have hturn := TrendState.rising_next_iff width.value s previous b range
    refine ⟨s, previous, b, hs, hprevious, hb, ?_, ?_, ?_, ?_⟩
    · intro hrising
      rwa [hrising] at hturn
    · intro hrising
      rwa [hrising] at hturn
    · exact TrendState.before_close_of_before_band false
    · exact TrendState.before_close_of_before_band true

noncomputable def risenThenCollapsed : List (Bar ℝ) :=
  [wholeBarOn { year := 2024, month := 9, day := 2 } 11 9 10,
    wholeBarOn { year := 2024, month := 9, day := 3 } 13 11 12,
    wholeBarOn { year := 2024, month := 9, day := 4 } 15 13 14,
    wholeBarOn { year := 2024, month := 9, day := 5 } 8 6 7]

theorem atr_points_risenThenCollapsed :
    (atr 1).points risenThenCollapsed = [some 2, some 3, some 3, some 8] := by
  rw [points_of_ofBars rfl]
  simp only [atrPoints, trueRanges, withLag, risenThenCollapsed, wholeBarOn,
    barOn, Bar.trueRange, Scalar.real_larger, Window.wilder, Window.smoothed,
    Window.Smoother.initial, Scalar.real_zero, Scalar.real_one]
  norm_num [Window.Smoother.step]

theorem superTrendTrace_risenThenCollapsed :
    superTrendTrace ⟨1, false⟩ risenThenCollapsed
        ((atr 1).points risenThenCollapsed) =
      [some ⟨12, 8, true⟩, some ⟨12, 9, true⟩, some ⟨12, 11, true⟩,
        some ⟨15, 11, false⟩] := by
  rw [atr_points_risenThenCollapsed]
  norm_num [superTrendTrace, withLag, risenThenCollapsed, wholeBarOn, barOn,
    Bar.medianPrice, TrendState.step, TrendState.initial, TrendState.next]

/-- Three bars of a rising trend, of which the second and the third hold the
lower band while it rises.  The close of the third is beyond the upper band,
which gives way, and the fourth falls below the lower one. -/
theorem superTrend_ratchets_collapse :
    let ranges := (atr 1).points risenThenCollapsed
    IsTrendRun ⟨1, false⟩ risenThenCollapsed ranges true 0 2 ∧
        (9 : ℝ) ≤ 12 ∧
        (9 : ℝ) ≤ 11 ∧
        TrendAt ⟨1, false⟩ risenThenCollapsed ranges 3 ⟨15, 11, false⟩ ∧
        (7 : ℝ) < 11 ∧
        (12 : ℝ) < 14 := by
  intro ranges
  have hstate (i : ℕ) (s : TrendState ℝ) :
      TrendAt ⟨1, false⟩ risenThenCollapsed ranges i s ↔
        ([some ⟨12, 8, true⟩, some ⟨12, 9, true⟩, some ⟨12, 11, true⟩,
          some ⟨15, 11, false⟩] : List (Option (TrendState ℝ)))[i]? =
          some (some s) := by
    rw [TrendAt, superTrendTrace_risenThenCollapsed]
  have hrun : IsTrendRun ⟨1, false⟩ risenThenCollapsed ranges true 0 2 := by
    intro i _ hi
    interval_cases i
    · exact ⟨_, (hstate 0 _).mpr rfl, rfl⟩
    · exact ⟨_, (hstate 1 _).mpr rfl, rfl⟩
    · exact ⟨_, (hstate 2 _).mpr rfl, rfl⟩
  obtain ⟨-, hruns, hsteps⟩ :=
    superTrend_ratchets risenThenCollapsed 1 ⟨1, false⟩
  obtain ⟨hside, hline⟩ := hruns true 0 2 hrun
  have hsecond := (hstate 1 _).mpr rfl
  have hthird := (hstate 2 _).mpr rfl
  have hfourth := (hstate 3 _).mpr rfl
  refine ⟨hrun, ?_, ?_, hfourth, ?_⟩
  · exact (hside 1 _ _ (by decide) (by decide) hsecond rfl).1 rfl
  · exact (hline 1 2 _ _ (by decide) (by decide) le_rfl hsecond hthird).1 rfl
  · obtain hfirst | ⟨s, previous, b, hs, hprevious, hb, hturn, -, hupper, -⟩ :=
      hsteps 2 _ hfourth
    · exact absurd hthird (hfirst 2 le_rfl _)
    · obtain rfl := hs.unique hthird
      cases hprevious
      cases hb
      exact ⟨(hturn rfl).mp rfl, hupper (by norm_num)⟩

end Indicator
end RuleBacktest
