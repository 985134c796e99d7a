import RuleBacktest.Proofs.Indicator.ParabolicStop

/-!
# The side of the parabolic stop

A rising trend has its stop below the bar and a falling one above it, with one
exception.  A bar that turns the trend puts the stop at the extreme of the trend
that it ends; where this bar itself goes beyond every bar of that trend, the
stop lies within it.
-/

namespace RuleBacktest
namespace Indicator

open Scalar

section Side

variable {α : Type} [Scalar α] [LawfulComparison α] {bars : List (Bar α)}
  {earlier previous b : Bar α} {s s' : StopState α} {i t : ℕ}

theorem not_before_of_low_le_high (h : b.low ≤ b.high) (rising : Bool) :
    ¬ Before rising (b.leading rising) (b.leading !rising) := by
  obtain ⟨-, -, hordered⟩ := LawfulComparison.le_iff.mp h
  cases rising <;> exact hordered

theorem hasNumbers_of_low_le_high (hbars : ∀ b ∈ bars, b.low ≤ b.high) :
    HasNumbers bars := by
  intro b hb rising
  obtain ⟨hlow, hhigh, -⟩ := LawfulComparison.le_iff.mp (hbars b hb)
  cases rising with
  | true => exact hhigh
  | false => exact hlow

omit [LawfulComparison α] in
theorem Trend.extreme_le_self
    (h : Trend bars i t s)
    (hnumbers : HasNumbers bars) :
    s.extreme ≤ s.extreme :=
  hnumbers.le_self s.rising s.extreme h.extreme.mem

namespace StopState.Follows

variable (hfollows : Follows s (s.advanced previous earlier) b s')
  (htrend : Trend bars (i + 1) t s)
include hfollows htrend

omit [LawfulComparison α] in
theorem stop_le_self
    (hnumbers : HasNumbers bars)
    (hearlier : bars[i]? = some earlier) :
    s'.stop ≤ s'.stop := by
  rcases Bool.eq_or_eq_not s'.rising s.rising with hhold | hturn
  · rw [hfollows.stop_of_hold hhold, advanced_eq]
    exact firstMet_le_self (hnumbers earlier (List.mem_of_getElem? hearlier) _)
  · rw [hfollows.stop_of_turn hturn]
    exact htrend.extreme_le_self hnumbers

/-- The stop is on the far side of the bar exactly where the bar both turns the
trend and goes beyond all of it. -/
theorem before_stop_iff (hnumbers : HasNumbers bars) :
    Before s'.rising (b.leading !s'.rising) s'.stop ↔
      s'.rising = !s.rising ∧
        ∀ c ∈ between t (i + 1) bars,
          Before s.rising (c.leading s.rising) (b.leading s.rising) := by
  rcases Bool.eq_or_eq_not s'.rising s.rising with hhold | hturn
  · have hwithin := hfollows.not_before_stop hhold b (by simp)
    rw [hhold]
    exact iff_of_false hwithin (by simp)
  · rw [hturn, Bool.not_not, before_not, hfollows.stop_of_turn hturn,
      htrend.extreme.before_iff (hnumbers.le_self s.rising)]
    simp

variable (hbars : ∀ c ∈ bars, c.low ≤ c.high)
include hbars

/-- A stop on the far side of the bar is within the bar, since the bar that
turned the trend fell back behind the extreme of that trend. -/
theorem stop_before (hprevious : bars[i + 1]? = some previous)
    (hfar : Before s'.rising (b.leading !s'.rising) s'.stop) :
    Before s'.rising s'.stop (b.leading s'.rising) := by
  have hnumbers := hasNumbers_of_low_le_high hbars
  have hturn := ((hfollows.before_stop_iff htrend hnumbers).mp hfar).1
  have hcrossed := hfollows.rising_eq_not_iff.mp hturn
  have hnumber := hnumbers previous (List.mem_of_getElem? hprevious)
  have hordered :=
    not_before_of_low_le_high (hbars previous (List.mem_of_getElem? hprevious))
      s.rising
  have hreached : ¬ Before s.rising s.extreme (previous.leading s.rising) := by
    refine htrend.extreme.not_before _ (List.mem_map_of_mem ?_)
    rw [between_concat hprevious htrend.isTrendStart.le]
    exact List.mem_concat_self
  rw [hturn, hfollows.stop_of_turn hturn, before_not]
  refine (hcrossed.before_or_before
      (htrend.extreme_le_self hnumbers)).resolve_right ?_
  intro hbeyond
  -- From the extreme to the stop the way would lead past both prices of the bar
  -- before.
  rcases hbeyond.before_or_before (hnumber !s.rising) with htrailing | hstop
  · rcases htrailing.before_or_before (hnumber s.rising) with hleading | hbar
    · exact hreached hleading
    · exact hordered hbar
  · exact not_before_advanced_previous hstop

variable (hearlier : bars[i]? = some earlier)
  (hprevious : bars[i + 1]? = some previous) (hb : bars[i + 2]? = some b)
include hearlier hprevious hb

theorem side_of_rising (hrising : s'.rising = true) :
    (s'.stop ≤ b.low ↔
        ¬ (s.rising = false ∧ ∀ c ∈ between t (i + 1) bars, b.low < c.low)) ∧
      (¬ s'.stop ≤ b.low → b.low < s'.stop ∧ s'.stop < b.high) := by
  have hnumbers := hasNumbers_of_low_le_high hbars
  have hlow : b.low ≤ b.low := hnumbers b (List.mem_of_getElem? hb) false
  have hfar := hfollows.before_stop_iff htrend hnumbers
  have hwithin := hfollows.stop_before htrend hbars hprevious
  rw [hrising] at hfar hwithin
  rw [le_iff_not_lt (hfollows.stop_le_self htrend hnumbers hearlier) hlow,
    not_not]
  constructor
  · refine not_congr (hfar.trans ?_)
    cases s.rising with
    | true => simp
    | false => exact and_congr_left' (by simp)
  · exact fun hinside => ⟨hinside, hwithin hinside⟩

theorem side_of_falling (hfalling : s'.rising = false) :
    (b.high ≤ s'.stop ↔
        ¬ (s.rising = true ∧ ∀ c ∈ between t (i + 1) bars, c.high < b.high)) ∧
      (¬ b.high ≤ s'.stop → b.low < s'.stop ∧ s'.stop < b.high) := by
  have hnumbers := hasNumbers_of_low_le_high hbars
  have hhigh : b.high ≤ b.high := hnumbers b (List.mem_of_getElem? hb) true
  have hfar := hfollows.before_stop_iff htrend hnumbers
  have hwithin := hfollows.stop_before htrend hbars hprevious
  rw [hfalling] at hfar hwithin
  rw [le_iff_not_lt hhigh (hfollows.stop_le_self htrend hnumbers hearlier),
    not_not]
  constructor
  · refine not_congr (hfar.trans ?_)
    cases s.rising with
    | true => exact and_congr_left' (by simp)
    | false => simp
  · exact fun hinside => ⟨hwithin hinside, hinside⟩

end StopState.Follows

end Side

/-- Where no low is above its high, a rising trend has its stop at most at the
low of the bar and a falling one at least at its high, unless the bar turned the
trend and went beyond every bar of the trend that it ended.  Then the stop lies
strictly within the bar. -/
theorem parabolicStop_outside_bar (bars : List (Bar Float))
    (hbars : ∀ b ∈ bars, b.low ≤ b.high)
    {i : ℕ} {b : Bar Float}
    (hb : bars[i + 2]? = some b) :
    ∃ s s' t,
      StopAt bars (i + 1) s ∧
      StopAt bars (i + 2) s' ∧
      (parabolicStop.points bars)[i + 2]? = some (some s'.stop) ∧
      IsTrendStart bars (i + 1) t ∧
      (s'.rising = true →
        (s'.stop ≤ b.low ↔
            ¬ (s.rising = false ∧
                ∀ c ∈ between t (i + 1) bars, b.low < c.low)) ∧
          (¬ s'.stop ≤ b.low → b.low < s'.stop ∧ s'.stop < b.high)) ∧
      (s'.rising = false →
        (b.high ≤ s'.stop ↔
            ¬ (s.rising = true ∧
                ∀ c ∈ between t (i + 1) bars, c.high < b.high)) ∧
          (¬ b.high ≤ s'.stop → b.low < s'.stop ∧ s'.stop < b.high)) := by
  have hlength := (List.getElem?_eq_some_iff.mp hb).1
  have hearlier : bars[i]? = some bars[i] := List.getElem?_eq_getElem _
  have hprevious : bars[i + 1]? = some bars[i + 1] := List.getElem?_eq_getElem _
  obtain ⟨s, t, hs, htrend⟩ :=
    exists_trend (show i + 1 < bars.length by omega)
      (hasNumbers_of_low_le_high hbars)
  have hs' := stopAt_next hs hearlier hprevious hb
  have hfollows := hs.follows hearlier hprevious hb hs'
  refine ⟨s, _, t, hs, hs', ?_, htrend.isTrendStart,
    hfollows.side_of_rising htrend hbars hearlier hprevious hb,
    hfollows.side_of_falling htrend hbars hearlier hprevious hb⟩
  rw [points_of_ofBars rfl]
  exact hs'.point

/-- The third bar rises above both bars of the trend and falls below the
stop. -/
def engulfed : List (Bar Float) :=
  [barOn { year := 2024, month := 8, day := 1 } 11 9 10,
    barOn { year := 2024, month := 8, day := 2 } 12 10 11,
    barOn { year := 2024, month := 8, day := 5 } 13 5 6,
    barOn { year := 2024, month := 8, day := 6 } 9 4 5]

theorem low_le_high_engulfed : ∀ b ∈ engulfed, b.low ≤ b.high := by
  decide +kernel

theorem stopAt_engulfed :
    StopAt engulfed 2 ⟨false, 12, 5, 0.02⟩ ∧
      StopAt engulfed 3 ⟨false, 13, 4, 0.04⟩ := by
  decide +kernel

theorem parabolicStop_outside_bar_engulfed :
    (∀ b ∈ engulfed, b.low ≤ b.high) ∧
      StopAt engulfed 2 ⟨false, 12, 5, 0.02⟩ ∧
      (5 < (12 : Float) ∧ (12 : Float) < 13) ∧
      StopAt engulfed 3 ⟨false, 13, 4, 0.04⟩ ∧
      9 ≤ (13 : Float) := by
  obtain ⟨hsecond, hthird⟩ := stopAt_engulfed
  refine ⟨low_le_high_engulfed, hsecond, ?_, hthird, ?_⟩
  · obtain ⟨s, s', t, -, hs', -, -, -, hfalling⟩ :=
      parabolicStop_outside_bar engulfed low_le_high_engulfed (i := 0) rfl
    obtain rfl := hs'.unique hsecond
    exact (hfalling rfl).2 (by decide +kernel)
  · obtain ⟨s, s', t, hs, hs', -, -, -, hfalling⟩ :=
      parabolicStop_outside_bar engulfed low_le_high_engulfed (i := 1) rfl
    obtain rfl := hs.unique hsecond
    obtain rfl := hs'.unique hthird
    exact (hfalling rfl).1.mpr (by simp)

/-- The side is not kept at every bar. -/
theorem parabolicStop_within_turning_bar :
    ¬ ∀ (bars : List (Bar Float)), (∀ b ∈ bars, b.low ≤ b.high) →
      ∀ (i : ℕ) (b : Bar Float) (s : StopState Float) (x : Float),
        2 ≤ i →
        bars[i]? = some b →
        StopAt bars i s →
        (parabolicStop.points bars)[i]? = some (some x) →
        (s.rising = true → x ≤ b.low) ∧ (s.rising = false → b.high ≤ x) := by
  intro hside
  have hpoint : (parabolicStop.points engulfed)[2]? = some (some 12) := by
    rw [points_of_ofBars rfl]
    exact stopAt_engulfed.1.point
  obtain ⟨-, hfalling⟩ :=
    hside engulfed low_le_high_engulfed 2 _ _ _ le_rfl rfl
      stopAt_engulfed.1 hpoint
  exact absurd (hfalling rfl) (by decide +kernel)

end Indicator
end RuleBacktest
