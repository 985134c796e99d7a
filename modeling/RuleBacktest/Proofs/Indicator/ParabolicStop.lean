import RuleBacktest.Proofs.Indicator.Points
import RuleBacktest.Proofs.Indicator.StopTrend

/-!
# The parabolic stop in exact arithmetic

Over the real numbers a rising trend keeps the highest high since it began, and
its speed is given by the number of bars that set a new one; a falling trend
does the same with the lows.  A trend turns exactly where a bar crosses the
stop, which then starts from the extreme of the trend that has ended.
-/

namespace RuleBacktest
namespace Indicator

open Scalar

/-! ## Numbers of the state -/

namespace StopState

theorem real_initialSpeed : (initialSpeed : ℝ) = 0.02 := by
  norm_num [initialSpeed, OfScientific.ofScientific, ofDecimal]

theorem real_highestSpeed : (highestSpeed : ℝ) = 0.2 := by
  norm_num [highestSpeed, OfScientific.ofScientific, ofDecimal]

theorem real_faster (speed : ℝ) : faster speed = min (speed + 0.02) 0.2 := by
  rw [faster, real_smaller, real_initialSpeed, real_highestSpeed, real_add]

/-- The speed grows by equal steps until it is at its highest. -/
theorem real_iterate_faster (n : ℕ) :
    faster^[n] (initialSpeed : ℝ) = min (0.2 : ℝ) (0.02 * (1 + n)) := by
  induction n with
  | zero => norm_num [real_initialSpeed]
  | succ n ih =>
      have hstep : (0.02 : ℝ) * (1 + n) + 0.02 = 0.02 * (1 + (n + 1 : ℕ)) := by
        push_cast
        ring
      have hhighest : min (0.2 : ℝ) (0.2 + 0.02) = 0.2 := by norm_num
      rw [Function.iterate_succ_apply', ih, real_faster, ← min_add_add_right,
        hstep, min_comm, ← min_assoc, hhighest]

theorem real_advanced_rising {s : StopState ℝ}
    (hs : s.rising = true)
    (previous earlier : Bar ℝ) :
    s.advanced previous earlier =
      min (min (s.stop + s.speed * (s.extreme - s.stop)) previous.low)
        earlier.low := by
  simp [advanced, hs, real_smaller]

theorem real_advanced_falling {s : StopState ℝ}
    (hs : s.rising = false)
    (previous earlier : Bar ℝ) :
    s.advanced previous earlier =
      max (max (s.stop + s.speed * (s.extreme - s.stop)) previous.high)
        earlier.high := by
  simp [advanced, hs, real_larger]

end StopState

section Real

variable {bars : List (Bar ℝ)} {xs : List ℝ} {x : ℝ} {i t : ℕ}
  {s s' : StopState ℝ}

theorem isExtreme_true_iff :
    IsExtreme true xs x ↔ IsGreatest {y | y ∈ xs} x := by
  constructor
  · exact fun h => ⟨h.mem, fun y hy => not_lt.mp (h.not_before y hy)⟩
  · exact fun h => ⟨h.1, fun y hy => not_lt.mpr (h.2 hy)⟩

theorem isExtreme_false_iff :
    IsExtreme false xs x ↔ IsLeast {y | y ∈ xs} x := by
  constructor
  · exact fun h => ⟨h.mem, fun y hy => not_lt.mp (h.not_before y hy)⟩
  · exact fun h => ⟨h.1, fun y hy => not_lt.mpr (h.2 hy)⟩

theorem Trend.of_rising
    (h : Trend bars i t s)
    (hs : s.rising = true) :
    IsGreatest {x | x ∈ highs (between t i bars)} s.extreme ∧
      s.speed =
        min (0.2 : ℝ)
          (0.02 * (1 + (records true (highs (between t i bars))).ncard)) := by
  obtain ⟨-, hextreme, hspeed⟩ := h
  rw [hs] at hextreme hspeed
  exact ⟨isExtreme_true_iff.mp hextreme,
    hspeed.trans (StopState.real_iterate_faster _)⟩

theorem Trend.of_falling
    (h : Trend bars i t s)
    (hs : s.rising = false) :
    IsLeast {x | x ∈ lows (between t i bars)} s.extreme ∧
      s.speed =
        min (0.2 : ℝ)
          (0.02 * (1 + (records false (lows (between t i bars))).ncard)) := by
  obtain ⟨-, hextreme, hspeed⟩ := h
  rw [hs] at hextreme hspeed
  exact ⟨isExtreme_false_iff.mp hextreme,
    hspeed.trans (StopState.real_iterate_faster _)⟩

variable {earlier previous b : Bar ℝ}

theorem StopState.Follows.of_rising
    (hfollows : s.Follows (s.advanced previous earlier) b s')
    (htrend : Trend bars i t s)
    (hs : s.rising = true) :
    ∃ stop,
      stop =
        min (min (s.stop + s.speed * (s.extreme - s.stop)) previous.low)
          earlier.low ∧
      (s'.rising = false ↔ b.low < stop) ∧
      (s'.rising = false →
        IsGreatest {x | x ∈ highs (between t i bars)} s'.stop) ∧
      (s'.rising = true →
        s'.stop = stop ∧
          s'.stop ≤ b.low ∧
          s'.stop ≤ previous.low ∧
          s'.stop ≤ earlier.low) := by
  have hturn := hfollows.rising_eq_not_iff
  have hstop := hfollows.stop_of_turn
  have hhold := hfollows.stop_of_hold
  have hwithin := hfollows.not_before_stop
  rw [hs] at hturn hstop hhold hwithin
  refine ⟨_, StopState.real_advanced_rising hs previous earlier, hturn, ?_, ?_⟩
  · intro hfalling
    rw [hstop hfalling]
    exact (htrend.of_rising hs).1
  · intro hrising
    have hbelow : ∀ c ∈ [earlier, previous, b], s'.stop ≤ c.low :=
      fun c hc => not_lt.mp (hwithin hrising c hc)
    exact ⟨hhold hrising, hbelow b (by simp), hbelow previous (by simp),
      hbelow earlier (by simp)⟩

theorem StopState.Follows.of_falling
    (hfollows : s.Follows (s.advanced previous earlier) b s')
    (htrend : Trend bars i t s)
    (hs : s.rising = false) :
    ∃ stop,
      stop =
        max (max (s.stop + s.speed * (s.extreme - s.stop)) previous.high)
          earlier.high ∧
      (s'.rising = true ↔ stop < b.high) ∧
      (s'.rising = true → IsLeast {x | x ∈ lows (between t i bars)} s'.stop) ∧
      (s'.rising = false →
        s'.stop = stop ∧
          b.high ≤ s'.stop ∧
          previous.high ≤ s'.stop ∧
          earlier.high ≤ s'.stop) := by
  have hturn := hfollows.rising_eq_not_iff
  have hstop := hfollows.stop_of_turn
  have hhold := hfollows.stop_of_hold
  have hwithin := hfollows.not_before_stop
  rw [hs] at hturn hstop hhold hwithin
  refine ⟨_, StopState.real_advanced_falling hs previous earlier, hturn, ?_, ?_⟩
  · intro hrising
    rw [hstop hrising]
    exact (htrend.of_falling hs).1
  · intro hfalling
    have habove : ∀ c ∈ [earlier, previous, b], c.high ≤ s'.stop :=
      fun c hc => not_lt.mp (hwithin hfalling c hc)
    exact ⟨hhold hfalling, habove b (by simp), habove previous (by simp),
      habove earlier (by simp)⟩

end Real

/-- From the second bar on, the state speaks of the bars since its trend began:
the extreme is the greatest high or the least low of these, and the speed counts
those that were a new one.  From one bar to the next, the trend turns exactly
where the bar goes beyond the stop as it has moved, and the stop is then the
extreme of the trend up to the bar before; otherwise it passes none of the last
three bars. -/
theorem parabolicStop_follows_trend (bars : List (Bar ℝ)) :
    (∀ i,
        1 ≤ i →
        i < bars.length →
        ∃ s t,
          StopAt bars i s ∧
          (parabolicStop.points bars)[i]? = some (some s.stop) ∧
          IsTrendStart bars i t ∧
          (s.rising = true →
            IsGreatest {x | x ∈ highs (between t i bars)} s.extreme ∧
              s.speed =
                min (0.2 : ℝ)
                  (0.02 *
                    (1 + (records true (highs (between t i bars))).ncard))) ∧
          (s.rising = false →
            IsLeast {x | x ∈ lows (between t i bars)} s.extreme ∧
              s.speed =
                min (0.2 : ℝ)
                  (0.02 *
                    (1 + (records false (lows (between t i bars))).ncard)))) ∧
      ∀ (i t : ℕ) (s s' : StopState ℝ) (earlier previous b : Bar ℝ),
        bars[i]? = some earlier →
        bars[i + 1]? = some previous →
        bars[i + 2]? = some b →
        StopAt bars (i + 1) s →
        IsTrendStart bars (i + 1) t →
        StopAt bars (i + 2) s' →
        (s.rising = true →
            ∃ stop,
              stop =
                min (min (s.stop + s.speed * (s.extreme - s.stop)) previous.low)
                  earlier.low ∧
              (s'.rising = false ↔ b.low < stop) ∧
              (s'.rising = false →
                IsGreatest {x | x ∈ highs (between t (i + 1) bars)} s'.stop) ∧
              (s'.rising = true →
                s'.stop = stop ∧
                  s'.stop ≤ b.low ∧
                  s'.stop ≤ previous.low ∧
                  s'.stop ≤ earlier.low)) ∧
          (s.rising = false →
            ∃ stop,
              stop =
                max
                  (max (s.stop + s.speed * (s.extreme - s.stop)) previous.high)
                  earlier.high ∧
              (s'.rising = true ↔ stop < b.high) ∧
              (s'.rising = true →
                IsLeast {x | x ∈ lows (between t (i + 1) bars)} s'.stop) ∧
              (s'.rising = false →
                s'.stop = stop ∧
                  b.high ≤ s'.stop ∧
                  previous.high ≤ s'.stop ∧
                  earlier.high ≤ s'.stop)) := by
  have hnumbers : HasNumbers bars := fun _ _ _ => le_rfl
  constructor
  · intro i hpos hi
    obtain ⟨k, rfl⟩ := Nat.exists_eq_add_of_le' hpos
    obtain ⟨s, t, hs, htrend⟩ := exists_trend hi hnumbers
    refine ⟨s, t, hs, ?_, htrend.isTrendStart, htrend.of_rising,
      htrend.of_falling⟩
    rw [points_of_ofBars rfl]
    exact hs.point
  · intro i t s s' earlier previous b hearlier hprevious hb hs ht hs'
    obtain ⟨r, t', hr, htrend⟩ :=
      exists_trend (List.getElem?_eq_some_iff.mp hprevious).1 hnumbers
    obtain rfl := hr.unique hs
    obtain rfl := htrend.isTrendStart.unique ht
    have hfollows := hs.follows hearlier hprevious hb hs'
    exact ⟨hfollows.of_rising htrend, hfollows.of_falling htrend⟩

def barOn {α : Type} (date : Calendar.Date) (high low close : α) : Bar α :=
  ⟨⟨date, .midnight⟩, close, high, low, close, none⟩

/-- A bar with whole prices. -/
noncomputable def wholeBarOn (date : Calendar.Date) (high low close : ℕ) :
    Bar ℝ :=
  barOn date high low close

noncomputable def risenThenFallen : List (Bar ℝ) :=
  [barOn { year := 2024, month := 7, day := 1 } 11 9 10,
    barOn { year := 2024, month := 7, day := 2 } 12 10 11,
    barOn { year := 2024, month := 7, day := 3 } 13 11 12,
    barOn { year := 2024, month := 7, day := 4 } 12 8 9]

theorem stopAt_risen : StopAt risenThenFallen 2 ⟨true, 9, 13, 0.04⟩ := by
  have hstart : StopAt risenThenFallen 1 _ := stopAt_one rfl rfl
  have hstate := stopAt_next hstart rfl rfl rfl
  norm_num [StopState.initial, barOn, StopState.real_initialSpeed,
    StopState.next, StopState.real_advanced_rising,
    StopState.real_faster] at hstate ⊢
  exact hstate

theorem stopAt_fallen : StopAt risenThenFallen 3 ⟨false, 13, 8, 0.02⟩ := by
  have hstate := stopAt_next stopAt_risen rfl rfl rfl
  norm_num [barOn, StopState.real_initialSpeed, StopState.next,
    StopState.real_advanced_rising, StopState.real_faster] at hstate ⊢
  exact hstate

/-- The third bar sets a new high, which doubles the speed; the fourth falls
below the stop. -/
theorem parabolicStop_follows_trend_turn :
    StopAt risenThenFallen 2 ⟨true, 9, 13, 0.04⟩ ∧
      StopAt risenThenFallen 3 ⟨false, 13, 8, 0.02⟩ ∧
      (0.04 : ℝ) =
        min (0.2 : ℝ) (0.02 * (1 + (records true [12, (13 : ℝ)]).ncard)) ∧
      IsGreatest {x | x ∈ [12, (13 : ℝ)]} 13 := by
  obtain ⟨hstates, hsteps⟩ := parabolicStop_follows_trend risenThenFallen
  have hstart : IsTrendStart risenThenFallen 2 1 := by
    refine (isTrendStart_one _).succ ?_
    rw [turnsAt_iff (stopAt_one rfl rfl) stopAt_risen]
    norm_num [StopState.initial, barOn]
  obtain ⟨s, t, hs, -, ht, hrising, -⟩ := hstates 2 (by decide) (by decide)
  obtain rfl := hs.unique stopAt_risen
  obtain rfl := ht.unique hstart
  obtain ⟨_, -, -, hgreatest, -⟩ :=
    (hsteps 1 1 _ _ _ _ _ rfl rfl rfl stopAt_risen hstart stopAt_fallen).1 rfl
  exact ⟨stopAt_risen, stopAt_fallen, (hrising rfl).2, hgreatest rfl⟩

end Indicator
end RuleBacktest
