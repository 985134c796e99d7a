import Mathlib.Data.Set.Card
import RuleBacktest.Indicator.Reversal
import RuleBacktest.Proofs.Causality.Sweep
import RuleBacktest.Proofs.Scalar.Ordered

/-!
# Trends of the parabolic stop

The stop remembers three numbers, and these speak of all bars since its trend
began: the extreme is the furthest price of the trend so far, and the speed
counts how often a bar set a new one.  A bar either turns the trend, or sets a
new extreme, or does neither.
-/

namespace RuleBacktest

open Scalar

variable {α : Type} [Scalar α]

/-- The price of a bar that lies furthest in the direction. -/
def Bar.leading (rising : Bool) (b : Bar α) : α :=
  match rising with
  | true => b.high
  | false => b.low

namespace Indicator

variable {bars : List (Bar α)} {earlier previous b : Bar α} {s : StopState α}
  {rising : Bool} {i t : ℕ} {xs : List α} {x : α}

/-! ## What a bar can do -/

namespace StopState

theorem advanced_eq (s : StopState α) (previous earlier : Bar α) :
    s.advanced previous earlier =
      firstMet s.rising
        (firstMet s.rising (s.stop + s.speed * (s.extreme - s.stop))
          (previous.leading !s.rising)) (earlier.leading !s.rising) := by
  unfold advanced
  cases s.rising <;> rfl

section Clamped

variable [LawfulComparison α]

theorem not_before_advanced_earlier :
    ¬ Before s.rising (earlier.leading !s.rising)
      (s.advanced previous earlier) := by
  rw [advanced_eq]
  exact not_before_firstMet_right

theorem not_before_advanced_previous :
    ¬ Before s.rising (previous.leading !s.rising)
      (s.advanced previous earlier) := by
  rw [advanced_eq]
  intro hbefore
  -- The second clamp does not undo the first.
  rcases hbefore.before_or_before
    (firstMet_le_self hbefore.le_self.1) with hfirst | hsecond
  · exact not_before_firstMet_right hfirst
  · exact not_before_firstMet_left hsecond

end Clamped

/-- What can follow when the stop has moved to `stop`. -/
inductive Follows (s : StopState α) (stop : α) (b : Bar α) : StopState α → Prop
  | turn (hcrossed : Before s.rising (b.leading !s.rising) stop) :
      Follows s stop b ⟨!s.rising, s.extreme, b.leading !s.rising, initialSpeed⟩
  | extend (hheld : ¬ Before s.rising (b.leading !s.rising) stop)
      (hnew : Before s.rising s.extreme (b.leading s.rising)) :
      Follows s stop b ⟨s.rising, stop, b.leading s.rising, faster s.speed⟩
  | keep (hheld : ¬ Before s.rising (b.leading !s.rising) stop)
      (hwithin : ¬ Before s.rising s.extreme (b.leading s.rising)) :
      Follows s stop b ⟨s.rising, stop, s.extreme, s.speed⟩

theorem next_eq (s : StopState α) (earlier previous b : Bar α) :
    s.next earlier previous b =
      if Before s.rising (b.leading !s.rising)
          (s.advanced previous earlier) then
        ⟨!s.rising, s.extreme, b.leading !s.rising, initialSpeed⟩
      else if Before s.rising s.extreme (b.leading s.rising) then
        ⟨s.rising, s.advanced previous earlier, b.leading s.rising,
          faster s.speed⟩
      else ⟨s.rising, s.advanced previous earlier, s.extreme, s.speed⟩ := by
  obtain ⟨rising, stop, extreme, speed⟩ := s
  cases rising <;> rfl

theorem follows_next (s : StopState α) (earlier previous b : Bar α) :
    Follows s (s.advanced previous earlier) b (s.next earlier previous b) := by
  rw [next_eq]
  split_ifs with hcrossed hnew
  · exact .turn hcrossed
  · exact .extend hcrossed hnew
  · exact .keep hcrossed hnew

namespace Follows

variable {s s' : StopState α} {stop : α} {b : Bar α}

theorem rising_eq_not_iff (h : Follows s stop b s') :
    s'.rising = !s.rising ↔ Before s.rising (b.leading !s.rising) stop := by
  cases h with
  | turn hcrossed => exact iff_of_true rfl hcrossed
  | extend hheld _ => exact iff_of_false (by simp) hheld
  | keep hheld _ => exact iff_of_false (by simp) hheld

theorem stop_of_turn
    (h : Follows s stop b s')
    (hturn : s'.rising = !s.rising) :
    s'.stop = s.extreme := by
  cases h with
  | turn _ => rfl
  | extend _ _ => simp at hturn
  | keep _ _ => simp at hturn

theorem stop_of_hold
    (h : Follows s stop b s')
    (hhold : s'.rising = s.rising) :
    s'.stop = stop := by
  cases h with
  | turn _ => simp at hhold
  | extend _ _ => rfl
  | keep _ _ => rfl

theorem not_before_stop [LawfulComparison α]
    (h : Follows s (s.advanced previous earlier) b s')
    (hhold : s'.rising = s.rising) :
    ∀ c ∈ [earlier, previous, b],
      ¬ Before s.rising (c.leading !s.rising) s'.stop := by
  have hheld : ¬ Before s.rising (b.leading !s.rising)
      (s.advanced previous earlier) := by
    rw [← h.rising_eq_not_iff, hhold]
    simp
  simp only [List.mem_cons, List.not_mem_nil, or_false]
  rw [h.stop_of_hold hhold]
  rintro c (rfl | rfl | rfl)
  · exact not_before_advanced_earlier
  · exact not_before_advanced_previous
  · exact hheld

end Follows

theorem initial_eq (first second : Bar α) :
    ∃ rising, initial first second =
      ⟨rising, first.leading !rising, second.leading rising, initialSpeed⟩ := by
  unfold initial
  split_ifs
  · exact ⟨true, rfl⟩
  · exact ⟨false, rfl⟩

end StopState

/-! ## The state at a place -/

/-- The state after the bar at place `i`. -/
def StopAt (bars : List (Bar α)) (i : ℕ) (s : StopState α) : Prop :=
  (parabolicStopTrace bars)[i]? = some (some s)

instance : Decidable (StopAt bars i s) :=
  inferInstanceAs (Decidable (_ = _))

theorem StopAt.unique {s' : StopState α}
    (hs : StopAt bars i s)
    (hs' : StopAt bars i s') :
    s = s' := by
  have hsame : some (some s) = some (some s') := hs.symm.trans hs'
  rwa [Option.some.injEq, Option.some.injEq] at hsame

theorem StopAt.point (hs : StopAt bars i s) :
    (parabolicStopPoints bars)[i]? = some (some s.stop) := by
  rw [parabolicStopPoints, List.getElem?_map, hs]
  rfl

theorem stopAt_one {first second : Bar α}
    (hfirst : bars[0]? = some first)
    (hsecond : bars[1]? = some second) :
    StopAt bars 1 (.initial first second) := by
  match bars with
  | c :: d :: rest =>
      cases hfirst
      cases hsecond
      rfl

theorem walk_getElem? {state : StopState α} {e p : Bar α} {rest : List (Bar α)}
    (hs : (some state :: sweep StopWalk.step ⟨state, e, p⟩ rest)[i]? =
      some (some s))
    (hearlier : (e :: p :: rest)[i]? = some earlier)
    (hprevious : (p :: rest)[i]? = some previous)
    (hb : rest[i]? = some b) :
    (sweep StopWalk.step ⟨state, e, p⟩ rest)[i]? =
      some (some (s.next earlier previous b)) := by
  -- The walk goes on with the two bars before the rest of the list, so these
  -- vary with it.
  induction rest generalizing i state e p with
  | nil => cases hb
  | cons c rest ih =>
      cases i with
      | zero =>
          cases hs
          cases hearlier
          cases hprevious
          cases hb
          rfl
      | succ i => exact ih hs hearlier hprevious hb

theorem stopAt_next
    (hs : StopAt bars (i + 1) s)
    (hearlier : bars[i]? = some earlier)
    (hprevious : bars[i + 1]? = some previous)
    (hb : bars[i + 2]? = some b) :
    StopAt bars (i + 2) (s.next earlier previous b) := by
  match bars with
  | first :: second :: rest => exact walk_getElem? hs hearlier hprevious hb

theorem StopAt.follows {s' : StopState α}
    (hs : StopAt bars (i + 1) s)
    (hearlier : bars[i]? = some earlier)
    (hprevious : bars[i + 1]? = some previous)
    (hb : bars[i + 2]? = some b)
    (hs' : StopAt bars (i + 2) s') :
    s.Follows (s.advanced previous earlier) b s' := by
  rw [hs'.unique (stopAt_next hs hearlier hprevious hb)]
  exact s.follows_next earlier previous b

/-! ## Stretches of bars -/

/-- The bars from place `first` to place `last`. -/
def between (first last : ℕ) (bars : List (Bar α)) : List (Bar α) :=
  (bars.take (last + 1)).drop first

omit [Scalar α] in
theorem between_concat
    (hb : bars[i]? = some b)
    (ht : t ≤ i) :
    between t i bars = (bars.take i).drop t ++ [b] := by
  have hi : i < bars.length := (List.getElem?_eq_some_iff.mp hb).1
  have hlength : t ≤ (bars.take i).length := by
    rw [List.length_take]
    omega
  rw [between, List.take_add_one, hb, Option.toList_some,
    List.drop_append_of_le_length hlength]

omit [Scalar α] in
theorem between_self (hb : bars[i]? = some b) : between i i bars = [b] := by
  rw [between_concat hb le_rfl,
    List.drop_eq_nil_of_le (List.length_take_le i bars), List.nil_append]

omit [Scalar α] in
theorem between_succ
    (hb : bars[i + 1]? = some b)
    (ht : t ≤ i) :
    between t (i + 1) bars = between t i bars ++ [b] := by
  have hstart : t ≤ i + 1 := ht.trans i.le_succ
  rw [between_concat hb hstart, between]

/-- All highs and lows are numbers. -/
def HasNumbers (bars : List (Bar α)) : Prop :=
  ∀ b ∈ bars, ∀ rising, b.leading rising ≤ b.leading rising

theorem HasNumbers.le_self (h : HasNumbers bars) (rising : Bool) :
    ∀ x ∈ (between t i bars).map (Bar.leading rising), x ≤ x := by
  intro x hx
  obtain ⟨b, hb, rfl⟩ := List.mem_map.mp hx
  exact h b (List.mem_of_mem_take (List.mem_of_mem_drop hb)) rising

/-! ## Extremes -/

/-- A member that no member lies beyond. -/
structure IsExtreme (rising : Bool) (xs : List α) (x : α) : Prop where
  mem : x ∈ xs
  not_before : ∀ y ∈ xs, ¬ Before rising x y

/-- The places behind the first at which a value lies beyond all values before
it. -/
def records (rising : Bool) (xs : List α) : Set ℕ :=
  {j | 0 < j ∧ ∃ x, xs[j]? = some x ∧ ∀ y ∈ xs.take j, Before rising y x}

theorem records_subset (rising : Bool) (xs : List α) :
    records rising xs ⊆ Set.Iio xs.length := by
  rintro j ⟨-, x, hx, -⟩
  exact (List.getElem?_eq_some_iff.mp hx).1

theorem records_singleton (rising : Bool) (x : α) : records rising [x] = ∅ := by
  rw [Set.eq_empty_iff_forall_notMem]
  intro j hj
  have hlt : j < 1 := records_subset rising [x] hj
  have hpos := hj.1
  omega

theorem mem_records_concat_of_lt {j : ℕ} (hj : j < xs.length) :
    j ∈ records rising (xs ++ [x]) ↔ j ∈ records rising xs := by
  simp only [records, Set.mem_ofPred_eq, List.getElem?_append_left hj,
    List.take_append_of_le_length hj.le]

theorem length_mem_records_concat (hxs : xs ≠ []) :
    xs.length ∈ records rising (xs ++ [x]) ↔ ∀ y ∈ xs, Before rising y x := by
  simp [records, List.length_pos_iff.mpr hxs]

theorem lt_or_eq_of_mem_records_concat {j : ℕ}
    (hj : j ∈ records rising (xs ++ [x])) :
    j < xs.length ∨ j = xs.length := by
  have hlt : j < (xs ++ [x]).length := records_subset rising _ hj
  rw [List.length_append, List.length_singleton] at hlt
  omega

theorem ncard_records_concat_of_beyond
    (hxs : xs ≠ [])
    (hbeyond : ∀ y ∈ xs, Before rising y x) :
    (records rising (xs ++ [x])).ncard = (records rising xs).ncard + 1 := by
  have hinsert : records rising (xs ++ [x]) =
      insert xs.length (records rising xs) := by
    ext j
    constructor
    · intro hj
      rcases lt_or_eq_of_mem_records_concat hj with hlt | rfl
      · exact Or.inr ((mem_records_concat_of_lt hlt).mp hj)
      · exact Set.mem_insert _ _
    · rintro (rfl | hj)
      · exact (length_mem_records_concat hxs).mpr hbeyond
      · exact (mem_records_concat_of_lt (records_subset _ _ hj)).mpr hj
  rw [hinsert]
  exact Set.ncard_insert_of_notMem
    (fun hmem => (Set.mem_Iio.mp (records_subset _ _ hmem)).false)
    ((Set.finite_Iio _).subset (records_subset _ _))

theorem records_concat_of_not_beyond
    (hxs : xs ≠ [])
    (hbeyond : ¬ ∀ y ∈ xs, Before rising y x) :
    records rising (xs ++ [x]) = records rising xs := by
  ext j
  constructor
  · intro hj
    rcases lt_or_eq_of_mem_records_concat hj with hlt | rfl
    · exact (mem_records_concat_of_lt hlt).mp hj
    · exact absurd ((length_mem_records_concat hxs).mp hj) hbeyond
  · exact fun hj => (mem_records_concat_of_lt (records_subset _ _ hj)).mpr hj

namespace IsExtreme

variable {y : α}

theorem ne_nil (h : IsExtreme rising xs x) : xs ≠ [] :=
  List.ne_nil_of_mem h.mem

theorem concat_of_not_before
    (h : IsExtreme rising xs x)
    (hwithin : ¬ Before rising x y) :
    IsExtreme rising (xs ++ [y]) x where
  mem := List.mem_append_left _ h.mem
  not_before := by
    intro z hz
    rcases List.mem_append.mp hz with hold | hnew
    · exact h.not_before z hold
    · rwa [List.mem_singleton.mp hnew]

variable [LawfulComparison α]

theorem singleton (rising : Bool) (x : α) : IsExtreme rising [x] x where
  mem := List.mem_singleton_self x
  not_before := by simpa using Before.irrefl

theorem before_iff
    (h : IsExtreme rising xs x)
    (hxs : ∀ z ∈ xs, z ≤ z) :
    Before rising x y ↔ ∀ z ∈ xs, Before rising z y := by
  constructor
  · intro hbefore z hz
    exact (hbefore.before_or_before (hxs z hz)).resolve_left (h.not_before z hz)
  · exact fun hall => hall x h.mem

theorem concat_of_before
    (h : IsExtreme rising xs x)
    (hbefore : Before rising x y) :
    IsExtreme rising (xs ++ [y]) y where
  mem := List.mem_concat_self
  not_before := by
    intro z hz
    rcases List.mem_append.mp hz with hold | hnew
    · exact fun hbeyond => h.not_before z hold (hbefore.trans hbeyond)
    · rw [List.mem_singleton.mp hnew]
      exact Before.irrefl

end IsExtreme

/-! ## Trends -/

/-- The trend after the bar at place `i` is not the one before it. -/
def TurnsAt (bars : List (Bar α)) (i : ℕ) : Prop :=
  ∃ s s', StopAt bars (i - 1) s ∧ StopAt bars i s' ∧ s.rising ≠ s'.rising

/-- The trend at place `i` began at place `t`: with the second bar, or where it
last turned. -/
def IsTrendStart (bars : List (Bar α)) (i t : ℕ) : Prop :=
  IsGreatest {j | 1 ≤ j ∧ j ≤ i ∧ (j = 1 ∨ TurnsAt bars j)} t

theorem isTrendStart_self
    (hi : 1 ≤ i)
    (hstart : i = 1 ∨ TurnsAt bars i) :
    IsTrendStart bars i i := by
  refine ⟨⟨hi, le_rfl, hstart⟩, ?_⟩
  rintro j ⟨-, hle, -⟩
  exact hle

theorem isTrendStart_one (bars : List (Bar α)) : IsTrendStart bars 1 1 :=
  isTrendStart_self le_rfl (Or.inl rfl)

theorem isTrendStart_of_turnsAt
    (hi : 1 ≤ i)
    (hturn : TurnsAt bars i) :
    IsTrendStart bars i i :=
  isTrendStart_self hi (Or.inr hturn)

theorem IsTrendStart.le (h : IsTrendStart bars i t) : t ≤ i :=
  h.1.2.1

theorem IsTrendStart.succ
    (h : IsTrendStart bars (i + 1) t)
    (hturn : ¬ TurnsAt bars (i + 2)) :
    IsTrendStart bars (i + 2) t := by
  refine ⟨⟨h.1.1, h.le.trans (Nat.le_succ _), h.1.2.2⟩, ?_⟩
  rintro j ⟨hpos, hle, hstart⟩
  rcases hle.lt_or_eq with hlt | rfl
  · exact h.2 ⟨hpos, Nat.le_of_lt_succ hlt, hstart⟩
  · rcases hstart with hone | hturned
    · omega
    · exact absurd hturned hturn

theorem turnsAt_iff {s' : StopState α}
    (hs : StopAt bars (i + 1) s)
    (hs' : StopAt bars (i + 2) s') :
    TurnsAt bars (i + 2) ↔ s.rising ≠ s'.rising := by
  constructor
  · rintro ⟨r, r', hr, hr', hturn⟩
    obtain rfl := hs.unique hr
    obtain rfl := hs'.unique hr'
    exact hturn
  · exact fun hturn => ⟨s, s', hs, hs', hturn⟩

/-- What the state at place `i` says of the bars since place `t`. -/
structure Trend (bars : List (Bar α)) (i t : ℕ) (s : StopState α) : Prop where
  isTrendStart : IsTrendStart bars i t
  extreme :
    IsExtreme s.rising ((between t i bars).map (Bar.leading s.rising)) s.extreme
  speed :
    s.speed =
      StopState.faster^[
        (records s.rising
          ((between t i bars).map (Bar.leading s.rising))).ncard]
        StopState.initialSpeed

namespace Trend

theorem keep
    (h : Trend bars (i + 1) t s)
    (hb : bars[i + 2]? = some b)
    (hgoesOn : ¬ TurnsAt bars (i + 2))
    (hwithin : ¬ Before s.rising s.extreme (b.leading s.rising))
    (stop : α) :
    Trend bars (i + 2) t ⟨s.rising, stop, s.extreme, s.speed⟩ where
  isTrendStart := h.isTrendStart.succ hgoesOn
  extreme := by
    rw [between_succ hb h.isTrendStart.le, List.map_append]
    exact h.extreme.concat_of_not_before hwithin
  speed := by
    have hbeyond : ¬ ∀ y ∈ (between t (i + 1) bars).map (Bar.leading s.rising),
        Before s.rising y (b.leading s.rising) :=
      fun hall => hwithin (hall s.extreme h.extreme.mem)
    rw [between_succ hb h.isTrendStart.le, List.map_append, List.map_singleton,
      records_concat_of_not_beyond h.extreme.ne_nil hbeyond, h.speed]

variable [LawfulComparison α]

theorem start
    (hb : bars[i]? = some b)
    (hstart : IsTrendStart bars i i)
    (rising : Bool) (stop : α) :
    Trend bars i i
      ⟨rising, stop, b.leading rising, StopState.initialSpeed⟩ where
  isTrendStart := hstart
  extreme := by
    rw [between_self hb]
    exact IsExtreme.singleton rising _
  speed := by
    rw [between_self hb, List.map_singleton, records_singleton, Set.ncard_empty]
    rfl

theorem turn
    (hb : bars[i + 2]? = some b)
    (hturn : TurnsAt bars (i + 2))
    (rising : Bool) (stop : α) :
    Trend bars (i + 2) (i + 2)
      ⟨rising, stop, b.leading rising, StopState.initialSpeed⟩ := by
  have hstart : IsTrendStart bars (i + 2) (i + 2) :=
    isTrendStart_of_turnsAt (by omega) hturn
  exact start hb hstart rising stop

theorem extend
    (h : Trend bars (i + 1) t s)
    (hb : bars[i + 2]? = some b)
    (hgoesOn : ¬ TurnsAt bars (i + 2))
    (hnumbers : HasNumbers bars)
    (hnew : Before s.rising s.extreme (b.leading s.rising))
    (stop : α) :
    Trend bars (i + 2) t
      ⟨s.rising, stop, b.leading s.rising, StopState.faster s.speed⟩ where
  isTrendStart := h.isTrendStart.succ hgoesOn
  extreme := by
    rw [between_succ hb h.isTrendStart.le, List.map_append]
    exact h.extreme.concat_of_before hnew
  speed := by
    have hbeyond := (h.extreme.before_iff (hnumbers.le_self s.rising)).mp hnew
    rw [between_succ hb h.isTrendStart.le, List.map_append, List.map_singleton,
      ncard_records_concat_of_beyond h.extreme.ne_nil hbeyond,
      Function.iterate_succ_apply', h.speed]

theorem next
    (h : Trend bars (i + 1) t s)
    (hs : StopAt bars (i + 1) s)
    (hearlier : bars[i]? = some earlier)
    (hprevious : bars[i + 1]? = some previous)
    (hb : bars[i + 2]? = some b)
    (hnumbers : HasNumbers bars) :
    ∃ t', Trend bars (i + 2) t' (s.next earlier previous b) := by
  have hs' := stopAt_next hs hearlier hprevious hb
  have hturns := turnsAt_iff hs hs'
  have hfollows := hs.follows hearlier hprevious hb hs'
  generalize s.next earlier previous b = s' at hturns hfollows
  cases hfollows with
  | turn hcrossed =>
      exact ⟨i + 2, turn hb (hturns.mpr (by simp)) (!s.rising) s.extreme⟩
  | extend hheld hnew =>
      exact ⟨t, h.extend hb (by simp [hturns]) hnumbers hnew _⟩
  | keep hheld hwithin => exact ⟨t, h.keep hb (by simp [hturns]) hwithin _⟩

end Trend

/-- From the second bar on there is a state, and a trend that it speaks of. -/
theorem exists_trend [LawfulComparison α]
    (hi : i + 1 < bars.length)
    (hnumbers : HasNumbers bars) :
    ∃ s t, StopAt bars (i + 1) s ∧ Trend bars (i + 1) t s := by
  induction i with
  | zero =>
      have hfirst : bars[0]? = some bars[0] := List.getElem?_eq_getElem _
      have hsecond : bars[1]? = some bars[1] := List.getElem?_eq_getElem hi
      obtain ⟨rising, hinitial⟩ := StopState.initial_eq bars[0] bars[1]
      refine ⟨_, 1, stopAt_one hfirst hsecond, ?_⟩
      rw [hinitial]
      exact Trend.start hsecond (isTrendStart_one bars) rising _
  | succ i ih =>
      obtain ⟨s, t, hs, htrend⟩ := ih (by omega)
      have hearlier : bars[i]? = some bars[i] := List.getElem?_eq_getElem _
      have hprevious : bars[i + 1]? = some bars[i + 1] :=
        List.getElem?_eq_getElem _
      have hb : bars[i + 2]? = some bars[i + 2] := List.getElem?_eq_getElem hi
      obtain ⟨t', htrend'⟩ := htrend.next hs hearlier hprevious hb hnumbers
      exact ⟨_, t', stopAt_next hs hearlier hprevious hb, htrend'⟩

end Indicator
end RuleBacktest
