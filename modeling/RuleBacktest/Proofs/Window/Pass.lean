import RuleBacktest.Proofs.Window.Stretch

/-!
# Windows that are carried along

A pass carries a window along in one state: a value enters, the value that
leaves is taken back out of the state, and the point is read off what is left.
If the state tells of the values in the window and each step keeps it that way,
every point is what the full window that ends there gives.

The same pass can be made in place, in one loop over a source with gaps.  It
sets the state back at a gap and looks for the value that leaves in the whole
source.  It finds the same values, since as many values have come since the last
gap as the window is wide.
-/

namespace RuleBacktest

variable {σ ι ο : Type}

theorem withLag_concat {lag : Nat} (hlag : 0 < lag) (xs : List ι) (x : ι) :
    withLag lag (xs ++ [x]) =
      withLag lag xs ++
        [(x, if lag ≤ xs.length then xs[xs.length - lag]? else none)] := by
  have hpaired : (withLag lag (xs ++ [x]))[xs.length]? =
      some (x, if lag ≤ xs.length then xs[xs.length - lag]? else none) := by
    rw [withLag_getElem?, List.getElem?_concat_length, Option.map_some]
    by_cases hfull : lag ≤ xs.length
    · rw [if_pos hfull, if_pos hfull, List.getElem?_append_left (by omega)]
    · rw [if_neg hfull, if_neg hfull]
  have hbefore : (withLag lag (xs ++ [x])).take xs.length = withLag lag xs := by
    rw [← (Causal.withLag lag).take_eq, List.take_left]
  have hall := List.take_add_one (i := xs.length) (l := withLag lag (xs ++ [x]))
  rwa [hpaired, hbefore, List.take_of_length_le (by simp)] at hall

/-! ## Passes -/

/-- A value enters together with the one `period` places before it, if there is
one. -/
structure WindowPass (σ ι ο : Type) where
  period : Nat
  start : σ
  step : σ → ι × Option ι → σ × Option ο
  /-- The number of values that have come. -/
  count : σ → Nat
  read : σ → Option ο
  period_pos : 0 < period
  count_start : count start = 0
  count_step : ∀ s entry, count (step s entry).1 = count s + 1
  snd_step : ∀ s entry, (step s entry).2 = read (step s entry).1
  read_of_lt : ∀ s, count s < period → read s = none

namespace WindowPass

variable (p : WindowPass σ ι ο)

/-- The points over values without a gap. -/
def onStretch (xs : List ι) : List (Option ο) :=
  sweep p.step p.start (withLag p.period xs)

def stateOn (xs : List ι) : σ :=
  stateAfter p.step p.start (withLag p.period xs)

@[simp] theorem stateOn_nil : p.stateOn [] = p.start := by
  simp [stateOn, withLag]

theorem stateOn_concat (xs : List ι) (x : ι) :
    p.stateOn (xs ++ [x]) =
      (p.step (p.stateOn xs)
        (x,
          if p.period ≤ xs.length then xs[xs.length - p.period]?
          else none)).1 := by
  rw [stateOn, withLag_concat p.period_pos, stateAfter_concat, stateOn]

theorem count_stateOn (xs : List ι) : p.count (p.stateOn xs) = xs.length := by
  induction xs using List.reverseRecOn with
  | nil => rw [stateOn_nil, p.count_start, List.length_nil]
  | append_singleton xs x ih =>
      rw [stateOn_concat, p.count_step, ih, List.length_append,
        List.length_singleton]

theorem read_start : p.read p.start = none := by
  apply p.read_of_lt
  rw [p.count_start]
  exact p.period_pos

theorem causal_onStretch : Causal p.onStretch :=
  (Causal.sweep _ _).comp (Causal.withLag p.period)

theorem onStretch_getElem? (xs : List ι) (i : Nat) :
    (p.onStretch xs)[i]? =
      xs[i]?.map fun _ => p.read (p.stateOn (xs.take (i + 1))) := by
  rw [onStretch, sweep_getElem?_of_read p.snd_step, withLag_getElem?, stateOn,
    (Causal.withLag p.period).take_eq, Option.map_map]
  rfl

theorem acrossGaps_getElem? {source : List (Option ι)} {i : Nat}
    (hi : i < source.length) :
    (acrossGaps p.onStretch source)[i]? =
      some (p.read (p.stateOn (lastStretch (source.take (i + 1))))) := by
  rw [RuleBacktest.acrossGaps_getElem? p.causal_onStretch hi]
  cases hstretch : (lastStretch (source.take (i + 1))).length with
  | zero =>
      rw [List.length_eq_zero_iff.mp hstretch, stateOn_nil, read_start]
      rfl
  | succ n =>
      rw [List.getElem?_cons_succ, onStretch_getElem?,
        List.take_of_length_le hstretch.le, List.getElem?_eq_getElem (by omega)]
      rfl

/-! ## The same pass in place -/

/-- A gap sets the state back.  A value that leaves is looked for in the whole
source, and would be taken for `blank` if it were missing there. -/
def inPlaceStep (blank : ι) (s : σ) (entry : Option ι × Option (Option ι)) :
    σ × Option ο :=
  match entry.1 with
  | none => (p.start, none)
  | some x =>
      p.step s
        (x,
          if p.period ≤ p.count s then some (entry.2.join.getD blank) else none)

def inPlace (blank : ι) (source : List (Option ι)) : List (Option ο) :=
  sweep (p.inPlaceStep blank) p.start (withLag p.period source)

def stateInPlace (blank : ι) (source : List (Option ι)) : σ :=
  stateAfter (p.inPlaceStep blank) p.start (withLag p.period source)

theorem snd_inPlaceStep (blank : ι) (s : σ)
    (entry : Option ι × Option (Option ι)) :
    (p.inPlaceStep blank s entry).2 =
      p.read (p.inPlaceStep blank s entry).1 := by
  cases hentry : entry.1 with
  | none => simp [inPlaceStep, hentry, read_start]
  | some x => simp [inPlaceStep, hentry, p.snd_step]

/-- While `lag` values have come since the last gap, the one `lag` places back
is among them. -/
theorem getElem?_of_le_lastStretch {lag : Nat} {source : List (Option ι)}
    (hlag : 0 < lag)
    (hfull : lag ≤ (lastStretch source).length) :
    source[source.length - lag]? =
      some (lastStretch source)[(lastStretch source).length - lag]? := by
  have hplace : (lastStretch source).length - lag <
      (lastStretch source).length := by omega
  have hentry :=
    (List.suffix_iff_getElem?.mp (map_some_lastStretch_suffix source)).2
      ((lastStretch source).length - lag) (by simpa using hplace)
  have hlength := length_lastStretch_le source
  rw [List.getElem_map] at hentry
  rw [List.getElem?_eq_getElem hplace, ← hentry, List.length_map]
  congr 1
  omega

theorem stateInPlace_eq (blank : ι) (source : List (Option ι)) :
    p.stateInPlace blank source = p.stateOn (lastStretch source) := by
  induction source using List.reverseRecOn with
  | nil => rw [lastStretch_nil, stateOn_nil]; rfl
  | append_singleton source v ih =>
      rw [stateInPlace, withLag_concat p.period_pos, stateAfter_concat,
        ← stateInPlace, ih]
      cases v with
      | none => rw [lastStretch_concat_none, stateOn_nil]; rfl
      | some x =>
          rw [lastStretch_concat_some, stateOn_concat, inPlaceStep]
          simp only [count_stateOn]
          by_cases hfull : p.period ≤ (lastStretch source).length
          · have hsource := hfull.trans (length_lastStretch_le source)
            have hplace : (lastStretch source).length - p.period <
                (lastStretch source).length := by
              have hpos := p.period_pos
              omega
            rw [if_pos hfull, if_pos hfull, if_pos hsource,
              getElem?_of_le_lastStretch p.period_pos hfull,
              List.getElem?_eq_getElem hplace]
            rfl
          · rw [if_neg hfull, if_neg hfull]

/-- In place the points are those of every stretch by itself, whatever a missing
value is taken for. -/
theorem inPlace_eq_acrossGaps (blank : ι) (source : List (Option ι)) :
    p.inPlace blank source = acrossGaps p.onStretch source := by
  ext1 i
  by_cases hi : i < source.length
  · rw [p.acrossGaps_getElem? hi, inPlace,
      sweep_getElem?_of_read (p.snd_inPlaceStep blank), withLag_getElem?,
      ← (Causal.withLag p.period).take_eq, ← stateInPlace, stateInPlace_eq,
      List.getElem?_eq_getElem hi]
    rfl
  · have hbeyond := Nat.le_of_not_lt hi
    rw [List.getElem?_eq_none (by simpa [inPlace] using hbeyond),
      List.getElem?_eq_none (by rwa [p.causal_onStretch.acrossGaps.length_eq])]

/-- The value that leaves is never a missing one. -/
theorem exists_leaving (blank : ι) {source : List (Option ι)} {i : Nat}
    (hi : i ≤ source.length)
    (hfull : p.period ≤ p.count (p.stateInPlace blank (source.take i))) :
    ∃ old, source[i - p.period]? = some (some old) := by
  rw [stateInPlace_eq, count_stateOn] at hfull
  have hpos := p.period_pos
  have hfits := hfull.trans (length_lastStretch_le _)
  have hplace : (lastStretch (source.take i)).length - p.period <
      (lastStretch (source.take i)).length := by omega
  have hleaving := getElem?_of_le_lastStretch hpos hfull
  rw [List.length_take_of_le hi] at hfits hleaving
  rw [List.getElem?_take_of_lt (by omega),
    List.getElem?_eq_getElem hplace] at hleaving
  exact ⟨_, hleaving⟩

/-! ## What the state tells of the window -/

/-- The state of the pass tells of the values in the window in the way of
`Holds`, while the window fills up and while it slides. -/
structure Tracks (Holds : List ι → σ → Prop) : Prop where
  start : Holds [] p.start
  grow : ∀ w s x, w.length < p.period → p.count s = w.length → Holds w s →
    Holds (w ++ [x]) (p.step s (x, none)).1
  slide : ∀ old w s x, w.length + 1 = p.period → Holds (old :: w) s →
    Holds (w ++ [x]) (p.step s (x, some old)).1

namespace Tracks

variable {p} {Holds : List ι → σ → Prop}

theorem stateOn (h : p.Tracks Holds) (xs : List ι) :
    Holds (xs.rtake p.period) (p.stateOn xs) := by
  induction xs using List.reverseRecOn with
  | nil => simpa using h.start
  | append_singleton xs x ih =>
      rw [stateOn_concat]
      by_cases hfull : p.period ≤ xs.length
      · have hplace : xs.length - p.period < xs.length := by
          have hpos := p.period_pos
          omega
        have hnext : xs.length - p.period + 1 = xs.length - (p.period - 1) := by
          have hpos := p.period_pos
          omega
        have hold : xs.rtake p.period =
            xs[xs.length - p.period] :: xs.rtake (p.period - 1) := by
          rw [List.rtake, List.drop_eq_getElem_cons hplace, hnext, List.rtake]
        have hwidth : (xs.rtake (p.period - 1)).length + 1 = p.period := by
          have hpos := p.period_pos
          rw [List.rtake, List.length_drop]
          omega
        rw [if_pos hfull, List.getElem?_eq_getElem hplace]
        rw [hold] at ih
        have hwindow : (xs ++ [x]).rtake p.period =
            xs.rtake (p.period - 1) ++ [x] := by
          rw [← List.rtake_concat_succ, Nat.sub_add_cancel p.period_pos]
        rw [hwindow]
        exact h.slide _ _ _ x hwidth ih
      · have hall (ys : List ι) (hys : ys.length ≤ p.period) :
            ys.rtake p.period = ys := by
          rw [List.rtake, Nat.sub_eq_zero_of_le hys, List.drop_zero]
        rw [if_neg hfull, hall _ (by simp; omega)]
        rw [hall _ (by omega)] at ih
        exact h.grow _ _ x (by omega) (p.count_stateOn xs) ih

variable {Gives : List ι → ο → Prop}

/-- A point is what the full window gives that ends at its place. -/
theorem point_iff (h : p.Tracks Holds)
    (hread : ∀ w s y, w.length = p.period → p.period ≤ p.count s → Holds w s →
      (p.read s = some y ↔ Gives w y))
    (source : List (Option ι)) (i : Nat) (y : ο) :
    (acrossGaps p.onStretch source)[i]? = some (some y) ↔
      ∃ w, FullWindow p.period i source w ∧ Gives w y := by
  constructor
  · intro hpoint
    have hi := p.causal_onStretch.acrossGaps.lt_length hpoint
    rw [p.acrossGaps_getElem? hi, Option.some.injEq] at hpoint
    have hfull : p.period ≤ (lastStretch (source.take (i + 1))).length := by
      by_contra hfew
      rw [p.read_of_lt _ (by rw [count_stateOn]; omega)] at hpoint
      cases hpoint
    have hwindow := (fullWindow_iff hi).mpr ⟨hfull, rfl⟩
    refine ⟨_, hwindow, ?_⟩
    exact (hread _ _ y hwindow.length_eq (by rwa [count_stateOn])
        (h.stateOn _)).mp hpoint
  · rintro ⟨w, hwindow, hgives⟩
    have hi := hwindow.lt_length p.period_pos
    obtain ⟨hfull, rfl⟩ := (fullWindow_iff hi).mp hwindow
    rw [p.acrossGaps_getElem? hi]
    exact congrArg some ((hread _ _ y hwindow.length_eq (by rwa [count_stateOn])
        (h.stateOn _)).mpr hgives)

/-- Where every full window gives a value, there is a point at the end of each
of them and nowhere else. -/
theorem exists_point_iff (h : p.Tracks Holds) {value : List ι → ο}
    (hread : ∀ w s, w.length = p.period → p.period ≤ p.count s → Holds w s →
      p.read s = some (value w))
    (source : List (Option ι)) (i : Nat) :
    ((∃ y, (acrossGaps p.onStretch source)[i]? = some (some y)) ↔
        ∃ w, FullWindow p.period i source w) ∧
      ∀ w, FullWindow p.period i source w →
        (acrossGaps p.onStretch source)[i]? = some (some (value w)) := by
  have hgives (w : List ι) (s : σ) (y : ο) (hwidth : w.length = p.period)
      (hcount : p.period ≤ p.count s) (hs : Holds w s) :
      p.read s = some y ↔ y = value w := by
    rw [hread w s hwidth hcount hs, Option.some.injEq, eq_comm]
  have hpoint := h.point_iff hgives source i
  constructor
  · constructor
    · rintro ⟨y, hy⟩
      obtain ⟨w, hw, -⟩ := (hpoint y).mp hy
      exact ⟨w, hw⟩
    · rintro ⟨w, hw⟩
      exact ⟨value w, (hpoint _).mpr ⟨w, hw, rfl⟩⟩
  · intro w hw
    exact (hpoint _).mpr ⟨w, hw, rfl⟩

end Tracks

end WindowPass

end RuleBacktest
