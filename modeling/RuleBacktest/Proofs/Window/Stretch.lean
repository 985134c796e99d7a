import Mathlib.Data.List.DropRight
import Mathlib.Data.List.ReduceOption
import RuleBacktest.Proofs.Causality.Sweep

/-!
# Windows over a source with gaps

The values since the last gap form the stretch at hand.  A window that ends at a
place of the source is full when none of its entries is missing, and then it is
the end of the stretch at that place.  What is computed on every stretch by
itself depends, at each place, on the stretch at hand alone.
-/

namespace RuleBacktest

variable {σ ι ο : Type}

/-! ## The state of a sweep -/

/-- The state in which a sweep leaves the elements that it has gone through. -/
def stateAfter (step : σ → ι → σ × ο) (start : σ) (xs : List ι) : σ :=
  xs.foldl (fun s x => (step s x).1) start

@[simp] theorem stateAfter_nil (step : σ → ι → σ × ο) (start : σ) :
    stateAfter step start [] = start :=
  rfl

@[simp] theorem stateAfter_concat (step : σ → ι → σ × ο) (start : σ)
    (xs : List ι) (x : ι) :
    stateAfter step start (xs ++ [x]) =
      (step (stateAfter step start xs) x).1 := by
  simp [stateAfter]

theorem sweep_getElem? (step : σ → ι → σ × ο) (start : σ) (xs : List ι)
    (i : Nat) :
    (sweep step start xs)[i]? =
      xs[i]?.map fun x => (step (stateAfter step start (xs.take i)) x).2 := by
  induction xs generalizing start i with
  | nil => rfl
  | cons x xs ih =>
      cases i with
      | zero => rfl
      | succ i =>
          rw [sweep_cons, List.getElem?_cons_succ, ih]
          rfl

theorem sweep_getElem?_of_read {step : σ → ι → σ × ο} {read : σ → ο}
    (hread : ∀ s x, (step s x).2 = read (step s x).1)
    (start : σ) (xs : List ι) (i : Nat) :
    (sweep step start xs)[i]? =
      xs[i]?.map fun _ => read (stateAfter step start (xs.take (i + 1))) := by
  rw [sweep_getElem?]
  cases hx : xs[i]? with
  | none => rfl
  | some x =>
      rw [Option.map_some, Option.map_some, hread, List.take_add_one, hx,
        Option.toList_some, stateAfter_concat]

/-! ## The stretch at hand -/

/-- The values since the last gap. -/
def lastStretch (source : List (Option ι)) : List ι :=
  (source.rtakeWhile Option.isSome).reduceOption

@[simp] theorem lastStretch_nil : lastStretch ([] : List (Option ι)) = [] :=
  rfl

@[simp] theorem lastStretch_concat_none (source : List (Option ι)) :
    lastStretch (source ++ [none]) = [] := by
  rw [lastStretch, List.rtakeWhile_concat_neg _ _ _ (by simp),
    List.reduceOption_nil]

@[simp] theorem lastStretch_concat_some (source : List (Option ι)) (x : ι) :
    lastStretch (source ++ [some x]) = lastStretch source ++ [x] := by
  rw [lastStretch, List.rtakeWhile_concat_pos _ _ _ (by simp),
    List.reduceOption_append]
  rfl

/-- Only the end of the stretch at hand is made of present values at the end of
a source. -/
theorem map_some_suffix_iff (source : List (Option ι)) (w : List ι) :
    w.map some <:+ source ↔ w <:+ lastStretch source := by
  induction source using List.reverseRecOn generalizing w with
  | nil => simp
  | append_singleton source v ih =>
      cases w using List.reverseRecOn with
      | nil => simp
      | append_singleton w y =>
          cases v with
          | none =>
              simp [List.suffix_concat_iff]
          | some x =>
              simp [List.suffix_concat_iff, ih]

theorem map_some_lastStretch_suffix (source : List (Option ι)) :
    (lastStretch source).map some <:+ source :=
  (map_some_suffix_iff source _).mpr (List.suffix_refl _)

theorem length_lastStretch_le (source : List (Option ι)) :
    (lastStretch source).length ≤ source.length := by
  simpa using (map_some_lastStretch_suffix source).length_le

/-- A source is its stretch at hand, with a gap before it if anything is before
it. -/
theorem eq_lastStretch_or_gap_before (source : List (Option ι)) :
    source = (lastStretch source).map some ∨
      ∃ before, source = before ++ none :: (lastStretch source).map some := by
  induction source using List.reverseRecOn with
  | nil => exact Or.inl rfl
  | append_singleton source v ih =>
      cases v with
      | none =>
          refine Or.inr ⟨source, ?_⟩
          rw [lastStretch_concat_none, List.map_nil]
      | some x =>
          rw [lastStretch_concat_some, List.map_append, List.map_singleton]
          cases ih with
          | inl hall => exact Or.inl (congrArg (· ++ [some x]) hall)
          | inr hgap =>
              obtain ⟨before, hbefore⟩ := hgap
              refine Or.inr ⟨before, ?_⟩
              rw [← List.cons_append, ← List.append_assoc, ← hbefore]

/-! ## What is computed on every stretch -/

theorem acrossGapsFrom_map_some (f : List ι → List (Option ο))
    (stretch xs : List ι) :
    acrossGapsFrom f stretch (xs.map some) = f (stretch.reverse ++ xs) := by
  induction xs generalizing stretch with
  | nil => simp [acrossGapsFrom]
  | cons x xs ih => simp [acrossGapsFrom, ih]

theorem acrossGaps_map_some (f : List ι → List (Option ο)) (xs : List ι) :
    acrossGaps f (xs.map some) = f xs :=
  acrossGapsFrom_map_some f [] xs

theorem acrossGapsFrom_append_gap (f : List ι → List (Option ο))
    (stretch : List ι) (before after : List (Option ι)) :
    acrossGapsFrom f stretch (before ++ none :: after) =
      acrossGapsFrom f stretch before ++ none :: acrossGaps f after := by
  induction before generalizing stretch with
  | nil => rfl
  | cons v before ih =>
      cases v with
      | none => simp [acrossGapsFrom, ih]
      | some x => simp [acrossGapsFrom, ih]

theorem acrossGaps_append_gap (f : List ι → List (Option ο))
    (before after : List (Option ι)) :
    acrossGaps f (before ++ none :: after) =
      acrossGaps f before ++ none :: acrossGaps f after :=
  acrossGapsFrom_append_gap f [] before after

theorem acrossGaps_getElem?_last {f : List ι → List (Option ο)}
    (hf : Causal f)
    {source : List (Option ι)} {i : Nat}
    (hlength : source.length = i + 1) :
    (acrossGaps f source)[i]? =
      (none :: f (lastStretch source))[(lastStretch source).length]? := by
  cases eq_lastStretch_or_gap_before source with
  | inl hall =>
      have hpoints : acrossGaps f source = f (lastStretch source) := by
        rw [← acrossGaps_map_some f (lastStretch source), ← hall]
      have hstretch := congrArg List.length hall
      rw [List.length_map, hlength] at hstretch
      rw [hpoints, ← hstretch, List.getElem?_cons_succ]
  | inr hgap =>
      obtain ⟨before, hbefore⟩ := hgap
      have hpoints : acrossGaps f source =
          acrossGaps f before ++ none :: f (lastStretch source) := by
        rw [← acrossGaps_map_some f (lastStretch source),
          ← acrossGaps_append_gap, ← hbefore]
      have hplace := congrArg List.length hbefore
      rw [hlength, List.length_append, List.length_cons,
        List.length_map] at hplace
      rw [hpoints,
        List.getElem?_append_right (by rw [hf.acrossGaps.length_eq]; omega),
        hf.acrossGaps.length_eq]
      congr 1
      omega

/-- The point at a place is the last one on the stretch at hand, and nothing on
a gap. -/
theorem acrossGaps_getElem? {f : List ι → List (Option ο)}
    (hf : Causal f)
    {source : List (Option ι)} {i : Nat}
    (hi : i < source.length) :
    (acrossGaps f source)[i]? =
      (none :: f (lastStretch (source.take (i + 1))))[(lastStretch
        (source.take (i + 1))).length]? := by
  rw [← acrossGaps_getElem?_last hf (List.length_take_of_le hi),
    hf.acrossGaps.take_eq, List.getElem?_take_of_lt (Nat.lt_succ_self i)]

/-! ## Full windows -/

/-- The last `period` entries up to place `i` exist, none of them is missing,
and their values are `w`, the oldest first. -/
structure FullWindow (period i : Nat) (source : List (Option ι)) (w : List ι) :
    Prop where
  length_eq : w.length = period
  fits : period ≤ i + 1
  present : ∀ k (hk : k < w.length),
    source[i + 1 - period + k]? = some (some w[k])

section FullWindow

variable {source : List (Option ι)} {w : List ι} {period i : Nat}

theorem FullWindow.lt_length
    (h : FullWindow period i source w)
    (hperiod : 0 < period) :
    i < source.length := by
  have hlast := h.present (period - 1) (by rw [h.length_eq]; omega)
  have hplace : i + 1 - period + (period - 1) = i := by
    have hfits := h.fits
    omega
  rw [hplace] at hlast
  exact (List.getElem?_eq_some_iff.mp hlast).1

theorem fullWindow_iff_suffix (hi : i < source.length) :
    FullWindow period i source w ↔
      w.length = period ∧ w.map some <:+ source.take (i + 1) := by
  have hlength : (source.take (i + 1)).length = i + 1 :=
    List.length_take_of_le hi
  constructor
  · intro h
    have hwindow : w.map some =
        (source.take (i + 1)).drop (i + 1 - period) := by
      ext1 k
      rw [List.getElem?_map, List.getElem?_drop, List.getElem?_take]
      by_cases hk : k < w.length
      · have hbefore : i + 1 - period + k < i + 1 := by
          have hfits := h.fits
          have hwidth := h.length_eq
          omega
        rw [if_pos hbefore, h.present k hk, List.getElem?_eq_getElem hk,
          Option.map_some]
      · have hbeyond : ¬ i + 1 - period + k < i + 1 := by
          have hfits := h.fits
          have hwidth := h.length_eq
          omega
        rw [if_neg hbeyond, List.getElem?_eq_none (Nat.le_of_not_lt hk),
          Option.map_none]
    refine ⟨h.length_eq, ?_⟩
    rw [hwindow]
    exact List.drop_suffix _ _
  · intro h
    have hfits : period ≤ i + 1 := by
      rw [← h.1, ← hlength, ← List.length_map (f := some)]
      exact h.2.length_le
    have hwindow := List.suffix_iff_eq_drop.mp h.2
    rw [hlength, List.length_map, h.1] at hwindow
    refine ⟨h.1, hfits, ?_⟩
    intro k hk
    have hentry := congrArg (fun entries => entries[k]?) hwindow
    have hbefore : i + 1 - period + k < i + 1 := by
      have hwidth := h.1
      omega
    simp only [List.getElem?_map, List.getElem?_eq_getElem hk,
      List.getElem?_drop, List.getElem?_take_of_lt hbefore] at hentry
    exact hentry.symm

/-- A window is full when the stretch at hand is long enough, and then it is the
end of it. -/
theorem fullWindow_iff (hi : i < source.length) :
    FullWindow period i source w ↔
      period ≤ (lastStretch (source.take (i + 1))).length ∧
        w = (lastStretch (source.take (i + 1))).rtake period := by
  rw [fullWindow_iff_suffix hi, map_some_suffix_iff]
  constructor
  · intro h
    have hlength := h.2.length_le
    have hdrop := List.suffix_iff_eq_drop.mp h.2
    rw [h.1] at hlength hdrop
    exact ⟨hlength, hdrop⟩
  · intro h
    rw [h.2, List.rtake]
    refine ⟨?_, List.drop_suffix _ _⟩
    rw [List.length_drop]
    omega

end FullWindow

end RuleBacktest
