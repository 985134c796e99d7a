import RuleBacktest.Proofs.Causality.Indicator
import RuleBacktest.Proofs.Window.Deviation
import RuleBacktest.Proofs.Window.Smoothing
import RuleBacktest.Proofs.Window.Sums

/-!
# Windows that start again behind a gap

In one loop over a source with gaps, a gap does not clear all that the loop
remembers.  A smoother loses its count and its seed there and keeps its level,
and the seed keeps its value once the mean is taken. What is kept is never read:
the count tells whether the seed or the level is the one in use, and the other
is set again before its turn comes.  So every loop gives the points of each
stretch by itself, and what comes behind a gap does not depend on what stood
before it.
-/

namespace RuleBacktest

namespace Window

open Scalar

variable {α : Type} [Scalar α] {period : Nat} {blend : α → α → α}

/-! ## A smoother in place -/

/-- What the loop of a smoother carries from one entry to the next. -/
structure SmoothingLoop (α : Type) where
  count : Nat
  seed : α
  level : α

namespace SmoothingLoop

def initial : SmoothingLoop α := ⟨0, 0, 0⟩

def step (period : Nat) (blend : α → α → α) (s : SmoothingLoop α) :
    Option α → SmoothingLoop α × Option α
  | none => (⟨0, 0, s.level⟩, none)
  | some x =>
      let count := s.count + 1
      if count < period then (⟨count, s.seed + x, s.level⟩, none)
      else
        let level :=
          if count = period then (s.seed + x) / ofCount period
          else blend s.level x
        (⟨count, s.seed, level⟩, some level)

def read (period : Nat) (s : SmoothingLoop α) : Option α :=
  if s.count < period then none else some s.level

theorem snd_step
    (hperiod : 0 < period)
    (blend : α → α → α) (s : SmoothingLoop α) (v : Option α) :
    (step period blend s v).2 = read period (step period blend s v).1 := by
  cases v with
  | none => simp [step, read, hperiod]
  | some x => by_cases hfew : s.count + 1 < period <;> simp [step, read, hfew]

/-- The loop has gone through `xs` since the last gap.  Nothing is said of a
seed that is used up, or of a level that is left over from before the gap. -/
structure Follows (period : Nat) (blend : α → α → α) (xs : List α)
    (s : SmoothingLoop α) : Prop where
  count_eq : s.count = xs.length
  seed_eq : xs.length < period → s.seed = xs.foldl (fun total x => total + x) 0
  level_eq : period ≤ xs.length → s.level = blendedLevel period blend xs

theorem follows_initial (hperiod : 0 < period) (blend : α → α → α) :
    Follows period blend [] initial where
  count_eq := rfl
  seed_eq _ := rfl
  level_eq hfull := absurd hfull (Nat.not_le_of_lt hperiod)

theorem Follows.step_none
    (hperiod : 0 < period)
    (blend : α → α → α) (s : SmoothingLoop α) :
    Follows period blend [] (step period blend s none).1 where
  count_eq := rfl
  seed_eq _ := rfl
  level_eq hfull := absurd hfull (Nat.not_le_of_lt hperiod)

theorem Follows.step_some {xs : List α} {s : SmoothingLoop α}
    (h : Follows period blend xs s)
    (x : α) :
    Follows period blend (xs ++ [x]) (step period blend s (some x)).1 := by
  have hlength : (xs ++ [x]).length = xs.length + 1 := by simp
  have hcount := h.count_eq
  by_cases hfew : s.count + 1 < period
  · have hnext : (step period blend s (some x)).1 =
        ⟨s.count + 1, s.seed + x, s.level⟩ := by
      simp [step, hfew]
    rw [hnext]
    constructor
    · rw [hlength, hcount]
    · intro _
      rw [List.foldl_append, h.seed_eq (by omega)]
      rfl
    · intro hfull
      omega
  · have hnext : (step period blend s (some x)).1 =
        ⟨s.count + 1, s.seed,
          if s.count + 1 = period then (s.seed + x) / ofCount period
          else blend s.level x⟩ := by
      simp [step, hfew]
    rw [hnext]
    constructor
    · rw [hlength, hcount]
    · intro hroom
      omega
    · intro _
      by_cases hseed : s.count + 1 = period
      · -- The stretch is complete, and its sum is the seed with the new value.
        have hcomplete : (xs ++ [x]).length ≤ period := by omega
        rw [if_pos hseed, blendedLevel, List.drop_of_length_le hcomplete,
          List.take_of_length_le hcomplete, List.foldl_append,
          h.seed_eq (by omega)]
        rfl
      · rw [if_neg hseed, blendedLevel_concat (by omega), h.level_eq (by omega)]

theorem follows_stateAfter
    (hperiod : 0 < period)
    (blend : α → α → α) (source : List (Option α)) :
    Follows period blend (lastStretch source)
      (stateAfter (step period blend) initial source) := by
  induction source using List.reverseRecOn with
  | nil => exact follows_initial hperiod blend
  | append_singleton source v ih =>
      rw [stateAfter_concat]
      cases v with
      | none =>
          rw [lastStretch_concat_none]
          exact Follows.step_none hperiod blend _
      | some x =>
          rw [lastStretch_concat_some]
          exact ih.step_some x

end SmoothingLoop

def smoothedInPlace (period : Nat) (blend : α → α → α)
    (source : List (Option α)) : List (Option α) :=
  if period = 0 then source.map fun _ => none
  else sweep (SmoothingLoop.step period blend) SmoothingLoop.initial source

def exponentialInPlace (period : Nat) (source : List (Option α)) :
    List (Option α) :=
  let k : α := 2 / (ofCount period + 1)
  smoothedInPlace period (fun level x => x * k + level * (1 - k)) source

def wilderInPlace (period : Nat) (source : List (Option α)) : List (Option α) :=
  let n : α := ofCount period
  smoothedInPlace period (fun level x => (level * (n - 1) + x) / n) source

omit [Scalar α] in
/-- A window without a width has no point on any stretch. -/
theorem acrossGaps_undefined (source : List (Option α)) :
    acrossGaps undefined source = source.map fun _ => none := by
  have hstretch (source : List (Option α)) (stretch : List α) : acrossGapsFrom
      undefined stretch source =
    undefined stretch.reverse ++ source.map fun _ => none := by
    induction source generalizing stretch with
    | nil => simp [acrossGapsFrom]
    | cons v source ih =>
        cases v with
        | none => simp [acrossGapsFrom, ih, undefined]
        | some x => simp [acrossGapsFrom, ih, undefined]
  exact hstretch source []

theorem smoothedInPlace_eq_acrossGaps (period : Nat) (blend : α → α → α) :
    smoothedInPlace period blend = acrossGaps (smoothed period blend) := by
  funext source
  by_cases hzero : period = 0
  · have hnone :
        (smoothed period blend : List α → List (Option α)) = undefined :=
      funext fun _ => if_pos hzero
    rw [smoothedInPlace, if_pos hzero, hnone, acrossGaps_undefined]
  · have hperiod := Nat.pos_of_ne_zero hzero
    rw [smoothedInPlace, if_neg hzero]
    ext1 i
    by_cases hi : i < source.length
    · have hfollows :=
        SmoothingLoop.follows_stateAfter hperiod blend (source.take (i + 1))
      rw [sweep_getElem?_of_read (SmoothingLoop.snd_step hperiod blend),
        List.getElem?_eq_getElem hi, Option.map_some, SmoothingLoop.read,
        hfollows.count_eq,
        acrossGaps_getElem? (causal_smoothed period blend) hi]
      cases hstretch : (lastStretch (source.take (i + 1))).length with
      | zero => simp [hperiod]
      | succ n =>
          rw [List.getElem?_cons_succ,
            smoothed_getElem? hperiod blend (by omega),
            List.take_of_length_le hstretch.le]
          by_cases hfew : n + 1 < period
          · rw [if_pos hfew, if_pos hfew]
          · rw [if_neg hfew, if_neg hfew, hfollows.level_eq (by omega)]
    · have hbeyond := Nat.le_of_not_lt hi
      rw [List.getElem?_eq_none (by simpa using hbeyond),
        List.getElem?_eq_none
          (by rwa [(causal_smoothed period blend).acrossGaps.length_eq])]

/-! ## Sliding windows in place -/

/-- The loop of a pass, which has nothing to give when the window has no
width. -/
def slidingInPlace {σ : Type} (pass : 0 < period → WindowPass σ α α)
    (source : List (Option α)) : List (Option α) :=
  if hperiod : 0 < period then (pass hperiod).inPlace 0 source
  else source.map fun _ => none

theorem slidingInPlace_eq_acrossGaps {σ : Type}
    {pass : 0 < period → WindowPass σ α α}
    {onStretch : List α → List (Option α)}
    (hzero : period = 0 → onStretch = undefined)
    (hpass : ∀ hperiod, onStretch = (pass hperiod).onStretch) :
    slidingInPlace pass = acrossGaps onStretch := by
  funext source
  by_cases hperiod : 0 < period
  · rw [slidingInPlace, dif_pos hperiod, WindowPass.inPlace_eq_acrossGaps,
      hpass hperiod]
  · rw [slidingInPlace, dif_neg hperiod, hzero (Nat.eq_zero_of_not_pos hperiod),
      acrossGaps_undefined]

def meanInPlace (period : Nat) : List (Option α) → List (Option α) :=
  slidingInPlace fun hperiod : 0 < period => MeanState.pass hperiod

def deviationInPlace (period : Nat) : List (Option α) → List (Option α) :=
  slidingInPlace fun hperiod : 0 < period => DeviationState.pass hperiod

def weightedMeanInPlace (period : Nat) : List (Option α) → List (Option α) :=
  slidingInPlace fun hperiod : 0 < period => WeightedState.pass hperiod

/-! ## All five -/

/-- The loop over a source gives the points of every stretch by itself, and what
comes behind a gap is what it would be without all that stands before. -/
structure RestartsAtGaps (onStretch : List α → List (Option α))
    (inPlace : List (Option α) → List (Option α)) : Prop where
  eq_acrossGaps : ∀ source, inPlace source = acrossGaps onStretch source
  append_gap : ∀ before after, inPlace (before ++ [none] ++ after) =
    inPlace before ++ [none] ++ inPlace after

omit [Scalar α] in
theorem restartsAtGaps_of_eq {onStretch : List α → List (Option α)}
    {inPlace : List (Option α) → List (Option α)}
    (h : inPlace = acrossGaps onStretch) :
    RestartsAtGaps onStretch inPlace where
  eq_acrossGaps source := congrFun h source
  append_gap before after := by
    rw [h, List.append_assoc, List.singleton_append, acrossGaps_append_gap,
      List.append_assoc, List.singleton_append]

/-- Each window and each smoother starts again behind every gap, whatever its
period and the arithmetic it is taken in. -/
theorem windows_restart_at_gaps (period : Nat) :
    RestartsAtGaps (mean period : List α → List (Option α))
        (meanInPlace period) ∧
      RestartsAtGaps (deviation period : List α → List (Option α))
        (deviationInPlace period) ∧
      RestartsAtGaps (weightedMean period : List α → List (Option α))
        (weightedMeanInPlace period) ∧
      RestartsAtGaps (exponential period : List α → List (Option α))
        (exponentialInPlace period) ∧
      RestartsAtGaps (wilder period : List α → List (Option α))
        (wilderInPlace period) := by
  refine ⟨restartsAtGaps_of_eq ?_, restartsAtGaps_of_eq ?_,
    restartsAtGaps_of_eq ?_, restartsAtGaps_of_eq ?_, restartsAtGaps_of_eq ?_⟩
  · exact slidingInPlace_eq_acrossGaps
      (fun hzero => funext fun _ => if_pos hzero) MeanState.mean_eq_onStretch
  · exact slidingInPlace_eq_acrossGaps
      (fun hzero => funext fun _ => if_pos hzero)
      DeviationState.deviation_eq_onStretch
  · exact slidingInPlace_eq_acrossGaps
      (fun hzero => funext fun _ => if_pos hzero)
      WeightedState.weightedMean_eq_onStretch
  · exact smoothedInPlace_eq_acrossGaps period _
  · exact smoothedInPlace_eq_acrossGaps period _

end Window

end RuleBacktest
