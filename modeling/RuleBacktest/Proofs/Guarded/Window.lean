import RuleBacktest.Proofs.Guarded.Permission
import RuleBacktest.Proofs.Window.Restart
import RuleBacktest.Proofs.Window.WarmUp

/-!
# Guarded windows

The loops of the windows over a source with gaps.  The value that leaves a
window is read from the source, `period` places back, once the loop has counted
that many values since the last gap; the candidates for an extreme are kept as
places and their values read from the source each time.  The count never exceeds
the number of places gone through, and no place enters the candidates before the
loop has come to it.
-/

namespace RuleBacktest
namespace Guarded

open Scalar Window

variable {α : Type} [Scalar α] {g : Guard α}

/-! ## Windows that are carried along -/

section Sliding

variable {σ : Type}

def slidingStep (period : Nat) (start : σ) (count : σ → Nat)
    (step : σ → α × Option α → Guarded (σ × Option α))
    (source : List (Option α)) (s : σ) (place : Nat) :
    Option α → Guarded (σ × Option α)
  | none => pure (start, none)
  | some x => do
      if period ≤ count s then
        let old ← readBack source place period
        step s (x, some (old.getD 0))
      else step s (x, none)

def sliding (period : Nat) (start : σ) (count : σ → Nat)
    (step : σ → α × Option α → Guarded (σ × Option α))
    (source : List (Option α)) : Guarded (List (Option α)) :=
  if period = 0 then pure (source.map fun _ => none)
  else loop (slidingStep period start count step source) start 0 source

theorem sliding_eq (p : WindowPass σ α α)
    {step : σ → α × Option α → Guarded (σ × Option α)}
    (hstep : ∀ s entry, step s entry = pure (p.step s entry))
    (source : List (Option α)) :
    sliding p.period p.start p.count step source =
      pure (acrossGaps p.onStretch source) := by
  rw [sliding, if_neg p.period_pos.ne', ← p.inPlace_eq_acrossGaps 0,
    WindowPass.inPlace]
  refine loop_eq_sweep id (length_withLag _ _) ?_
  rintro i v entry s hv hentry rfl
  rw [withLag_getElem?, hv, Option.map_some, Option.some.injEq] at hentry
  subst hentry
  have hi := (List.getElem?_eq_some_iff.mp hv).1
  rw [← (Causal.withLag p.period).take_eq, ← WindowPass.stateInPlace,
    Nat.zero_add]
  cases v with
  | none => rfl
  | some x =>
      by_cases hfull : p.period ≤ p.count (p.stateInPlace 0 (source.take i))
      · -- As many values have come since the last gap, so there are as many
        -- places.
        have hplaces : p.period ≤ i := by
          have hcount := length_lastStretch_le (source.take i)
          rw [List.length_take_of_le hi.le] at hcount
          rw [p.stateInPlace_eq, p.count_stateOn] at hfull
          exact hfull.trans hcount
        obtain ⟨old, hold⟩ := p.exists_leaving 0 hi.le hfull
        simp only [id, slidingStep, WindowPass.inPlaceStep, if_pos hfull,
          if_pos hplaces, hold, readBack_eq hplaces hold, pure_bind, hstep,
          Option.join_some]
      · simp only [id, slidingStep, WindowPass.inPlaceStep, if_neg hfull, hstep]

/-- The loop of a window that has no pass where it has no width. -/
theorem sliding_eq_acrossGaps {period : Nat} {start : σ} {count : σ → Nat}
    {step : σ → α × Option α → Guarded (σ × Option α)}
    (onStretch : List α → List (Option α))
    (hzero : period = 0 → onStretch = undefined)
    (source : List (Option α))
    (hpass : 0 < period →
      sliding period start count step source =
        pure (acrossGaps onStretch source)) :
    sliding period start count step source =
      pure (acrossGaps onStretch source) := by
  by_cases hperiod : 0 < period
  · exact hpass hperiod
  · have hnone := Nat.eq_zero_of_not_pos hperiod
    rw [sliding, if_pos hnone, hzero hnone, acrossGaps_undefined]

end Sliding

/-! ## The three sliding windows -/

def meanStep (g : Guard α) (period : Nat) (s : MeanState α)
    (entry : α × Option α) : Guarded (MeanState α × Option α) := do
  let count := s.count + 1
  let entered := s.total + entry.1
  let total := match entry.2 with
    | none => entered
    | some old => entered - old
  let point ← whenever (period ≤ count) (g.divide total (ofCount period))
  pure (⟨count, total⟩, point)

def mean (g : Guard α) (period : Nat) :
    List (Option α) → Guarded (List (Option α)) :=
  sliding period MeanState.initial MeanState.count (meanStep g period)

theorem mean_eq
    (hg : g.AllowsProgram)
    (period : Nat) (source : List (Option α)) :
    mean g period source = pure (acrossGaps (Window.mean period) source) := by
  refine sliding_eq_acrossGaps (Window.mean period)
    (fun hzero => funext fun _ => if_pos hzero) source ?_
  intro hperiod
  have hstep (s : MeanState α) (entry : α × Option α) :
      meanStep g period s entry = pure (MeanState.step period s entry) := by
    simp only [meanStep, Guard.divide_eq (hg.count hperiod), whenever_pure,
      pure_bind]
    rfl
  rw [MeanState.mean_eq_onStretch hperiod]
  exact sliding_eq (MeanState.pass hperiod) hstep source

def deviationStep (g : Guard α) (period : Nat) (s : DeviationState α)
    (entry : α × Option α) : Guarded (DeviationState α × Option α) := do
  let count := s.count + 1
  let x := entry.1
  let next ← match entry.2 with
    | none => do
        let delta := x - s.mean
        let change ← g.divide delta (ofCount count)
        let mean := s.mean + change
        pure (⟨count, mean, s.squares + delta * (x - mean)⟩ : DeviationState α)
    | some old => do
        let change ← g.divide (x - old) (ofCount period)
        let mean := s.mean + change
        pure ⟨count, mean, s.squares + (x - old) * (x - mean + old - s.mean)⟩
  let point ← whenever (period ≤ count) (do
    let variance ← g.divide next.squares (ofCount period)
    g.root (larger variance 0))
  pure (next, point)

def deviation (g : Guard α) (period : Nat) :
    List (Option α) → Guarded (List (Option α)) :=
  sliding period DeviationState.initial DeviationState.count
    (deviationStep g period)

theorem deviation_eq
    (hg : g.AllowsProgram)
    (period : Nat) (source : List (Option α)) :
    deviation g period source =
      pure (acrossGaps (Window.deviation period) source) := by
  refine sliding_eq_acrossGaps (Window.deviation period)
    (fun hzero => funext fun _ => if_pos hzero) source ?_
  intro hperiod
  have hstep (s : DeviationState α) (entry : α × Option α) :
      deviationStep g period s entry =
        pure (DeviationState.step period s entry) := by
    obtain ⟨x, leaving⟩ := entry
    cases leaving with
    | none =>
        simp only [deviationStep, Guard.divide_eq (hg.count hperiod),
          Guard.divide_eq (hg.count (Nat.succ_pos s.count)),
          Guard.root_eq (hg.root_larger _), whenever_pure, pure_bind]
        rfl
    | some old =>
        simp only [deviationStep, Guard.divide_eq (hg.count hperiod),
          Guard.root_eq (hg.root_larger _), whenever_pure, pure_bind]
        rfl
  rw [DeviationState.deviation_eq_onStretch hperiod]
  exact sliding_eq (DeviationState.pass hperiod) hstep source

def weightedStep (g : Guard α) (weights : α) (period : Nat)
    (s : WeightedState α) (entry : α × Option α) :
    Guarded (WeightedState α × Option α) := do
  let count := s.count + 1
  let x := entry.1
  let next : WeightedState α := match entry.2 with
    | none => ⟨count, s.total + x, s.weighted + ofCount count * x⟩
    | some old =>
        ⟨count, s.total + x - old, s.weighted - s.total + ofCount period * x⟩
  let point ← whenever (period ≤ count) (g.divide next.weighted weights)
  pure (next, point)

/-- The sum of the weights is taken once, before the loop. -/
def weightedMean (g : Guard α) (period : Nat) (source : List (Option α)) :
    Guarded (List (Option α)) :=
  if period = 0 then pure (source.map fun _ => none)
  else do
    let weights ← g.divide (ofCount period * (ofCount period + 1)) 2
    sliding period WeightedState.initial WeightedState.count
      (weightedStep g weights period) source

theorem weightedMean_eq
    (hg : g.AllowsProgram)
    (period : Nat) (source : List (Option α)) :
    weightedMean g period source =
      pure (acrossGaps (Window.weightedMean period) source) := by
  by_cases hzero : period = 0
  · have hnone :
        (Window.weightedMean period : List α → List (Option α)) = undefined :=
      funext fun _ => if_pos hzero
    rw [weightedMean, if_pos hzero, hnone, acrossGaps_undefined]
  · have hperiod := Nat.pos_of_ne_zero hzero
    have hstep (s : WeightedState α) (entry : α × Option α) :
        weightedStep g (ofCount period * (ofCount period + 1) / 2) period
            s entry =
          pure (WeightedState.step period s entry) := by
      simp only [weightedStep, Guard.divide_eq (hg.weights hperiod),
        whenever_pure, pure_bind]
      rfl
    have htwo : g.divides 2 = true := hg.count Nat.two_pos
    rw [weightedMean, if_neg hzero, Guard.divide_eq htwo, pure_bind,
      WeightedState.weightedMean_eq_onStretch hperiod]
    exact sliding_eq (WeightedState.pass hperiod) hstep source

/-! ## Smoothing -/

def smoothingStep (g : Guard α) (period : Nat) (blend : α → α → Guarded α)
    (s : SmoothingLoop α) (_ : Nat) :
    Option α → Guarded (SmoothingLoop α × Option α)
  | none => pure (⟨0, 0, s.level⟩, none)
  | some x => do
      let count := s.count + 1
      if count < period then pure (⟨count, s.seed + x, s.level⟩, none)
      else
        let level ← if count = period then
          g.divide (s.seed + x) (ofCount period)
        else blend s.level x
        pure (⟨count, s.seed, level⟩, some level)

def smoothed (g : Guard α) (period : Nat) (blend : α → α → Guarded α)
    (source : List (Option α)) : Guarded (List (Option α)) :=
  if period = 0 then pure (source.map fun _ => none)
  else loop (smoothingStep g period blend) SmoothingLoop.initial 0 source

theorem smoothed_eq
    (hg : g.AllowsProgram)
    {period : Nat} {blend : α → α → Guarded α} {ideal : α → α → α}
    (hblend : 0 < period → ∀ level x, blend level x = pure (ideal level x))
    (source : List (Option α)) :
    smoothed g period blend source =
      pure (acrossGaps (Window.smoothed period ideal) source) := by
  rw [← smoothedInPlace_eq_acrossGaps, smoothed, smoothedInPlace]
  split_ifs with hzero
  · rfl
  · have hperiod := Nat.pos_of_ne_zero hzero
    refine loop_eq_sweep_self id ?_
    intro i v s _ _
    cases v with
    | none => rfl
    | some x =>
        simp only [id, smoothingStep, SmoothingLoop.step, hblend hperiod,
          Guard.divide_eq (hg.count hperiod)]
        split_ifs <;> rfl

def exponential (g : Guard α) (period : Nat) (source : List (Option α)) :
    Guarded (List (Option α)) := do
  let k ← g.divide 2 (ofCount period + 1)
  smoothed g period (fun level x => pure (x * k + level * (1 - k))) source

theorem exponential_eq
    (hg : g.AllowsProgram)
    (period : Nat) (source : List (Option α)) :
    exponential g period source =
      pure (acrossGaps (Window.exponential period) source) := by
  rw [exponential, Guard.divide_eq (hg.count_add_one period), pure_bind]
  exact smoothed_eq hg (fun _ _ _ => rfl) source

def wilder (g : Guard α) (period : Nat) (source : List (Option α)) :
    Guarded (List (Option α)) :=
  let n : α := ofCount period
  smoothed g period (fun level x => g.divide (level * (n - 1) + x) n) source

theorem wilder_eq
    (hg : g.AllowsProgram)
    (period : Nat) (source : List (Option α)) :
    wilder g period source =
      pure (acrossGaps (Window.wilder period) source) := by
  refine smoothed_eq hg ?_ source
  intro hperiod level x
  exact Guard.divide_eq (hg.count hperiod)

/-! ## Extremes -/

section Extreme

omit [Scalar α]

variable {period : Nat} {dominates : α → α → Bool} {source : List α}

/-- Takes away the newest candidates that a value dominates.  The candidates are
places of the source. -/
def dropDominated (dominates : α → α → Bool) (source : List α) (x : α) :
    List Nat → Guarded (List Nat)
  | [] => pure []
  | place :: places => do
      let y ← read source place
      if dominates x y then dropDominated dominates source x places
      else pure (place :: places)

def dropExpired (period place : Nat) (places : List Nat) : Guarded (List Nat) :=
  match places.getLast? with
  | none => pure places
  | some oldest => do
      let age ← back place oldest
      pure (if period ≤ age then places.dropLast else places)

def oldestValue (source : List α) (places : List Nat) : Guarded (Option α) :=
  match places.getLast? with
  | none => pure none
  | some oldest => some <$> read source oldest

def extremeStep (period : Nat) (dominates : α → α → Bool) (source : List α)
    (places : List Nat) (place : Nat) (x : α) :
    Guarded (List Nat × Option α) := do
  let older ← dropDominated dominates source x places
  let kept ← dropExpired period place (place :: older)
  let extreme ← oldestValue source kept
  pure (kept, if period ≤ place + 1 then extreme else none)

def extreme (period : Nat) (dominates : α → α → Bool) (source : List α) :
    Guarded (List (Option α)) :=
  if period = 0 then pure (source.map fun _ => none)
  else loop (extremeStep period dominates source) [] 0 source

def places (candidates : List (Candidate α)) : List Nat :=
  candidates.map Candidate.place

theorem dropDominated_eq (x : α) {candidates : List (Candidate α)}
    (hstand : ∀ c ∈ candidates, source[c.place]? = some c.value) :
    dropDominated dominates source x (places candidates) =
      pure (places (candidates.dropWhile fun k => dominates x k.value)) := by
  induction candidates with
  | nil => rfl
  | cons c candidates ih =>
      have hrest := ih fun k hk => hstand k (List.mem_cons_of_mem c hk)
      rw [places, List.map_cons, dropDominated,
        read_eq (hstand c List.mem_cons_self), pure_bind, List.dropWhile_cons]
      split_ifs
      · exact hrest
      · rfl

theorem dropExpired_eq {place : Nat} {candidates : List (Candidate α)}
    (hreached : ∀ c ∈ candidates, c.place ≤ place) :
    dropExpired period place (places candidates) =
      pure (places (ExtremeState.expire period place candidates)) := by
  rw [dropExpired, ExtremeState.expire, places, List.getLast?_map]
  cases hlast : candidates.getLast? with
  | none => rfl
  | some oldest =>
      have hplace := hreached oldest (List.mem_of_getLast? hlast)
      simp only [Option.map_some, back_eq hplace, pure_bind,
        ← List.map_dropLast]
      split_ifs <;> rfl

theorem oldestValue_eq {candidates : List (Candidate α)}
    (hstand : ∀ c ∈ candidates, source[c.place]? = some c.value) :
    oldestValue source (places candidates) =
      pure (candidates.getLast?.map Candidate.value) := by
  rw [oldestValue, places, List.getLast?_map]
  cases hlast : candidates.getLast? with
  | none => rfl
  | some oldest =>
      simp only [Option.map_some,
        read_eq (hstand oldest (List.mem_of_getLast? hlast)), map_pure]

/-- Whatever the comparison is, each candidate stands at its place. -/
theorem stands_step {s : ExtremeState α} {x : α}
    (hcount : s.count = source.length)
    (hstand : ∀ c ∈ s.candidates, source[c.place]? = some c.value) :
    ∀ c ∈ ExtremeState.push dominates ⟨s.count, x⟩ s.candidates,
      (source ++ [x])[c.place]? = some c.value := by
  intro c hc
  cases List.mem_cons.mp hc with
  | inl hnew => rw [hnew, hcount, List.getElem?_concat_length]
  | inr hold =>
      have hplace := hstand c ((List.dropWhile_sublist _).mem hold)
      rw [List.getElem?_append_left (List.getElem?_eq_some_iff.mp hplace).1,
        hplace]

theorem stands_stateAfter (source : List α) :
    ∀ c ∈ (stateAfter (ExtremeState.step period dominates)
        ExtremeState.initial source).candidates,
      source[c.place]? = some c.value := by
  induction source using List.reverseRecOn with
  | nil => simp [ExtremeState.initial]
  | append_singleton source x ih =>
      intro c hc
      rw [stateAfter_concat] at hc
      exact stands_step (ExtremeState.count_stateAfter dominates source) ih c
        ((ExtremeState.expire_sublist period _ _).subset hc)

theorem extremeStep_eq {s : ExtremeState α} {place : Nat} {x : α}
    (hcount : s.count = place)
    (hx : source[place]? = some x)
    (hstand :
      ∀ c ∈ s.candidates, source[c.place]? = some c.value ∧ c.place ≤ place) :
    extremeStep period dominates source (places s.candidates) place x =
      pure (places (ExtremeState.step period dominates s x).1.candidates,
          (ExtremeState.step period dominates s x).2) := by
  subst hcount
  have hentered : ∀ c ∈ ExtremeState.push dominates ⟨s.count, x⟩ s.candidates,
      source[c.place]? = some c.value ∧ c.place ≤ s.count := by
    intro c hc
    cases List.mem_cons.mp hc with
    | inl hnew => rw [hnew]; exact ⟨hx, le_rfl⟩
    | inr hold => exact hstand c ((List.dropWhile_sublist _).mem hold)
  have hkept := (ExtremeState.expire_sublist period s.count
    (ExtremeState.push dominates ⟨s.count, x⟩ s.candidates)).subset
  have hexpired :
      dropExpired period s.count
          (s.count ::
            places (s.candidates.dropWhile fun k => dominates x k.value)) =
        pure (places (s.advance period dominates x).candidates) :=
    dropExpired_eq fun c hc => (hentered c hc).2
  have hvalue :
      oldestValue source (places (s.advance period dominates x).candidates) =
        pure ((s.advance period dominates x).candidates.getLast?.map
            Candidate.value) :=
    oldestValue_eq fun c hc => (hentered c (hkept hc)).1
  rw [extremeStep, dropDominated_eq x fun c hc => (hstand c hc).1, pure_bind,
    hexpired, pure_bind, hvalue, pure_bind]
  rfl

theorem extreme_eq (period : Nat) (dominates : α → α → Bool) (source : List α) :
    extreme period dominates source =
      pure (Window.extreme period dominates source) := by
  rw [extreme, Window.extreme]
  split_ifs with hzero
  · rfl
  · change loop _ (places (ExtremeState.initial : ExtremeState α).candidates)
      0 source = _
    refine loop_eq_sweep_self (fun s : ExtremeState α => places s.candidates) ?_
    rintro i x s hx rfl
    have hi := (List.getElem?_eq_some_iff.mp hx).1
    have hcount :
        (stateAfter (ExtremeState.step period dominates) ExtremeState.initial
          (source.take i)).count = i := by
      rw [ExtremeState.count_stateAfter, List.length_take_of_le hi.le]
    rw [Nat.zero_add]
    refine extremeStep_eq hcount hx ?_
    intro c hc
    have hplace := stands_stateAfter (source.take i) c hc
    have hreached := (List.getElem?_eq_some_iff.mp hplace).1
    rw [List.length_take_of_le hi.le] at hreached
    rw [List.getElem?_take_of_lt hreached] at hplace
    exact ⟨hplace, hreached.le⟩

end Extreme

def highest (period : Nat) : List α → Guarded (List (Option α)) :=
  extreme period fun candidate kept => decide (kept ≤ candidate)

def lowest (period : Nat) : List α → Guarded (List (Option α)) :=
  extreme period fun candidate kept => decide (candidate ≤ kept)

theorem highest_eq (period : Nat) (source : List α) :
    highest period source = pure (Window.highest period source) :=
  extreme_eq period _ source

theorem lowest_eq (period : Nat) (source : List α) :
    lowest period source = pure (Window.lowest period source) :=
  extreme_eq period _ source

end Guarded
end RuleBacktest
