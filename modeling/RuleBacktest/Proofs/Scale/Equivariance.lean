import RuleBacktest.Indicator.Pointwise
import RuleBacktest.Proofs.Causality.Sweep

/-!
# Equivariant transformations of lists

A transformation of lists is equivariant when a change of every input changes
every output in a fixed way.  For a sweep it is enough that one step carries a
change of the state along; what a sweep passes on from place to place then never
has to be looked at again.  As with causality, the constructions from which
indicators are built keep equivariance.
-/

namespace RuleBacktest

variable {σ ι κ μ ο : Type}

def Equivariant (g : ι → ι) (h : ο → ο) (f : List ι → List ο) : Prop :=
  ∀ xs, f (xs.map g) = (f xs).map h

/-- Equivariance in two lists that run side by side. -/
def EquivariantPair (g : ι → ι) (g' : κ → κ) (h : ο → ο)
    (f : List ι → List κ → List ο) : Prop :=
  ∀ xs ys, f (xs.map g) (ys.map g') = (f xs ys).map h

/-! ## Composition -/

namespace Equivariant

variable {g : ι → ι} {k : κ → κ} {l : μ → μ} {h : ο → ο}

theorem id (g : ι → ι) : Equivariant g g fun xs => xs :=
  fun _ => rfl

theorem map {f : ι → ο} (hf : ∀ x, f (g x) = h (f x)) :
    Equivariant g h (List.map f) := by
  intro xs
  simp [hf]

theorem comp {f' : List κ → List ο} {f : List ι → List κ}
    (hf' : Equivariant k h f')
    (hf : Equivariant g k f) :
    Equivariant g h fun xs => f' (f xs) := by
  intro xs
  simp only [hf xs, hf' (f xs)]

theorem ite (c : Prop) [Decidable c] {f f' : List ι → List ο}
    (hf : Equivariant g h f)
    (hf' : Equivariant g h f') :
    Equivariant g h fun xs => if c then f xs else f' xs := by
  intro xs
  by_cases hc : c
  · simp [hc, hf xs]
  · simp [hc, hf' xs]

theorem pair {p : List κ → List μ → List ο} {f : List ι → List κ}
    {f' : List ι → List μ}
    (hp : EquivariantPair k l h p)
    (hf : Equivariant g k f)
    (hf' : Equivariant g l f') :
    Equivariant g h fun xs => p (f xs) (f' xs) := by
  intro xs
  simp only [hf xs, hf' xs, hp (f xs) (f' xs)]

end Equivariant

namespace EquivariantPair

variable {g : ι → ι} {k : κ → κ} {l : μ → μ} {h : ο → ο}

theorem zipWith {f : ι → κ → ο} (hf : ∀ x y, f (g x) (k y) = h (f x y)) :
    EquivariantPair g k h (List.zipWith f) := by
  intro xs ys
  simp [List.zipWith_map, List.map_zipWith, hf]

theorem zip :
    EquivariantPair g k (Prod.map g k)
      (List.zip : List ι → List κ → List (ι × κ)) :=
  zipWith fun _ _ => rfl

/-- Points that are undefined stay so. -/
theorem pointwise {f : ι → κ → ο} (hf : ∀ x y, f (g x) (k y) = h (f x y)) :
    EquivariantPair (Option.map g) (Option.map k) (Option.map h)
      (Indicator.pointwise f) := by
  apply zipWith
  intro x y
  cases x <;> cases y <;> simp [Indicator.bothDefined, hf]

/-- Where nothing changes in the points, nothing is asked of the
transformation. -/
theorem unchanged (f : List (Option ι) → List (Option κ) → List (Option ο)) :
    EquivariantPair (Option.map fun x => x) (Option.map fun x => x)
      (Option.map fun x => x) f := by
  intro xs ys
  simp

theorem comp {f' : List μ → List ο} {f : List ι → List κ → List μ}
    (hf' : Equivariant l h f')
    (hf : EquivariantPair g k l f) :
    EquivariantPair g k h fun xs ys => f' (f xs ys) := by
  intro xs ys
  simp only [hf xs ys, hf' (f xs ys)]

theorem compLeft {p : List μ → List κ → List ο} {f : List ι → List μ}
    (hp : EquivariantPair l k h p)
    (hf : Equivariant g l f) :
    EquivariantPair g k h fun xs ys => p (f xs) ys := by
  intro xs ys
  simp only [hf xs, hp (f xs) ys]

end EquivariantPair

/-! ## Sweeps -/

theorem sweep_map {g : ι → ι} {h : ο → ο} {k : σ → σ}
    {step step' : σ → ι → σ × ο}
    (hstep : ∀ s x, step' (k s) (g x) = (step s x).map k h)
    (state : σ) (xs : List ι) :
    sweep step' (k state) (xs.map g) = (sweep step state xs).map h := by
  induction xs generalizing state with
  | nil => rfl
  | cons x xs ih =>
      simp [hstep, ih]

theorem Equivariant.sweep {g : ι → ι} {h : ο → ο} {step : σ → ι → σ × ο}
    {start : σ} (k : σ → σ)
    (hstart : k start = start)
    (hstep : ∀ s x, step (k s) (g x) = (step s x).map k h) :
    Equivariant g h (RuleBacktest.sweep step start) := by
  intro xs
  have hsweep := sweep_map hstep start xs
  rwa [hstart] at hsweep

theorem Equivariant.withLag (g : ι → ι) (lag : Nat) :
    Equivariant g (Prod.map g (Option.map g)) (RuleBacktest.withLag lag) := by
  intro xs
  ext1 i
  simp only [withLag_getElem?, List.getElem?_map]
  by_cases hlag : lag ≤ i
  · cases xs[i]? <;> simp [hlag]
  · cases xs[i]? <;> simp [hlag]

/-- A sweep that sees the value which leaves the window beside the one that
enters. -/
theorem Equivariant.lagged {g : ι → ι} {h : ο → ο}
    {step : σ → ι × Option ι → σ × ο} {start : σ} (k : σ → σ)
    (hstart : k start = start)
    (hstep : ∀ s x old, step (k s) (g x, old.map g) = (step s (x, old)).map k h)
    (lag : Nat) :
    Equivariant g h fun xs =>
      RuleBacktest.sweep step start (RuleBacktest.withLag lag xs) := by
  apply Equivariant.comp _ (Equivariant.withLag g lag)
  apply Equivariant.sweep k hstart
  rintro s ⟨x, old⟩
  exact hstep s x old

/-! ## Stretches between gaps -/

theorem acrossGapsFrom_map {g : ι → ι} {h : ο → ο}
    {f : List ι → List (Option ο)}
    (hf : Equivariant g (Option.map h) f)
    (stretch : List ι) (xs : List (Option ι)) :
    acrossGapsFrom f (stretch.map g) (xs.map (Option.map g)) =
      (acrossGapsFrom f stretch xs).map (Option.map h) := by
  have hstretch : f (stretch.map g).reverse =
      (f stretch.reverse).map (Option.map h) := by
    rw [← List.map_reverse, hf]
  induction xs generalizing stretch with
  | nil => exact hstretch
  | cons x xs ih =>
      cases x with
      | none =>
          have hrest := ih [] (hf [])
          simp only [List.map_nil] at hrest
          simp [acrossGapsFrom, hstretch, hrest]
      | some x =>
          have hlonger : f ((x :: stretch).map g).reverse =
              (f (x :: stretch).reverse).map (Option.map h) := by
            rw [← List.map_reverse, hf]
          exact ih (x :: stretch) hlonger

theorem Equivariant.acrossGaps {g : ι → ι} {h : ο → ο}
    {f : List ι → List (Option ο)}
    (hf : Equivariant g (Option.map h) f) :
    Equivariant (Option.map g) (Option.map h) (RuleBacktest.acrossGaps f) :=
  acrossGapsFrom_map hf []

end RuleBacktest
