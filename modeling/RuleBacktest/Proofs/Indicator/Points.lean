import RuleBacktest.Indicator.Cache

/-!
# Recursion over components

An indicator is computed from its components, which have a lower rank.  What
holds of an indicator whenever it holds of its components therefore holds of
every indicator.  The points of an indicator and the way in which it goes
through the cache are given here by one equation for each shape of a formula;
nothing else unfolds these recursions.
-/

namespace RuleBacktest

variable {α : Type} [Scalar α]

namespace Indicator

theorem induction_on_components {P : Indicator α → Prop}
    (hstep : ∀ i : Indicator α, (∀ c ∈ i.components, P c) → P i)
    (i : Indicator α) :
    P i := by
  have hrank : WellFounded fun c i : Indicator α => c.rank < i.rank :=
    (measure rank).wf
  induction i using hrank.induction with
  | _ i ih =>
      apply hstep i
      intro c hc
      exact ih c (rank_lt_of_mem_components hc)

theorem components_of_ofOne {i part : Indicator α} {f}
    (hformula : i.formula = .ofOne part f) :
    i.components = [part] := by
  rw [components, hformula]
  rfl

theorem components_of_ofTwo {i first second : Indicator α} {f}
    (hformula : i.formula = .ofTwo first second f) :
    i.components = [first, second] := by
  rw [components, hformula]
  rfl

/-! ## Points -/

theorem points_of_ofBars {i : Indicator α} {f}
    (hformula : i.formula = .ofBars f)
    (bars : List (Bar α)) :
    i.points bars = f bars := by
  rw [points]
  split <;> simp_all

theorem points_of_ofOne {i part : Indicator α} {f}
    (hformula : i.formula = .ofOne part f)
    (bars : List (Bar α)) :
    i.points bars = f bars (part.points bars) := by
  rw [points]
  split <;> simp_all

theorem points_of_ofTwo {i first second : Indicator α} {f}
    (hformula : i.formula = .ofTwo first second f) (bars : List (Bar α)) :
    i.points bars = f (first.points bars) (second.points bars) := by
  rw [points]
  split <;> simp_all

end Indicator

/-! ## Requests to the cache -/

namespace IndicatorCache

variable {bars : List (Bar α)} {cache : IndicatorCache α} {i : Indicator α}

theorem get_of_find?_eq_some {s : IndicatorSeries α}
    (hfound : cache.find? i = some s) :
    cache.get bars i = (s, cache) := by
  rw [get, hfound]

theorem get_of_ofBars {f}
    (hnew : cache.find? i = none)
    (hformula : i.formula = .ofBars f) :
    cache.get bars i =
      (.ofPoints bars i (f bars),
        cache.insert (.ofPoints bars i (f bars))) := by
  rw [get, hnew]
  simp only
  split <;> simp_all

theorem get_of_ofOne {part : Indicator α} {f} (hnew : cache.find? i = none)
    (hformula : i.formula = .ofOne part f) :
    cache.get bars i =
      let p := cache.get bars part
      let s := .ofPoints bars i (f bars p.1.values)
      (s, p.2.insert s) := by
  rw [get, hnew]
  simp only
  split <;> simp_all

theorem get_of_ofTwo {first second : Indicator α} {f}
    (hnew : cache.find? i = none)
    (hformula : i.formula = .ofTwo first second f) :
    cache.get bars i =
      let p := cache.get bars first
      let q := p.2.get bars second
      let s := .ofPoints bars i (f p.1.values q.1.values)
      (s, q.2.insert s) := by
  rw [get, hnew]
  simp only
  split <;> simp_all

end IndicatorCache
end RuleBacktest
