import RuleBacktest.Proofs.Causality.Indicator
import RuleBacktest.Rule.Compile

/-!
# A cache never changes an answer

A cache is faithful to a list of bars when every series in it is the one that
its indicator has on its own.  The empty cache is faithful, and a request keeps
a faithful cache faithful and is answered with the series computed on its own.
So whatever was asked before, no answer depends on it.

A cache is asked for indicators and for what specifications denote.  A
specification that denotes nothing is refused and leaves the cache as it is.
-/

namespace RuleBacktest

variable {α : Type} [Scalar α]

/-! ## Series computed on their own -/

namespace IndicatorSeries

theorem values_direct (bars : List (Bar α)) (i : Indicator α) :
    (direct bars i).values = i.points bars := by
  unfold direct ofPoints values
  rw [List.map_snd_zip]
  simp

theorem value?_direct (bars : List (Bar α)) (i : Indicator α) (index : Nat) :
    (direct bars i).value? index = (i.points bars)[index]?.join := by
  have hvalues : (direct bars i).points.map Prod.snd = i.points bars :=
    values_direct bars i
  unfold value?
  rw [← hvalues, List.getElem?_map]
  cases (direct bars i).points[index]? <;> rfl

theorem value?_direct_price (bars : List (Bar α)) (field : PriceField)
    (index : Nat) :
    (direct bars (.price field)).value? index =
      bars[index]?.map field.read := by
  rw [value?_direct, Indicator.points_of_ofBars rfl, List.getElem?_map]
  cases bars[index]? <;> rfl

@[simp] theorem length_points_direct (bars : List (Bar α)) (i : Indicator α) :
    (direct bars i).points.length = bars.length := by
  simp [direct, ofPoints]

theorem points_direct_take (bars : List (Bar α)) (n : Nat) (i : Indicator α) :
    (direct (bars.take n) i).points = (direct bars i).points.take n := by
  unfold direct ofPoints
  rw [Indicator.points_take, List.map_take]
  exact List.take_zipWith.symm

end IndicatorSeries

namespace IndicatorCache

def Faithful (bars : List (Bar α)) (cache : IndicatorCache α) : Prop :=
  ∀ s ∈ cache.entries, s = .direct bars s.indicator

theorem faithful_empty (bars : List (Bar α)) : Faithful bars empty := by
  intro s hs
  simp [empty] at hs

theorem Faithful.insert {bars : List (Bar α)} {cache : IndicatorCache α}
    (hcache : cache.Faithful bars) (i : Indicator α) :
    (cache.insert (.direct bars i)).Faithful bars := by
  intro s hs
  rcases List.mem_append.mp hs with hold | hnew
  · exact hcache s hold
  · rw [List.mem_singleton] at hnew
    subst s
    rfl

theorem Faithful.eq_direct_of_find? {bars : List (Bar α)}
    {cache : IndicatorCache α}
    (hcache : cache.Faithful bars)
    {i : Indicator α} {s : IndicatorSeries α}
    (hfound : cache.find? i = some s) :
    s = .direct bars i := by
  have hindicator : s.indicator = i := by
    simpa using List.find?_some hfound
  rw [← hindicator]
  exact hcache s (List.mem_of_find?_eq_some hfound)

/-- A request through a faithful cache is answered with the series computed on
its own, and leaves the cache faithful.  The induction is over components, as a
composite goes through the cache for each of them before its own series is put
there. -/
theorem Faithful.get {bars : List (Bar α)} (i : Indicator α)
    {cache : IndicatorCache α}
    (hcache : cache.Faithful bars) :
    (cache.get bars i).1 = .direct bars i ∧
      (cache.get bars i).2.Faithful bars := by
  induction i using Indicator.induction_on_components generalizing cache with
  | hstep i ih =>
      cases hfound : cache.find? i with
      | some s =>
          rw [get_of_find?_eq_some hfound]
          exact ⟨hcache.eq_direct_of_find? hfound, hcache⟩
      | none =>
          cases hformula : i.formula with
          | ofBars f =>
              have hseries : IndicatorSeries.ofPoints bars i (f bars) =
                  .direct bars i := by
                rw [IndicatorSeries.direct, Indicator.points_of_ofBars hformula]
              rw [get_of_ofBars hfound hformula, hseries]
              exact ⟨rfl, hcache.insert i⟩
          | ofOne part f =>
              have hpart :=
                ih part
                  (by simp [Indicator.components_of_ofOne hformula]) hcache
              have hseries : IndicatorSeries.ofPoints bars i
                  (f bars (cache.get bars part).1.values) = .direct bars i := by
                rw [hpart.1, IndicatorSeries.values_direct,
                  IndicatorSeries.direct, Indicator.points_of_ofOne hformula]
              rw [get_of_ofOne hfound hformula]
              simp only [hseries]
              exact ⟨trivial, hpart.2.insert i⟩
          | ofTwo first second f =>
              have hfirst :=
                ih first (by simp [Indicator.components_of_ofTwo hformula])
                  hcache
              have hsecond :=
                ih second
                  (by simp [Indicator.components_of_ofTwo hformula]) hfirst.2
              have hseries :
                  IndicatorSeries.ofPoints bars i
                      (f (cache.get bars first).1.values
                        ((cache.get bars first).2.get bars second).1.values) =
                    .direct bars i := by
                rw [hfirst.1, hsecond.1, IndicatorSeries.values_direct,
                  IndicatorSeries.values_direct, IndicatorSeries.direct,
                  Indicator.points_of_ofTwo hformula]
              rw [get_of_ofTwo hfound hformula]
              simp only [hseries]
              exact ⟨trivial, hsecond.2.insert i⟩

end IndicatorCache

/-! ## Sequences of requests -/

inductive CacheRequest (α : Type) where
  | indicator (i : Indicator α)
  | spec (s : IndicatorSpec)

/-- The answer to a request and the cache behind it. -/
def CacheRequest.serve (bars : List (Bar α)) (cache : IndicatorCache α) :
    CacheRequest α → Except Failure (IndicatorSeries α) × IndicatorCache α
  | .indicator i => (.ok (cache.get bars i).1, (cache.get bars i).2)
  | .spec s => (Compilation.series bars s).run cache

namespace IndicatorCache

/-- The cache that a sequence of requests leaves behind. -/
def after (bars : List (Bar α)) (requests : List (CacheRequest α)) :
    IndicatorCache α :=
  requests.foldl (fun cache r => (r.serve bars cache).2) empty

end IndicatorCache

theorem Compilation.run_series (bars : List (Bar α)) (spec : IndicatorSpec)
    (cache : IndicatorCache α) :
    (Compilation.series bars spec).run cache =
      match (spec.resolve : Except Failure (Indicator α)) with
      | .ok i => (.ok (cache.get bars i).1, (cache.get bars i).2)
      | .error e => (.error e, cache) := by
  unfold Compilation.series Compilation.run
  cases (spec.resolve : Except Failure (Indicator α)) <;> rfl

theorem CacheRequest.faithful_serve {bars : List (Bar α)}
    {cache : IndicatorCache α}
    (hcache : cache.Faithful bars)
    (r : CacheRequest α) :
    (r.serve bars cache).2.Faithful bars := by
  cases r with
  | indicator i => exact (hcache.get i).2
  | spec s =>
      rw [serve, Compilation.run_series]
      cases (s.resolve : Except Failure (Indicator α)) with
      | ok i => exact (hcache.get i).2
      | error e => exact hcache

namespace IndicatorCache

theorem Faithful.foldl_serve {bars : List (Bar α)} {cache : IndicatorCache α}
    (hcache : cache.Faithful bars)
    (requests : List (CacheRequest α)) :
    (requests.foldl (fun cache r => (r.serve bars cache).2) cache).Faithful
      bars := by
  induction requests generalizing cache with
  | nil => exact hcache
  | cons r requests ih =>
      exact ih (CacheRequest.faithful_serve hcache r)

theorem faithful_after (bars : List (Bar α))
    (requests : List (CacheRequest α)) :
    (after bars requests).Faithful bars :=
  (faithful_empty bars).foldl_serve requests

theorem get_after (bars : List (Bar α)) (requests : List (CacheRequest α))
    (i : Indicator α) :
    ((after bars requests).get bars i).1 = .direct bars i := by
  have hfaithful := faithful_after bars requests
  exact (hfaithful.get i).1

end IndicatorCache

end RuleBacktest
