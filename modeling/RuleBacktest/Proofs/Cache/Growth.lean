import Mathlib.Data.List.Perm.Lattice
import RuleBacktest.Proofs.Cache.Components
import RuleBacktest.Proofs.Cache.Faithful
import RuleBacktest.Scalar.Binary64

/-!
# What a cache holds

A cache keeps one series for each indicator that it has come across, and with an
indicator it keeps all parts of it.  A request puts the missing parts of its
indicator behind what is there, and nothing else; a specification that denotes
nothing adds nothing.  So which indicators a cache holds, and how many, depends
on the set of those that were asked for, and a series that is there stays in its
place.
-/

namespace RuleBacktest

open Indicator

variable {α : Type} [Scalar α]

namespace IndicatorCache

def keys (cache : IndicatorCache α) : List (Indicator α) :=
  cache.entries.map IndicatorSeries.indicator

/-- Where the series of an indicator is kept.  Two requests are answered with
one and the same series when they are answered from one place. -/
def place? (cache : IndicatorCache α) (i : Indicator α) : Option Nat :=
  cache.entries.findIdx? fun s => s.indicator == i

/-- Each indicator is kept once, together with its components. -/
structure WellKept (cache : IndicatorCache α) : Prop where
  distinct : cache.keys.Nodup
  closed : ∀ i ∈ cache.keys, ∀ c ∈ i.components, c ∈ cache.keys

/-- The cache behind requests for some indicators: what was there comes first,
and the parts of these indicators are there as well. -/
structure Grown (cache : IndicatorCache α) (asked : List (Indicator α))
    (later : IndicatorCache α) : Prop where
  wellKept : later.WellKept
  kept : cache.entries <+: later.entries
  mem_keys : ∀ j, j ∈ later.keys ↔ j ∈ cache.keys ∨ ∃ i ∈ asked, IsPart j i

variable {bars : List (Bar α)} {cache later : IndicatorCache α}
  {i j : Indicator α}

/-! ## Keys and places -/

theorem find?_eq_none_iff : cache.find? i = none ↔ i ∉ cache.keys := by
  simp [find?, keys]

theorem mem_keys_of_find? {s : IndicatorSeries α}
    (hfound : cache.find? i = some s) :
    i ∈ cache.keys := by
  by_contra hnew
  rw [find?_eq_none_iff.mpr hnew] at hfound
  cases hfound

omit [Scalar α] in
theorem keys_insert (s : IndicatorSeries α) :
    (cache.insert s).keys = cache.keys ++ [s.indicator] := by
  simp [keys, insert]

omit [Scalar α] in
theorem length_keys : cache.keys.length = cache.count :=
  List.length_map _

theorem place?_of_kept {place : Nat}
    (hkept : cache.entries <+: later.entries)
    (hplace : cache.place? i = some place) :
    later.place? i = some place ∧
      later.entries[place]? = cache.entries[place]? := by
  obtain ⟨added, hadded⟩ := hkept
  have hlt : place < cache.entries.length :=
    (List.findIdx?_eq_some_iff_getElem.mp hplace).1
  rw [place?] at hplace
  rw [place?, ← hadded, List.findIdx?_append, hplace,
    List.getElem?_append_left hlt]
  exact ⟨rfl, rfl⟩

theorem exists_place?_of_find? {s : IndicatorSeries α}
    (hfound : cache.find? i = some s) :
    ∃ place, cache.place? i = some place ∧ cache.entries[place]? = some s := by
  obtain ⟨hs, place, hlt, hplace, hbefore⟩ :=
    List.find?_eq_some_iff_getElem.mp hfound
  refine ⟨place, ?_, List.getElem?_eq_some_iff.mpr ⟨hlt, hplace⟩⟩
  apply List.findIdx?_eq_some_iff_getElem.mpr
  refine ⟨hlt, ?_, ?_⟩
  · rw [hplace]
    exact hs
  · intro earlier hearlier
    have hother := hbefore earlier hearlier
    rw [Bool.not_eq_true'] at hother
    rw [hother]
    exact Bool.false_ne_true

/-! ## One request -/

theorem WellKept.mem_keys_of_isPart
    (hcache : cache.WellKept)
    (hi : i ∈ cache.keys)
    (hpart : IsPart j i) :
    j ∈ cache.keys := by
  induction hpart using Relation.ReflTransGen.head_induction_on with
  | refl => exact hi
  | head hstep _ ih => exact hcache.closed _ ih _ (mem_components_iff.mpr hstep)

/-- An indicator that is put behind its components. -/
theorem WellKept.insert
    (hcache : cache.WellKept)
    {s : IndicatorSeries α}
    (hnew : s.indicator ∉ cache.keys)
    (hcomponents : ∀ c ∈ s.indicator.components, c ∈ cache.keys) :
    (cache.insert s).WellKept where
  distinct := by
    rw [keys_insert, ← List.concat_eq_append]
    exact hcache.distinct.concat hnew
  closed := by
    intro i hi c hc
    rw [keys_insert] at hi ⊢
    apply List.mem_append_left
    rcases List.mem_append.mp hi with hold | hlast
    · exact hcache.closed i hold c hc
    · rw [List.mem_singleton.mp hlast] at hc
      exact hcomponents c hc

theorem Grown.nil (hcache : cache.WellKept) : Grown cache [] cache where
  wellKept := hcache
  kept := List.prefix_rfl
  mem_keys := by simp

theorem Grown.append {asked more : List (Indicator α)} {last : IndicatorCache α}
    (h : Grown cache asked later)
    (hmore : Grown later more last) :
    Grown cache (asked ++ more) last where
  wellKept := hmore.wellKept
  kept := h.kept.trans hmore.kept
  mem_keys := by
    intro j
    rw [hmore.mem_keys, h.mem_keys, or_assoc]
    simp only [List.mem_append, or_and_right, exists_or]

/-- Requests for several indicators grow a cache if each of them does. -/
theorem Grown.foldl_get (bars : List (Bar α)) {asked : List (Indicator α)}
    (hget : ∀ i ∈ asked, ∀ cache : IndicatorCache α, cache.WellKept →
      Grown cache [i] (cache.get bars i).2)
    (hcache : cache.WellKept) :
    Grown cache asked
      (asked.foldl (fun cache i => (cache.get bars i).2) cache) := by
  induction asked generalizing cache with
  | nil => exact Grown.nil hcache
  | cons i asked ih =>
      have hfirst := hget i List.mem_cons_self cache hcache
      have hrest :=
        ih (fun j hj => hget j (List.mem_cons_of_mem i hj)) hfirst.wellKept
      exact hfirst.append hrest

/-- What is not in the cache is computed once all its components went through
the cache, and is then put behind them. -/
theorem get_eq_insert (bars : List (Bar α)) (hnew : cache.find? i = none) :
    ∃ s : IndicatorSeries α, s.indicator = i ∧
      cache.get bars i =
        (s,
          (i.components.foldl (fun cache c => (cache.get bars c).2)
            cache).insert s) := by
  cases hformula : i.formula with
  | ofBars f =>
      have hcomponents : i.components = [] := by
        rw [Indicator.components, hformula]
        rfl
      rw [get_of_ofBars hnew hformula, hcomponents]
      exact ⟨_, rfl, rfl⟩
  | ofOne part f =>
      rw [get_of_ofOne hnew hformula, components_of_ofOne hformula]
      exact ⟨_, rfl, rfl⟩
  | ofTwo first second f =>
      rw [get_of_ofTwo hnew hformula, components_of_ofTwo hformula]
      exact ⟨_, rfl, rfl⟩

/-- A request adds the parts of its indicator.  The induction is over
components: they are there when the indicator is put behind them, and the
indicator itself is not, being no part of any of them. -/
theorem WellKept.grown_get
    (hcache : cache.WellKept)
    (bars : List (Bar α)) (i : Indicator α) :
    Grown cache [i] (cache.get bars i).2 := by
  induction i using Indicator.induction_on_components generalizing cache with
  | hstep i ih =>
      cases hfound : cache.find? i with
      | some s =>
          have hi := mem_keys_of_find? hfound
          rw [get_of_find?_eq_some hfound]
          refine ⟨hcache, List.prefix_rfl, ?_⟩
          intro j
          constructor
          · exact Or.inl
          · rintro (hj | ⟨i', hi', hpart⟩)
            · exact hj
            · rw [List.mem_singleton.mp hi'] at hpart
              exact hcache.mem_keys_of_isPart hi hpart
      | none =>
          obtain ⟨s, hs, hget⟩ := get_eq_insert bars hfound
          have hgrown := Grown.foldl_get bars
            (fun c hc cache hcache => ih c hc hcache) hcache
          rw [hget]
          generalize i.components.foldl
              (fun cache c => (cache.get bars c).2) cache =
            between at hgrown
          have hnew : s.indicator ∉ between.keys := by
            rw [hs, hgrown.mem_keys]
            rintro (hold | ⟨c, hc, hpart⟩)
            · exact find?_eq_none_iff.mp hfound hold
            · exact not_isPart_of_mem_components hc hpart
          refine ⟨hgrown.wellKept.insert hnew ?_, ?_, ?_⟩
          · intro c hc
            rw [hs] at hc
            exact (hgrown.mem_keys c).mpr (Or.inr ⟨c, hc, .refl⟩)
          · exact hgrown.kept.trans (List.prefix_append _ _)
          · intro j
            rw [keys_insert, hs, List.mem_append, hgrown.mem_keys, or_assoc]
            simp only [List.mem_singleton, exists_eq_left,
              isPart_iff (j := j) (i := i)]
            rw [or_comm (a := j = i)]

theorem WellKept.find?_of_mem (hcache : cache.WellKept) {s : IndicatorSeries α}
    (hs : s ∈ cache.entries) : cache.find? s.indicator = some s := by
  cases hfound : cache.find? s.indicator with
  | none => exact absurd (List.mem_map_of_mem hs) (find?_eq_none_iff.mp hfound)
  | some t =>
      have ht : t ∈ cache.entries := List.mem_of_find?_eq_some hfound
      have hsame : t.indicator = s.indicator := by
        simpa using List.find?_some hfound
      rw [List.inj_on_of_nodup_map hcache.distinct ht hs hsame]

/-- What a request is answered with is in the cache behind it. -/
theorem WellKept.find?_get
    (hcache : cache.WellKept)
    (bars : List (Bar α)) (i : Indicator α) :
    (cache.get bars i).2.find? i = some (cache.get bars i).1 := by
  cases hfound : cache.find? i with
  | some s =>
      rw [get_of_find?_eq_some hfound]
      exact hfound
  | none =>
      have hkept : (cache.get bars i).2.WellKept :=
        (hcache.grown_get bars i).wellKept
      obtain ⟨s, hs, hget⟩ := get_eq_insert bars hfound
      rw [hget] at hkept ⊢
      have hfind :=
        hkept.find?_of_mem (List.mem_append_right _ (List.mem_singleton_self s))
      rwa [hs] at hfind

/-! ## Sequences of requests -/

end IndicatorCache

/-- The indicator that a request is for, if it is for one. -/
def CacheRequest.asked? : CacheRequest α → Option (Indicator α)
  | .indicator i => some i
  | .spec s => (s.resolve : Except Failure (Indicator α)).toOption

variable {bars : List (Bar α)} {i j : Indicator α} {r : CacheRequest α}

theorem CacheRequest.serve_of_asked?
    (hasked : r.asked? = some i)
    (bars : List (Bar α)) (cache : IndicatorCache α) :
    r.serve bars cache = (.ok (cache.get bars i).1, (cache.get bars i).2) := by
  cases r with
  | indicator i' =>
      cases hasked
      rfl
  | spec s =>
      rw [serve, Compilation.run_series]
      rw [asked?] at hasked
      cases hresolve : (s.resolve : Except Failure (Indicator α)) with
      | ok i' =>
          rw [hresolve] at hasked
          cases hasked
          rfl
      | error e =>
          rw [hresolve] at hasked
          cases hasked

theorem CacheRequest.exists_serve_eq_error
    (hasked : r.asked? = none)
    (bars : List (Bar α)) :
    ∃ e, ∀ cache : IndicatorCache α,
      r.serve bars cache = (.error e, cache) := by
  cases r with
  | indicator i => cases hasked
  | spec s =>
      rw [asked?] at hasked
      cases hresolve : (s.resolve : Except Failure (Indicator α)) with
      | ok i' =>
          rw [hresolve] at hasked
          cases hasked
      | error e =>
          refine ⟨e, ?_⟩
          intro cache
          rw [serve, Compilation.run_series, hresolve]

theorem CacheRequest.serve_eq_empty {cache : IndicatorCache α}
    (hcache : cache.Faithful bars) :
    (r.serve bars cache).1 = (r.serve bars .empty).1 := by
  cases hasked : r.asked? with
  | none =>
      obtain ⟨e, herror⟩ := exists_serve_eq_error hasked bars
      rw [herror, herror]
  | some i =>
      rw [serve_of_asked? hasked, serve_of_asked? hasked, (hcache.get i).1,
        ((IndicatorCache.faithful_empty bars).get i).1]

namespace IndicatorCache

variable {cache : IndicatorCache α} {requests : List (CacheRequest α)}

/-- The answers to a sequence of requests, each of them through the cache that
the requests before it leave behind. -/
def answers (bars : List (Bar α)) (requests : List (CacheRequest α)) :
    List (Except Failure (IndicatorSeries α)) :=
  sweep (fun cache r => (r.serve bars cache).swap) empty requests

/-- The indicators that a sequence of requests is for, in its order. -/
def askedFor (requests : List (CacheRequest α)) : List (Indicator α) :=
  requests.flatMap fun r => r.asked?.toList

theorem mem_askedFor :
    i ∈ askedFor requests ↔ ∃ r ∈ requests, r.asked? = some i := by
  simp [askedFor]

theorem wellKept_empty : (empty : IndicatorCache α).WellKept := by
  constructor <;> simp [empty, keys]

theorem WellKept.grown_serve (hcache : cache.WellKept) (bars : List (Bar α))
    (r : CacheRequest α) :
    Grown cache r.asked?.toList (r.serve bars cache).2 := by
  cases hasked : r.asked? with
  | none =>
      obtain ⟨e, herror⟩ := CacheRequest.exists_serve_eq_error hasked bars
      rw [herror]
      exact Grown.nil hcache
  | some i =>
      rw [CacheRequest.serve_of_asked? hasked]
      exact hcache.grown_get bars i

theorem WellKept.grown_foldl_serve
    (hcache : cache.WellKept)
    (bars : List (Bar α)) (requests : List (CacheRequest α)) :
    Grown cache (askedFor requests)
      (requests.foldl (fun cache r => (r.serve bars cache).2) cache) := by
  induction requests generalizing cache with
  | nil => exact Grown.nil hcache
  | cons r requests ih =>
      have hfirst : Grown cache r.asked?.toList (r.serve bars cache).2 :=
        hcache.grown_serve bars r
      exact hfirst.append (ih hfirst.wellKept)

theorem Faithful.sweep_serve
    (hcache : cache.Faithful bars)
    (requests : List (CacheRequest α)) :
    sweep (fun cache r => (r.serve bars cache).swap) cache requests =
      requests.map fun r => (r.serve bars .empty).1 := by
  induction requests generalizing cache with
  | nil => rfl
  | cons r requests ih =>
      rw [sweep_cons, List.map_cons, ← CacheRequest.serve_eq_empty hcache]
      exact congrArg _ (ih (r.faithful_serve hcache))

theorem grown_after (bars : List (Bar α)) (requests : List (CacheRequest α)) :
    Grown empty (askedFor requests) (after bars requests) :=
  wellKept_empty.grown_foldl_serve bars requests

theorem after_append (bars : List (Bar α))
    (requests more : List (CacheRequest α)) :
    after bars (requests ++ more) =
      more.foldl (fun cache r => (r.serve bars cache).2)
        (after bars requests) :=
  List.foldl_append

theorem entries_after_append (bars : List (Bar α))
    (requests more : List (CacheRequest α)) :
    (after bars requests).entries <+:
      (after bars (requests ++ more)).entries := by
  rw [after_append]
  exact ((grown_after bars requests).wellKept.grown_foldl_serve bars more).kept

theorem mem_keys_after :
    j ∈ (after bars requests).keys ↔
      ∃ r ∈ requests, ∃ i, r.asked? = some i ∧ IsPart j i := by
  rw [(grown_after bars requests).mem_keys]
  simp only [mem_askedFor]
  constructor
  · rintro (hnew | ⟨i, ⟨r, hr, hasked⟩, hpart⟩)
    · simp [empty, keys] at hnew
    · exact ⟨r, hr, i, hasked, hpart⟩
  · rintro ⟨r, hr, i, hasked, hpart⟩
    exact Or.inr ⟨i, ⟨r, hr, hasked⟩, hpart⟩

/-- How many series are kept is a matter of the set of indicators asked for. -/
theorem count_after_congr {others : List (CacheRequest α)}
    (hsame : ∀ i, (∃ r ∈ requests, r.asked? = some i) ↔
      ∃ r ∈ others, r.asked? = some i) :
    (after bars requests).count = (after bars others).count := by
  have hperm : (after bars requests).keys.Perm (after bars others).keys := by
    apply (List.perm_ext_iff_of_nodup
        (grown_after bars requests).wellKept.distinct
        (grown_after bars others).wellKept.distinct).mpr
    intro j
    rw [mem_keys_after, mem_keys_after]
    constructor
    · rintro ⟨r, hr, i, hasked, hpart⟩
      obtain ⟨r', hr', hasked'⟩ := (hsame i).mp ⟨r, hr, hasked⟩
      exact ⟨r', hr', i, hasked', hpart⟩
    · rintro ⟨r, hr, i, hasked, hpart⟩
      obtain ⟨r', hr', hasked'⟩ := (hsame i).mpr ⟨r, hr, hasked⟩
      exact ⟨r', hr', i, hasked', hpart⟩
  rw [← length_keys, ← length_keys]
  exact hperm.length_eq

/-- A request is answered with the entry in the place of its indicator, and that
entry stays there. -/
theorem exists_place?_of_asked? (hasked : r.asked? = some i) :
    ∃ place s, (r.serve bars (after bars requests)).1 = .ok s ∧
      ∀ more, (after bars (requests ++ r :: more)).place? i = some place ∧
        (after bars (requests ++ r :: more)).entries[place]? = some s := by
  have hcache := (grown_after bars requests).wellKept
  have hserve := CacheRequest.serve_of_asked? hasked bars (after bars requests)
  obtain ⟨place, hplace, hentry⟩ :=
    exists_place?_of_find? (hcache.find?_get bars i)
  refine ⟨place, ((after bars requests).get bars i).1, by rw [hserve], ?_⟩
  intro more
  have hkept : ((after bars requests).get bars i).2.entries <+:
      (after bars (requests ++ r :: more)).entries := by
    have hnext := (hcache.grown_get bars i).wellKept.grown_foldl_serve bars more
    rw [after_append, List.foldl_cons, hserve]
    exact hnext.kept
  obtain ⟨hlater, hsame⟩ := place?_of_kept hkept hplace
  exact ⟨hlater, hsame.trans hentry⟩

/-- However a cache is asked, every answer is the one that an empty cache gives.
The cache holds the parts of the indicators asked for and nothing else, each of
them once, so their number is that of any requests for the same indicators.
What is there stays as it is, an indicator is always answered from its one
place, and a request that is for no indicator changes nothing.  No request goes
on for ever, since no descent through components does. -/
theorem answers_and_entries_after (bars : List (Bar α))
    (requests : List (CacheRequest α)) :
    answers bars requests = requests.map (fun r => (r.serve bars .empty).1) ∧
      (∀ j, j ∈ (after bars requests).keys ↔
        ∃ r ∈ requests, ∃ i, r.asked? = some i ∧ IsPart j i) ∧
      (after bars requests).keys.Nodup ∧
      (∀ others : List (CacheRequest α),
        (∀ i, (∃ r ∈ requests, r.asked? = some i) ↔
          ∃ r ∈ others, r.asked? = some i) →
        (after bars requests).count = (after bars others).count) ∧
      (∀ more, (after bars requests).entries <+:
        (after bars (requests ++ more)).entries) ∧
      (∀ (r : CacheRequest α) (i : Indicator α), r.asked? = some i →
        ∃ place s, (r.serve bars (after bars requests)).1 = .ok s ∧
          ∀ more, (after bars (requests ++ r :: more)).place? i = some place ∧
            (after bars (requests ++ r :: more)).entries[place]? = some s) ∧
      (∀ r : CacheRequest α, r.asked? = none →
        ∃ e, r.serve bars (after bars requests) =
          (.error e, after bars requests)) ∧
      WellFounded (IsComponent (α := α)) := by
  refine ⟨(faithful_empty bars).sweep_serve requests, fun _ => mem_keys_after,
    (grown_after bars requests).wellKept.distinct, fun _ => count_after_congr,
    entries_after_append bars requests, fun _ _ => exists_place?_of_asked?, ?_,
    wellFounded_isComponent⟩
  intro r hasked
  obtain ⟨e, herror⟩ := CacheRequest.exists_serve_eq_error hasked bars
  exact ⟨e, herror _⟩

end IndicatorCache

/-- A bar on which nothing moves. -/
def Bar.flat : Bar Float :=
  ⟨⟨{ year := 2023, month := 5, day := 31 }, .midnight⟩, 2, 2, 2, 2, none⟩

namespace IndicatorCache

/-- A band and its middle line, asked for in either order, and a name that
nothing has in between. -/
theorem answers_and_entries_after_bands :
    ((after [Bar.flat] [.indicator (.bollinger .upper 2 (Factor.of 2)),
        .spec ⟨"NOTHING", []⟩, .indicator (.sma 2)]).count =
      (after [Bar.flat] [.indicator (.sma 2),
        .indicator (.bollinger .upper 2 (Factor.of 2))]).count) ∧
      .standardDeviation 2 ∈ (after [Bar.flat]
        [.indicator (.bollinger .upper 2 (Factor.of 2))]).keys := by
  have hname : Family.ofName? "NOTHING" = none := by
    decide +kernel
  have hnothing : (IndicatorSpec.resolve ⟨"NOTHING", []⟩ :
      Except Failure (Indicator Float)).toOption = none := by
    rw [IndicatorSpec.resolve, hname]
    rfl
  constructor
  · apply (answers_and_entries_after [Bar.flat] _).2.2.2.1
    intro i
    simp [CacheRequest.asked?, hnothing, or_comm]
  · apply ((answers_and_entries_after [Bar.flat] _).2.1 _).mpr
    exact ⟨_, List.mem_singleton_self _, _, rfl,
      .single (.bollingerWidth _ _ _)⟩

end IndicatorCache
end RuleBacktest
