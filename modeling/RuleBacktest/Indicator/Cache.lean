import RuleBacktest.Indicator.Formula

/-!
# Series of indicators and their cache

A series carries the points of one indicator with the times of the bars.  The
cache of a list of bars holds every series computed so far, in the order in
which they were finished; a series is taken from it when it is there, and
computed from its components, which go through the cache too, when it is not.
-/

namespace RuleBacktest

open Calendar

variable {α : Type} [Scalar α]

structure IndicatorSeries (α : Type) where
  indicator : Indicator α
  points : List (Moment × Option α)
  deriving DecidableEq

namespace IndicatorSeries

/-- Pairs the points with the times of the bars. -/
def ofPoints (bars : List (Bar α)) (i : Indicator α)
    (points : List (Option α)) : IndicatorSeries α :=
  ⟨i, (bars.map Bar.time).zip points⟩

def values (s : IndicatorSeries α) : List (Option α) :=
  s.points.map Prod.snd

/-- The value at an index, or nothing where the series is undefined or has
ended. -/
def value? (s : IndicatorSeries α) (index : Nat) : Option α :=
  s.points[index]?.bind Prod.snd

def firstDefined? (s : IndicatorSeries α) : Option Nat :=
  s.points.findIdx? fun p => p.2.isSome

/-- The series of an indicator computed on its own. -/
def direct (bars : List (Bar α)) (i : Indicator α) : IndicatorSeries α :=
  ofPoints bars i (i.points bars)

end IndicatorSeries

structure IndicatorCache (α : Type) where
  entries : List (IndicatorSeries α)

namespace IndicatorCache

def empty : IndicatorCache α := ⟨[]⟩

def find? (cache : IndicatorCache α) (i : Indicator α) :
    Option (IndicatorSeries α) :=
  cache.entries.find? fun s => s.indicator == i

def insert (cache : IndicatorCache α) (s : IndicatorSeries α) :
    IndicatorCache α :=
  ⟨cache.entries ++ [s]⟩

def count (cache : IndicatorCache α) : Nat :=
  cache.entries.length

def get (bars : List (Bar α)) (cache : IndicatorCache α) (i : Indicator α) :
    IndicatorSeries α × IndicatorCache α :=
  match cache.find? i with
  | some s => (s, cache)
  | none =>
      match h : i.formula with
      | .ofBars f =>
          let s := IndicatorSeries.ofPoints bars i (f bars)
          (s, cache.insert s)
      | .ofOne part f =>
          have := Indicator.rank_lt_of_ofOne h
          let (p, cache) := get bars cache part
          let s := IndicatorSeries.ofPoints bars i (f bars p.values)
          (s, cache.insert s)
      | .ofTwo first second f =>
          have := Indicator.rank_lt_of_ofTwo_left h
          have := Indicator.rank_lt_of_ofTwo_right h
          let (p, cache) := get bars cache first
          let (q, cache) := get bars cache second
          let s := IndicatorSeries.ofPoints bars i (f p.values q.values)
          (s, cache.insert s)
termination_by i.rank

end IndicatorCache
end RuleBacktest
