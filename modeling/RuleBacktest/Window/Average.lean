import RuleBacktest.Scalar
import RuleBacktest.Sweep

/-!
# Averages over sliding windows

Each function takes a list of values and gives one point for every value: the
average over the last `period` values, and nothing while there are fewer.  The
sums are carried along and corrected by the value that enters and the one that
leaves.
-/

namespace RuleBacktest
namespace Window

open Scalar

variable {α : Type} [Scalar α]

def undefined (xs : List α) : List (Option α) :=
  xs.map fun _ => none

structure MeanState (α : Type) where
  count : Nat
  total : α

def MeanState.initial : MeanState α := ⟨0, 0⟩

def MeanState.step (period : Nat) (s : MeanState α) (entry : α × Option α) :
    MeanState α × Option α :=
  let count := s.count + 1
  let entered := s.total + entry.1
  let total := match entry.2 with
    | none => entered
    | some old => entered - old
  (⟨count, total⟩,
    if period ≤ count then some (total / ofCount period) else none)

def mean (period : Nat) (xs : List α) : List (Option α) :=
  if period = 0 then undefined xs
  else sweep (MeanState.step period) MeanState.initial (withLag period xs)

/-- The mean and the sum of squared deviations from it. -/
structure DeviationState (α : Type) where
  count : Nat
  mean : α
  squares : α

def DeviationState.initial : DeviationState α := ⟨0, 0, 0⟩

def DeviationState.step (period : Nat) (s : DeviationState α)
    (entry : α × Option α) : DeviationState α × Option α :=
  let count := s.count + 1
  let x := entry.1
  let next : DeviationState α := match entry.2 with
    | none =>
        let delta := x - s.mean
        let mean := s.mean + delta / ofCount count
        ⟨count, mean, s.squares + delta * (x - mean)⟩
    | some old =>
        let mean := s.mean + (x - old) / ofCount period
        ⟨count, mean, s.squares + (x - old) * (x - mean + old - s.mean)⟩
  (next,
    if period ≤ count then
      some (sqrt (larger (next.squares / ofCount period) 0))
    else none)

/-- The population standard deviation. -/
def deviation (period : Nat) (xs : List α) : List (Option α) :=
  if period = 0 then undefined xs
  else sweep (DeviationState.step period) DeviationState.initial
    (withLag period xs)

structure WeightedState (α : Type) where
  count : Nat
  total : α
  weighted : α

def WeightedState.initial : WeightedState α := ⟨0, 0, 0⟩

/-- When the window is full, every weight in it falls by one before the new
value enters. -/
def WeightedState.step (period : Nat) (s : WeightedState α)
    (entry : α × Option α) : WeightedState α × Option α :=
  let count := s.count + 1
  let x := entry.1
  let next : WeightedState α := match entry.2 with
    | none => ⟨count, s.total + x, s.weighted + ofCount count * x⟩
    | some old =>
        ⟨count, s.total + x - old, s.weighted - s.total + ofCount period * x⟩
  let weights : α := ofCount period * (ofCount period + 1) / 2
  (next, if period ≤ count then some (next.weighted / weights) else none)

/-- The mean with linearly growing weights: one for the oldest value, `period`
for the newest. -/
def weightedMean (period : Nat) (xs : List α) : List (Option α) :=
  if period = 0 then undefined xs
  else sweep (WeightedState.step period) WeightedState.initial
    (withLag period xs)

end Window
end RuleBacktest
