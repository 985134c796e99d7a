import RuleBacktest.Indicator.Kind
import RuleBacktest.Indicator.Pointwise
import RuleBacktest.Scalar
import RuleBacktest.Sweep

/-!
# Trend reversals

Two indicators follow a trend and turn with it.  Their traces give the whole
state after each bar, of which the series shows one value.

The parabolic stop moves toward the extreme price of the trend by a speed that
grows with every new extreme.  It may not pass the last two bars before the
present one, and a price beyond it turns the trend.  The super trend keeps a
band on each side of the price; a band moves inward only, unless the close
before was beyond it, and a close beyond the active band turns the trend.
-/

namespace RuleBacktest
namespace Indicator

open Scalar

variable {α : Type} [Scalar α]

structure StopState (α : Type) where
  rising : Bool
  stop : α
  extreme : α
  speed : α
  deriving DecidableEq, Repr

namespace StopState

def initialSpeed : α := 0.02

def highestSpeed : α := 0.2

def initial (first second : Bar α) : StopState α :=
  if first.close ≤ second.close then
    ⟨true, first.low, second.high, initialSpeed⟩
  else ⟨false, first.high, second.low, initialSpeed⟩

def faster (speed : α) : α :=
  smaller (speed + initialSpeed) highestSpeed

/-- The stop for a bar before the bar's own prices are looked at. -/
def advanced (s : StopState α) (previous earlier : Bar α) : α :=
  let moved := s.stop + s.speed * (s.extreme - s.stop)
  if s.rising then smaller (smaller moved previous.low) earlier.low
  else larger (larger moved previous.high) earlier.high

def next (s : StopState α) (earlier previous b : Bar α) : StopState α :=
  let stop := s.advanced previous earlier
  if s.rising then
    if b.low < stop then ⟨false, s.extreme, b.low, initialSpeed⟩
    else if s.extreme < b.high then ⟨true, stop, b.high, faster s.speed⟩
    else ⟨true, stop, s.extreme, s.speed⟩
  else
    if stop < b.high then ⟨true, s.extreme, b.high, initialSpeed⟩
    else if b.low < s.extreme then ⟨false, stop, b.low, faster s.speed⟩
    else ⟨false, stop, s.extreme, s.speed⟩

end StopState

/-- A state together with the two bars that led to it. -/
structure StopWalk (α : Type) where
  state : StopState α
  earlier : Bar α
  previous : Bar α

def StopWalk.step (w : StopWalk α) (b : Bar α) :
    StopWalk α × Option (StopState α) :=
  let next := w.state.next w.earlier w.previous b
  (⟨next, w.previous, b⟩, some next)

def parabolicStopTrace : List (Bar α) → List (Option (StopState α))
  | [] => []
  | [_] => [none]
  | first :: second :: bars =>
      let start := StopState.initial first second
      none :: some start :: sweep StopWalk.step ⟨start, first, second⟩ bars

def parabolicStopPoints (bars : List (Bar α)) : List (Option α) :=
  (parabolicStopTrace bars).map fun s => s.map StopState.stop

structure TrendState (α : Type) where
  upper : α
  lower : α
  rising : Bool
  deriving DecidableEq, Repr

namespace TrendState

def line (s : TrendState α) : α :=
  if s.rising then s.lower else s.upper

def initial (width : α) (b : Bar α) (range : α) : TrendState α :=
  let middle := b.medianPrice
  ⟨middle + width * range, middle - width * range, decide (middle ≤ b.close)⟩

def next (width : α) (s : TrendState α) (previous b : Bar α) (range : α) :
    TrendState α :=
  let middle := b.medianPrice
  let basicUpper := middle + width * range
  let basicLower := middle - width * range
  let upper :=
    if basicUpper < s.upper ∨ s.upper < previous.close then basicUpper
    else s.upper
  let lower :=
    if s.lower < basicLower ∨ previous.close < s.lower then basicLower
    else s.lower
  ⟨upper, lower,
    if s.rising then decide (lower ≤ b.close) else decide (upper < b.close)⟩

/-- Keeps the state where the range is undefined, and starts afresh where there
is no state. -/
def step (width : α) (s : Option (TrendState α))
    (entry : (Bar α × Option (Bar α)) × Option α) :
    Option (TrendState α) × Option (TrendState α) :=
  match entry.2 with
  | none => (s, none)
  | some range =>
      let following := match s, entry.1.2 with
        | some s, some previous => next width s previous entry.1.1 range
        | _, _ => initial width entry.1.1 range
      (some following, some following)

end TrendState

def superTrendTrace (width : Factor α) (bars : List (Bar α))
    (ranges : List (Option α)) : List (Option (TrendState α)) :=
  sweep (TrendState.step width.value) none ((withLag 1 bars).zip ranges)

def superTrendPoints (width : Factor α) (bars : List (Bar α))
    (ranges : List (Option α)) : List (Option α) :=
  (superTrendTrace width bars ranges).map fun s => s.map TrendState.line

end Indicator
end RuleBacktest
