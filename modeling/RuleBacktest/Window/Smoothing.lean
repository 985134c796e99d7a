import RuleBacktest.Window.Average

/-!
# Recursive smoothing

The first value is the mean of the first `period` inputs.  From there on every
input is blended into the value before it.
-/

namespace RuleBacktest
namespace Window

open Scalar

variable {α : Type} [Scalar α]

inductive Smoother (α : Type) where
  | warming (count : Nat) (total : α)
  | running (level : α)

namespace Smoother

def initial : Smoother α := warming 0 0

def step (period : Nat) (blend : α → α → α) (s : Smoother α) (x : α) :
    Smoother α × Option α :=
  match s with
  | warming count total =>
      if count + 1 < period then (warming (count + 1) (total + x), none)
      else
        let level := (total + x) / ofCount period
        (running level, some level)
  | running level =>
      let next := blend level x
      (running next, some next)

end Smoother

def smoothed (period : Nat) (blend : α → α → α) (xs : List α) :
    List (Option α) :=
  if period = 0 then undefined xs
  else sweep (Smoother.step period blend) Smoother.initial xs

/-- Exponential smoothing with the weight `2 / (period + 1)` on the newest
value. -/
def exponential (period : Nat) (xs : List α) : List (Option α) :=
  let k : α := 2 / (ofCount period + 1)
  smoothed period (fun level x => x * k + level * (1 - k)) xs

/-- Wilder's smoothing, with the weight `1 / period` on the newest value. -/
def wilder (period : Nat) (xs : List α) : List (Option α) :=
  let n : α := ofCount period
  smoothed period (fun level x => (level * (n - 1) + x) / n) xs

end Window
end RuleBacktest
