import RuleBacktest.Window.Average

/-!
# Extremes over sliding windows

The candidates for the extreme of the window are kept in order of their places,
the newest first. A new value removes the candidates that it dominates, since
they leave the window before it does and can no longer be the extreme.  What is
left is monotone, and its oldest entry is the extreme.
-/

namespace RuleBacktest
namespace Window

open Scalar

variable {α : Type} [Scalar α]

structure Candidate (α : Type) where
  place : Nat
  value : α

structure ExtremeState (α : Type) where
  count : Nat
  candidates : List (Candidate α)

namespace ExtremeState

def initial : ExtremeState α := ⟨0, []⟩

/-- Puts a value in front of the candidates that it does not dominate. -/
def push (dominates : α → α → Bool) (c : Candidate α)
    (kept : List (Candidate α)) : List (Candidate α) :=
  c :: kept.dropWhile fun k => dominates c.value k.value

/-- Removes the oldest candidate if it has left the window that ends at
`place`. -/
def expire (period place : Nat) (kept : List (Candidate α)) :
    List (Candidate α) :=
  match kept.getLast? with
  | none => kept
  | some oldest => if period ≤ place - oldest.place then kept.dropLast else kept

def advance (period : Nat) (dominates : α → α → Bool) (s : ExtremeState α)
    (x : α) : ExtremeState α :=
  ⟨s.count + 1,
    expire period s.count (push dominates ⟨s.count, x⟩ s.candidates)⟩

def extreme? (period : Nat) (s : ExtremeState α) : Option α :=
  if period ≤ s.count then s.candidates.getLast?.map Candidate.value else none

def step (period : Nat) (dominates : α → α → Bool) (s : ExtremeState α)
    (x : α) : ExtremeState α × Option α :=
  let next := s.advance period dominates x
  (next, next.extreme? period)

end ExtremeState

def extreme (period : Nat) (dominates : α → α → Bool) (xs : List α) :
    List (Option α) :=
  if period = 0 then undefined xs
  else sweep (ExtremeState.step period dominates) ExtremeState.initial xs

/-- The greatest value, the latest of equal ones. -/
def highest (period : Nat) (xs : List α) : List (Option α) :=
  extreme period (fun candidate kept => decide (kept ≤ candidate)) xs

/-- The least value, the latest of equal ones. -/
def lowest (period : Nat) (xs : List α) : List (Option α) :=
  extreme period (fun candidate kept => decide (candidate ≤ kept)) xs

end Window
end RuleBacktest
