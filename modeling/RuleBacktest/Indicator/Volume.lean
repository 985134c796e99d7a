import RuleBacktest.Indicator.Pointwise
import RuleBacktest.Scalar

/-!
# Volume indicators

A missing volume counts as zero.
-/

namespace RuleBacktest
namespace Indicator

open Scalar

variable {α : Type} [Scalar α]

/-- Adds the volume of a rising bar and takes away that of a falling one. -/
def balanceStep (balance : α) (entry : Bar α × Option (Bar α)) : α × Option α :=
  let b := entry.1
  let next := match entry.2 with
    | none => balance
    | some previous =>
        if previous.close < b.close then balance + b.volumeOrZero
        else if b.close < previous.close then balance - b.volumeOrZero
        else balance
  (next, some next)

def onBalanceVolumePoints (bars : List (Bar α)) : List (Option α) :=
  sweep balanceStep 0 (withLag 1 bars)

structure VwapState (α : Type) where
  count : Nat
  weighted : α
  volume : α

def vwapStep (period : Nat) (s : VwapState α) (entry : Bar α × Option (Bar α)) :
    VwapState α × Option α :=
  let b := entry.1
  let count := s.count + 1
  let weighted := s.weighted + b.typicalPrice * b.volumeOrZero
  let volume := s.volume + b.volumeOrZero
  let next : VwapState α := match entry.2 with
    | none => ⟨count, weighted, volume⟩
    | some old =>
        ⟨count, weighted - old.typicalPrice * old.volumeOrZero,
          volume - old.volumeOrZero⟩
  (next,
    if period ≤ count ∧ 0 < next.volume then some (next.weighted / next.volume)
    else none)

def vwapPoints (period : Nat) (bars : List (Bar α)) : List (Option α) :=
  if period = 0 then bars.map fun _ => none
  else sweep (vwapStep period) ⟨0, 0, 0⟩ (withLag period bars)

/-- Where in its range a bar closed, from minus one to one. -/
def closePosition (b : Bar α) : α :=
  let range := b.high - b.low
  if same range 0 then 0 else (b.close - b.low - (b.high - b.close)) / range

def accumulationStep (total : α) (b : Bar α) : α × Option α :=
  let next := total + closePosition b * b.volumeOrZero
  (next, some next)

def accumulationPoints (bars : List (Bar α)) : List (Option α) :=
  sweep accumulationStep 0 bars

end Indicator
end RuleBacktest
