import RuleBacktest.Scalar

/-!
# Trading records

A record holds the closed trades of a run in order, and the open position if
there is one. Positions are of one unit and long.
-/

namespace RuleBacktest

open Scalar

structure OpenPosition (α : Type) where
  entryIndex : Nat
  entryPrice : α
  deriving DecidableEq, Repr

structure ClosedTrade (α : Type) where
  entryIndex : Nat
  entryPrice : α
  exitIndex : Nat
  exitPrice : α
  deriving DecidableEq, Repr

structure TradingRecord (α : Type) where
  closed : List (ClosedTrade α)
  position : Option (OpenPosition α)
  deriving DecidableEq, Repr

variable {α : Type} [Scalar α]

def OpenPosition.unrealised (p : OpenPosition α) (price : α) : α :=
  price - p.entryPrice

namespace ClosedTrade

def profit (t : ClosedTrade α) : α :=
  t.exitPrice - t.entryPrice

/-- The profit in percent of the entry price, zero for an entry price of
zero. -/
def returnPercent (t : ClosedTrade α) : α :=
  if same t.entryPrice 0 then 0 else t.profit / t.entryPrice * 100

def isWin (t : ClosedTrade α) : Bool :=
  decide (0 < t.profit)

end ClosedTrade

namespace TradingRecord

omit [Scalar α]

def empty : TradingRecord α := ⟨[], none⟩

def isFlat (r : TradingRecord α) : Bool :=
  r.position.isNone

/-- Opens a position, unless one is open. -/
def enter? (r : TradingRecord α) (index : Nat) (price : α) :
    Option (TradingRecord α) :=
  match r.position with
  | some _ => none
  | none => some ⟨r.closed, some ⟨index, price⟩⟩

/-- Closes the open position, if there is one. -/
def leave? (r : TradingRecord α) (index : Nat) (price : α) :
    Option (TradingRecord α) :=
  match r.position with
  | none => none
  | some p =>
      some ⟨r.closed ++ [⟨p.entryIndex, p.entryPrice, index, price⟩], none⟩

end TradingRecord
end RuleBacktest
