import RuleBacktest.Calendar.Moment
import RuleBacktest.Scalar

/-!
# Price records and bars

A record is a row as a provider delivers it, with any of its values missing.  A
bar is a complete row: its four prices are present and finite, and its volume is
finite where there is one.
-/

namespace RuleBacktest

open Calendar Scalar

structure PriceRecord (α : Type) where
  time : Moment
  opening : Option α
  high : Option α
  low : Option α
  close : Option α
  adjustedClose : Option α
  volume : Option α
  deriving DecidableEq, Repr

structure Bar (α : Type) where
  time : Moment
  opening : α
  high : α
  low : α
  close : α
  volume : Option α
  deriving DecidableEq, Repr

namespace Bar

variable {α : Type} [Scalar α]

def isFinite (b : Bar α) : Bool :=
  Scalar.isFinite b.opening &&
    Scalar.isFinite b.high &&
    Scalar.isFinite b.low &&
    Scalar.isFinite b.close &&
    b.volume.all Scalar.isFinite

def ofRecord? (r : PriceRecord α) : Option (Bar α) :=
  match r.opening.filter Scalar.isFinite, r.high.filter Scalar.isFinite,
      r.low.filter Scalar.isFinite, r.close.filter Scalar.isFinite with
  | some o, some h, some l, some c =>
      some ⟨r.time, o, h, l, c, r.volume.filter Scalar.isFinite⟩
  | _, _, _, _ => none

def toRecord (b : Bar α) : PriceRecord α :=
  ⟨b.time, some b.opening, some b.high, some b.low, some b.close, none,
    b.volume⟩

def volumeOrZero (b : Bar α) : α :=
  b.volume.getD 0

def typicalPrice (b : Bar α) : α :=
  (b.high + b.low + b.close) / 3

def medianPrice (b : Bar α) : α :=
  (b.high + b.low) / 2

/-- The reach of the bar together with the close before it. -/
def trueRange (b : Bar α) (previousClose : α) : α :=
  larger (larger (b.high - b.low) (abs (b.high - previousClose)))
    (abs (b.low - previousClose))

theorem isFinite_of_ofRecord? {r : PriceRecord α} {b : Bar α}
    (h : ofRecord? r = some b) :
    b.isFinite = true := by
  unfold ofRecord? at h
  split at h
  next o hi l c ho hh hl hc =>
    simp only [Option.filter_eq_some_iff] at ho hh hl hc
    simp only [Option.some.injEq] at h
    subst h
    have hv : (r.volume.filter Scalar.isFinite).all Scalar.isFinite = true := by
      cases r.volume with
      | none => rfl
      | some v =>
          by_cases hf : Scalar.isFinite v = true <;> simp [Option.filter, hf]
    simp [isFinite, ho.2, hh.2, hl.2, hc.2, hv]
  next => simp at h

end Bar
end RuleBacktest
