import RuleBacktest.Bar

/-!
# Price series

A price series holds the bars of one symbol in strictly increasing time order.
Records are admitted in the order in which they come: a record that is no bar is
dropped, and so is a bar that does not come after the last one admitted.
-/

namespace RuleBacktest

open Calendar Scalar

structure PriceSeries (α : Type) [Scalar α] where
  symbol : String
  bars : List (Bar α)
  ordered : bars.Pairwise fun a b => a.time < b.time
  finite : ∀ b ∈ bars, b.isFinite = true

namespace PriceSeries

variable {α : Type} [Scalar α]

/-- The bars that follow an admitted bar at time `last`, or all of them when
none was admitted. -/
def accepted (last : Option Moment) : List (PriceRecord α) → List (Bar α)
  | [] => []
  | r :: rs =>
      match Bar.ofRecord? r with
      | none => accepted last rs
      | some b =>
          if last.all (fun t => decide (t < b.time)) then
            b :: accepted (some b.time) rs
          else accepted last rs

theorem lt_of_mem_accepted {t : Moment} {rs : List (PriceRecord α)} {b : Bar α}
    (hb : b ∈ accepted (some t) rs) : t < b.time := by
  induction rs generalizing t with
  | nil => simp [accepted] at hb
  | cons r rs ih =>
      simp only [accepted] at hb
      split at hb
      next => exact ih hb
      next c _ =>
        split at hb
        next hlt =>
          simp only [Option.all_some, decide_eq_true_eq] at hlt
          rcases List.mem_cons.mp hb with rfl | hmem
          · exact hlt
          · exact Int.lt_trans hlt (ih hmem)
        next => exact ih hb

theorem pairwise_accepted (last : Option Moment) (rs : List (PriceRecord α)) :
    (accepted last rs).Pairwise fun a b => a.time < b.time := by
  induction rs generalizing last with
  | nil => exact List.Pairwise.nil
  | cons r rs ih =>
      simp only [accepted]
      split
      next => exact ih last
      next b _ =>
        split
        next =>
          exact List.Pairwise.cons (fun c hc => lt_of_mem_accepted hc) (ih _)
        next => exact ih last

theorem isFinite_of_mem_accepted {last : Option Moment}
    {rs : List (PriceRecord α)} {b : Bar α}
    (hb : b ∈ accepted last rs) :
    b.isFinite = true := by
  induction rs generalizing last with
  | nil => simp [accepted] at hb
  | cons r rs ih =>
      simp only [accepted] at hb
      split at hb
      next => exact ih hb
      next c hc =>
        split at hb
        next =>
          rcases List.mem_cons.mp hb with rfl | hmem
          · exact Bar.isFinite_of_ofRecord? hc
          · exact ih hmem
        next => exact ih hb

def ofRecords (symbol : String) (records : List (PriceRecord α)) :
    PriceSeries α where
  symbol := symbol
  bars := accepted none records
  ordered := pairwise_accepted none records
  finite _ hb := isFinite_of_mem_accepted hb

def ofBars (symbol : String) (bars : List (Bar α)) : PriceSeries α :=
  ofRecords symbol (bars.map Bar.toRecord)

def empty (symbol : String) : PriceSeries α :=
  ⟨symbol, [], List.Pairwise.nil, by simp⟩

/-- The series of the first `n` bars. -/
def take (n : Nat) (s : PriceSeries α) : PriceSeries α where
  symbol := s.symbol
  bars := s.bars.take n
  ordered := s.ordered.sublist (List.take_sublist n s.bars)
  finite b hb := s.finite b (List.mem_of_mem_take hb)

def length (s : PriceSeries α) : Nat :=
  s.bars.length

def bar? (s : PriceSeries α) (index : Nat) : Option (Bar α) :=
  s.bars[index]?

def close? (s : PriceSeries α) (index : Nat) : Option α :=
  (s.bar? index).map Bar.close

end PriceSeries
end RuleBacktest
