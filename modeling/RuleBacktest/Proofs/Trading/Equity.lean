import RuleBacktest.Backtest.Performance
import RuleBacktest.Proofs.Causality.Sweep
import RuleBacktest.Proofs.Trading.Holding

/-!
# The account at every bar

The account goes through the bars with the trades that are still to be closed.
For a record in order its value at a bar has a form of its own: the capital, the
profits of the trades closed by then, what the position held there would bring,
and the noise up to there.  None of these depends on what the record says about
later bars, and so an account over the first bars is the first part of the
account over all of them.
-/

namespace RuleBacktest

open Scalar

variable {α : Type} [Scalar α]

/-! ## The form of the account -/

namespace TradingRecord

/-- The profits of trades in their order, added to what is there. -/
def addProfits (realised : α) (trades : List (ClosedTrade α)) : α :=
  trades.foldl (fun sum t => sum + t.profit) realised

/-- What the trades closed before an index have brought. -/
def realisedBefore (r : TradingRecord α) (index : Nat) : α :=
  addProfits 0 (r.closed.filter fun t => decide (t.exitIndex < index))

/-- What the position held at an index would bring at a price. -/
def unrealisedAt (r : TradingRecord α) (index : Nat) (price : α) : α :=
  match r.heldAt? index with
  | some p => p.unrealised price
  | none => 0

end TradingRecord

namespace Performance

def noiseBefore (settings : BacktestSettings α) : Nat → α
  | 0 => 0
  | index + 1 =>
      match settings.noiseSeed with
      | some seed => noiseBefore settings index + noiseAt seed index
      | none => noiseBefore settings index

def markedAt (settings : BacktestSettings α) (r : TradingRecord α) (index : Nat)
    (price : α) : α :=
  settings.capital + r.realisedBefore (index + 1) + r.unrealisedAt index price +
    noiseBefore settings (index + 1)

/-- The account when it comes to a bar. -/
def Account.reached (settings : BacktestSettings α) (r : TradingRecord α)
    (index : Nat) : Account α :=
  ⟨index, r.realisedBefore index,
    r.closed.filter fun t => decide (index ≤ t.exitIndex),
    noiseBefore settings index⟩

end Performance

/-! ## One bar -/

open TradingRecord Performance

variable {stop : Nat} {r : TradingRecord α}

omit [Scalar α] in
/-- In order of their exits all trades are closed from a bound on if the first
one is. -/
theorem ClosedTrade.filter_of_le_exitIndex {t : ClosedTrade α}
    {trades : List (ClosedTrade α)}
    (hsorted : (t :: trades).Pairwise fun t u => t.exitIndex < u.exitIndex)
    {bound : Nat}
    (hbound : bound ≤ t.exitIndex) :
    (t :: trades).filter (fun u => decide (u.exitIndex < bound)) = [] ∧
      (t :: trades).filter (fun u => decide (bound ≤ u.exitIndex)) =
        t :: trades := by
  have hall : ∀ u ∈ t :: trades, bound ≤ u.exitIndex := by
    intro u hu
    rcases List.mem_cons.mp hu with rfl | hmem
    · exact hbound
    · have hlater := (List.pairwise_cons.mp hsorted).1 u hmem
      omega
  constructor
  · apply List.filter_eq_nil_iff.mpr
    intro u hu
    have hlate := hall u hu
    rw [decide_eq_true_iff]
    omega
  · apply List.filter_eq_self.mpr
    intro u hu
    exact decide_eq_true (hall u hu)

/-- Settling takes exactly the trades that are closed by the index. -/
theorem Performance.settle_eq (index : Nat) {trades : List (ClosedTrade α)}
    (hsorted : trades.Pairwise fun t u => t.exitIndex < u.exitIndex)
    (realised : α) :
    settle index realised trades =
      (addProfits realised
          (trades.filter fun t => decide (t.exitIndex < index + 1)),
        trades.filter fun t => decide (index + 1 ≤ t.exitIndex)) := by
  induction trades generalizing realised with
  | nil => rfl
  | cons t trades ih =>
      by_cases hexit : t.exitIndex ≤ index
      · have hclosed : t.exitIndex < index + 1 := by omega
        have hsettled : ¬ index + 1 ≤ t.exitIndex := by omega
        rw [settle, if_pos hexit, ih (List.pairwise_cons.mp hsorted).2]
        simp only [List.filter_cons, hclosed, hsettled, decide_true,
          decide_false, if_true, Bool.false_eq_true, if_false]
        rfl
      · obtain ⟨hnone, hall⟩ :=
          ClosedTrade.filter_of_le_exitIndex hsorted (Nat.lt_of_not_le hexit)
        rw [settle, if_neg hexit, hnone, hall]
        rfl

omit [Scalar α] in
/-- In order of their exits the trades closed before the next index are those
closed before this one and then those closed at it. -/
theorem ClosedTrade.filter_exitIndex_lt_succ (index : Nat)
    {trades : List (ClosedTrade α)}
    (hsorted : trades.Pairwise fun t u => t.exitIndex < u.exitIndex) :
    trades.filter (fun t => decide (t.exitIndex < index + 1)) =
      trades.filter (fun t => decide (t.exitIndex < index)) ++
        (trades.filter fun t => decide (index ≤ t.exitIndex)).filter fun t =>
          decide (t.exitIndex < index + 1) := by
  induction trades with
  | nil => rfl
  | cons t trades ih =>
      by_cases hexit : t.exitIndex < index
      · have hlt : t.exitIndex < index + 1 := by omega
        have hover : ¬ index ≤ t.exitIndex := by omega
        simp only [List.filter_cons, hexit, hlt, hover, decide_true,
          decide_false, if_true, Bool.false_eq_true, if_false, List.cons_append]
        rw [ih (List.pairwise_cons.mp hsorted).2]
      · obtain ⟨hnone, hall⟩ :=
          ClosedTrade.filter_of_le_exitIndex hsorted (Nat.le_of_not_lt hexit)
        rw [hnone, hall, List.nil_append]

theorem TradingRecord.Ordered.realisedBefore_succ
    (h : r.Ordered stop)
    (index : Nat) :
    r.realisedBefore (index + 1) =
      addProfits (r.realisedBefore index)
        ((r.closed.filter fun t => decide (index ≤ t.exitIndex)).filter fun t =>
          decide (t.exitIndex < index + 1)) := by
  rw [realisedBefore, ClosedTrade.filter_exitIndex_lt_succ index h.exit_lt_exit,
    addProfits, List.foldl_append]
  rfl

omit [Scalar α] in
/-- The first trade that is still to be closed is the one that lasts over the
index, if it has been entered at all. -/
theorem TradingRecord.Ordered.find?_lastsAt (h : r.Ordered stop) (index : Nat) :
    ((r.closed.find? fun t => decide (index + 1 ≤ t.exitIndex)).filter
        fun t => decide (t.entryIndex ≤ index)) =
      r.closed.find? fun t => t.lastsAt index := by
  -- Only the order of the trades is needed, so the record can be forgotten.
  have hpairwise := h.exit_lt_entry
  generalize r.closed = trades at hpairwise
  induction trades with
  | nil => rfl
  | cons t trades ih =>
      obtain ⟨hbehind, hrest⟩ := List.pairwise_cons.mp hpairwise
      by_cases hexit : index + 1 ≤ t.exitIndex
      · have hfirst :
            (t :: trades).find?
              (fun u => decide (index + 1 ≤ u.exitIndex)) = some t :=
          List.find?_cons_of_pos (decide_eq_true hexit)
        rw [hfirst]
        by_cases hentry : t.entryIndex ≤ index
        · have hlasts : t.lastsAt index = true :=
            ClosedTrade.lastsAt_iff.mpr ⟨hentry, hexit⟩
          have hheld :
              (t :: trades).find? (fun u => u.lastsAt index) = some t :=
            List.find?_cons_of_pos hlasts
          rw [hheld]
          simp [Option.filter, hentry]
        · have hnone :
              (t :: trades).find? (fun u => u.lastsAt index) = none := by
            apply List.find?_eq_none.mpr
            intro u hu hlasts
            have hspan := ClosedTrade.lastsAt_iff.mp hlasts
            rcases List.mem_cons.mp hu with rfl | hmem
            · omega
            · have := hbehind u hmem
              omega
          rw [hnone]
          simp [Option.filter, hentry]
      · have hover : t.lastsAt index = false := by
          rw [Bool.eq_false_iff, ne_eq, ClosedTrade.lastsAt_iff]
          omega
        simp only [List.find?_cons, hexit, hover, decide_false]
        exact ih hrest

theorem TradingRecord.Ordered.holding_eq
    (h : r.Ordered stop)
    (index : Nat) (price : α) :
    holding index price
        (r.closed.filter fun t => decide (index + 1 ≤ t.exitIndex)) r.position =
      r.unrealisedAt index price := by
  rw [holding, List.head?_filter, h.find?_lastsAt, unrealisedAt, heldAt?]
  cases r.closed.find? fun t => t.lastsAt index with
  | some t => rfl
  | none => rfl

theorem Performance.Account.step_reached (settings : BacktestSettings α)
    (h : r.Ordered stop)
    (index : Nat) (price : α) :
    Account.step settings r.position (.reached settings r index) price =
      (.reached settings r (index + 1), markedAt settings r index price) := by
  have hpending :
      (r.closed.filter fun t => decide (index ≤ t.exitIndex)).filter
          (fun t => decide (index + 1 ≤ t.exitIndex)) =
        r.closed.filter fun t => decide (index + 1 ≤ t.exitIndex) := by
    rw [List.filter_filter]
    apply List.filter_congr
    intro t _
    by_cases hexit : index + 1 ≤ t.exitIndex
    · have hle : index ≤ t.exitIndex := by omega
      simp [hexit, hle]
    · simp [hexit]
  have hsettle :=
    settle_eq index
      (h.exit_lt_exit.filter fun t => decide (index ≤ t.exitIndex))
      (r.realisedBefore index)
  rw [hpending, ← h.realisedBefore_succ] at hsettle
  simp only [Account.step, Account.reached, hsettle, h.holding_eq index price]
  rfl

/-! ## All bars -/

theorem Performance.sweep_reached (settings : BacktestSettings α)
    (h : r.Ordered stop)
    (closes : List α) (start index : Nat) :
    (sweep (Account.step settings r.position)
        (.reached settings r start) closes)[index]? =
      closes[index]?.map (markedAt settings r (start + index)) := by
  -- The account stays the one reached, whichever bar the sweep has come to.
  induction closes generalizing start index with
  | nil => rfl
  | cons price closes ih =>
      rw [sweep_cons, Account.step_reached settings h]
      cases index with
      | zero => rfl
      | succ index =>
          rw [List.getElem?_cons_succ, List.getElem?_cons_succ, ih]
          have hindex : start + 1 + index = start + (index + 1) := by omega
          rw [hindex]

/-- The value at every bar, for a record in order. -/
theorem Performance.equityValues_getElem? (settings : BacktestSettings α)
    (h : r.Ordered stop)
    (closes : List α) (index : Nat) :
    (equityValues settings r closes)[index]? =
      closes[index]?.map (markedAt settings r index) := by
  have hnone : r.closed.filter (fun t => decide (t.exitIndex < 0)) = [] := by
    apply List.filter_eq_nil_iff.mpr
    simp
  have hall :
      r.closed.filter (fun t => decide (0 ≤ t.exitIndex)) = r.closed := by
    apply List.filter_eq_self.mpr
    simp
  have hstart : (⟨0, 0, r.closed, 0⟩ : Account α) = .reached settings r 0 := by
    rw [Account.reached, realisedBefore, hnone, hall]
    rfl
  rw [equityValues, hstart, sweep_reached settings h, Nat.zero_add]

omit [Scalar α] in
theorem Performance.map_value_curve {values : List α} {bars : List (Bar α)}
    (hlength : values.length = bars.length) :
    (curve values bars).map EquityPoint.value = values := by
  have hvalues : (curve values bars).map EquityPoint.value =
      ((values.zip bars).zipIdx.map Prod.fst).map Prod.fst := by
    rw [curve, List.map_map, List.map_map]
    rfl
  rw [hvalues, List.zipIdx_map_fst, List.map_fst_zip (Nat.le_of_eq hlength)]

/-! ## Looking back -/

theorem TradingRecord.realisedBefore_asOf (r : TradingRecord α)
    {index last : Nat}
    (hindex : index ≤ last + 1) :
    (r.asOf last).realisedBefore index = r.realisedBefore index := by
  rw [realisedBefore, realisedBefore, asOf, List.filter_filter]
  congr 1
  apply List.filter_congr
  intro t _
  by_cases hexit : t.exitIndex < index
  · have hle : t.exitIndex ≤ last := by omega
    simp [hexit, hle]
  · simp [hexit]

theorem Performance.markedAt_asOf (settings : BacktestSettings α)
    (h : r.Ordered stop)
    {index last : Nat}
    (hindex : index ≤ last)
    (price : α) :
    markedAt settings (r.asOf last) index price =
      markedAt settings r index price := by
  rw [markedAt, markedAt, r.realisedBefore_asOf (by omega), unrealisedAt,
    unrealisedAt, h.heldAt?_asOf hindex]

theorem Performance.equityValues_asOf (settings : BacktestSettings α)
    (h : r.Ordered stop)
    (closes : List α) (last : Nat) :
    equityValues settings (r.asOf last) (closes.take (last + 1)) =
      (equityValues settings r closes).take (last + 1) := by
  apply List.ext_getElem?
  intro index
  rw [equityValues_getElem? settings (h.asOf last), List.getElem?_take,
    List.getElem?_take, equityValues_getElem? settings h]
  by_cases hindex : index < last + 1
  · rw [if_pos hindex, if_pos hindex]
    cases closes[index]? with
    | none => rfl
    | some price =>
        exact congrArg some
          (markedAt_asOf settings h (Nat.le_of_lt_succ hindex) price)
  · rw [if_neg hindex, if_neg hindex]
    rfl

end RuleBacktest
