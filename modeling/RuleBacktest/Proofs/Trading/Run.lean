import Mathlib.Data.List.Induction
import RuleBacktest.Backtest.Simulate

/-!
# Runs of a strategy

What one bar can do to a record, and what follows for the record of a whole run:
its trades are in order and apart from each other, every price in it is the
close of its bar, and two strategies that agree on every bar of a run have the
same record.
-/

namespace RuleBacktest

variable {α : Type} [Scalar α]

/-! ## One bar -/

/-- On one bar a strategy enters, leaves, stays out or stays in. -/
theorem Strategy.tradeAt_cases (s : Strategy α) (r : TradingRecord α)
    (index : Nat) (price : α) :
    (r.position = none ∧
        s.entry.holds index = true ∧
        s.tradeAt r index price = ⟨r.closed, some ⟨index, price⟩⟩) ∨
      (∃ p,
        r.position = some p ∧
        s.exit.holds index = true ∧
        s.tradeAt r index price =
          ⟨r.closed ++ [⟨p.entryIndex, p.entryPrice, index, price⟩], none⟩) ∨
      (r.position = none ∧
        s.entry.holds index = false ∧
        s.tradeAt r index price = r) ∨
      ∃ p,
        r.position = some p ∧
        s.exit.holds index = false ∧
        s.tradeAt r index price = r := by
  rcases r with ⟨closed, position⟩
  cases position with
  | none =>
      cases hentry : s.entry.holds index with
      | true =>
          left
          refine ⟨rfl, rfl, ?_⟩
          simp [tradeAt, TradingRecord.isFlat, TradingRecord.enter?, hentry]
      | false =>
          right; right; left
          refine ⟨rfl, rfl, ?_⟩
          simp [tradeAt, TradingRecord.isFlat, hentry]
  | some p =>
      cases hexit : s.exit.holds index with
      | true =>
          right; left
          refine ⟨p, rfl, rfl, ?_⟩
          simp [tradeAt, TradingRecord.isFlat, TradingRecord.leave?, hexit]
      | false =>
          right; right; right
          refine ⟨p, rfl, rfl, ?_⟩
          simp [tradeAt, TradingRecord.isFlat, hexit]

theorem Strategy.tradeAt_congr {s s' : Strategy α} {index : Nat}
    (hentry : s.entry.holds index = s'.entry.holds index)
    (hexit : s.exit.holds index = s'.exit.holds index)
    (r : TradingRecord α) (price : α) :
    s.tradeAt r index price = s'.tradeAt r index price := by
  rw [tradeAt, tradeAt, hentry, hexit]

/-! ## Whole runs -/

theorem Strategy.trade_append_singleton (s : Strategy α) (bars : List (Bar α))
    (b : Bar α) :
    s.trade (bars ++ [b]) = s.tradeAt (s.trade bars) bars.length b.close := by
  simp [trade, List.zipIdx_append, List.foldl_append]

theorem Strategy.simulate_eq_trade (s : Strategy α) {series : PriceSeries α}
    (hbars : series.bars ≠ []) :
    s.simulate series = .ok (s.trade series.bars) := by
  rw [simulate, if_neg]
  intro hempty
  exact hbars (List.isEmpty_iff.mp hempty)

/-- What holds before the first bar and is kept by every bar holds after the
last one. -/
theorem Strategy.trade_induction {motive : Nat → TradingRecord α → Prop}
    (s : Strategy α) (bars : List (Bar α))
    (hempty : motive 0 .empty)
    (hstep : ∀ index b r,
      bars[index]? = some b →
      motive index r →
      motive (index + 1) (s.tradeAt r index b.close)) :
    motive bars.length (s.trade bars) := by
  -- Stated for every first part of the bars, the claim goes by their number.
  have hprefix : ∀ n, n ≤ bars.length → motive n (s.trade (bars.take n)) := by
    intro n
    induction n with
    | zero =>
        intro _
        exact hempty
    | succ n ih =>
        intro hn
        have hnext : bars[n]? = some bars[n] := List.getElem?_eq_getElem hn
        have htake : (bars.take n).length = n :=
          List.length_take_of_le (by omega)
        rw [List.take_succ_eq_append_getElem hn, trade_append_singleton, htake]
        exact hstep n bars[n] _ hnext (ih (by omega))
  have hall := hprefix bars.length (Nat.le_refl _)
  rwa [List.take_length] at hall

theorem Strategy.trade_congr {s s' : Strategy α} {bars : List (Bar α)}
    (hentry :
      ∀ index, index < bars.length → s.entry.holds index = s'.entry.holds index)
    (hexit :
      ∀ index, index < bars.length → s.exit.holds index = s'.exit.holds index) :
    s.trade bars = s'.trade bars := by
  induction bars using List.reverseRecOn with
  | nil => rfl
  | append_singleton bars b ih =>
      have hlength : (bars ++ [b]).length = bars.length + 1 := by simp
      rw [hlength] at hentry hexit
      have hbefore : s.trade bars = s'.trade bars := by
        apply ih
        · intro index hindex
          exact hentry index (by omega)
        · intro index hindex
          exact hexit index (by omega)
      rw [trade_append_singleton, trade_append_singleton, hbefore]
      exact tradeAt_congr (hentry _ (by omega)) (hexit _ (by omega)) _ _

/-! ## The order of the trades -/

namespace TradingRecord

/-- The trades of a record come one after another, all of them before the open
position, and all of it before a given index. -/
structure Ordered (r : TradingRecord α) (stop : Nat) : Prop where
  entry_lt_exit : ∀ t ∈ r.closed, t.entryIndex < t.exitIndex
  exit_lt_entry : r.closed.Pairwise fun t u => t.exitIndex < u.entryIndex
  exit_lt_open : ∀ t ∈ r.closed, ∀ p, r.position = some p →
    t.exitIndex < p.entryIndex
  exit_lt_stop : ∀ t ∈ r.closed, t.exitIndex < stop
  open_lt_stop : ∀ p, r.position = some p → p.entryIndex < stop

omit [Scalar α]

theorem ordered_empty (stop : Nat) :
    (empty : TradingRecord α).Ordered stop := by
  constructor <;> simp [empty]

variable {r : TradingRecord α} {stop : Nat}

theorem Ordered.mono {stop' : Nat}
    (h : r.Ordered stop)
    (hstop : stop ≤ stop') :
    r.Ordered stop' where
  entry_lt_exit := h.entry_lt_exit
  exit_lt_entry := h.exit_lt_entry
  exit_lt_open := h.exit_lt_open
  exit_lt_stop t ht := Nat.lt_of_lt_of_le (h.exit_lt_stop t ht) hstop
  open_lt_stop p hp := Nat.lt_of_lt_of_le (h.open_lt_stop p hp) hstop

theorem Ordered.enter (h : r.Ordered stop) (price : α) :
    Ordered ⟨r.closed, some ⟨stop, price⟩⟩ (stop + 1) where
  entry_lt_exit := h.entry_lt_exit
  exit_lt_entry := h.exit_lt_entry
  exit_lt_open t ht p hp := by
    rw [← Option.some.inj hp]
    exact h.exit_lt_stop t ht
  exit_lt_stop t ht := Nat.lt_succ_of_lt (h.exit_lt_stop t ht)
  open_lt_stop p hp := by
    rw [← Option.some.inj hp]
    exact Nat.lt_succ_self stop

theorem Ordered.leave
    (h : r.Ordered stop)
    {p : OpenPosition α}
    (hp : r.position = some p)
    (price : α) :
    Ordered ⟨r.closed ++ [⟨p.entryIndex, p.entryPrice, stop, price⟩], none⟩
      (stop + 1) where
  entry_lt_exit t ht := by
    rcases List.mem_append.mp ht with hold | hnew
    · exact h.entry_lt_exit t hold
    · rw [List.mem_singleton.mp hnew]
      exact h.open_lt_stop p hp
  exit_lt_entry := by
    apply List.pairwise_append.mpr
    refine ⟨h.exit_lt_entry, List.pairwise_singleton _ _, ?_⟩
    intro t ht u hu
    rw [List.mem_singleton.mp hu]
    exact h.exit_lt_open t ht p hp
  exit_lt_open t _ q hq := by
    cases hq
  exit_lt_stop t ht := by
    rcases List.mem_append.mp ht with hold | hnew
    · exact Nat.lt_succ_of_lt (h.exit_lt_stop t hold)
    · rw [List.mem_singleton.mp hnew]
      exact Nat.lt_succ_self stop
  open_lt_stop q hq := by
    cases hq

/-- Of two trades in order the first one is left before the other one is
left. -/
theorem Ordered.exit_lt_exit (h : r.Ordered stop) :
    r.closed.Pairwise fun t u => t.exitIndex < u.exitIndex := by
  apply h.exit_lt_entry.imp_of_mem
  intro t u _ hu htu
  exact Nat.lt_trans htu (h.entry_lt_exit u hu)

end TradingRecord

theorem Strategy.ordered_tradeAt (s : Strategy α) {r : TradingRecord α}
    {index : Nat}
    (h : r.Ordered index)
    (price : α) :
    (s.tradeAt r index price).Ordered (index + 1) := by
  rcases s.tradeAt_cases r index price with
    ⟨_, _, hstep⟩ | ⟨p, hopen, _, hstep⟩ | ⟨_, _, hstep⟩ | ⟨p, _, _, hstep⟩
  · rw [hstep]
    exact h.enter price
  · rw [hstep]
    exact h.leave hopen price
  · rw [hstep]
    exact h.mono (Nat.le_succ index)
  · rw [hstep]
    exact h.mono (Nat.le_succ index)

theorem Strategy.ordered_trade (s : Strategy α) (bars : List (Bar α)) :
    (s.trade bars).Ordered bars.length := by
  apply s.trade_induction bars (motive := fun stop r => r.Ordered stop)
  · exact TradingRecord.ordered_empty 0
  · intro index b r _ h
    exact s.ordered_tradeAt h b.close

/-! ## The prices of the trades -/

/-- Every price of the record is the close at its index. -/
structure TradingRecord.PricedBy (close? : Nat → Option α)
    (r : TradingRecord α) : Prop where
  entry : ∀ t ∈ r.closed, close? t.entryIndex = some t.entryPrice
  exit : ∀ t ∈ r.closed, close? t.exitIndex = some t.exitPrice
  position : ∀ p, r.position = some p → close? p.entryIndex = some p.entryPrice

theorem Strategy.pricedBy_tradeAt (s : Strategy α) {close? : Nat → Option α}
    {index : Nat} {price : α}
    (hprice : close? index = some price)
    {r : TradingRecord α}
    (h : r.PricedBy close?) :
    (s.tradeAt r index price).PricedBy close? := by
  rcases s.tradeAt_cases r index price with
    ⟨_, _, hstep⟩ | ⟨p, hopen, _, hstep⟩ | ⟨_, _, hstep⟩ | ⟨p, _, _, hstep⟩
  · rw [hstep]
    refine ⟨h.entry, h.exit, ?_⟩
    intro p hp
    rw [← Option.some.inj hp]
    exact hprice
  · rw [hstep]
    refine ⟨?_, ?_, ?_⟩
    · intro t ht
      rcases List.mem_append.mp ht with hold | hnew
      · exact h.entry t hold
      · rw [List.mem_singleton.mp hnew]
        exact h.position p hopen
    · intro t ht
      rcases List.mem_append.mp ht with hold | hnew
      · exact h.exit t hold
      · rw [List.mem_singleton.mp hnew]
        exact hprice
    · intro q hq
      cases hq
  · rw [hstep]
    exact h
  · rw [hstep]
    exact h

theorem Strategy.pricedBy_trade (s : Strategy α) (bars : List (Bar α)) :
    (s.trade bars).PricedBy fun index => bars[index]?.map Bar.close := by
  apply s.trade_induction bars
    (motive := fun _ r => r.PricedBy fun index => bars[index]?.map Bar.close)
  · constructor <;> simp [TradingRecord.empty]
  · intro index b r hb h
    apply s.pricedBy_tradeAt _ h
    rw [hb]
    rfl

end RuleBacktest
