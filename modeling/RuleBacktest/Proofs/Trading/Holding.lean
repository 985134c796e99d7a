import Mathlib.Data.List.Pairwise
import RuleBacktest.Proofs.Trading.Run

/-!
# What a run holds at an index

Of a record that is in order at most one trade lasts over an index, and while
one does, nothing else is held.  Looking back at a record from an index leaves
the trades that are closed by then, and turns the trade that lasts over the
index into an open position.  This is the record of the run that ends there.
-/

namespace RuleBacktest

variable {α : Type}

namespace ClosedTrade

def opened (t : ClosedTrade α) : OpenPosition α :=
  ⟨t.entryIndex, t.entryPrice⟩

/-- Whether the trade is entered by an index and left behind it. -/
def lastsAt (t : ClosedTrade α) (index : Nat) : Bool :=
  decide (t.entryIndex ≤ index) && decide (index < t.exitIndex)

theorem lastsAt_iff {t : ClosedTrade α} {index : Nat} :
    t.lastsAt index = true ↔ t.entryIndex ≤ index ∧ index < t.exitIndex := by
  simp [lastsAt]

end ClosedTrade

namespace TradingRecord

def heldAt? (r : TradingRecord α) (index : Nat) : Option (OpenPosition α) :=
  ((r.closed.find? fun t => t.lastsAt index).map ClosedTrade.opened).or
    (r.position.filter fun p => decide (p.entryIndex ≤ index))

/-- The record as it stands at an index. -/
def asOf (last : Nat) (r : TradingRecord α) : TradingRecord α :=
  ⟨r.closed.filter fun t => decide (t.exitIndex ≤ last), r.heldAt? last⟩

variable {r : TradingRecord α} {stop index last : Nat}

/-! ## At most one position -/

theorem Ordered.eq_or_apart
    (h : r.Ordered stop)
    {t u : ClosedTrade α}
    (ht : t ∈ r.closed)
    (hu : u ∈ r.closed) :
    t = u ∨ t.exitIndex < u.entryIndex ∨ u.exitIndex < t.entryIndex := by
  have happart : r.closed.Pairwise fun t u =>
      t.exitIndex < u.entryIndex ∨ u.exitIndex < t.entryIndex :=
    h.exit_lt_entry.imp Or.inl
  have hsymm : Std.Symm fun t u : ClosedTrade α =>
      t.exitIndex < u.entryIndex ∨ u.exitIndex < t.entryIndex :=
    ⟨fun _ _ hor => hor.symm⟩
  by_cases heq : t = u
  · exact Or.inl heq
  · exact Or.inr (happart.forall ht hu heq)

theorem Ordered.eq_of_lastsAt
    (h : r.Ordered stop)
    {t u : ClosedTrade α}
    (ht : t ∈ r.closed)
    (hu : u ∈ r.closed)
    (htlasts : t.lastsAt index = true)
    (hulasts : u.lastsAt index = true) :
    t = u := by
  rw [ClosedTrade.lastsAt_iff] at htlasts hulasts
  rcases h.eq_or_apart ht hu with heq | hbefore | hbehind
  · exact heq
  · omega
  · omega

theorem heldAt?_eq_some_iff (h : r.Ordered stop) {p : OpenPosition α} :
    r.heldAt? index = some p ↔
      (∃ t ∈ r.closed, t.lastsAt index = true ∧ t.opened = p) ∨
        (r.position = some p ∧ p.entryIndex ≤ index) := by
  rw [heldAt?]
  cases hfound : r.closed.find? fun t => t.lastsAt index with
  | some t =>
      have ht := List.mem_of_find?_eq_some hfound
      have hlasts := List.find?_some hfound
      constructor
      · intro hp
        exact Or.inl ⟨t, ht, hlasts, Option.some.inj hp⟩
      · rintro (⟨u, hu, hulasts, rfl⟩ | ⟨hopen, hp⟩)
        · -- The first trade found is the only one that lasts over the index.
          rw [h.eq_of_lastsAt ht hu hlasts hulasts]
          rfl
        · have hexit := h.exit_lt_open t ht p hopen
          have hspan := ClosedTrade.lastsAt_iff.mp hlasts
          omega
  | none =>
      constructor
      · intro hp
        obtain ⟨hopen, hentry⟩ := Option.filter_eq_some_iff.mp hp
        exact Or.inr ⟨hopen, of_decide_eq_true hentry⟩
      · rintro (⟨u, hu, hulasts, rfl⟩ | ⟨hopen, hp⟩)
        · exact absurd hulasts (List.find?_eq_none.mp hfound u hu)
        · apply Option.filter_eq_some_iff.mpr
          exact ⟨hopen, decide_eq_true hp⟩

theorem Ordered.asOf (h : r.Ordered stop) (last : Nat) :
    (r.asOf last).Ordered (last + 1) where
  entry_lt_exit t ht := h.entry_lt_exit t (List.mem_filter.mp ht).1
  exit_lt_entry := h.exit_lt_entry.filter _
  exit_lt_open t ht p hp := by
    obtain ⟨hmem, hexit⟩ := List.mem_filter.mp ht
    have hle : t.exitIndex ≤ last := of_decide_eq_true hexit
    rcases (heldAt?_eq_some_iff h).mp hp with ⟨u, hu, hlasts, rfl⟩ | ⟨hopen, _⟩
    · have hspan := ClosedTrade.lastsAt_iff.mp hlasts
      have hentry := h.entry_lt_exit t hmem
      rcases h.eq_or_apart hmem hu with rfl | hbefore | hbehind
      · omega
      · exact hbefore
      · omega
    · exact h.exit_lt_open t hmem p hopen
  exit_lt_stop t ht := by
    have hexit : t.exitIndex ≤ last :=
      of_decide_eq_true (List.mem_filter.mp ht).2
    omega
  open_lt_stop p hp := by
    rcases (heldAt?_eq_some_iff h).mp hp with ⟨u, _, hlasts, rfl⟩ | ⟨_, hentry⟩
    · exact Nat.lt_succ_of_le (ClosedTrade.lastsAt_iff.mp hlasts).1
    · exact Nat.lt_succ_of_le hentry

/-- Looking back does not change what was held before. -/
theorem Ordered.heldAt?_asOf
    (h : r.Ordered stop)
    (hindex : index ≤ last) :
    (r.asOf last).heldAt? index = r.heldAt? index := by
  ext p
  rw [heldAt?_eq_some_iff (h.asOf last), heldAt?_eq_some_iff h]
  constructor
  · rintro (⟨t, ht, hlasts, hp⟩ | ⟨hheld, hentry⟩)
    · exact Or.inl ⟨t, (List.mem_filter.mp ht).1, hlasts, hp⟩
    · rcases (heldAt?_eq_some_iff h).mp
        hheld with ⟨t, ht, hlasts, rfl⟩ | ⟨hopen, _⟩
      · have hspan := ClosedTrade.lastsAt_iff.mp hlasts
        exact Or.inl
          ⟨t, ht, ClosedTrade.lastsAt_iff.mpr ⟨hentry, by omega⟩, rfl⟩
      · exact Or.inr ⟨hopen, hentry⟩
  · rintro (⟨t, ht, hlasts, rfl⟩ | ⟨hopen, hentry⟩)
    · have hspan := ClosedTrade.lastsAt_iff.mp hlasts
      -- A trade that ends behind `last` has become the open position.
      by_cases hexit : t.exitIndex ≤ last
      · exact Or.inl
          ⟨t, List.mem_filter.mpr ⟨ht, decide_eq_true hexit⟩, hlasts, rfl⟩
      · have hlast : t.lastsAt last = true :=
          ClosedTrade.lastsAt_iff.mpr ⟨by omega, by omega⟩
        exact Or.inr
          ⟨(heldAt?_eq_some_iff h).mpr (Or.inl ⟨t, ht, hlast, rfl⟩), hspan.1⟩
    · have hheld : r.heldAt? last = some p :=
        (heldAt?_eq_some_iff h).mpr (Or.inr ⟨hopen, by omega⟩)
      exact Or.inr ⟨hheld, hentry⟩

/-! ## Shorter runs -/

theorem Ordered.asOf_eq_self (h : r.Ordered (last + 1)) : r.asOf last = r := by
  have hclosed :
      r.closed.filter (fun t => decide (t.exitIndex ≤ last)) = r.closed := by
    apply List.filter_eq_self.mpr
    intro t ht
    exact decide_eq_true (Nat.le_of_lt_succ (h.exit_lt_stop t ht))
  have hheld : r.heldAt? last = r.position := by
    ext p
    rw [heldAt?_eq_some_iff h]
    constructor
    · rintro (⟨t, ht, hlasts, rfl⟩ | ⟨hopen, _⟩)
      · have hexit := h.exit_lt_stop t ht
        have hspan := ClosedTrade.lastsAt_iff.mp hlasts
        omega
      · exact hopen
    · intro hopen
      exact Or.inr ⟨hopen, Nat.le_of_lt_succ (h.open_lt_stop p hopen)⟩
  rw [TradingRecord.asOf, hclosed, hheld]

end TradingRecord

open TradingRecord

variable [Scalar α]

/-- What happens behind an index is not seen from there. -/
theorem Strategy.asOf_tradeAt (s : Strategy α) (r : TradingRecord α)
    {last index : Nat}
    (hlast : last < index)
    (price : α) :
    (s.tradeAt r index price).asOf last = r.asOf last := by
  rcases s.tradeAt_cases r index price with
    ⟨hflat, _, hstep⟩ | ⟨p, hopen, _, hstep⟩ | ⟨_, _, hstep⟩ | ⟨p, _, _, hstep⟩
  · have hlate : ¬ index ≤ last := by omega
    rw [hstep]
    simp [asOf, heldAt?, hflat, Option.filter, hlate]
  · have hlate : ¬ index ≤ last := by omega
    have hclosed : (r.closed ++
        [(⟨p.entryIndex, p.entryPrice, index, price⟩ : ClosedTrade α)]).filter
        (fun t => decide (t.exitIndex ≤ last)) =
      r.closed.filter fun t => decide (t.exitIndex ≤ last) := by
      simp [List.filter_append, hlate]
    rw [hstep, asOf, asOf, hclosed, heldAt?, heldAt?, hopen, List.find?_append]
    cases r.closed.find? fun t => t.lastsAt last with
    | some t => rfl
    | none =>
        by_cases hentry : p.entryIndex ≤ last
        · simp [ClosedTrade.lastsAt, ClosedTrade.opened, Option.filter, hentry,
            hlast]
        · simp [ClosedTrade.lastsAt, Option.filter, hentry]
  · rw [hstep]
  · rw [hstep]

theorem Strategy.trade_take (s : Strategy α) (bars : List (Bar α))
    (last : Nat) :
    s.trade (bars.take (last + 1)) = (s.trade bars).asOf last := by
  -- From the last bar backwards: a bar behind the index is dropped on both
  -- sides.
  induction bars using List.reverseRecOn with
  | nil =>
      rw [List.take_nil]
      exact (ordered_empty (last + 1)).asOf_eq_self.symm
  | append_singleton bars b ih =>
      by_cases hlength : bars.length ≤ last
      · have hall : (bars ++ [b]).take (last + 1) = bars ++ [b] := by
          apply List.take_of_length_le
          simp only [List.length_append, List.length_singleton]
          omega
        rw [hall]
        apply (Ordered.mono (s.ordered_trade _) _).asOf_eq_self.symm
        simp only [List.length_append, List.length_singleton]
        omega
      · have htake : (bars ++ [b]).take (last + 1) = bars.take (last + 1) :=
          List.take_append_of_le_length (by omega)
        rw [htake, ih, trade_append_singleton, s.asOf_tradeAt _ (by omega)]

end RuleBacktest
