import RuleBacktest.Proofs.Cache.Faithful
import RuleBacktest.Proofs.Trading.Run
import RuleBacktest.Scalar.Binary64

/-!
# Alternation of two signals

Given a signal to enter and a signal to leave, the trades are determined: enter
at the first entry signal, leave at the first exit signal behind it, enter at
the first entry signal behind that, and so on up to the last bar.  The record of
a run is the one that alternates in this way.
-/

namespace RuleBacktest

/-- No signal from `start` on and before `stop`. -/
def Silent (signal : Nat → Bool) (start stop : Nat) : Prop :=
  ∀ i, start ≤ i → i < stop → signal i = false

/-- The least index from `start` on and before `stop` at which there is a
signal. -/
structure IsFirst (signal : Nat → Bool) (start stop index : Nat) : Prop where
  start_le : start ≤ index
  lt_stop : index < stop
  given : signal index = true
  silent : Silent signal start index

/-- The pairs of first signals from `start` on, and the last entry if no exit
belongs to it. -/
inductive Alternation (entry exit : Nat → Bool) (stop : Nat) :
    Nat → List (Nat × Nat) → Option Nat → Prop
  | out {start : Nat} (hsilent : Silent entry start stop) :
      Alternation entry exit stop start [] none
  | held {start e : Nat}
      (hentry : IsFirst entry start stop e)
      (hsilent : Silent exit (e + 1) stop) :
      Alternation entry exit stop start [] (some e)
  | traded {start e x : Nat} {pairs : List (Nat × Nat)} {last : Option Nat}
      (hentry : IsFirst entry start stop e)
      (hexit : IsFirst exit (e + 1) stop x)
      (hrest : Alternation entry exit stop (x + 1) pairs last) :
      Alternation entry exit stop start ((e, x) :: pairs) last

/-! ## First signals -/

section Signals

variable {signal : Nat → Bool} {start stop index : Nat}

theorem Silent.succ
    (h : Silent signal start stop)
    (hstop : signal stop = false) :
    Silent signal start (stop + 1) := by
  intro i hstart hi
  rcases Nat.lt_succ_iff_lt_or_eq.mp hi with hlt | heq
  · exact h i hstart hlt
  · rw [heq]
    exact hstop

theorem Silent.isFirst
    (h : Silent signal start stop)
    (hstart : start ≤ stop)
    (hstop : signal stop = true) :
    IsFirst signal start (stop + 1) stop where
  start_le := hstart
  lt_stop := Nat.lt_succ_self stop
  given := hstop
  silent := h

theorem IsFirst.succ (h : IsFirst signal start stop index) :
    IsFirst signal start (stop + 1) index where
  start_le := h.start_le
  lt_stop := Nat.lt_succ_of_lt h.lt_stop
  given := h.given
  silent := h.silent

theorem IsFirst.not_silent (h : IsFirst signal start stop index) :
    ¬ Silent signal start stop := by
  intro hsilent
  have hnone := hsilent index h.start_le h.lt_stop
  rw [h.given] at hnone
  cases hnone

theorem IsFirst.le_of_given
    (h : IsFirst signal start stop index)
    {i : Nat}
    (hstart : start ≤ i)
    (hi : signal i = true) :
    index ≤ i := by
  by_contra hlt
  have hnone := h.silent i hstart (by omega)
  rw [hi] at hnone
  cases hnone

theorem IsFirst.eq {index' : Nat}
    (h : IsFirst signal start stop index)
    (h' : IsFirst signal start stop index') :
    index = index' := by
  have hle : index ≤ index' := h.le_of_given h'.start_le h'.given
  have hge : index' ≤ index := h'.le_of_given h.start_le h.given
  exact Nat.le_antisymm hle hge

end Signals

/-! ## One index more -/

namespace Alternation

variable {entry exit : Nat → Bool} {stop start e : Nat}
  {pairs : List (Nat × Nat)} {last : Option Nat}

theorem succ_out
    (h : Alternation entry exit stop start pairs none)
    (hentry : entry stop = false) :
    Alternation entry exit (stop + 1) start pairs none := by
  generalize hlast : none = last at h
  induction h with
  | out hsilent => exact out (hsilent.succ hentry)
  | held _ _ => cases hlast
  | traded he hx _ ih => exact traded he.succ hx.succ (ih hlast)

theorem succ_enter
    (h : Alternation entry exit stop start pairs none)
    (hstart : start ≤ stop)
    (hentry : entry stop = true) :
    Alternation entry exit (stop + 1) start pairs (some stop) := by
  generalize hlast : none = last at h
  induction h with
  | out hsilent =>
      apply held (hsilent.isFirst hstart hentry)
      intro i hi hlt
      omega
  | held _ _ => cases hlast
  | traded he hx _ ih => exact traded he.succ hx.succ (ih hx.lt_stop hlast)

theorem succ_held
    (h : Alternation entry exit stop start pairs (some e))
    (hexit : exit stop = false) :
    Alternation entry exit (stop + 1) start pairs (some e) := by
  generalize hlast : some e = last at h
  induction h with
  | out _ => cases hlast
  | held he hsilent =>
      cases hlast
      exact held he.succ (hsilent.succ hexit)
  | traded he hx _ ih => exact traded he.succ hx.succ (ih hlast)

theorem succ_leave (h : Alternation entry exit stop start pairs (some e))
    (hexit : exit stop = true) :
    Alternation entry exit (stop + 1) start (pairs ++ [(e, stop)]) none := by
  generalize hlast : some e = last at h
  induction h with
  | out _ => cases hlast
  | held he hsilent =>
      cases hlast
      apply traded he.succ (hsilent.isFirst he.lt_stop hexit)
      apply out
      intro i hi hlt
      omega
  | traded he hx _ ih => exact traded he.succ hx.succ (ih hlast)

/-! ## What an alternation determines -/

theorem eq_and_eq {pairs' : List (Nat × Nat)} {last' : Option Nat}
    (h : Alternation entry exit stop start pairs last)
    (h' : Alternation entry exit stop start pairs' last') :
    pairs = pairs' ∧ last = last' := by
  -- Either both derivations begin alike, or one of them finds a signal where
  -- the other has none.
  induction h generalizing pairs' last' with
  | out hsilent =>
      cases h' with
      | out _ => exact ⟨rfl, rfl⟩
      | held he _ => exact absurd hsilent he.not_silent
      | traded he _ _ => exact absurd hsilent he.not_silent
  | held he hsilent =>
      cases h' with
      | out hsilent' => exact absurd hsilent' he.not_silent
      | held he' _ =>
          rw [he.eq he']
          exact ⟨rfl, rfl⟩
      | traded he' hx' _ =>
          rw [← he.eq he'] at hx'
          exact absurd hsilent hx'.not_silent
  | traded he hx _ ih =>
      cases h' with
      | out hsilent' => exact absurd hsilent' he.not_silent
      | held he' hsilent' =>
          rw [← he.eq he'] at hsilent'
          exact absurd hsilent' hx.not_silent
      | traded he' hx' hrest' =>
          have hpair := he.eq he'
          subst hpair
          have hpair := hx.eq hx'
          subst hpair
          obtain ⟨hpairs, hlast⟩ := ih hrest'
          exact ⟨congrArg _ hpairs, hlast⟩

/-- An entry signal is given while a pair lasts or behind the last entry. -/
theorem covers_entry
    (h : Alternation entry exit stop start pairs last)
    {i : Nat}
    (hstart : start ≤ i)
    (hi : i < stop)
    (hentry : entry i = true) :
    (∃ p ∈ pairs, p.1 ≤ i ∧ i ≤ p.2) ∨ ∃ e, last = some e ∧ e ≤ i := by
  induction h with
  | out hsilent =>
      rw [hsilent i hstart hi] at hentry
      cases hentry
  | held he _ => exact Or.inr ⟨_, rfl, he.le_of_given hstart hentry⟩
  | @traded start e x pairs last he hx _ ih =>
      -- Up to the exit the pair covers the signal, and behind it the rest does.
      by_cases hx' : i ≤ x
      · exact Or.inl
          ⟨(e, x), List.mem_cons_self, he.le_of_given hstart hentry, hx'⟩
      · rcases ih (by omega) with ⟨p, hp, hspan⟩ | hlast
        · exact Or.inl ⟨p, List.mem_cons_of_mem _ hp, hspan⟩
        · exact Or.inr hlast

/-- A pair ends at the first exit signal behind its entry. -/
theorem isFirst_of_mem
    (h : Alternation entry exit stop start pairs last)
    {p : Nat × Nat}
    (hp : p ∈ pairs) :
    IsFirst exit (p.1 + 1) stop p.2 := by
  induction h with
  | out _ => cases hp
  | held _ _ => cases hp
  | traded _ hx _ ih =>
      rcases List.mem_cons.mp hp with rfl | hrest
      · exact hx
      · exact ih hrest

theorem silent_of_last (h : Alternation entry exit stop start pairs (some e)) :
    Silent exit (e + 1) stop := by
  generalize hlast : some e = last at h
  induction h with
  | out _ => cases hlast
  | held _ hsilent =>
      cases hlast
      exact hsilent
  | traded _ _ _ ih => exact ih hlast

end Alternation

/-! ## The record of a run -/

variable {α : Type}

namespace TradingRecord

/-- The indices at which the closed trades were entered and left. -/
def spans (r : TradingRecord α) : List (Nat × Nat) :=
  r.closed.map fun t => (t.entryIndex, t.exitIndex)

def openedAt? (r : TradingRecord α) : Option Nat :=
  r.position.map OpenPosition.entryIndex

theorem openedAt?_of_flat {r : TradingRecord α} (h : r.position = none) :
    r.openedAt? = none := by
  rw [openedAt?, h]
  rfl

theorem openedAt?_of_open {r : TradingRecord α} {p : OpenPosition α}
    (h : r.position = some p) :
    r.openedAt? = some p.entryIndex := by
  rw [openedAt?, h]
  rfl

/-- Every entry signal is given while something is held, and every exit signal
that is given while something is held ends that. -/
structure Heeds (r : TradingRecord α) (enter leave : Nat → Bool) (stop : Nat) :
    Prop where
  entry : ∀ i, i < stop → enter i = true →
    (∃ t ∈ r.closed, t.entryIndex ≤ i ∧ i ≤ t.exitIndex) ∨
      ∃ p, r.position = some p ∧ p.entryIndex ≤ i
  exit : ∀ i,
    i < stop →
    leave i = true →
    ∀ t ∈ r.closed, t.entryIndex < i → t.exitIndex ≤ i
  position : ∀ i,
    i < stop → leave i = true → ∀ p, r.position = some p → i ≤ p.entryIndex

theorem heeds_of_alternation {r : TradingRecord α} {enter leave : Nat → Bool}
    {stop : Nat}
    (h : Alternation enter leave stop 0 r.spans r.openedAt?) :
    r.Heeds enter leave stop where
  entry i hi henter := by
    rcases h.covers_entry (Nat.zero_le i)
      hi henter with ⟨p, hp, hspan⟩ | ⟨e, he, hle⟩
    · obtain ⟨t, ht, rfl⟩ := List.mem_map.mp hp
      exact Or.inl ⟨t, ht, hspan⟩
    · obtain ⟨p, hp, rfl⟩ := Option.map_eq_some_iff.mp he
      exact Or.inr ⟨p, hp, hle⟩
  exit i _ hleave t ht hlt := by
    have hfirst := h.isFirst_of_mem (List.mem_map_of_mem ht)
    exact hfirst.le_of_given hlt hleave
  position i hi hleave p hp := by
    rw [openedAt?_of_open hp] at h
    by_contra hlt
    have hnone := h.silent_of_last i (by omega) hi
    rw [hleave] at hnone
    cases hnone

end TradingRecord

variable [Scalar α]

theorem Strategy.alternation_tradeAt (s : Strategy α) {r : TradingRecord α}
    {index : Nat}
    (h : Alternation s.entry.holds s.exit.holds index 0 r.spans r.openedAt?)
    (price : α) :
    Alternation s.entry.holds s.exit.holds (index + 1) 0
      (s.tradeAt r index price).spans (s.tradeAt r index price).openedAt? := by
  rcases s.tradeAt_cases r index price with
    ⟨hflat, hentry, hstep⟩ | ⟨p, hopen, hexit, hstep⟩ | ⟨hflat, hentry, hstep⟩ |
      ⟨p, hopen, hexit, hstep⟩
  · rw [TradingRecord.openedAt?_of_flat hflat] at h
    rw [hstep]
    exact h.succ_enter (Nat.zero_le index) hentry
  · rw [TradingRecord.openedAt?_of_open hopen] at h
    rw [hstep, TradingRecord.spans, List.map_append]
    exact h.succ_leave hexit
  · rw [TradingRecord.openedAt?_of_flat hflat] at h
    rw [hstep, TradingRecord.openedAt?_of_flat hflat]
    exact h.succ_out hentry
  · rw [TradingRecord.openedAt?_of_open hopen] at h
    rw [hstep, TradingRecord.openedAt?_of_open hopen]
    exact h.succ_held hexit

theorem Strategy.alternation_trade (s : Strategy α) (bars : List (Bar α)) :
    Alternation s.entry.holds s.exit.holds bars.length 0
      (s.trade bars).spans (s.trade bars).openedAt? := by
  apply s.trade_induction bars
    (motive := fun stop r =>
      Alternation s.entry.holds s.exit.holds stop 0 r.spans r.openedAt?)
  · apply Alternation.out
    intro i _ hi
    omega
  · intro index b r _ h
    exact s.alternation_tradeAt h b.close

/-- A simulation over bars gives the record that alternates between the first
entry signals and the first exit signals, with the closes of their bars for
prices.  Its trades are in order, and no signal is missed. -/
theorem Strategy.simulate_eq_alternation (s : Strategy α)
    (series : PriceSeries α)
    (hbars : series.bars ≠ []) :
    ∃ r,
      s.simulate series = .ok r ∧
      (∀ pairs last,
        Alternation s.entry.holds s.exit.holds series.length 0 pairs last ↔
        pairs = r.spans ∧ last = r.openedAt?) ∧
      r.PricedBy series.close? ∧
      r.Ordered series.length ∧
      r.Heeds s.entry.holds s.exit.holds series.length := by
  refine ⟨s.trade series.bars, s.simulate_eq_trade hbars, ?_,
    s.pricedBy_trade series.bars, s.ordered_trade series.bars,
    TradingRecord.heeds_of_alternation (s.alternation_trade series.bars)⟩
  intro pairs last
  constructor
  · intro h
    exact h.eq_and_eq (s.alternation_trade series.bars)
  · rintro ⟨rfl, rfl⟩
    exact s.alternation_trade series.bars

/-- Five bars: a flat one, two that rise, one that falls and one that rises. -/
def PriceSeries.riseAndFall : PriceSeries Float where
  symbol := "ACME"
  bars :=
    [⟨⟨{ year := 2024, month := 1, day := 2 }, .midnight⟩, 2, 2, 2, 2, none⟩,
      ⟨⟨{ year := 2024, month := 1, day := 3 }, .midnight⟩, 2, 3, 2, 3, none⟩,
      ⟨⟨{ year := 2024, month := 1, day := 4 }, .midnight⟩, 3, 4, 3, 4, none⟩,
      ⟨⟨{ year := 2024, month := 1, day := 5 }, .midnight⟩, 4, 4, 3, 3, none⟩,
      ⟨⟨{ year := 2024, month := 1, day := 8 }, .midnight⟩, 3, 5, 3, 5, none⟩]
  ordered := by decide
  finite := by decide

/-- Enters on a rising bar and leaves on a falling one. -/
def Strategy.followRises (bars : List (Bar α)) : Strategy α :=
  let close := .series (.direct bars (.price .close))
  let opening := .series (.direct bars (.price .opening))
  ⟨.compare close .greater opening, .compare close .less opening⟩

theorem Strategy.followRises_entry_holds (bars : List (Bar α)) (index : Nat) :
    (followRises bars).entry.holds index =
      bars[index]?.any fun b => decide (b.opening < b.close) := by
  simp only [followRises, Predicate.holds, Operand.value?,
    IndicatorSeries.value?_direct_price]
  cases bars[index]? <;> rfl

theorem Strategy.followRises_exit_holds (bars : List (Bar α)) (index : Nat) :
    (followRises bars).exit.holds index =
      bars[index]?.any fun b => decide (b.close < b.opening) := by
  simp only [followRises, Predicate.holds, Operand.value?,
    IndicatorSeries.value?_direct_price]
  cases bars[index]? <;> rfl

/-- One trade from the first rising bar to the falling one, and a position
opened at the last bar. -/
theorem Strategy.alternation_riseAndFall :
    Alternation (followRises PriceSeries.riseAndFall.bars).entry.holds
      (followRises PriceSeries.riseAndFall.bars).exit.holds
      PriceSeries.riseAndFall.length 0 [(1, 3)] (some 4) := by
  simp only [followRises_entry_holds, followRises_exit_holds]
  apply Alternation.traded
  · refine ⟨by omega, by decide, by decide, ?_⟩
    intro i _ hi
    obtain rfl : i = 0 := by omega
    decide
  · refine ⟨by omega, by decide, by decide, ?_⟩
    intro i hstart hi
    obtain rfl : i = 2 := by omega
    decide
  · apply Alternation.held
    · refine ⟨by omega, by decide, by decide, ?_⟩
      intro i hstart hi
      omega
    · intro i hstart hi
      have hlength : PriceSeries.riseAndFall.length = 5 := rfl
      omega

theorem Strategy.simulate_riseAndFall :
    PriceSeries.riseAndFall.bars ≠ [] ∧
      ∃ r,
        (followRises PriceSeries.riseAndFall.bars).simulate
          .riseAndFall = .ok r ∧
        r.spans = [(1, 3)] ∧
        r.openedAt? = some 4 ∧
        r.PricedBy PriceSeries.riseAndFall.close? := by
  have hbars : PriceSeries.riseAndFall.bars ≠ [] := List.cons_ne_nil _ _
  obtain ⟨r, hrun, hunique, hpriced, -⟩ :=
    simulate_eq_alternation (followRises PriceSeries.riseAndFall.bars)
      .riseAndFall hbars
  obtain ⟨hspans, hopened⟩ := (hunique _ _).mp alternation_riseAndFall
  exact ⟨hbars, r, hrun, hspans.symm, hopened.symm, hpriced⟩

end RuleBacktest
