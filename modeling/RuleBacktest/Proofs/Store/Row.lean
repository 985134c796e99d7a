import RuleBacktest.Proofs.Calendar.TableText
import RuleBacktest.Proofs.Outcome
import RuleBacktest.Proofs.Sorting
import RuleBacktest.Store.Basic

/-!
# What rows keep

A row keeps a strategy with its time down to the second, and a run with its
time, its numbers and its count as the table has them.  Rows whose years have
four digits stand in the order of the times that they keep, so that a sorted
list of rows is read as the sorted list of what they keep.
-/

namespace RuleBacktest

open Calendar Scalar

variable {α : Type}

/-! ## Strategies -/

def StoredStrategy.kept (t : StoredStrategy) : StoredStrategy :=
  { t with createdAt := t.createdAt.wholeSeconds }

@[simp] theorem StoredStrategy.id_kept (t : StoredStrategy) :
    t.kept.id = t.id :=
  rfl

/-- Earlier strategies come first, and those of the same second by their
names. -/
def StoredStrategy.ListedBefore (a b : StoredStrategy) : Prop :=
  a.createdAt < b.createdAt ∨ a.createdAt = b.createdAt ∧ a.name ≤ b.name

namespace StrategyRow

theorem strategy_ofStrategy {t : StoredStrategy}
    (ht : t.createdAt.HasPlainYear) :
    (ofStrategy t).strategy = .ok t.kept := by
  have htime : columnTime 3 t.createdAt.tableText =
      .ok t.createdAt.wholeSeconds := by
    rw [columnTime, Moment.ofTableText_tableText ht]
  simp only [strategy, ofStrategy, htime, bind, Except.bind]
  rfl

theorem listedBefore_iff (a b : StrategyRow) :
    listedBefore a b = true ↔ a.createdAt < b.createdAt ∨
      a.createdAt = b.createdAt ∧ a.name ≤ b.name := by
  simp [listedBefore]

theorem listedBefore_trans (a b c : StrategyRow) (hab : listedBefore a b = true)
    (hbc : listedBefore b c = true) : listedBefore a c = true := by
  rw [listedBefore_iff] at *
  rcases hab with hab | ⟨hab, hname⟩
  · rcases hbc with hbc | ⟨hbc, _⟩
    · exact Or.inl (lt_trans hab hbc)
    · exact Or.inl (hbc ▸ hab)
  · rcases hbc with hbc | ⟨hbc, hname'⟩
    · exact Or.inl (hab ▸ hbc)
    · exact Or.inr ⟨hab.trans hbc, le_trans hname hname'⟩

theorem listedBefore_total (a b : StrategyRow) :
    (listedBefore a b || listedBefore b a) = true := by
  rw [Bool.or_eq_true, listedBefore_iff, listedBefore_iff]
  rcases lt_trichotomy a.createdAt b.createdAt with h | h | h
  · exact Or.inl (Or.inl h)
  · rcases le_total a.name b.name with hname | hname
    · exact Or.inl (Or.inr ⟨h, hname⟩)
    · exact Or.inr (Or.inr ⟨h.symm, hname⟩)
  · exact Or.inr (Or.inl h)

theorem kept_listedBefore {a b : StoredStrategy}
    (ha : a.createdAt.HasPlainYear)
    (hb : b.createdAt.HasPlainYear)
    (h : listedBefore (ofStrategy a) (ofStrategy b) = true) :
    a.kept.ListedBefore b.kept := by
  rcases (listedBefore_iff _ _).mp h with hlt | ⟨heq, hname⟩
  · exact Or.inl ((Moment.tableText_lt_iff ha hb).mp hlt)
  · exact Or.inr ⟨Moment.wholeSeconds_eq_of_tableText_eq ha hb heq, hname⟩

end StrategyRow

/-! ## Runs -/

/-- The count that is read where a count was put in. -/
def keptCount (n : Nat) : Nat :=
  if n % countRange < countRange / 2 then n % countRange else 0

theorem toNat_bmod (n : Nat) {half : Nat} (hpos : 0 < half) :
    (Int.bmod n (2 * half : Nat)).toNat =
      if n % (2 * half) < half then n % (2 * half) else 0 := by
  have hhalf : ((2 * half : Nat) + 1 : Int) / 2 = half := by omega
  unfold Int.bmod
  rw [hhalf]
  by_cases hlow : n % (2 * half) < half
  · have hlowInt : (n : Int) % (2 * half : Nat) < half := by omega
    simp only [if_pos hlow, if_pos hlowInt]
    omega
  · have hhighInt : ¬ (n : Int) % (2 * half : Nat) < half := by omega
    have hmod : n % (2 * half) < 2 * half := Nat.mod_lt n (by omega)
    simp only [if_neg hlow, if_neg hhighInt]
    omega

theorem toNat_bmod_countRange (n : Nat) :
    (Int.bmod n countRange).toNat = keptCount n := by
  have hrange : countRange = 2 * (countRange / 2) := rfl
  have hcount := toNat_bmod n (show 0 < countRange / 2 by decide)
  rw [← hrange] at hcount
  exact hcount

/-- The run that is read where a run was put in, unless the table refuses it. -/
def StrategyRun.kept? [Scalar α] (r : StrategyRun α) :
    Option (StrategyRun α) := do
  let profitLoss ← storedValue? r.profitLoss
  let winRate ← storedValue? r.winRate
  some { r with profitLoss, winRate, totalTrades := keptCount r.totalTrades,
                ranAt := r.ranAt.wholeSeconds }

namespace RunRow

/-- A row that keeps a run. -/
structure Keeps (row : RunRow α) (r : StrategyRun α) : Prop where
  run : row.run = .ok r
  id : row.strategyId = r.strategyId
  time : ∃ t : Moment,
    t.HasPlainYear ∧ row.ranAt = t.tableText ∧ r.ranAt = t.wholeSeconds

theorem ofRun_cases [Scalar α] (r : StrategyRun α) (hr : r.ranAt.HasPlainYear) :
    (∃ row kept, ofRun r = .ok row ∧ r.kept? = some kept ∧ row.Keeps kept) ∨
      ∃ column, ofRun r = .error (missingValue column) ∧ r.kept? = none := by
  cases hprofit : storedValue? r.profitLoss with
  | none =>
      refine Or.inr ⟨"profit_loss", ?_, ?_⟩
      · simp only [ofRun, hprofit]
      · simp [StrategyRun.kept?, hprofit]
  | some profitLoss =>
      cases hrate : storedValue? r.winRate with
      | none =>
          refine Or.inr ⟨"win_rate", ?_, ?_⟩
          · simp only [ofRun, hprofit, hrate]
          · simp [StrategyRun.kept?, hprofit, hrate]
      | some winRate =>
          have htime : columnTime 8 r.ranAt.tableText =
              .ok r.ranAt.wholeSeconds := by
            rw [columnTime, Moment.ofTableText_tableText hr]
          have hrow : ofRun r =
              .ok ⟨r.strategyId, r.strategyName, r.symbol, r.range, r.interval,
                profitLoss, Int.bmod r.totalTrades countRange, winRate,
                r.ranAt.tableText⟩ := by
            simp only [ofRun, hprofit, hrate]
          have hkept : r.kept? =
              some { r with
                  profitLoss, winRate, totalTrades := keptCount r.totalTrades,
                  ranAt := r.ranAt.wholeSeconds } := by
            simp only [StrategyRun.kept?, hprofit, hrate, bind, Option.bind]
          refine Or.inl ⟨_, _, hrow, hkept, ?_, rfl, r.ranAt, hr, rfl, rfl⟩
          simp only [run, htime, bind, Except.bind, toNat_bmod_countRange]

theorem Keeps.ranAt_le_iff {row row' : RunRow α} {r r' : StrategyRun α}
    (h : row.Keeps r)
    (h' : row'.Keeps r') :
    row.ranAt ≤ row'.ranAt ↔ r.ranAt ≤ r'.ranAt := by
  obtain ⟨t, ht, hrow, hr⟩ := h.time
  obtain ⟨t', ht', hrow', hr'⟩ := h'.time
  rw [hrow, hrow', hr, hr']
  exact Moment.tableText_le_iff ht ht'

end RunRow

/-! ## Runs in the order of their times -/

namespace StrategyRun

/-- Whether a run comes before another when the latest comes first. -/
def isLater (a b : StrategyRun α) : Bool := decide (b.ranAt ≤ a.ranAt)

theorem sortsBy_isLater : SortsBy (@isLater α) ranAt := by
  have hearlier := SortsBy.of_rank Moment.rank_injective (@ranAt α)
  exact hearlier.swap

end StrategyRun
end RuleBacktest
