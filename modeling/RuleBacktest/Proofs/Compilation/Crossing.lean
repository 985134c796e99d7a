import Mathlib.Tactic.IntervalCases
import RuleBacktest.Proofs.Compilation.Meaning
import RuleBacktest.Proofs.Scalar.Binary64
import RuleBacktest.Proofs.Trading.Alternation

/-!
# Crossings

An upward crossing at an index says that the left operand is not above the right
one at the index before, and above it at the index itself.  Between two of them
the left operand has come back down. Conversely a left operand that is above the
right one at the end of an interval, and was not at its start, has crossed on
the way, provided that all values of the interval compare: a point that is
missing or not a number hides a crossing.
-/

namespace RuleBacktest

open Scalar

variable {α : Type} [Scalar α] {left right : Operand α} {index : Nat}

/-! ## Sides -/

namespace Operand

section

omit [Scalar α]

theorem compared_eq_true_iff {compares : α → α → Bool} :
    compared compares left right index = true ↔
      ∃ l r,
        left.value? index = some l ∧
        right.value? index = some r ∧
        compares l r = true := by
  unfold compared
  cases left.value? index with
  | none => simp
  | some l =>
      cases right.value? index with
      | none => simp
      | some r => simp

theorem compared_swap (compares : α → α → Bool) (left right : Operand α)
    (index : Nat) :
    compared compares left right index =
      compared (fun r l => compares l r) right left index := by
  unfold compared
  cases left.value? index <;> cases right.value? index <;> rfl

end

/-- Both operands have a value at the index, and the left one is at most the
right one. -/
def NotAbove (left right : Operand α) (index : Nat) : Prop :=
  ∃ l r, left.value? index = some l ∧ right.value? index = some r ∧ l ≤ r

/-- Both operands have a value at the index, and the left one exceeds the right
one. -/
def Above (left right : Operand α) (index : Nat) : Prop :=
  ∃ l r, left.value? index = some l ∧ right.value? index = some r ∧ r < l

end Operand

open Operand

/-! ## A crossing at an index -/

namespace Predicate

theorem holds_crossUp_iff :
    (crossUp left right).holds index = true ↔
      0 < index ∧ NotAbove left right (index - 1) ∧ Above left right index := by
  rw [holds,
    crossed_eq_compared (fun l r => decide (l ≤ r)) fun l r => decide (r < l)]
  simp only [Bool.and_eq_true, compared_eq_true_iff, decide_eq_true_eq]
  exact and_comm.trans and_assoc

/-- A downward crossing is an upward crossing of the operands in the opposite
order. -/
theorem holds_crossDown (left right : Operand α) (index : Nat) :
    (crossDown left right).holds index = (crossUp right left).holds index := by
  rw [holds, holds,
    crossed_eq_compared (fun l r => decide (r ≤ l)) fun l r => decide (l < r),
    crossed_eq_compared (fun l r => decide (l ≤ r)) fun l r => decide (r < l),
    compared_swap _ left right, compared_swap _ left right]

theorem holds_crossUp_eq_false
    (hundefined : left.value? (index - 1) = none ∨ left.value? index = none ∨
      right.value? (index - 1) = none ∨ right.value? index = none) :
    (crossUp left right).holds index = false := by
  rw [Bool.eq_false_iff, Ne, holds_crossUp_iff]
  rintro ⟨-, ⟨l, r, hl, hr, -⟩, l', r', hl', hr', -⟩
  simp [hl, hr, hl', hr'] at hundefined

end Predicate

/-! ## Crossings of binary numbers -/

namespace Operand

/-- The operand has a value at the index, and this value compares with
itself. -/
def IsNumberAt (o : Operand Float) (index : Nat) : Prop :=
  ∃ x, o.value? index = some x ∧ x.isNaN = false

variable {left right : Operand Float} {index : Nat}

theorem NotAbove.not_above (h : NotAbove left right index) :
    ¬ Above left right index := by
  rintro ⟨l, r, hl, hr, hlt⟩
  obtain ⟨l', r', hl', hr', hle⟩ := h
  obtain rfl : l = l' := Option.some.inj (hl.symm.trans hl')
  obtain rfl : r = r' := Option.some.inj (hr.symm.trans hr')
  exact Binary64.not_lt_of_le hle hlt

theorem Above.notAbove_swap (h : Above left right index) :
    NotAbove right left index := by
  obtain ⟨l, r, hl, hr, hlt⟩ := h
  exact ⟨r, l, hr, hl, Binary64.le_of_lt hlt⟩

theorem above_of_not_notAbove
    (hleft : left.IsNumberAt index)
    (hright : right.IsNumberAt index)
    (h : ¬ NotAbove left right index) :
    Above left right index := by
  obtain ⟨l, hl, hlnumber⟩ := hleft
  obtain ⟨r, hr, hrnumber⟩ := hright
  have hnot : ¬ l ≤ r := fun hle => h ⟨l, r, hl, hr, hle⟩
  exact ⟨l, r, hl, hr, Binary64.lt_of_not_le hlnumber hrnumber hnot⟩

end Operand

namespace Predicate

variable {left right : Operand Float}

/-- The left operand has to come down to the right one between two upward
crossings. -/
theorem exists_notAbove_between {i j : Nat}
    (hij : i < j)
    (hi : (crossUp left right).holds i = true)
    (hj : (crossUp left right).holds j = true) :
    ∃ k, i < k ∧ k < j ∧ NotAbove left right k := by
  obtain ⟨-, -, habove⟩ := holds_crossUp_iff.mp hi
  obtain ⟨-, hbefore, -⟩ := holds_crossUp_iff.mp hj
  have hne : i ≠ j - 1 := by
    rintro rfl
    exact hbefore.not_above habove
  exact ⟨j - 1, by omega, by omega, hbefore⟩

/-- By induction on the end of the interval: the last index but one is either on
the lower side, and then the crossing is at the end, or above, and then it is
earlier. -/
theorem exists_crossUp {a b : Nat}
    (hab : a < b)
    (hnumbers : ∀ k, a ≤ k → k ≤ b → left.IsNumberAt k ∧ right.IsNumberAt k)
    (hstart : NotAbove left right a)
    (hend : Above left right b) :
    ∃ i, a < i ∧ i ≤ b ∧ (crossUp left right).holds i = true := by
  induction b, hab using Nat.le_induction with
  | base =>
      exact ⟨a + 1, by omega, le_rfl,
        holds_crossUp_iff.mpr ⟨by omega, hstart, hend⟩⟩
  | succ b hab ih =>
      by_cases hbefore : NotAbove left right b
      · exact ⟨b + 1, by omega, le_rfl,
          holds_crossUp_iff.mpr ⟨by omega, hbefore, hend⟩⟩
      · obtain ⟨hleft, hright⟩ := hnumbers b (by omega) (by omega)
        obtain ⟨i, hai, hib, hi⟩ := ih (fun k ha hb => hnumbers k ha (by omega))
          (above_of_not_notAbove hleft hright hbefore)
        exact ⟨i, hai, by omega, hi⟩

/-- No two crossings of opposite directions hold at an index, and none holds at
the first one or next to an undefined value.  An operand that gets above another
one crosses it, and it has to come back down before it can cross it again, so it
never crosses twice in a row. -/
theorem crossings_neither_doubled_nor_missed (left right : Operand Float) :
    (∀ index,
        ¬ ((crossUp left right).holds index = true ∧
            (crossDown left right).holds index = true)) ∧
      ((crossUp left right).holds 0 = false ∧
        (crossDown left right).holds 0 = false) ∧
      (∀ index,
        left.value? (index - 1) = none ∨
          left.value? index = none ∨
          right.value? (index - 1) = none ∨
          right.value? index = none →
        (crossUp left right).holds index = false ∧
          (crossDown left right).holds index = false) ∧
      (∀ index,
        (crossUp left right).holds index = (crossDown right left).holds index) ∧
      (∀ a b,
        a < b →
        (∀ k, a ≤ k → k ≤ b → left.IsNumberAt k ∧ right.IsNumberAt k) →
        NotAbove left right a →
        Above left right b →
        ∃ i, a < i ∧ i ≤ b ∧ (crossUp left right).holds i = true) ∧
      (∀ i j,
        i < j →
        (crossUp left right).holds i = true →
        (crossUp left right).holds j = true →
        ∃ k, i < k ∧ k < j ∧ NotAbove left right k) ∧
      ∀ i, (crossUp left right).holds i = true →
        (crossUp left right).holds (i + 1) = false := by
  refine ⟨?_, ⟨rfl, rfl⟩, ?_, ?_, ?_, ?_, ?_⟩
  · rintro index ⟨hup, hdown⟩
    rw [holds_crossDown] at hdown
    have habove := (holds_crossUp_iff.mp hup).2.2
    exact habove.notAbove_swap.not_above (holds_crossUp_iff.mp hdown).2.2
  · intro index hundefined
    refine ⟨holds_crossUp_eq_false hundefined, ?_⟩
    rw [holds_crossDown]
    exact holds_crossUp_eq_false (by tauto)
  · exact fun index => (holds_crossDown right left index).symm
  · exact fun a b hab hnumbers hstart hend =>
      exists_crossUp hab hnumbers hstart hend
  · exact fun i j hij hi hj => exists_notAbove_between hij hi hj
  · intro i hi
    rw [Bool.eq_false_iff]
    intro hnext
    obtain ⟨k, hik, hk, -⟩ :=
      exists_notAbove_between (Nat.lt_succ_self i) hi hnext
    omega

/-- The close starts at the open, ends above it and crosses it twice. -/
theorem crossings_riseAndFall :
    let close : Operand Float :=
      .series (.direct PriceSeries.riseAndFall.bars (.price .close))
    let opening : Operand Float :=
      .series (.direct PriceSeries.riseAndFall.bars (.price .opening))
    (∃ i, 0 < i ∧ i ≤ 4 ∧ (crossUp close opening).holds i = true) ∧
      ∃ k, 1 < k ∧ k < 4 ∧ NotAbove close opening k := by
  intro close opening
  obtain ⟨-, -, -, -, hmissed, hdoubled, -⟩ :=
    crossings_neither_doubled_nor_missed close opening
  have hclose (index : Nat) :
      close.value? index = PriceSeries.riseAndFall.bars[index]?.map Bar.close :=
    IndicatorSeries.value?_direct_price ..
  have hopening (index : Nat) : opening.value? index =
      PriceSeries.riseAndFall.bars[index]?.map Bar.opening :=
    IndicatorSeries.value?_direct_price ..
  have hnumbers : ∀ k,
      0 ≤ k → k ≤ 4 → close.IsNumberAt k ∧ opening.IsNumberAt k := by
    intro k _ hk
    simp only [IsNumberAt, hclose, hopening]
    interval_cases k <;> exact ⟨⟨_, rfl, by decide⟩, ⟨_, rfl, by decide⟩⟩
  have hstart : NotAbove close opening 0 :=
    ⟨2, 2, hclose 0, hopening 0, by decide⟩
  have hend : Above close opening 4 := ⟨5, 3, hclose 4, hopening 4, by decide⟩
  have hfirst : (crossUp close opening).holds 1 = true :=
    holds_crossUp_iff.mpr
      ⟨by omega, hstart, 3, 2, hclose 1, hopening 1, by decide⟩
  have hsecond : (crossUp close opening).holds 4 = true :=
    holds_crossUp_iff.mpr
      ⟨by omega, ⟨3, 4, hclose 3, hopening 3, by decide⟩, hend⟩
  exact ⟨hmissed 0 4 (by omega) hnumbers hstart hend,
    hdoubled 1 4 (by omega) hfirst hsecond⟩

end Predicate
end RuleBacktest
