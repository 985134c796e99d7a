import RuleBacktest.Proofs.Compilation.Uncached
import RuleBacktest.Proofs.Registry.Names
import RuleBacktest.Proofs.Text.AsciiCase
import RuleBacktest.Rule.Meaning
import RuleBacktest.Scalar.Binary64

/-!
# A compiled tree means what the tree means

The predicate of a tree holds at an index exactly when the tree does.  At the
leaves this compares the operands that the predicate reads with the values of
the tree; along a group both fold the children from left to right with the same
combinators.  Behind the last bar a predicate holds nowhere, since the left
operand of every leaf is a series.
-/

namespace RuleBacktest

variable {α : Type} [Scalar α]

/-! ## What is written in a leaf -/

/-- The compilation reads an operator as the list of spellings has it. -/
theorem Operator.ofText?_eq_spelledBy? (raw : String) :
    ofText? raw = spelledBy? raw := by
  have hsign {sign : String} (hchars : ∀ c ∈ sign.toList, c.toNat < 65) :
      Text.trim raw = sign ↔ Text.lowerAscii (Text.trim raw) = sign :=
    (Text.lowerAscii_eq_iff hchars).symm
  have hless := @hsign "<" (by simp)
  have hgreater := @hsign ">" (by simp)
  have hlessOrEqual := @hsign "<=" (by simp)
  have hgreaterOrEqual := @hsign ">=" (by simp)
  have hequal := @hsign "=" (by simp)
  have htwice := @hsign "==" (by simp)
  have hup : Text.lowerAscii "crossesUp" = "crossesup" := by
    decide +kernel
  have hdown : Text.lowerAscii "crossesDown" = "crossesdown" := by
    decide +kernel
  have hcons (word key : String) (o : Operator)
      (rest : List (String × Operator)) :
      ((key, o) :: rest).lookup word =
        if word = key then some o else rest.lookup word := by
    by_cases hword : word = key
    · rw [if_pos hword, hword, List.lookup_cons_self]
    · rw [if_neg hword, List.lookup_cons, beq_eq_false_iff_ne.mpr hword]
  simp only [ofText?, hless, hgreater, hlessOrEqual, hgreaterOrEqual, hequal,
    htwice, Text.sameIgnoringAsciiCase, hup, hdown, beq_iff_eq]
  simp only [spelledBy?, spellings, hcons, List.lookup_nil]
  -- The two ways to write equality are one case of the compiler.
  rw [ite_or]

theorem Operator.spelledBy?_of_readOperator {raw : String} {o : Operator}
    (h : readOperator raw = .ok o) : spelledBy? raw = some o := by
  rw [← ofText?_eq_spelledBy?]
  unfold readOperator at h
  split at h
  · next o' hread => rw [hread, Except.ok.inj h]
  · cases h

theorem toOption_literalValue (raw : String) :
    (literalValue raw : Except Failure α).toOption =
      (Numeral.ofText? (Text.trim raw)).bind Scalar.ofNumeral? := by
  unfold literalValue
  cases ((Numeral.ofText? (Text.trim raw)).bind Scalar.ofNumeral? :
      Option α) with
  | none => rfl
  | some x => rfl

/-! ## Leaves -/

namespace Operand

omit [Scalar α]

/-- Compares the values of two operands at an index, if both are defined. -/
def compared (compares : α → α → Bool) (left right : Operand α) (index : Nat) :
    Bool :=
  match left.value? index, right.value? index with
  | some l, some r => compares l r
  | _, _ => false

theorem compared_or (first second : α → α → Bool) (left right : Operand α)
    (index : Nat) :
    compared (fun l r => first l r || second l r) left right index =
      (compared first left right index ||
        compared second left right index) := by
  unfold compared
  cases left.value? index with
  | none => rfl
  | some l =>
      cases right.value? index with
      | none => rfl
      | some r => rfl

/-- A crossing compares at the index before and at the index itself. -/
theorem crossed_eq_compared (before now : α → α → Bool) (left right : Operand α)
    (index : Nat) :
    crossed (fun pl pr l r => before pl pr && now l r) left right index =
      (compared now left right index &&
        (decide (0 < index) && compared before left right (index - 1))) := by
  cases index with
  | zero => simp [crossed]
  | succ index =>
      rw [crossed, compared, compared, Nat.add_sub_cancel]
      cases left.value? index <;> cases right.value? index <;>
        cases left.value? (index + 1) <;> cases right.value? (index + 1) <;>
          simp [Bool.and_comm]

end Operand

open Operand

/-- The predicate of an operator asks for its comparison at the index, and for a
crossing at the index before as well. -/
theorem Operator.holds_predicate (o : Operator) (left right : Operand α)
    (index : Nat) :
    (o.predicate left right).holds index =
      (compared o.compares left right index &&
        (!o.isCrossing ||
          (decide (0 < index) &&
            compared o.comparesBefore left right (index - 1)))) := by
  cases o with
  | less => exact (Bool.and_true _).symm
  | greater => exact (Bool.and_true _).symm
  | equal => exact (Bool.and_true _).symm
  | lessOrEqual =>
      exact (compared_or _ _ left right index).symm.trans (Bool.and_true _).symm
  | greaterOrEqual =>
      exact (compared_or _ _ left right index).symm.trans (Bool.and_true _).symm
  | crossesUp => exact crossed_eq_compared _ _ left right index
  | crossesDown => exact crossed_eq_compared _ _ left right index

theorem IndicatorSpec.value?_uncached {bars : List (Bar α)}
    {spec : IndicatorSpec} {s : IndicatorSeries α}
    (huncached : spec.uncached bars = .ok s)
    (index : Nat) :
    s.value? index = spec.valueAt? bars index := by
  obtain ⟨i, hresolve, rfl⟩ := map_eq_ok.mp huncached
  rw [IndicatorSeries.value?_direct, valueAt?, hresolve]

theorem CompareTarget.value?_uncached {bars : List (Bar α)}
    {target : CompareTarget} {right : Operand α}
    (huncached : target.uncached bars = .ok right)
    (index : Nat) :
    right.value? index = target.valueAt? bars index := by
  cases target with
  | value raw =>
      obtain ⟨x, hliteral, rfl⟩ := map_eq_ok.mp huncached
      rw [valueAt?, ← toOption_literalValue, hliteral]
      rfl
  | indicator spec =>
      obtain ⟨s, hspec, rfl⟩ := map_eq_ok.mp huncached
      exact IndicatorSpec.value?_uncached hspec index

theorem Comparison.holds_uncached {bars : List (Bar α)} {c : Comparison}
    {p : Predicate α}
    (huncached : c.uncached bars = .ok p)
    (index : Nat) :
    p.holds index = c.holdsAt bars index := by
  obtain ⟨left, hleft, hrest⟩ := bind_eq_ok.mp huncached
  obtain ⟨right, hright, hrest⟩ := bind_eq_ok.mp hrest
  obtain ⟨o, hoperator, hp⟩ := bind_eq_ok.mp hrest
  have hspelled := Operator.spelledBy?_of_readOperator hoperator
  rw [← Except.ok.inj hp, o.holds_predicate]
  simp only [holdsAt, hspelled, ← IndicatorSpec.value?_uncached hleft,
    ← CompareTarget.value?_uncached hright]
  rfl

/-! ## Groups -/

theorem Predicate.holds_joined (first second : Predicate α)
    (combinator : Combinator) (index : Nat) :
    (first.joined combinator second).holds index =
      combinator.join (first.holds index) (second.holds index) := by
  cases combinator with
  | and => rfl
  | or => rfl

mutual

theorem RuleNode.holds_uncached {bars : List (Bar α)} (index : Nat) :
    ∀ {node : RuleNode} {p : Predicate α}, node.uncached bars = .ok p →
      p.holds index = node.holdsAt bars index
  | .comparison c, p, huncached => by
      rw [RuleNode.uncached] at huncached
      rw [RuleNode.holdsAt]
      exact Comparison.holds_uncached huncached index
  | .group _ [], p, huncached => by
      rw [RuleNode.uncached] at huncached
      rw [← Except.ok.inj huncached, RuleNode.holdsAt]
      rfl
  | .group combinator ((_, first) :: rest), p, huncached => by
      rw [RuleNode.uncached] at huncached
      obtain ⟨q, hfirst, hrest⟩ := bind_eq_ok.mp huncached
      rw [RuleNode.holdsAt, ← RuleNode.holds_uncached index hfirst]
      exact RuleNode.holds_uncachedRest index hrest

theorem RuleNode.holds_uncachedRest {bars : List (Bar α)} (index : Nat)
    {combinator : Combinator} :
    ∀ {rest : List (Option Combinator × RuleNode)} {running p : Predicate α},
      RuleNode.uncachedRest bars combinator running rest = .ok p →
      p.holds index =
        RuleNode.holdsFrom bars index combinator (running.holds index) rest
  | [], running, p, huncached => by
      rw [RuleNode.uncachedRest] at huncached
      rw [← Except.ok.inj huncached, RuleNode.holdsFrom]
  | (own, node) :: rest, running, p, huncached => by
      rw [RuleNode.uncachedRest] at huncached
      obtain ⟨q, hnode, hrest⟩ := bind_eq_ok.mp huncached
      rw [RuleNode.holdsFrom, ← RuleNode.holds_uncached index hnode,
        ← Predicate.holds_joined]
      exact RuleNode.holds_uncachedRest index hrest

end

theorem RuleGroup.holds_uncached {bars : List (Bar α)} {g : RuleGroup}
    {p : Predicate α}
    (huncached : g.uncached bars = .ok p)
    (index : Nat) :
    p.holds index = g.holdsAt bars index :=
  RuleNode.holds_uncached index huncached

theorem Strategy.holds_uncached {bars : List (Bar α)} {entry exit : RuleGroup}
    {s : Strategy α}
    (huncached : Strategy.uncached bars entry exit = .ok s)
    (index : Nat) :
    s.entry.holds index = entry.holdsAt bars index ∧
      s.exit.holds index = exit.holdsAt bars index := by
  obtain ⟨p, hentry, hrest⟩ := bind_eq_ok.mp huncached
  obtain ⟨q, hexit, hs⟩ := bind_eq_ok.mp hrest
  rw [← Except.ok.inj hs]
  exact ⟨RuleGroup.holds_uncached hentry index,
    RuleGroup.holds_uncached hexit index⟩

/-! ## Behind the last bar -/

theorem IndicatorSpec.valueAt?_eq_none {bars : List (Bar α)} {index : Nat}
    (hindex : bars.length ≤ index)
    (spec : IndicatorSpec) :
    spec.valueAt? bars index = none := by
  unfold valueAt?
  cases (spec.resolve : Except Failure (Indicator α)) with
  | error e => rfl
  | ok i =>
      simp only
      rw [List.getElem?_eq_none (by rw [Indicator.length_points]; exact hindex)]
      rfl

theorem Comparison.holdsAt_eq_false {bars : List (Bar α)} {index : Nat}
    (hindex : bars.length ≤ index)
    (c : Comparison) :
    c.holdsAt bars index = false := by
  simp only [holdsAt, c.indicator.valueAt?_eq_none hindex]
  cases Operator.spelledBy? c.operator <;> rfl

theorem Combinator.join_false_false (combinator : Combinator) :
    combinator.join false false = false := by
  cases combinator with
  | and => rfl
  | or => rfl

mutual

theorem RuleNode.holdsAt_eq_false {bars : List (Bar α)} {index : Nat}
    (hindex : bars.length ≤ index) :
    ∀ node : RuleNode, node.holdsAt bars index = false
  | .comparison c => by
      rw [RuleNode.holdsAt]
      exact c.holdsAt_eq_false hindex
  | .group _ [] => by
      rw [RuleNode.holdsAt]
  | .group combinator ((_, first) :: rest) => by
      rw [RuleNode.holdsAt, first.holdsAt_eq_false hindex]
      exact RuleNode.holdsFrom_eq_false hindex combinator rest

theorem RuleNode.holdsFrom_eq_false {bars : List (Bar α)} {index : Nat}
    (hindex : bars.length ≤ index) (combinator : Combinator) :
    ∀ rest : List (Option Combinator × RuleNode),
      RuleNode.holdsFrom bars index combinator false rest = false
  | [] => by
      rw [RuleNode.holdsFrom]
  | (own, node) :: rest => by
      rw [RuleNode.holdsFrom, node.holdsAt_eq_false hindex,
        Combinator.join_false_false]
      exact RuleNode.holdsFrom_eq_false hindex combinator rest

end

/-! ## The compiled predicate -/

/-- Whatever a cache was asked for before, the predicate that a tree compiles to
through it holds at an index exactly when the tree does, and at no index behind
the last bar.  The values that the tree compares are those that an empty cache
computes. -/
theorem RuleGroup.holds_eq_holdsAt_of_compile (bars : List (Bar α))
    (requests : List (CacheRequest α)) (g : RuleGroup) (p : Predicate α)
    (hcompile :
      ((g.compile bars).run (IndicatorCache.after bars requests)).1 = .ok p) :
    (∀ index, p.holds index = g.holdsAt bars index) ∧
      (∀ index, bars.length ≤ index → p.holds index = false) ∧
      ∀ (spec : IndicatorSpec) (i : Indicator α), spec.resolve = .ok i →
        ∀ index, spec.valueAt? bars index =
          (IndicatorCache.empty.get bars i).1.value? index := by
  have huncached : g.uncached bars = .ok p := by
    rw [← hcompile]
    exact (g.computes_compile _
        (IndicatorCache.faithful_after bars requests)).1.symm
  refine ⟨RuleGroup.holds_uncached huncached, ?_, ?_⟩
  · intro index hindex
    rw [RuleGroup.holds_uncached huncached]
    exact RuleNode.holdsAt_eq_false hindex g.toNode
  · intro spec i hresolve index
    have hfresh : (IndicatorCache.empty.get bars i).1 = .direct bars i :=
      ((IndicatorCache.faithful_empty bars).get i).1
    rw [IndicatorSpec.valueAt?, hresolve, hfresh, IndicatorSeries.value?_direct]

/-- A rising bar, or a close that is not below its average in a group of its
own, when the close goes above a fixed number. -/
def RuleGroup.risingOrAbove : RuleGroup :=
  ⟨.or,
    [(some .and, .comparison ⟨⟨"close", []⟩, ">", .indicator ⟨"OPEN", []⟩⟩),
      (none, .group .and
        [(none, .comparison
          ⟨⟨"CLOSE", []⟩, ">=", .indicator ⟨"SMA", [⟨"period", "2"⟩]⟩⟩)]),
      (some .and, .comparison ⟨⟨"CLOSE", []⟩, " CrossesUp", .value "2.5"⟩)]⟩

/-- Two bars, the second of which rises. -/
def Bar.flatAndRising : List (Bar Float) :=
  [⟨⟨{ year := 2023, month := 6, day := 1 }, .midnight⟩, 2, 2, 2, 2, none⟩,
    ⟨⟨{ year := 2023, month := 6, day := 2 }, .midnight⟩, 2, 3, 2, 3, none⟩]

theorem RuleGroup.holds_eq_holdsAt_risingOrAbove :
    ∃ p,
      ((RuleGroup.risingOrAbove.compile Bar.flatAndRising).run
        (IndicatorCache.after Bar.flatAndRising
          [.indicator (.sma 2)])).1 = .ok p ∧
      (∀ index, p.holds index =
        RuleGroup.risingOrAbove.holdsAt Bar.flatAndRising index) ∧
      p.holds 0 = false ∧
      p.holds 1 = true ∧
      ∀ index, 2 ≤ index → p.holds index = false := by
  have hlower : (IndicatorSpec.resolve ⟨"close", []⟩ :
      Except Failure (Indicator Float)) = .ok (.price .close) := by
    decide +kernel
  have haverage : (IndicatorSpec.resolve ⟨"SMA", [⟨"period", "2"⟩]⟩ :
      Except Failure (Indicator Float)) = .ok (.sma 2) := by
    decide +kernel
  have hliteral : (literalValue "2.5" : Except Failure Float) = .ok 2.5 := by
    decide +kernel
  have hgreater : readOperator ">" = .ok .greater := rfl
  have hgreaterOrEqual : readOperator ">=" = .ok .greaterOrEqual := rfl
  have hcrosses : readOperator " CrossesUp" = .ok .crossesUp := by
    decide +kernel
  have huncached : ∃ p,
      RuleGroup.risingOrAbove.uncached Bar.flatAndRising = .ok p ∧
      p.holds 0 = false ∧
      p.holds 1 = true := by
    simp only [risingOrAbove, uncached, toNode, RuleNode.uncached,
      RuleNode.uncachedRest, Comparison.uncached, CompareTarget.uncached,
      IndicatorSpec.uncached, IndicatorSpec.resolve_close,
      IndicatorSpec.resolve_opening, hlower, haverage, hliteral, hgreater,
      hgreaterOrEqual, hcrosses]
    refine ⟨_, rfl, ?_, ?_⟩
    · decide +kernel
    · decide +kernel
  obtain ⟨p, hp, hflat, hrising⟩ := huncached
  have hcompile :=
    (RuleGroup.risingOrAbove.computes_compile _
      (IndicatorCache.faithful_after Bar.flatAndRising
        [.indicator (.sma 2)])).1.trans hp
  have hmeaning := RuleGroup.holds_eq_holdsAt_of_compile _ _ _ p hcompile
  exact ⟨p, hcompile, hmeaning.1, hflat, hrising, hmeaning.2.1⟩

end RuleBacktest
