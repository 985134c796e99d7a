import RuleBacktest.Proofs.Cache.Faithful
import RuleBacktest.Proofs.Outcome

/-!
# Compilation without a cache

The same compilation with every series computed on its own, and no cache to go
through.  Through a faithful cache the compilation gives what it gives here,
whatever the cache holds.  Whether a tree compiles, and with which failure it
does not, is a matter of the tree alone: the bars decide nothing.
-/

namespace RuleBacktest

variable {α : Type} [Scalar α]

def IndicatorSpec.uncached (bars : List (Bar α)) (spec : IndicatorSpec) :
    Except Failure (IndicatorSeries α) :=
  spec.resolve.map (.direct bars)

def CompareTarget.uncached (bars : List (Bar α)) :
    CompareTarget → Except Failure (Operand α)
  | .value raw => (literalValue raw).map .constant
  | .indicator spec => (spec.uncached bars).map .series

def Comparison.uncached (bars : List (Bar α)) (c : Comparison) :
    Except Failure (Predicate α) := do
  let left ← c.indicator.uncached bars
  let right ← c.target.uncached bars
  let operator ← readOperator c.operator
  .ok (operator.predicate (.series left) right)

mutual

def RuleNode.uncached (bars : List (Bar α)) :
    RuleNode → Except Failure (Predicate α)
  | .comparison c => c.uncached bars
  | .group _ [] => .ok .never
  | .group combinator ((_, first) :: rest) => do
      let p ← first.uncached bars
      RuleNode.uncachedRest bars combinator p rest

def RuleNode.uncachedRest (bars : List (Bar α)) (combinator : Combinator)
    (running : Predicate α) :
    List (Option Combinator × RuleNode) → Except Failure (Predicate α)
  | [] => .ok running
  | (own, node) :: rest => do
      let p ← node.uncached bars
      RuleNode.uncachedRest bars combinator
        (running.joined (own.getD combinator) p) rest

end

def RuleGroup.uncached (bars : List (Bar α)) (g : RuleGroup) :
    Except Failure (Predicate α) :=
  g.toNode.uncached bars

def Strategy.uncached (bars : List (Bar α)) (entry exit : RuleGroup) :
    Except Failure (Strategy α) := do
  let enter ← entry.uncached bars
  let leave ← exit.uncached bars
  .ok ⟨enter, leave⟩

/-! ## Through a faithful cache -/

/-- Through any faithful cache the compilation gives the result and leaves the
cache faithful. -/
def Compilation.Computes {β : Type} (bars : List (Bar α)) (c : Compilation α β)
    (result : Except Failure β) : Prop :=
  ∀ cache : IndicatorCache α, cache.Faithful bars →
    (c.run cache).1 = result ∧ (c.run cache).2.Faithful bars

namespace Compilation

variable {β γ : Type} {bars : List (Bar α)}

omit [Scalar α] in
theorem run_bind (c : Compilation α β) (next : β → Compilation α γ)
    (cache : IndicatorCache α) :
    (c >>= next).run cache = match c.run cache with
      | (.ok b, cache) => (next b).run cache
      | (.error e, cache) => (.error e, cache) := by
  have hstep : (c >>= next).run cache =
      ExceptT.bindCont next (c.run cache).1 (c.run cache).2 := rfl
  rw [hstep]
  rcases c.run cache with ⟨_ | _, _⟩ <;> rfl

theorem computes_pure (b : β) : Computes bars (pure b) (.ok b) := by
  intro cache hcache
  exact ⟨rfl, hcache⟩

theorem computes_lift (result : Except Failure β) :
    Computes bars (ExceptT.mk (pure result)) result := by
  intro cache hcache
  exact ⟨rfl, hcache⟩

theorem Computes.bind {c : Compilation α β} {next : β → Compilation α γ}
    {result : Except Failure β} {results : β → Except Failure γ}
    (hc : Computes bars c result)
    (hnext : ∀ b, Computes bars (next b) (results b)) :
    Computes bars (c >>= next) (result >>= results) := by
  intro cache hcache
  obtain ⟨hresult, hafter⟩ := hc cache hcache
  rw [run_bind]
  rcases hrun : c.run cache with ⟨_ | b, after⟩
  · rw [hrun] at hresult hafter
    subst result
    exact ⟨rfl, hafter⟩
  · rw [hrun] at hresult hafter
    subst result
    exact hnext b after hafter

theorem computes_series (spec : IndicatorSpec) :
    Computes bars (series bars spec) (spec.uncached bars) := by
  intro cache hcache
  rw [run_series, IndicatorSpec.uncached]
  cases (spec.resolve : Except Failure (Indicator α)) with
  | error e => exact ⟨rfl, hcache⟩
  | ok i =>
      obtain ⟨hseries, hafter⟩ := hcache.get i
      exact ⟨congrArg Except.ok hseries, hafter⟩

theorem computes_target (target : CompareTarget) :
    Computes bars (target.compile bars) (target.uncached bars) := by
  cases target with
  | value raw =>
      have hliteral : CompareTarget.uncached bars (.value raw) =
          literalValue raw >>= fun x => .ok (.constant x) := by
        rw [CompareTarget.uncached]
        cases (literalValue raw : Except Failure α) <;> rfl
      rw [hliteral]
      exact (computes_lift _).bind fun _ => computes_pure _
  | indicator spec =>
      have hspec : CompareTarget.uncached bars (.indicator spec) =
          spec.uncached bars >>= fun s => .ok (.series s) := by
        rw [CompareTarget.uncached]
        cases spec.uncached bars <;> rfl
      rw [hspec]
      exact (computes_series spec).bind fun _ => computes_pure _

theorem computes_comparison (c : Comparison) :
    Computes bars (c.compile bars) (c.uncached bars) := by
  refine (computes_series c.indicator).bind ?_
  intro left
  refine (computes_target c.target).bind ?_
  intro right
  refine (computes_lift (readOperator c.operator)).bind ?_
  intro operator
  exact computes_pure _

end Compilation

open Compilation

variable {bars : List (Bar α)}

mutual

theorem RuleNode.computes_compile :
    ∀ node : RuleNode, Computes bars (node.compile bars) (node.uncached bars)
  | .comparison c => by
      rw [RuleNode.compile, RuleNode.uncached]
      exact computes_comparison c
  | .group _ [] => by
      rw [RuleNode.compile, RuleNode.uncached]
      exact computes_pure _
  | .group combinator ((_, first) :: rest) => by
      rw [RuleNode.compile, RuleNode.uncached]
      exact first.computes_compile.bind fun p =>
        RuleNode.computes_compileRest combinator p rest

theorem RuleNode.computes_compileRest (combinator : Combinator)
    (running : Predicate α) :
    ∀ rest : List (Option Combinator × RuleNode),
      Computes bars (RuleNode.compileRest bars combinator running rest)
        (RuleNode.uncachedRest bars combinator running rest)
  | [] => by
      rw [RuleNode.compileRest, RuleNode.uncachedRest]
      exact computes_pure _
  | (own, node) :: rest => by
      rw [RuleNode.compileRest, RuleNode.uncachedRest]
      exact node.computes_compile.bind fun p =>
        RuleNode.computes_compileRest combinator _ rest

end

theorem RuleGroup.computes_compile (g : RuleGroup) :
    Computes bars (g.compile bars) (g.uncached bars) :=
  g.toNode.computes_compile

theorem Strategy.computes_compile (entry exit : RuleGroup) :
    Computes bars (Strategy.compile bars entry exit)
      (Strategy.uncached bars entry exit) := by
  refine entry.computes_compile.bind ?_
  intro enter
  refine exit.computes_compile.bind ?_
  intro leave
  exact computes_pure _

theorem Strategy.ofRules_eq_uncached
    (bars : List (Bar α)) (entry exit : RuleGroup) :
    Strategy.ofRules bars entry exit = Strategy.uncached bars entry exit := by
  have hempty : (IndicatorCache.empty : IndicatorCache α).Faithful bars :=
    IndicatorCache.faithful_empty bars
  exact (Strategy.computes_compile entry exit .empty hempty).1

/-! ## Independence of the bars -/

variable {bars' : List (Bar α)}

theorem IndicatorSpec.sameOutcome (spec : IndicatorSpec) :
    SameOutcome (spec.uncached bars) (spec.uncached bars') := by
  have hresolve : SameOutcome (spec.resolve : Except Failure (Indicator α))
      spec.resolve := .refl _
  exact hresolve.map _ _

theorem CompareTarget.sameOutcome (target : CompareTarget) :
    SameOutcome (target.uncached bars) (target.uncached bars') := by
  cases target with
  | value raw => exact SameOutcome.refl _
  | indicator spec => exact spec.sameOutcome.map _ _

theorem Comparison.sameOutcome (c : Comparison) :
    SameOutcome (c.uncached bars) (c.uncached bars') := by
  refine c.indicator.sameOutcome.bind ?_
  intro left left'
  refine c.target.sameOutcome.bind ?_
  intro right right'
  refine (SameOutcome.refl (readOperator c.operator)).bind ?_
  intro operator operator'
  trivial

mutual

theorem RuleNode.sameOutcome :
    ∀ node : RuleNode, SameOutcome (node.uncached bars) (node.uncached bars')
  | .comparison c => by
      rw [RuleNode.uncached, RuleNode.uncached]
      exact c.sameOutcome
  | .group _ [] => by
      rw [RuleNode.uncached, RuleNode.uncached]
      exact trivial
  | .group combinator ((_, first) :: rest) => by
      rw [RuleNode.uncached, RuleNode.uncached]
      exact first.sameOutcome.bind fun p q =>
        RuleNode.sameOutcomeRest combinator p q rest

theorem RuleNode.sameOutcomeRest (combinator : Combinator) (p q : Predicate α) :
    ∀ rest : List (Option Combinator × RuleNode),
      SameOutcome (RuleNode.uncachedRest bars combinator p rest)
        (RuleNode.uncachedRest bars' combinator q rest)
  | [] => by
      rw [RuleNode.uncachedRest, RuleNode.uncachedRest]
      exact trivial
  | (own, node) :: rest => by
      rw [RuleNode.uncachedRest, RuleNode.uncachedRest]
      exact node.sameOutcome.bind fun _ _ =>
        RuleNode.sameOutcomeRest combinator _ _ rest

end

theorem Strategy.sameOutcome (entry exit : RuleGroup) :
    SameOutcome (Strategy.uncached bars entry exit)
      (Strategy.uncached bars' entry exit) := by
  refine entry.toNode.sameOutcome.bind ?_
  intro enter enter'
  refine exit.toNode.sameOutcome.bind ?_
  intro leave leave'
  trivial

theorem Strategy.ofRules_sameOutcome (bars bars' : List (Bar α))
    (entry exit : RuleGroup) :
    SameOutcome (ofRules bars entry exit) (ofRules bars' entry exit) := by
  rw [ofRules_eq_uncached, ofRules_eq_uncached]
  exact sameOutcome entry exit

end RuleBacktest
