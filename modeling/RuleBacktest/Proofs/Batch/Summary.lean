import Mathlib.Logic.Basic
import RuleBacktest.Store.Batch

/-!
# Outcomes in a summary

A summary sorts the outcomes of strategies into successes and failures without
moving either past each other.  So every strategy is in it once, and in its
turn.
-/

namespace RuleBacktest

variable {α : Type}

def StrategyRun.owner (r : StrategyRun α) : String × String :=
  (r.strategyId, r.strategyName)

def StrategyFailure.owner (f : StrategyFailure) : String × String :=
  (f.strategyId, f.strategyName)

def StoredStrategy.owner (t : StoredStrategy) : String × String :=
  (t.id, t.name)

namespace BatchSummary

instance : Append (BatchSummary α) where
  append a b := ⟨a.succeeded ++ b.succeeded, a.failed ++ b.failed⟩

@[simp] theorem succeeded_append (a b : BatchSummary α) :
    (a ++ b).succeeded = a.succeeded ++ b.succeeded :=
  rfl

@[simp] theorem failed_append (a b : BatchSummary α) :
    (a ++ b).failed = a.failed ++ b.failed :=
  rfl

theorem append_mk (a : BatchSummary α) (rs : List (StrategyRun α))
    (fs : List StrategyFailure) :
    a ++ mk rs fs = ⟨a.succeeded ++ rs, a.failed ++ fs⟩ :=
  rfl

theorem append_assoc (a b c : BatchSummary α) :
    a ++ b ++ c = a ++ (b ++ c) := by
  have hsucceeded := List.append_assoc a.succeeded b.succeeded c.succeeded
  have hfailed := List.append_assoc a.failed b.failed c.failed
  exact congrArg₂ mk hsucceeded hfailed

abbrev Outcome (α : Type) : Type :=
  StoredStrategy × Except Failure (StrategyRun α)

def success? (o : Outcome α) : Option (StrategyRun α) := o.2.toOption

def failure? (o : Outcome α) : Option StrategyFailure :=
  match o.2 with
  | .ok _ => none
  | .error e => some ⟨o.1.id, o.1.name, e⟩

/-- Outcomes sorted into successes and failures. -/
def ofOutcomes (os : List (Outcome α)) : BatchSummary α :=
  ⟨os.filterMap success?, os.filterMap failure?⟩

theorem ofOutcomes_cons (o : Outcome α) (os : List (Outcome α)) :
    ofOutcomes (o :: os) = ofOutcomes [o] ++ ofOutcomes os := by
  have hsucceeded : (o :: os).filterMap success? =
      [o].filterMap success? ++ os.filterMap success? := by
    rw [← List.filterMap_append, List.singleton_append]
  have hfailed : (o :: os).filterMap failure? =
      [o].filterMap failure? ++ os.filterMap failure? := by
    rw [← List.filterMap_append, List.singleton_append]
  exact congrArg₂ mk hsucceeded hfailed

@[simp] theorem ofOutcomes_ok (t : StoredStrategy) (r : StrategyRun α) :
    ofOutcomes [(t, .ok r)] = ⟨[r], []⟩ :=
  rfl

@[simp] theorem ofOutcomes_error (t : StoredStrategy) (e : Failure) :
    ofOutcomes [((t, .error e) : Outcome α)] = ⟨[], [⟨t.id, t.name, e⟩]⟩ :=
  rfl

def Owned (os : List (Outcome α)) : Prop :=
  ∀ o ∈ os, ∀ r, o.2 = .ok r → r.owner = o.1.owner

theorem Owned.owners_perm {os : List (Outcome α)} (howned : Owned os) :
    ((ofOutcomes os).succeeded.map StrategyRun.owner ++
      (ofOutcomes os).failed.map StrategyFailure.owner).Perm
        (os.map fun o => o.1.owner) := by
  induction os with
  | nil => exact List.Perm.refl []
  | cons o os ih =>
      have hrest := ih fun o' ho' => howned o' (List.mem_cons_of_mem o ho')
      have hfirst := howned o List.mem_cons_self
      obtain ⟨t, outcome⟩ := o
      rw [ofOutcomes_cons]
      cases outcome with
      | ok r =>
          have howner : r.owner = t.owner := hfirst r rfl
          simpa [howner] using hrest
      | error e =>
          have howner : StrategyFailure.owner ⟨t.id, t.name, e⟩ = t.owner := rfl
          -- The failure stands behind all successes, although its turn was the
          -- first.
          simpa [howner] using List.perm_middle.trans (hrest.cons t.owner)

theorem sublist_owners {os : List (Outcome α)} {β : Type}
    {pick : Outcome α → Option β} {owner : β → String × String}
    (hpick : ∀ o ∈ os, ∀ x, pick o = some x → owner x = o.1.owner) :
    ((os.filterMap pick).map owner).Sublist (os.map fun o => o.1.owner) := by
  induction os with
  | nil => exact List.Sublist.refl []
  | cons o os ih =>
      have hrest := ih fun o' ho' => hpick o' (List.mem_cons_of_mem o ho')
      cases hfirst : pick o with
      | none => simpa [List.filterMap_cons, hfirst] using hrest.cons o.1.owner
      | some x =>
          have howner := hpick o List.mem_cons_self x hfirst
          simpa [List.filterMap_cons, hfirst, howner] using hrest.cons_cons
            o.1.owner

theorem Owned.succeeded_sublist {os : List (Outcome α)} (howned : Owned os) :
    ((ofOutcomes os).succeeded.map StrategyRun.owner).Sublist
      (os.map fun o => o.1.owner) := by
  apply sublist_owners
  intro o ho r hr
  apply howned o ho r
  unfold success? at hr
  cases houtcome : o.2 with
  | ok r' =>
      rw [houtcome] at hr
      exact congrArg Except.ok (Option.some.inj hr)
  | error e =>
      rw [houtcome] at hr
      cases hr

theorem failed_sublist (os : List (Outcome α)) :
    ((ofOutcomes os).failed.map StrategyFailure.owner).Sublist
      (os.map fun o => o.1.owner) := by
  apply sublist_owners
  intro o _ f hf
  unfold failure? at hf
  split at hf
  · cases hf
  · cases hf
    rfl

end BatchSummary

/-- Every strategy is once in a summary, with its success or with its failure,
and in its turn. -/
structure BatchSummary.Covers (summary : BatchSummary α)
    (strategies : List StoredStrategy) : Prop where
  once : (summary.succeeded.map StrategyRun.owner ++
    summary.failed.map StrategyFailure.owner).Perm
    (strategies.map StoredStrategy.owner)
  succeeded_in_turn : (summary.succeeded.map StrategyRun.owner).Sublist
    (strategies.map StoredStrategy.owner)
  failed_in_turn : (summary.failed.map StrategyFailure.owner).Sublist
    (strategies.map StoredStrategy.owner)

theorem BatchSummary.Owned.covers {os : List (BatchSummary.Outcome α)}
    (howned : BatchSummary.Owned os) :
    (BatchSummary.ofOutcomes os).Covers (os.map Prod.fst) := by
  have howners : (os.map Prod.fst).map StoredStrategy.owner =
    os.map fun o => o.1.owner :=
    List.map_map
  constructor
  · rw [howners]
    exact howned.owners_perm
  · rw [howners]
    exact howned.succeeded_sublist
  · rw [howners]
    exact BatchSummary.failed_sublist os

end RuleBacktest
