import Mathlib.Data.List.Forall2
import Mathlib.Data.List.Induction
import Mathlib.Data.List.Perm.Basic
import RuleBacktest.Proofs.Compilation.Meaning

/-!
# Children joined from left to right

A group compiles when each of its children does, and its predicate joins theirs
from left to right. There is no precedence between the two combinators, and yet
the outcome can be read off the children at once: a group holds when some child
that holds is joined by `or`, or is the first one, and every later child that is
joined by `and` holds as well.
-/

namespace RuleBacktest

variable {α : Type} [Scalar α]

/-! ## Truth values joined from left to right -/

namespace Combinator

/-- Before the first entry nothing holds. -/
def joinAll (entries : List (Combinator × Bool)) : Bool :=
  entries.foldl (fun held entry => entry.1.join held entry.2) false

/-- Entry `k` is true and joined by `or`, and no later one is false and joined
by `and`. -/
def Decides (entries : List (Combinator × Bool)) (k : Nat) : Prop :=
  entries[k]? = some (or, true) ∧ ∀ j, k < j → entries[j]? ≠ some (and, false)

theorem joinAll_concat (entries : List (Combinator × Bool)) (c : Combinator)
    (b : Bool) :
    joinAll (entries ++ [(c, b)]) = c.join (joinAll entries) b := by
  rw [joinAll, List.foldl_append]
  rfl

theorem Decides.lt_length {entries : List (Combinator × Bool)} {k : Nat}
    (h : Decides entries k) :
    k < entries.length := by
  obtain ⟨hk, -⟩ := List.getElem?_eq_some_iff.mp h.1
  exact hk

/-- A later entry leaves a decision alone unless it is false and joined by
`and`. -/
theorem decides_concat_iff_of_lt {entries : List (Combinator × Bool)} {k : Nat}
    (hk : k < entries.length)
    (last : Combinator × Bool) :
    Decides (entries ++ [last]) k ↔
      Decides entries k ∧ last ≠ (and, false) := by
  unfold Decides
  rw [List.getElem?_append_left hk, and_assoc]
  refine and_congr_right fun _ => ?_
  constructor
  · intro h
    constructor
    · intro j hj hfalse
      refine h j hj ?_
      rw [List.getElem?_append_left (List.getElem?_eq_some_iff.mp hfalse).1,
        hfalse]
    · intro hlast
      refine h entries.length hk ?_
      rw [List.getElem?_concat_length, hlast]
  · rintro ⟨hbefore, hlast⟩ j hj hfalse
    by_cases hplace : j < entries.length
    · rw [List.getElem?_append_left hplace] at hfalse
      exact hbefore j hj hfalse
    · have hend : j = entries.length := by
        have hlt := (List.getElem?_eq_some_iff.mp hfalse).1
        rw [List.length_append, List.length_singleton] at hlt
        omega
      rw [hend, List.getElem?_concat_length, Option.some.injEq] at hfalse
      exact hlast hfalse

theorem decides_concat_length_iff (entries : List (Combinator × Bool))
    (last : Combinator × Bool) :
    Decides (entries ++ [last]) entries.length ↔ last = (or, true) := by
  unfold Decides
  rw [List.getElem?_concat_length, Option.some.injEq]
  refine and_iff_left fun j hj => ?_
  have hbeyond : (entries ++ [last]).length ≤ j := by
    rw [List.length_append, List.length_singleton]
    exact hj
  rw [List.getElem?_eq_none hbeyond]
  exact nofun

theorem exists_decides_concat_iff (entries : List (Combinator × Bool))
    (last : Combinator × Bool) :
    (∃ k, Decides (entries ++ [last]) k) ↔
      ((∃ k, Decides entries k) ∧ last ≠ (and, false)) ∨ last = (or, true) := by
  constructor
  · rintro ⟨k, hk⟩
    by_cases hplace : k < entries.length
    · have hbefore := (decides_concat_iff_of_lt hplace last).mp hk
      exact Or.inl ⟨⟨k, hbefore.1⟩, hbefore.2⟩
    · have hend : k = entries.length := by
        have hlt := hk.lt_length
        rw [List.length_append, List.length_singleton] at hlt
        omega
      rw [hend] at hk
      exact Or.inr ((decides_concat_length_iff entries last).mp hk)
  · rintro (⟨⟨k, hk⟩, hlast⟩ | hlast)
    · exact ⟨k, (decides_concat_iff_of_lt hk.lt_length last).mpr ⟨hk, hlast⟩⟩
    · exact ⟨entries.length, (decides_concat_length_iff entries last).mpr hlast⟩

/-- The induction is from the back, since the last entry is joined to all before
it. -/
theorem joinAll_eq_true_iff (entries : List (Combinator × Bool)) :
    joinAll entries = true ↔ ∃ k, Decides entries k := by
  induction entries using List.reverseRecOn with
  | nil => simp [joinAll, Decides]
  | append_singleton entries last ih =>
      obtain ⟨c, b⟩ := last
      rw [joinAll_concat, exists_decides_concat_iff, ← ih]
      cases c with
      | and => cases b <;> simp [join]
      | or => cases b <;> simp [join]

end Combinator

open Combinator

/-! ## Children on their own -/

namespace RuleNode

variable {bars : List (Bar α)}

/-- Each child compiles to the predicate beside it, with every series computed
on its own. -/
def Uncached (bars : List (Bar α))
    (children : List (Option Combinator × RuleNode)) (ps : List (Predicate α)) :
    Prop :=
  List.Forall₂ (fun child p => child.2.uncached bars = .ok p) children ps

theorem exists_children_of_uncachedRest {combinator : Combinator}
    {running p : Predicate α} {rest : List (Option Combinator × RuleNode)}
    (h : uncachedRest bars combinator running rest = .ok p) :
    ∃ ps, Uncached bars rest ps := by
  induction rest generalizing running with
  | nil => exact ⟨[], List.Forall₂.nil⟩
  | cons child rest ih =>
      rw [uncachedRest] at h
      obtain ⟨q, hchild, hrest⟩ := bind_eq_ok.mp h
      obtain ⟨ps, hps⟩ := ih hrest
      exact ⟨q :: ps, List.Forall₂.cons hchild hps⟩

theorem Uncached.exists_uncachedRest
    {rest : List (Option Combinator × RuleNode)} {ps : List (Predicate α)}
    (h : Uncached bars rest ps)
    (combinator : Combinator) (running : Predicate α) :
    ∃ p, uncachedRest bars combinator running rest = .ok p ∧
      ∀ index, p.holds index =
        (List.zipWith (fun child q => (child.1.getD combinator, q.holds index))
          rest ps).foldl (fun held entry => entry.1.join held entry.2)
          (running.holds index) := by
  induction h generalizing running with
  | nil =>
      refine ⟨running, ?_, fun index => rfl⟩
      rw [uncachedRest]
  | @cons child q rest ps hchild _ ih =>
      obtain ⟨p, hp, hholds⟩ := ih (running.joined (child.1.getD combinator) q)
      refine ⟨p, ?_, ?_⟩
      · rw [uncachedRest, hchild]
        exact hp
      · intro index
        rw [hholds, Predicate.holds_joined]
        rfl

end RuleNode

/-! ## Groups and their children -/

namespace RuleGroup

variable {bars : List (Bar α)} {g : RuleGroup} {ps : List (Predicate α)}

/-- The combinator by which child `k` is joined to the children before it. -/
def joinedBy? (g : RuleGroup) (k : Nat) : Option Combinator :=
  g.children[k]?.map fun child => child.1.getD g.combinator

/-- What the children compile to, each on its own and whatever a cache was asked
for before. -/
def ChildrenCompile (bars : List (Bar α)) (g : RuleGroup)
    (ps : List (Predicate α)) : Prop :=
  List.Forall₂
    (fun child p =>
      ∀ requests : List (CacheRequest α),
        ((child.2.compile bars).run
          (IndicatorCache.after bars requests)).1 = .ok p) g.children ps

theorem childrenCompile_iff :
    g.ChildrenCompile bars ps ↔ RuleNode.Uncached bars g.children ps := by
  have hchild (child : Option Combinator × RuleNode) (p : Predicate α) :
      (∀ requests,
          ((child.2.compile bars).run
            (IndicatorCache.after bars requests)).1 = .ok p) ↔
        child.2.uncached bars = .ok p := by
    have hcompile (requests : List (CacheRequest α)) :=
      (child.2.computes_compile _
        (IndicatorCache.faithful_after bars requests)).1
    constructor
    · intro h
      rw [← hcompile [], h]
    · intro h requests
      rw [hcompile, h]
  unfold ChildrenCompile RuleNode.Uncached
  simp only [hchild]

/-- The combinators that join the children.  The first child is joined to
nothing, and `or` with something that does not hold leaves it as it is. -/
def joiners (g : RuleGroup) : List Combinator :=
  match g.children with
  | [] => []
  | _ :: later => .or :: later.map fun child => child.1.getD g.combinator

def entries (g : RuleGroup) (ps : List (Predicate α)) (index : Nat) :
    List (Combinator × Bool) :=
  List.zipWith (fun c p => (c, p.holds index)) g.joiners ps

theorem exists_children_of_uncached {p : Predicate α}
    (h : g.uncached bars = .ok p) :
    ∃ ps, RuleNode.Uncached bars g.children ps := by
  obtain ⟨combinator, children⟩ := g
  cases children with
  | nil => exact ⟨[], List.Forall₂.nil⟩
  | cons child rest =>
      rw [uncached, toNode, RuleNode.uncached] at h
      obtain ⟨q, hchild, hrest⟩ := bind_eq_ok.mp h
      obtain ⟨ps, hps⟩ := RuleNode.exists_children_of_uncachedRest hrest
      exact ⟨q :: ps, List.Forall₂.cons hchild hps⟩

/-- A group whose children compile does so too, and joins what they give. -/
theorem exists_uncached_of_children (g : RuleGroup)
    (h : RuleNode.Uncached bars g.children ps) :
    ∃ p, g.uncached bars = .ok p ∧
      ∀ index, p.holds index = joinAll (g.entries ps index) := by
  obtain ⟨combinator, children⟩ := g
  cases h with
  | nil =>
      refine ⟨.never, ?_, fun index => rfl⟩
      rw [uncached, toNode, RuleNode.uncached]
  | @cons child q rest ps hchild hrest =>
      obtain ⟨p, hp, hholds⟩ :=
        RuleNode.Uncached.exists_uncachedRest hrest combinator q
      refine ⟨p, ?_, ?_⟩
      · rw [uncached, toNode, RuleNode.uncached, hchild]
        exact hp
      · intro index
        have hfirst :
            Combinator.or.join false (q.holds index) = q.holds index :=
          Bool.false_or _
        rw [hholds, entries, joiners, List.zipWith_cons_cons, joinAll,
          List.foldl_cons, hfirst, List.zipWith_map_left]

theorem joiners_getElem?_of_pos (g : RuleGroup) {k : Nat} (hk : 0 < k) :
    g.joiners[k]? = g.joinedBy? k := by
  obtain ⟨combinator, children⟩ := g
  cases children with
  | nil => rfl
  | cons child rest =>
      cases k with
      | zero => cases hk
      | succ k =>
          rw [joiners, joinedBy?, List.getElem?_cons_succ, List.getElem?_map,
            List.getElem?_cons_succ]

theorem entries_getElem?_eq_some_iff {index k : Nat} {c : Combinator}
    {b : Bool} :
    (g.entries ps index)[k]? = some (c, b) ↔
      g.joiners[k]? = some c ∧ ∃ q, ps[k]? = some q ∧ q.holds index = b := by
  rw [entries, List.getElem?_zipWith_eq_some]
  constructor
  · rintro ⟨d, q, hd, hq, hentry⟩
    obtain ⟨rfl, rfl⟩ := Prod.mk.inj hentry
    exact ⟨hd, q, hq, rfl⟩
  · rintro ⟨hc, q, hq, rfl⟩
    exact ⟨c, q, hc, hq, rfl⟩

/-- A child decides for the group if it holds, may make the group hold, and no
later child that the group asks for fails. -/
theorem decides_entries_iff
    (hlength : ps.length = g.children.length)
    (index k : Nat) :
    Decides (g.entries ps index) k ↔
      ∃ q,
        ps[k]? = some q ∧
        q.holds index = true ∧
        (k = 0 ∨ g.joinedBy? k = some .or) ∧
        ∀ j r,
          k < j →
          ps[j]? = some r →
          g.joinedBy? j = some .and →
          r.holds index = true := by
  have hlater : (∀ j, k < j → (g.entries ps index)[j]? ≠ some (.and, false)) ↔
      ∀ j r,
        k < j →
        ps[j]? = some r →
        g.joinedBy? j = some .and →
        r.holds index = true := by
    refine forall_congr' fun j => ?_
    constructor
    · intro h r hj hr hand
      by_contra hfails
      refine h hj
        (entries_getElem?_eq_some_iff.mpr
          ⟨?_, r, hr, Bool.not_eq_true _ ▸ hfails⟩)
      rw [joiners_getElem?_of_pos g (Nat.zero_lt_of_lt hj), hand]
    · intro h hj hentry
      obtain ⟨hand, r, hr, hfails⟩ := entries_getElem?_eq_some_iff.mp hentry
      rw [joiners_getElem?_of_pos g (Nat.zero_lt_of_lt hj)] at hand
      rw [h r hj hr hand] at hfails
      cases hfails
  have hjoiner (q : Predicate α) (hq : ps[k]? = some q) :
      g.joiners[k]? = some .or ↔ k = 0 ∨ g.joinedBy? k = some .or := by
    cases k with
    | zero =>
        have hchildren : 0 < g.children.length :=
          hlength ▸ (List.getElem?_eq_some_iff.mp hq).1
        obtain ⟨combinator, children⟩ := g
        cases children with
        | nil => cases hchildren
        | cons child rest => simp [joiners]
    | succ k =>
        rw [joiners_getElem?_of_pos g k.succ_pos]
        simp
  unfold Decides
  rw [entries_getElem?_eq_some_iff, hlater]
  constructor
  · rintro ⟨⟨hor, q, hq, hholds⟩, hrest⟩
    exact ⟨q, hq, hholds, (hjoiner q hq).mp hor, hrest⟩
  · rintro ⟨q, hq, hholds, hor, hrest⟩
    exact ⟨⟨(hjoiner q hq).mpr hor, q, hq, hholds⟩, hrest⟩

/-- What a group's predicate is from those of its children, which compile when
it does. -/
theorem holds_iff_of_children {p : Predicate α}
    (huncached : g.uncached bars = .ok p)
    (hps : RuleNode.Uncached bars g.children ps)
    (index : Nat) :
    p.holds index = true ↔
      ∃ k q,
        ps[k]? = some q ∧
        q.holds index = true ∧
        (k = 0 ∨ g.joinedBy? k = some .or) ∧
        ∀ j r,
          k < j →
          ps[j]? = some r →
          g.joinedBy? j = some .and →
          r.holds index = true := by
  obtain ⟨q, hq, hholds⟩ := g.exists_uncached_of_children hps
  have hsame : p = q := Except.ok.inj (huncached.symm.trans hq)
  rw [hsame, hholds, joinAll_eq_true_iff]
  exact exists_congr fun k => decides_entries_iff hps.length_eq.symm index k

/-! ## Groups without combinators of their own -/

theorem joinedBy?_of_no_override
    (hplain : ∀ child ∈ g.children, child.1 = none)
    {k : Nat}
    (hk : k < g.children.length) :
    g.joinedBy? k = some g.combinator := by
  rw [joinedBy?, List.getElem?_eq_getElem hk, Option.map_some,
    hplain _ (List.getElem_mem hk), Option.getD_none]

section Plain

variable {p : Predicate α} (huncached : g.uncached bars = .ok p)
  (hps : RuleNode.Uncached bars g.children ps)
  (hplain : ∀ child ∈ g.children, child.1 = none)
include huncached hps hplain

theorem holds_iff_forall_of_and
    (hchildren : g.children ≠ [])
    (hand : g.combinator = .and)
    (index : Nat) :
    p.holds index = true ↔ ∀ q ∈ ps, q.holds index = true := by
  have hlength := hps.length_eq
  have hjoined (k : Nat) (hk : k < ps.length) : g.joinedBy? k = some .and := by
    rw [joinedBy?_of_no_override hplain (hlength ▸ hk), hand]
  rw [holds_iff_of_children huncached hps]
  constructor
  · rintro ⟨k, q, hq, hholds, hor, hlater⟩ r hr
    obtain ⟨j, hj, rfl⟩ := List.mem_iff_getElem.mp hr
    have hplace := (List.getElem?_eq_some_iff.mp hq).1
    -- Only the first child is not joined by `and`.
    have hfirst : k = 0 := by
      rcases hor with hfirst | hor
      · exact hfirst
      · rw [hjoined k hplace] at hor
        cases hor
    subst hfirst
    cases j with
    | zero =>
        rw [List.getElem?_eq_getElem hplace, Option.some.injEq] at hq
        rwa [hq]
    | succ j =>
        exact hlater (j + 1) _ j.succ_pos (List.getElem?_eq_getElem hj)
          (hjoined _ hj)
  · intro hall
    have hfirst : 0 < ps.length := by
      rw [← hlength]
      exact List.length_pos_iff.mpr hchildren
    refine ⟨0, ps[0], List.getElem?_eq_getElem hfirst,
      hall _ (List.getElem_mem hfirst), Or.inl rfl, ?_⟩
    intro j r _ hr _
    exact hall r (List.mem_of_getElem? hr)

theorem holds_iff_exists_of_or (hor : g.combinator = .or) (index : Nat) :
    p.holds index = true ↔ ∃ q ∈ ps, q.holds index = true := by
  have hlength := hps.length_eq
  have hjoined (k : Nat) (hk : k < ps.length) : g.joinedBy? k = some .or := by
    rw [joinedBy?_of_no_override hplain (hlength ▸ hk), hor]
  rw [holds_iff_of_children huncached hps]
  constructor
  · rintro ⟨k, q, hq, hholds, -⟩
    exact ⟨q, List.mem_of_getElem? hq, hholds⟩
  · rintro ⟨q, hmem, hholds⟩
    obtain ⟨k, hk, rfl⟩ := List.mem_iff_getElem.mp hmem
    refine ⟨k, _, List.getElem?_eq_getElem hk, hholds, Or.inr (hjoined k hk),
      ?_⟩
    intro j r _ hr hand
    rw [hjoined j (List.getElem?_eq_some_iff.mp hr).1] at hand
    cases hand

/-- The same children in another order. -/
theorem exists_uncached_of_perm
    (hchildren : g.children ≠ [])
    {children : List (Option Combinator × RuleNode)}
    (hperm : children.Perm g.children) :
    ∃ p', uncached bars ⟨g.combinator, children⟩ = .ok p' ∧
      ∀ index, p'.holds index = p.holds index := by
  obtain ⟨ps', hps', hpermuted⟩ := List.perm_comp_forall₂ hperm hps
  obtain ⟨p', hp', -⟩ :=
    exists_uncached_of_children ⟨g.combinator, children⟩ hps'
  refine ⟨p', hp', fun index => ?_⟩
  have hplain' : ∀ child ∈ children, child.1 = none :=
    fun child hchild => hplain child (hperm.mem_iff.mp hchild)
  have hnonempty : children ≠ [] := by
    rintro rfl
    exact hchildren hperm.nil_eq.symm
  rw [Bool.eq_iff_iff]
  cases hcombinator : g.combinator with
  | and =>
      rw [holds_iff_forall_of_and hp' hps' hplain' hnonempty hcombinator,
        holds_iff_forall_of_and huncached hps hplain hchildren hcombinator]
      exact forall_congr' fun q => by rw [hpermuted.mem_iff]
  | or =>
      rw [holds_iff_exists_of_or hp' hps' hplain' hcombinator,
        holds_iff_exists_of_or huncached hps hplain hcombinator]
      exact exists_congr fun q => by rw [hpermuted.mem_iff]

end Plain

/-- More children that hold, and the same combinators: what held goes on
holding. -/
theorem holds_mono {p p' : Predicate α} {bars' : List (Bar α)} {g' : RuleGroup}
    {ps' : List (Predicate α)}
    (huncached : g.uncached bars = .ok p)
    (hps : RuleNode.Uncached bars g.children ps)
    (huncached' : g'.uncached bars' = .ok p')
    (hps' : RuleNode.Uncached bars' g'.children ps')
    (hlength : g'.children.length = g.children.length)
    (hjoined : ∀ k, 0 < k → g'.joinedBy? k = g.joinedBy? k)
    {index index' : Nat}
    (hmore : ∀ (k : Nat) (q q' : Predicate α),
      ps[k]? = some q →
      ps'[k]? = some q' →
      q.holds index = true →
      q'.holds index' = true)
    (hholds : p.holds index = true) :
    p'.holds index' = true := by
  have hplaces : ps'.length = ps.length := by
    rw [← hps'.length_eq, hlength, hps.length_eq]
  rw [holds_iff_of_children huncached hps] at hholds
  obtain ⟨k, q, hq, hqholds, hor, hlater⟩ := hholds
  have hk : k < ps'.length := hplaces ▸ (List.getElem?_eq_some_iff.mp hq).1
  have hk' := List.getElem?_eq_getElem hk
  rw [holds_iff_of_children huncached' hps']
  refine ⟨k, _, hk', hmore k q _ hq hk' hqholds, ?_, ?_⟩
  · rcases Nat.eq_zero_or_pos k with hfirst | hpos
    · exact Or.inl hfirst
    · rwa [hjoined k hpos]
  · intro j r' hj hr' hand
    rw [hjoined j (Nat.zero_lt_of_lt hj)] at hand
    have hplace : j < ps.length :=
      hplaces ▸ (List.getElem?_eq_some_iff.mp hr').1
    have hr := List.getElem?_eq_getElem hplace
    exact hmore j _ r' hr hr' (hlater j _ hj hr hand)

/-- The predicate of a group holds at an index exactly when there a child holds
that is the first one or joined by `or`, and every later child that is joined by
`and`.  Without combinators of their own the children of an `and` group must all
hold and of those of an `or` group one, in whatever order they stand.  No group
that holds ceases to when more of its children do. -/
theorem holds_iff_exists_deciding_child (bars : List (Bar α))
    (requests : List (CacheRequest α)) (g : RuleGroup) (p : Predicate α)
    (hchildren : g.children ≠ [])
    (hcompile :
      ((g.compile bars).run (IndicatorCache.after bars requests)).1 = .ok p) :
    ∃ ps, g.ChildrenCompile bars ps ∧
      (∀ index, p.holds index = true ↔
        ∃ k q, ps[k]? = some q ∧ q.holds index = true ∧
          (k = 0 ∨ g.joinedBy? k = some .or) ∧
          ∀ j r, k < j → ps[j]? = some r → g.joinedBy? j = some .and →
            r.holds index = true) ∧
      ((∀ child ∈ g.children, child.1 = none) →
        (g.combinator = .and →
          ∀ index, p.holds index = true ↔ ∀ q ∈ ps, q.holds index = true) ∧
        (g.combinator = .or →
          ∀ index, p.holds index = true ↔ ∃ q ∈ ps, q.holds index = true) ∧
        ∀ children : List (Option Combinator × RuleNode),
          children.Perm g.children →
          ∃ p',
            ((compile bars ⟨g.combinator, children⟩).run
              (IndicatorCache.after bars requests)).1 = .ok p' ∧
            ∀ index, p'.holds index = p.holds index) ∧
      ∀ (bars' : List (Bar α)) (requests' : List (CacheRequest α))
        (g' : RuleGroup) (p' : Predicate α) (ps' : List (Predicate α)),
        ((g'.compile bars').run (IndicatorCache.after bars' requests')).1 =
          .ok p' →
        g'.ChildrenCompile bars' ps' →
        g'.children.length = g.children.length →
        (∀ k, 0 < k → g'.joinedBy? k = g.joinedBy? k) →
        ∀ index index',
          (∀ (k : Nat) (q q' : Predicate α),
            ps[k]? = some q →
            ps'[k]? = some q' →
            q.holds index = true →
            q'.holds index' = true) →
          p.holds index = true →
          p'.holds index' = true := by
  have hcache (g : RuleGroup) (bars : List (Bar α))
      (requests : List (CacheRequest α)) :
      ((g.compile bars).run (IndicatorCache.after bars requests)).1 =
        g.uncached bars :=
    (g.computes_compile _ (IndicatorCache.faithful_after bars requests)).1
  rw [hcache] at hcompile
  obtain ⟨ps, hps⟩ := exists_children_of_uncached hcompile
  refine ⟨ps, childrenCompile_iff.mpr hps, holds_iff_of_children hcompile hps,
    ?_, ?_⟩
  · intro hplain
    refine ⟨holds_iff_forall_of_and hcompile hps hplain hchildren,
      holds_iff_exists_of_or hcompile hps hplain, ?_⟩
    intro children hperm
    obtain ⟨p', hp', hholds⟩ :=
      exists_uncached_of_perm hcompile hps hplain hchildren hperm
    exact ⟨p', (hcache _ _ _).trans hp', hholds⟩
  · intro bars' requests' g' p' ps' hcompile' hps' hlength hjoined index
      index' hmore
    rw [hcache] at hcompile'
    exact holds_mono hcompile hps hcompile' (childrenCompile_iff.mp hps')
      hlength hjoined hmore

/-- The close is not below the opening or equal to it, and above it. -/
def notBelowAndAbove : RuleGroup :=
  ⟨.or,
    [(none, .comparison ⟨⟨"CLOSE", []⟩, ">=", .indicator ⟨"OPEN", []⟩⟩),
      (none, .comparison ⟨⟨"CLOSE", []⟩, "=", .indicator ⟨"OPEN", []⟩⟩),
      (some .and, .comparison ⟨⟨"CLOSE", []⟩, ">", .indicator ⟨"OPEN", []⟩⟩)]⟩

/-- On the flat bar the first two children hold and the last one does not, so
the group fails there. -/
theorem holds_iff_exists_deciding_child_flatAndRising :
    notBelowAndAbove.children ≠ [] ∧
      ∃ p ps,
        ((notBelowAndAbove.compile Bar.flatAndRising).run
          (IndicatorCache.after Bar.flatAndRising [])).1 = .ok p ∧
        notBelowAndAbove.ChildrenCompile Bar.flatAndRising ps ∧
        p.holds 0 = false ∧
        p.holds 1 = true ∧
        ∃ k q,
          ps[k]? = some q ∧
          q.holds 1 = true ∧
          (k = 0 ∨ notBelowAndAbove.joinedBy? k = some .or) ∧
          ∀ j r,
            k < j →
            ps[j]? = some r →
            notBelowAndAbove.joinedBy? j = some .and →
            r.holds 1 = true := by
  have hclose : Family.ofName? "CLOSE" = some (.price .close) := by
    decide +kernel
  have hopening : Family.ofName? "OPEN" = some (.price .opening) := by
    decide +kernel
  have hgreater : readOperator ">" = .ok .greater := rfl
  have hgreaterOrEqual : readOperator ">=" = .ok .greaterOrEqual := rfl
  have hequal : readOperator "=" = .ok .equal := rfl
  have huncached : ∃ p, notBelowAndAbove.uncached Bar.flatAndRising = .ok p ∧
      p.holds 0 = false ∧ p.holds 1 = true := by
    simp only [notBelowAndAbove, uncached, toNode, RuleNode.uncached,
      RuleNode.uncachedRest, Comparison.uncached, CompareTarget.uncached,
      IndicatorSpec.uncached, IndicatorSpec.resolve, hclose, hopening, hgreater,
      hgreaterOrEqual, hequal]
    refine ⟨_, rfl, ?_, ?_⟩ <;>
      simp only [Predicate.holds, Predicate.joined, Operator.predicate,
        Option.getD_none, Option.getD_some, Operand.value?, Family.configure,
        IndicatorSeries.value?_direct_price] <;>
      decide
  obtain ⟨p, hp, hflat, hrises⟩ := huncached
  have hcompile := (notBelowAndAbove.computes_compile _
    (IndicatorCache.faithful_after Bar.flatAndRising [])).1.trans hp
  have hchildren : notBelowAndAbove.children ≠ [] := List.cons_ne_nil _ _
  obtain ⟨ps, hps, hholds, -⟩ :=
    holds_iff_exists_deciding_child Bar.flatAndRising [] notBelowAndAbove p
      hchildren hcompile
  exact ⟨hchildren, p, ps, hcompile, hps, hflat, hrises, (hholds 1).mp hrises⟩

end RuleGroup

end RuleBacktest
