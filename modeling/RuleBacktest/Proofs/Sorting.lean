import Mathlib.Data.List.Perm.Basic
import Mathlib.Order.Lattice

/-!
# Sorting by a key

A comparison sorts by a key when it puts two elements before each other exactly
if they have the same key.  Sorting leaves the elements of each key in their
order, and a sorted list is determined by these orders.  So two lists that agree
on every key are sorted alike, and what is in no order to begin with, because no
key occurs twice, may come in any order.
-/

namespace RuleBacktest

variable {β κ : Type}

structure SortsBy (before : β → β → Bool) (key : β → κ) : Prop where
  trans : ∀ a b c, before a b = true → before b c = true → before a c = true
  total : ∀ a b, (before a b || before b a) = true
  tied_iff : ∀ a b, before a b = true ∧ before b a = true ↔ key a = key b

namespace SortsBy

variable {before : β → β → Bool} {key : β → κ} {xs ys : List β}

/-- A comparison of ranks sorts by a key that has a rank of its own. -/
theorem of_rank {ι : Type} [LinearOrder ι] {rank : κ → ι}
    (hrank : Function.Injective rank)
    (key : β → κ) :
    SortsBy (fun a b => decide (rank (key a) ≤ rank (key b))) key where
  trans a b c hab hbc := by
    simp only [decide_eq_true_eq] at *
    exact le_trans hab hbc
  total a b := by
    simpa using le_total (rank (key a)) (rank (key b))
  tied_iff a b := by
    simp only [decide_eq_true_eq]
    exact le_antisymm_iff.symm.trans hrank.eq_iff

theorem swap (h : SortsBy before key) :
    SortsBy (fun a b => before b a) key where
  trans a b c hab hbc := h.trans c b a hbc hab
  total a b := h.total b a
  tied_iff a b := (h.tied_iff b a).trans eq_comm

theorem of_key_eq
    (h : SortsBy before key)
    {a b : β}
    (hkey : key a = key b) :
    before a b = true := by
  obtain ⟨hab, -⟩ := (h.tied_iff a b).mpr hkey
  exact hab

theorem pairwise_mergeSort (h : SortsBy before key) (xs : List β) :
    (xs.mergeSort before).Pairwise fun a b => before a b = true :=
  List.pairwise_mergeSort h.trans h.total xs

variable [DecidableEq κ]

/-- Elements of one key are in order as they stand, so sorting keeps them as a
sublist, and they are as many before as after. -/
theorem filter_mergeSort (h : SortsBy before key) (xs : List β) (k : κ) :
    (xs.mergeSort before).filter (fun x => key x = k) =
      xs.filter fun x => key x = k := by
  have htied : (xs.filter fun x => key x = k).Pairwise fun a b =>
    before a b = true := by
    apply List.pairwise_iff_forall_sublist.mpr
    intro a b hab
    have hkey : ∀ x ∈ [a, b], key x = k := by
      intro x hx
      simpa using (List.mem_filter.mp (hab.subset hx)).2
    apply h.of_key_eq
    rw [hkey a (by simp), hkey b (by simp)]
  have hsublist :
      (xs.filter fun x => key x = k).Sublist (xs.mergeSort before) :=
    List.sublist_mergeSort h.trans h.total htied List.filter_sublist
  have hfiltered := hsublist.filter fun x => key x = k
  rw [List.filter_filter] at hfiltered
  simp only [Bool.and_self] at hfiltered
  have hperm := (List.mergeSort_perm xs before).filter fun x => key x = k
  exact (hfiltered.eq_of_length hperm.length_eq.symm).symm

theorem eq_of_filter_eq
    (h : SortsBy before key)
    (hxs : xs.Pairwise fun a b => before a b = true)
    (hys : ys.Pairwise fun a b => before a b = true)
    (hsame :
      ∀ k, xs.filter (fun x => key x = k) = ys.filter fun x => key x = k) :
    xs = ys := by
  induction xs generalizing ys with
  | nil =>
      cases ys with
      | nil => rfl
      | cons b ys =>
          have hhead := hsame (key b)
          simp at hhead
  | cons a xs ih =>
      cases ys with
      | nil =>
          have hhead := hsame (key a)
          simp at hhead
      | cons b ys =>
          rw [List.pairwise_cons] at hxs hys
          -- Each head is in the other list, so each comes before the other.
          have hmem : ∀ {c : β} {zs ws : List β},
              (c :: zs).filter (fun x => key x = key c) =
                ws.filter (fun x => key x = key c) →
              c ∈ ws := by
            intro c zs ws heq
            have hc : c ∈ (c :: zs).filter fun x => key x = key c := by simp
            rw [heq] at hc
            exact (List.mem_filter.mp hc).1
          have hkey : key a = key b := by
            by_cases hab : a = b
            · rw [hab]
            · have ha :=
                (List.mem_cons.mp (hmem (hsame (key a)))).resolve_left hab
              have hb :=
                (List.mem_cons.mp (hmem (hsame (key b)).symm)).resolve_left
                  (Ne.symm hab)
              exact (h.tied_iff a b).mp ⟨hxs.1 b hb, hys.1 a ha⟩
          have hheads : a = b := by
            have hfirst := hsame (key a)
            rw [List.filter_cons_of_pos (by simp),
              List.filter_cons_of_pos (by simp [hkey])] at hfirst
            exact (List.cons.inj hfirst).1
          subst hheads
          rw [ih hxs.2 hys.2]
          intro k
          have htail := hsame k
          by_cases hk : key a = k
          · simpa [hk] using htail
          · simpa [hk] using htail

theorem mergeSort_congr
    (h : SortsBy before key)
    (hsame :
      ∀ k, xs.filter (fun x => key x = k) = ys.filter fun x => key x = k) :
    xs.mergeSort before = ys.mergeSort before := by
  apply h.eq_of_filter_eq (h.pairwise_mergeSort xs) (h.pairwise_mergeSort ys)
  intro k
  rw [h.filter_mergeSort, h.filter_mergeSort, hsame k]

end SortsBy

/-- Of a list in which no key occurs twice every other order agrees with it on
every key. -/
theorem filter_key_eq_of_perm [DecidableEq κ] {key : β → κ} {xs ys : List β}
    (hperm : xs.Perm ys)
    (hdistinct : (xs.map key).Nodup)
    (k : κ) :
    xs.filter (fun x => key x = k) = ys.filter fun x => key x = k := by
  have hfiltered := hperm.filter fun x => key x = k
  have hshort : (xs.filter fun x => key x = k).length ≤ 1 := by
    have hnodup : ((xs.filter fun x => key x = k).map key).Nodup :=
      hdistinct.sublist (List.filter_sublist.map key)
    have hconst : (xs.filter fun x => key x = k).map key =
        List.replicate (xs.filter fun x => key x = k).length k := by
      rw [List.eq_replicate_iff]
      refine ⟨List.length_map _, ?_⟩
      intro k' hk'
      obtain ⟨x, hx, rfl⟩ := List.mem_map.mp hk'
      simpa using (List.mem_filter.mp hx).2
    rw [hconst] at hnodup
    exact List.nodup_replicate.mp hnodup
  match hlist : xs.filter (fun x => key x = k) with
  | [] =>
      rw [hlist] at hfiltered
      exact (List.nil_perm.mp hfiltered).symm
  | [x] =>
      rw [hlist] at hfiltered
      exact List.singleton_perm.mp hfiltered
  | x :: y :: zs =>
      rw [hlist] at hshort
      simp at hshort

end RuleBacktest
