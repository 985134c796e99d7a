import RuleBacktest.Sweep

/-!
# Causal transformations of lists

A transformation of lists is causal when it gives one point for every input and
its points for the first inputs do not depend on the later ones.  Sweeps are
causal, and so is what pairs an element with an earlier one, what restarts a
causal transformation after every gap, and whatever is composed of causal
transformations.  An indicator is causal because it is built in this way.
-/

namespace RuleBacktest

variable {σ ι κ μ ο : Type}

structure Causal (f : List ι → List ο) : Prop where
  length_eq : ∀ xs, (f xs).length = xs.length
  take_eq : ∀ n xs, f (xs.take n) = (f xs).take n

/-- Causality in two lists that run side by side. -/
structure CausalPair (f : List ι → List κ → List ο) : Prop where
  length_eq : ∀ xs ys, ys.length = xs.length → (f xs ys).length = xs.length
  take_eq : ∀ n xs ys, f (xs.take n) (ys.take n) = (f xs ys).take n

/-! ## Composition -/

namespace Causal

theorem id : Causal (fun xs : List ι => xs) where
  length_eq _ := rfl
  take_eq _ _ := rfl

theorem map (f : ι → ο) : Causal (List.map f) where
  length_eq _ := List.length_map f
  take_eq _ _ := List.map_take

theorem comp {g : List κ → List ο} {f : List ι → List κ}
    (hg : Causal g)
    (hf : Causal f) :
    Causal fun xs => g (f xs) where
  length_eq xs := (hg.length_eq (f xs)).trans (hf.length_eq xs)
  take_eq n xs := by
    rw [hf.take_eq, hg.take_eq]

theorem congr {f g : List ι → List ο}
    (hf : Causal f)
    (hfg : ∀ xs, g xs = f xs) :
    Causal g := by
  have hfun : g = f := funext hfg
  rw [hfun]
  exact hf

theorem ite (c : Prop) [Decidable c] {f g : List ι → List ο}
    (hf : Causal f)
    (hg : Causal g) :
    Causal fun xs => if c then f xs else g xs := by
  by_cases hc : c
  · exact hf.congr fun xs => if_pos hc
  · exact hg.congr fun xs => if_neg hc

theorem pair {g : List κ → List μ → List ο} {f : List ι → List κ}
    {h : List ι → List μ}
    (hg : CausalPair g)
    (hf : Causal f)
    (hh : Causal h) :
    Causal fun xs => g (f xs) (h xs) where
  length_eq xs := by
    have hlength : (h xs).length = (f xs).length := by
      rw [hf.length_eq, hh.length_eq]
    rw [hg.length_eq _ _ hlength, hf.length_eq]
  take_eq n xs := by
    rw [hf.take_eq, hh.take_eq, hg.take_eq]

theorem lt_length {f : List ι → List ο}
    (hf : Causal f)
    {xs : List ι} {i : Nat} {y : ο}
    (hy : (f xs)[i]? = some y) :
    i < xs.length := by
  rw [← hf.length_eq xs]
  exact (List.getElem?_eq_some_iff.mp hy).1

end Causal

namespace CausalPair

theorem zipWith (f : ι → κ → ο) : CausalPair (List.zipWith f) where
  length_eq xs ys hlength := by
    rw [List.length_zipWith, hlength, Nat.min_self]
  take_eq n xs ys := List.take_zipWith.symm

theorem zip : CausalPair (List.zip : List ι → List κ → List (ι × κ)) :=
  zipWith Prod.mk

theorem comp {g : List μ → List ο} {f : List ι → List κ → List μ}
    (hg : Causal g)
    (hf : CausalPair f) :
    CausalPair fun xs ys => g (f xs ys) where
  length_eq xs ys hlength := (hg.length_eq _).trans (hf.length_eq xs ys hlength)
  take_eq n xs ys := by
    rw [hf.take_eq, hg.take_eq]

theorem compLeft {g : List μ → List κ → List ο} {f : List ι → List μ}
    (hg : CausalPair g)
    (hf : Causal f) :
    CausalPair fun xs ys => g (f xs) ys where
  length_eq xs ys hlength := by
    have hsame : ys.length = (f xs).length := by
      rw [hf.length_eq, hlength]
    rw [hg.length_eq _ _ hsame, hf.length_eq]
  take_eq n xs ys := by
    rw [hf.take_eq, hg.take_eq]

end CausalPair

/-! ## Sweeps -/

@[simp] theorem sweep_nil (step : σ → ι → σ × ο) (state : σ) :
    sweep step state [] = [] :=
  rfl

@[simp] theorem sweep_cons (step : σ → ι → σ × ο) (state : σ) (x : ι)
    (xs : List ι) :
    sweep step state (x :: xs) =
      (step state x).2 :: sweep step (step state x).1 xs :=
  rfl

@[simp] theorem length_sweep (step : σ → ι → σ × ο) (state : σ) (xs : List ι) :
    (sweep step state xs).length = xs.length := by
  induction xs generalizing state with
  | nil => rfl
  | cons x xs ih =>
      simp [ih]

theorem sweep_take (step : σ → ι → σ × ο) (state : σ) (n : Nat) (xs : List ι) :
    sweep step state (xs.take n) = (sweep step state xs).take n := by
  induction xs generalizing state n with
  | nil => simp
  | cons x xs ih =>
      cases n with
      | zero => simp
      | succ n =>
          rw [List.take_succ_cons, sweep_cons, sweep_cons, List.take_succ_cons,
            ih]

theorem Causal.sweep (step : σ → ι → σ × ο) (state : σ) :
    Causal (RuleBacktest.sweep step state) where
  length_eq xs := length_sweep step state xs
  take_eq n xs := sweep_take step state n xs

/-! ## Earlier elements -/

@[simp] theorem length_withLag (lag : Nat) (xs : List ι) :
    (withLag lag xs).length = xs.length := by
  unfold withLag
  rw [List.length_zip, List.length_append, List.length_replicate,
    List.length_map]
  omega

/-- Each element comes with the one `lag` places before it, once there is
one. -/
theorem withLag_getElem? (lag : Nat) (xs : List ι) (i : Nat) :
    (withLag lag xs)[i]? =
      xs[i]?.map fun x => (x, if lag ≤ i then xs[i - lag]? else none) := by
  unfold withLag
  rw [List.zip, List.getElem?_zipWith]
  cases hx : xs[i]? with
  | none => rfl
  | some x =>
      have hi : i < xs.length := (List.getElem?_eq_some_iff.mp hx).1
      by_cases hlag : lag ≤ i
      · have hmin : min lag xs.length = lag := Nat.min_eq_left (by omega)
        have hearlier : i - lag < xs.length := by omega
        rw [hmin, List.getElem?_append_right (by simpa using hlag),
          List.length_replicate]
        simp [hlag, hearlier]
      · have hbefore : i < min lag xs.length := by omega
        rw [List.getElem?_append_left (by simpa using hbefore),
          List.getElem?_replicate, if_pos hbefore, if_neg hlag]
        rfl

theorem Causal.withLag (lag : Nat) :
    Causal (RuleBacktest.withLag lag : List ι → List (ι × Option ι)) where
  length_eq xs := length_withLag lag xs
  take_eq n xs := by
    ext1 i
    rw [List.getElem?_take, withLag_getElem?, withLag_getElem?]
    by_cases hi : i < n
    · have hearlier : i - lag < n := by omega
      rw [List.getElem?_take_of_lt hi, List.getElem?_take_of_lt hearlier,
        if_pos hi]
    · rw [List.getElem?_take_eq_none (Nat.le_of_not_lt hi), if_neg hi]
      rfl

/-! ## Stretches between gaps -/

theorem length_acrossGapsFrom {f : List ι → List (Option ο)} (hf : Causal f)
    (stretch : List ι) (xs : List (Option ι)) :
    (acrossGapsFrom f stretch xs).length = stretch.length + xs.length := by
  induction xs generalizing stretch with
  | nil =>
      rw [acrossGapsFrom, hf.length_eq, List.length_reverse]
      rfl
  | cons x xs ih =>
      cases x with
      | none =>
          rw [acrossGapsFrom, List.length_append, hf.length_eq,
            List.length_reverse, List.length_cons, ih]
          simp
      | some x =>
          rw [acrossGapsFrom, ih, List.length_cons, List.length_cons]
          omega

/-- The stretch at hand counts toward the first part of the result. -/
theorem acrossGapsFrom_take {f : List ι → List (Option ο)} (hf : Causal f)
    (stretch : List ι) (n : Nat) (xs : List (Option ι)) :
    acrossGapsFrom f stretch (xs.take n) =
      (acrossGapsFrom f stretch xs).take (stretch.length + n) := by
  have hstretch : (f stretch.reverse).length = stretch.length := by
    rw [hf.length_eq, List.length_reverse]
  induction xs generalizing stretch n with
  | nil =>
      rw [List.take_nil, acrossGapsFrom, List.take_of_length_le (by omega)]
  | cons x xs ih =>
      cases x with
      | none =>
          cases n with
          | zero =>
              rw [List.take_zero, acrossGapsFrom, acrossGapsFrom, Nat.add_zero,
                List.take_append_of_le_length (by omega),
                List.take_of_length_le (by omega)]
          | succ n =>
              have hrest := ih [] n (hf.length_eq [])
              rw [List.length_nil, Nat.zero_add] at hrest
              rw [List.take_succ_cons, acrossGapsFrom, acrossGapsFrom, hrest,
                ← hstretch, List.take_length_add_append, List.take_succ_cons]
      | some x =>
          have hlonger : (f (x :: stretch).reverse).length =
              (x :: stretch).length := by
            rw [hf.length_eq, List.length_reverse]
          cases n with
          | zero =>
              -- The longer stretch starts with the one at hand, so its first
              -- points are the same.
              have hone := ih (x :: stretch) 0 hlonger
              rw [List.take_zero, acrossGapsFrom] at hone
              have hshort : f stretch.reverse =
                  (f (x :: stretch).reverse).take stretch.length := by
                rw [← hf.take_eq, List.reverse_cons,
                  List.take_append_of_le_length (by simp),
                  List.take_of_length_le (by simp)]
              rw [List.take_zero, acrossGapsFrom, acrossGapsFrom, hshort, hone,
                List.take_take]
              simp
          | succ n =>
              rw [List.take_succ_cons, acrossGapsFrom, acrossGapsFrom,
                ih _ _ hlonger, List.length_cons, Nat.add_right_comm,
                Nat.add_assoc]

theorem Causal.acrossGaps {f : List ι → List (Option ο)} (hf : Causal f) :
    Causal (RuleBacktest.acrossGaps f) where
  length_eq xs := by
    unfold RuleBacktest.acrossGaps
    rw [length_acrossGapsFrom hf, List.length_nil, Nat.zero_add]
  take_eq n xs := by
    unfold RuleBacktest.acrossGaps
    rw [acrossGapsFrom_take hf, List.length_nil, Nat.zero_add]

end RuleBacktest
