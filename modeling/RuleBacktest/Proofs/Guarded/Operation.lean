import RuleBacktest.Indicator.Pointwise
import RuleBacktest.Proofs.Window.Stretch

/-!
# Guarded operations

The definitions that run are total: they divide by whatever stands below the
line, and they walk through their lists without a place that could be missed.  A
guarded operation checks first and stops with a fault.  It reads a list at a
place only where the list has one, counts back only as far as there are places,
and divides and takes roots and logarithms only where a guard allows it.

A loop is written here with the place it has reached, so that its body can read
other places of the same lists.  If its steps are the steps of a sweep wherever
the sweep gets to, the loop meets no fault and gives what the sweep gives.
-/

namespace RuleBacktest

/-- What stops a guarded computation. -/
inductive Fault where
  | place
  | belowZero
  | slice
  | interval
  | misaligned
  | divisor
  | root
  | logarithm
  deriving DecidableEq, Repr

abbrev Guarded : Type → Type :=
  Except Fault

/-- The operands that a partial operation is allowed to have. -/
structure Guard (α : Type) where
  divides : α → Bool
  hasRoot : α → Bool
  hasLogarithm : α → Bool

namespace Guard

variable {α : Type} [Scalar α] (g : Guard α) {x y : α}

def divide (x y : α) : Guarded α :=
  if g.divides y then pure (x / y) else throw .divisor

/-- A quotient that has another value where the divisor is zero. -/
def divideOr (other x y : α) : Guarded α :=
  if Scalar.same y (Scalar.ofCount 0) then pure other else g.divide x y

def root (x : α) : Guarded α :=
  if g.hasRoot x then pure (Scalar.sqrt x) else throw .root

def logarithm (x : α) : Guarded α :=
  if g.hasLogarithm x then pure (Scalar.ln x) else throw .logarithm

variable {g}

theorem divide_eq (h : g.divides y = true) : g.divide x y = pure (x / y) :=
  if_pos h

theorem root_eq (h : g.hasRoot x = true) : g.root x = pure (Scalar.sqrt x) :=
  if_pos h

theorem logarithm_eq (h : g.hasLogarithm x = true) :
    g.logarithm x = pure (Scalar.ln x) :=
  if_pos h

end Guard

namespace Guarded

variable {σ τ ι κ ο : Type}

/-! ## Places -/

section Places

variable {xs : List ι} {x : ι} {place lag : Nat}

def read (xs : List ι) (place : Nat) : Guarded ι :=
  match xs[place]? with
  | some x => pure x
  | none => throw .place

def back (place lag : Nat) : Guarded Nat :=
  if lag ≤ place then pure (place - lag) else throw .belowZero

def readBack (xs : List ι) (place lag : Nat) : Guarded ι := do
  let earlier ← back place lag
  read xs earlier

/-- The element `lag` places back, from the place on that has one. -/
def readLagged (lag : Nat) (xs : List ι) (place : Nat) : Guarded (Option ι) :=
  if lag ≤ place then some <$> readBack xs place lag else pure none

/-- The elements from one place to another, both included. -/
def slice (xs : List ι) (first last : Nat) : Guarded (List ι) :=
  if first ≤ last + 1 ∧ last < xs.length then
    pure ((xs.take (last + 1)).drop first)
  else throw .slice

theorem read_eq (h : xs[place]? = some x) : read xs place = pure x := by
  rw [read, h]

theorem back_eq (h : lag ≤ place) : back place lag = pure (place - lag) :=
  if_pos h

theorem readBack_eq
    (hlag : lag ≤ place)
    (h : xs[place - lag]? = some x) :
    readBack xs place lag = pure x := by
  rw [readBack, back_eq hlag, pure_bind, read_eq h]

theorem readLagged_eq {entry : ι × Option ι}
    (h : (withLag lag xs)[place]? = some entry) :
    readLagged lag xs place = pure entry.2 := by
  rw [withLag_getElem?, Option.map_eq_some_iff] at h
  obtain ⟨x, hx, rfl⟩ := h
  have hplace := (List.getElem?_eq_some_iff.mp hx).1
  by_cases hlag : lag ≤ place
  · have hearlier :=
      List.getElem?_eq_getElem (l := xs) (i := place - lag) (by omega)
    rw [readLagged, if_pos hlag, if_pos hlag, readBack_eq hlag hearlier,
      map_pure, hearlier]
  · rw [readLagged, if_neg hlag, if_neg hlag]

/-- The last values of a list that grows, the newest first. -/
theorem take_cons_take_reverse (period : Nat) (xs : List ι) (x : ι) :
    (x :: xs.reverse.take period).take period =
      (xs ++ [x]).reverse.take period := by
  rw [List.reverse_append, List.reverse_singleton, List.singleton_append]
  cases period with
  | zero => rfl
  | succ n =>
      rw [List.take_succ_cons, List.take_succ_cons, List.take_take,
        Nat.min_eq_left n.le_succ]

theorem slice_eq (period : Nat) (hx : xs[place]? = some x) :
    slice xs (place + 1 - period) place =
      pure ((x :: (xs.take place).reverse.take period).take
          period).reverse := by
  obtain ⟨hplace, rfl⟩ := List.getElem?_eq_some_iff.mp hx
  have hfits : place + 1 - period ≤ place + 1 ∧ place < xs.length :=
    ⟨Nat.sub_le _ _, hplace⟩
  rw [slice, if_pos hfits, take_cons_take_reverse,
    ← List.take_succ_eq_append_getElem hplace, List.take_reverse,
    List.reverse_reverse, List.length_take_of_le hplace]

end Places

/-! ## Values -/

def whenever (c : Prop) [Decidable c] (x : Guarded ο) : Guarded (Option ο) :=
  if c then some <$> x else pure none

theorem whenever_eq {c : Prop} [Decidable c] {x : Guarded ο} {y : ο}
    (h : c → x = pure y) :
    whenever c x = pure (if c then some y else none) := by
  by_cases hc : c
  · rw [whenever, if_pos hc, if_pos hc, h hc, map_pure]
  · rw [whenever, if_neg hc, if_neg hc]

theorem whenever_pure (c : Prop) [Decidable c] (x : ο) :
    whenever c (pure x) = pure (if c then some x else none) := by
  apply whenever_eq
  intro _
  rfl

theorem mapM_eq {f : ι → Guarded ο} {h : ι → ο}
    (hf : ∀ x, f x = pure (h x))
    (xs : List ι) :
    xs.mapM f = pure (xs.map h) := by
  rw [funext hf, List.mapM_pure]

/-- A value between two bounds, which must not have changed places. -/
def clampTo {α : Type} [Scalar α] (lowest highest x : α) : Guarded α :=
  if lowest ≤ highest then pure (Scalar.clamp lowest highest x)
  else throw .interval

/-! ## Loops -/

/-- A sweep whose steps know the place that they are at and may stop with a
fault. -/
def loop (step : σ → Nat → ι → Guarded (σ × ο)) (s : σ) (place : Nat) :
    List ι → Guarded (List ο)
  | [] => pure []
  | x :: xs => do
      let (next, y) ← step s place x
      let ys ← loop step next (place + 1) xs
      pure (y :: ys)

/-- The loop keeps as much of the state of the sweep as `view` shows.  Its steps
have to agree with those of the sweep in the states that the sweep reaches. -/
theorem loop_eq_sweep (view : τ → σ) {step : σ → Nat → ι → Guarded (σ × ο)}
    {ideal : τ → κ → τ × ο} {start : τ} {first : Nat} {xs : List ι}
    {entries : List κ}
    (hlength : entries.length = xs.length)
    (hstep : ∀ i x entry s,
      xs[i]? = some x →
      entries[i]? = some entry →
      s = stateAfter ideal start (entries.take i) →
      step (view s) (first + i) x =
        pure (view (ideal s entry).1, (ideal s entry).2)) :
    loop step (view start) first xs = pure (sweep ideal start entries) := by
  induction xs generalizing start first entries with
  | nil =>
      rw [List.length_eq_zero_iff.mp hlength]
      rfl
  | cons x xs ih =>
      match entries with
      | entry :: entries =>
          have hfirst : step (view start) first x =
              pure (view (ideal start entry).1, (ideal start entry).2) :=
            hstep 0 x entry start rfl rfl rfl
          have hrest : loop step (view (ideal start entry).1) (first + 1) xs =
              pure (sweep ideal (ideal start entry).1 entries) := by
            refine ih (Nat.succ.inj hlength) ?_
            intro i x' entry' s hx hentry hs
            have hnext := hstep (i + 1) x' entry' s hx hentry hs
            rwa [Nat.add_comm i 1, ← Nat.add_assoc] at hnext
          rw [loop, hfirst, pure_bind]
          simp only [hrest, pure_bind, sweep_cons]

/-- The sweep over the list that the loop goes through. -/
theorem loop_eq_sweep_self (view : τ → σ) {step : σ → Nat → ι → Guarded (σ × ο)}
    {ideal : τ → ι → τ × ο} {start : τ} {first : Nat} {xs : List ι}
    (hstep : ∀ i x s, xs[i]? = some x → s = stateAfter ideal start (xs.take i) →
      step (view s) (first + i) x = pure (view (ideal s x).1, (ideal s x).2)) :
    loop step (view start) first xs = pure (sweep ideal start xs) := by
  refine loop_eq_sweep view rfl ?_
  intro i x entry s hx hentry hs
  obtain rfl := Option.some.inj (hx.symm.trans hentry)
  exact hstep i x s hx hs

theorem sweep_of_stateless (h : ι → ο) (xs : List ι) :
    sweep (fun (_ : Unit) x => ((), h x)) () xs = xs.map h := by
  ext1 i
  rw [sweep_getElem?, List.getElem?_map]

/-- A loop without a state. -/
def each (f : Nat → ι → Guarded ο) (xs : List ι) : Guarded (List ο) :=
  loop (fun (_ : Unit) place x => do
    let y ← f place x
    pure ((), y)) () 0 xs

theorem each_eq_map {f : Nat → ι → Guarded ο} {h : κ → ο} {xs : List ι}
    {entries : List κ}
    (hlength : entries.length = xs.length)
    (hf : ∀ i x entry,
      xs[i]? = some x → entries[i]? = some entry → f i x = pure (h entry)) :
    each f xs = pure (entries.map h) := by
  rw [each, ← sweep_of_stateless h entries]
  refine loop_eq_sweep id hlength ?_
  intro i x entry s hx hentry _
  rw [Nat.zero_add, hf i x entry hx hentry, pure_bind]

/-- A loop whose steps see the element at their place and the one `lag` places
before it. -/
def loopLagged (lag : Nat) (step : σ → ι × Option ι → Guarded (σ × ο))
    (start : σ) (xs : List ι) : Guarded (List ο) :=
  loop (fun s place _ => do
    let x ← read xs place
    let earlier ← readLagged lag xs place
    step s (x, earlier)) start 0 xs

theorem loopLagged_eq {lag : Nat} {step : σ → ι × Option ι → Guarded (σ × ο)}
    {ideal : σ → ι × Option ι → σ × ο}
    (hstep : ∀ s entry, step s entry = pure (ideal s entry))
    (start : σ) (xs : List ι) :
    loopLagged lag step start xs =
      pure (sweep ideal start (withLag lag xs)) := by
  refine loop_eq_sweep id (length_withLag lag xs) ?_
  intro i x entry s hx hentry _
  have hfirst : (x, entry.2) = entry := by
    rw [withLag_getElem?, hx, Option.map_some, Option.some.injEq] at hentry
    rw [← hentry]
  rw [Nat.zero_add, read_eq hx, pure_bind, readLagged_eq hentry, pure_bind,
    hfirst]
  exact hstep s entry

def eachLagged (lag : Nat) (f : ι × Option ι → Guarded ο) (xs : List ι) :
    Guarded (List ο) :=
  loopLagged lag (fun (_ : Unit) entry => do
    let y ← f entry
    pure ((), y)) () xs

theorem eachLagged_eq {lag : Nat} {f : ι × Option ι → Guarded ο}
    {h : ι × Option ι → ο}
    (hf : ∀ entry, f entry = pure (h entry))
    (xs : List ι) :
    eachLagged lag f xs = pure ((withLag lag xs).map h) := by
  rw [eachLagged, ← sweep_of_stateless h (withLag lag xs)]
  exact loopLagged_eq (fun _ entry => by rw [hf, pure_bind]) () xs

/-- The points of two series side by side, where both are there. -/
def pointwise (f : ι → κ → Guarded ο) (xs : List (Option ι))
    (ys : List (Option κ)) : Guarded (List (Option ο)) :=
  each (fun _ entry => match entry with
    | (some x, some y) => some <$> f x y
    | _ => pure none) (xs.zip ys)

theorem pointwise_eq {f : ι → κ → Guarded ο} {h : ι → κ → ο}
    {xs : List (Option ι)} {ys : List (Option κ)}
    (hf : ∀ x y, some x ∈ xs → some y ∈ ys → f x y = pure (h x y)) :
    pointwise f xs ys = pure (Indicator.pointwise h xs ys) := by
  have hpoints : Indicator.pointwise h xs ys =
      (xs.zip ys).map fun entry => Indicator.bothDefined h entry.1 entry.2 := by
    rw [Indicator.pointwise, List.zip, List.map_zipWith]
  rw [hpoints, pointwise]
  refine each_eq_map rfl ?_
  rintro i ⟨p, q⟩ entry hx hentry
  obtain rfl := Option.some.inj (hx.symm.trans hentry)
  obtain ⟨hp, hq⟩ := List.of_mem_zip (List.mem_of_getElem? hx)
  match p, q with
  | none, q => rfl
  | some x, none => rfl
  | some x, some y => exact congrArg (some <$> ·) (hf x y hp hq)

end Guarded

end RuleBacktest
