import RuleBacktest.Proofs.Scalar.Binary64
import RuleBacktest.Proofs.Window.Stretch
import RuleBacktest.Window.Extreme

/-!
# The extreme of a sliding window

The candidates of a window are the values that no later value dominates.  Each
value of the window has a candidate that is at least as good and not earlier, so
the oldest candidate is the extreme, and the latest of its equals.  A new value
keeps this up: those it dominates go, it stands for them from then on, and only
the oldest candidate can be at the place that leaves the window.
-/

namespace RuleBacktest

namespace Window

/-- The candidates are values of a list in the window that ends at place `i`.
From the newest to the oldest the places fall, and each value is beyond the one
before it. -/
structure MonotoneDeque {α : Type} (below : α → α → Prop) (period i : Nat)
    (xs : List α) (candidates : List (Candidate α)) : Prop where
  stands : ∀ c ∈ candidates, xs[c.place]? = some c.value
  inside : ∀ c ∈ candidates, c.place ≤ i ∧ i < c.place + period
  places : candidates.Pairwise fun newer older => older.place < newer.place
  values : candidates.Pairwise fun newer older => below newer.value older.value

/-- `x` is in the window that ends at place `i`, no value of the window goes
beyond it, and those that come later are short of it. -/
def IsLatestExtreme {α : Type} (within below : α → α → Prop) (period i : Nat)
    (xs : List α) (x : α) : Prop :=
  ∃ j, xs[j]? = some x ∧ j ≤ i ∧ i < j + period ∧
    (∀ k y, xs[k]? = some y → k ≤ i → i < k + period → within y x) ∧
    ∀ k y, xs[k]? = some y → k ≤ i → j < k → below y x

section

variable {α : Type} {within within' below below' : α → α → Prop}
  {period i : Nat} {xs : List α}

theorem IsLatestExtreme.imp {x : α}
    (h : IsLatestExtreme within below period i xs x)
    (hwithin : ∀ y ∈ xs, ∀ x ∈ xs, within y x → within' y x)
    (hbelow : ∀ y ∈ xs, ∀ x ∈ xs, below y x → below' y x) :
    IsLatestExtreme within' below' period i xs x := by
  obtain ⟨j, hj, hplace, hroom, hextreme, hlater⟩ := h
  have hx := List.mem_of_getElem? hj
  refine ⟨j, hj, hplace, hroom, ?_, ?_⟩
  · intro k y hy hk hwindow
    exact hwithin y (List.mem_of_getElem? hy) x hx (hextreme k y hy hk hwindow)
  · intro k y hy hk hafter
    exact hbelow y (List.mem_of_getElem? hy) x hx (hlater k y hy hk hafter)

theorem MonotoneDeque.imp {candidates : List (Candidate α)}
    (h : MonotoneDeque below period i xs candidates)
    (hbelow : ∀ y ∈ xs, ∀ x ∈ xs, below y x → below' y x) :
    MonotoneDeque below' period i xs candidates where
  stands := h.stands
  inside := h.inside
  places := h.places
  values := by
    refine h.values.imp_of_mem ?_
    intro newer older hnewer holder
    have hlater : newer.value ∈ xs :=
      List.mem_of_getElem? (h.stands newer hnewer)
    have hearlier : older.value ∈ xs :=
      List.mem_of_getElem? (h.stands older holder)
    exact hbelow newer.value hlater older.value hearlier

end

namespace ExtremeState

variable {α β : Type} [LinearOrder β] {rank : α → β} {dominates : α → α → Bool}
  {period : Nat}

/-! ## A value enters -/

section Push

variable {kept : List (Candidate α)} {x : α}
  (hdominates : ∀ k ∈ kept, dominates x k.value = true ↔ rank k.value ≤ rank x)
include hdominates

theorem lt_of_mem_dropWhile
    (hvalues :
      kept.Pairwise fun newer older => rank newer.value < rank older.value) :
    ∀ c ∈ kept.dropWhile fun k => dominates x k.value,
      rank x < rank c.value := by
  induction kept with
  | nil =>
      intro c hc
      cases hc
  | cons k kept ih =>
      have hlater := List.pairwise_cons.mp hvalues
      by_cases hk : dominates x k.value = true
      · rw [List.dropWhile_cons, if_pos hk]
        exact ih (fun c hc => hdominates c (List.mem_cons_of_mem k hc)) hlater.2
      · have hbeyond : rank x < rank k.value := by
          rw [hdominates k List.mem_cons_self] at hk
          exact not_le.mp hk
        rw [List.dropWhile_cons, if_neg hk]
        intro c hc
        cases List.mem_cons.mp hc with
        | inl hfirst => rwa [hfirst]
        | inr hrest => exact hbeyond.trans (hlater.1 c hrest)

theorem mem_dropWhile_or_le {c : Candidate α} (hc : c ∈ kept) :
    (c ∈ kept.dropWhile fun k => dominates x k.value) ∨
      rank c.value ≤ rank x := by
  rw [← List.takeWhile_append_dropWhile (p := fun k => dominates x k.value)
      (l := kept), List.mem_append] at hc
  cases hc with
  -- What is gone is at most as good as the new value.
  | inl hgone =>
      exact Or.inr
        ((hdominates c ((List.takeWhile_prefix _).mem hgone)).mp
          (List.mem_takeWhile_imp
            (p := fun k : Candidate α => dominates x k.value) hgone))
  | inr hstays => exact Or.inl hstays

end Push

/-! ## A place leaves -/

/-- At most the oldest candidate is at the place that leaves, and it is taken
away. -/
theorem mem_expire_iff
    (hperiod : 0 < period)
    {n : Nat} {kept : List (Candidate α)}
    (hplaces : kept.Pairwise fun newer older => older.place < newer.place)
    (hinside : ∀ c ∈ kept, n ≤ c.place + period)
    (c : Candidate α) :
    c ∈ expire period n kept ↔ c ∈ kept ∧ n < c.place + period := by
  cases kept using List.reverseRecOn with
  | nil => simp [expire]
  | append_singleton newer oldest =>
      have hbefore := (List.pairwise_append.mp hplaces).2.2
      have hlast := hinside oldest (by simp)
      by_cases hexpired : period ≤ n - oldest.place
      · have hkept : expire period n (newer ++ [oldest]) = newer := by
          simp [expire, hexpired]
        rw [hkept, List.mem_append, List.mem_singleton]
        constructor
        · intro hc
          have hplace := hbefore c hc oldest List.mem_cons_self
          exact ⟨Or.inl hc, by omega⟩
        · rintro ⟨hc | rfl, hroom⟩
          · exact hc
          · omega
      · have hkept : expire period n (newer ++ [oldest]) =
            newer ++ [oldest] := by
          simp [expire, hexpired]
        rw [hkept, List.mem_append, List.mem_singleton]
        constructor
        · rintro (hc | rfl)
          · have hplace := hbefore c hc oldest List.mem_cons_self
            exact ⟨Or.inl hc, by omega⟩
          · exact ⟨Or.inr rfl, by omega⟩
        · exact And.left

theorem expire_sublist (period n : Nat) (kept : List (Candidate α)) :
    (expire period n kept).Sublist kept := by
  unfold expire
  split
  · exact List.Sublist.refl _
  · split
    · exact List.dropLast_sublist _
    · exact List.Sublist.refl _

/-! ## What the candidates stand for -/

/-- The state behind the values `xs`: its candidates form a monotone deque, and
each value of the window has one that is not earlier and at least as good. -/
structure Represents (rank : α → β) (period : Nat) (xs : List α)
    (s : ExtremeState α) : Prop where
  count_eq : s.count = xs.length
  stands : ∀ c ∈ s.candidates, xs[c.place]? = some c.value
  inside : ∀ c ∈ s.candidates, xs.length ≤ c.place + period
  places : s.candidates.Pairwise fun newer older => older.place < newer.place
  values : s.candidates.Pairwise fun newer older =>
    rank newer.value < rank older.value
  covers : ∀ j y, xs[j]? = some y → xs.length ≤ j + period →
    ∃ c ∈ s.candidates, j ≤ c.place ∧ rank y ≤ rank c.value

theorem represents_initial :
    Represents rank period [] (initial : ExtremeState α) where
  count_eq := rfl
  stands := by simp [initial]
  inside := by simp [initial]
  places := List.Pairwise.nil
  values := List.Pairwise.nil
  covers := by simp

namespace Represents

variable {xs : List α} {s : ExtremeState α}

theorem place_lt (h : Represents rank period xs s) {c : Candidate α}
    (hc : c ∈ s.candidates) :
    c.place < xs.length := by
  obtain ⟨hplace, -⟩ := List.getElem?_eq_some_iff.mp (h.stands c hc)
  exact hplace

/-- The new value stands for those that it takes the place of.  The window is
wider by one place until the oldest place leaves. -/
theorem push (h : Represents rank period xs s) {x : α}
    (hdominates : ∀ y ∈ xs, dominates x y = true ↔ rank y ≤ rank x) :
    Represents rank (period + 1) (xs ++ [x])
      ⟨s.count + 1, push dominates ⟨s.count, x⟩ s.candidates⟩ := by
  have hkept (k) (hk : k ∈ s.candidates) : dominates x k.value = true ↔
      rank k.value ≤ rank x :=
    hdominates _ (List.mem_of_getElem? (h.stands k hk))
  have hstays :=
    List.dropWhile_sublist (l := s.candidates) fun k => dominates x k.value
  have hlength : (xs ++ [x]).length = xs.length + 1 := by simp
  rw [h.count_eq]
  constructor
  case count_eq => exact hlength.symm
  case stands =>
    intro c hc
    cases List.mem_cons.mp hc with
    | inl hnew => rw [hnew, List.getElem?_concat_length]
    | inr hold =>
        rw [List.getElem?_append_left (h.place_lt (hstays.mem hold)),
          h.stands c (hstays.mem hold)]
  case inside =>
    intro c hc
    rw [hlength]
    cases List.mem_cons.mp hc with
    | inl hnew =>
        rw [hnew]
        exact Nat.add_le_add_left (Nat.le_add_left 1 period) xs.length
    | inr hold => exact Nat.succ_le_succ (h.inside c (hstays.mem hold))
  case places =>
    exact List.pairwise_cons.mpr
      ⟨fun c hc => h.place_lt (hstays.mem hc), h.places.sublist hstays⟩
  case values =>
    exact List.pairwise_cons.mpr
      ⟨lt_of_mem_dropWhile hkept h.values, h.values.sublist hstays⟩
  case covers =>
    intro j y hy hroom
    rw [hlength] at hroom
    by_cases hj : j < xs.length
    · rw [List.getElem?_append_left hj] at hy
      obtain ⟨c, hc, hplace, hrank⟩ := h.covers j y hy (by omega)
      cases mem_dropWhile_or_le hkept hc with
      | inl hstay => exact ⟨c, List.mem_cons_of_mem _ hstay, hplace, hrank⟩
      | inr hgone =>
          exact ⟨⟨xs.length, x⟩, List.mem_cons_self, hj.le, hrank.trans hgone⟩
    · have hlast : j = xs.length := by
        have hlt := (List.getElem?_eq_some_iff.mp hy).1
        omega
      rw [hlast, List.getElem?_concat_length, Option.some.injEq] at hy
      exact ⟨⟨xs.length, x⟩, List.mem_cons_self, hlast.le, by rw [hy]⟩

theorem expire
    (h : Represents rank (period + 1) xs s)
    (hperiod : 0 < period)
    (hxs : 0 < xs.length) :
    Represents rank period xs
      ⟨s.count, expire period (s.count - 1) s.candidates⟩ := by
  have hmem (c : Candidate α) :
      c ∈ ExtremeState.expire period (s.count - 1) s.candidates ↔
        c ∈ s.candidates ∧ s.count - 1 < c.place + period := by
    refine mem_expire_iff hperiod h.places ?_ c
    intro c hc
    have hinside := h.inside c hc
    have hcount := h.count_eq
    omega
  have hkept := expire_sublist period (s.count - 1) s.candidates
  constructor
  case count_eq => exact h.count_eq
  case stands => exact fun c hc => h.stands c (hkept.mem hc)
  case inside =>
    intro c hc
    have hroom := ((hmem c).mp hc).2
    have hcount := h.count_eq
    omega
  case places => exact h.places.sublist hkept
  case values => exact h.values.sublist hkept
  case covers =>
    intro j y hy hroom
    obtain ⟨c, hc, hplace, hrank⟩ := h.covers j y hy (by omega)
    have hcount := h.count_eq
    exact ⟨c, (hmem c).mpr ⟨hc, by omega⟩, hplace, hrank⟩

theorem advance
    (h : Represents rank period xs s)
    (hperiod : 0 < period)
    {x : α}
    (hdominates : ∀ y ∈ xs, dominates x y = true ↔ rank y ≤ rank x) :
    Represents rank period (xs ++ [x]) (s.advance period dominates x) := by
  have hpushed := h.push hdominates
  exact hpushed.expire hperiod (by simp)

theorem candidates_ne_nil
    (h : Represents rank period xs s)
    (hperiod : 0 < period)
    (hxs : 0 < xs.length) :
    s.candidates ≠ [] := by
  obtain ⟨c, hc, -⟩ := h.covers (xs.length - 1) xs[xs.length - 1]
    (List.getElem?_eq_getElem (by omega)) (by omega)
  exact List.ne_nil_of_mem hc

/-- The oldest candidate is the extreme of the window, and what comes after it
is short of it. -/
theorem exists_oldest
    (h : Represents rank period xs s)
    (hperiod : 0 < period)
    (hxs : 0 < xs.length) :
    ∃ oldest ∈ s.candidates,
      s.candidates.getLast? = some oldest ∧
      (∀ j y,
        xs[j]? = some y → xs.length ≤ j + period → rank y ≤ rank oldest.value) ∧
      ∀ j y,
        xs[j]? = some y → oldest.place < j → rank y < rank oldest.value := by
  have hnonempty := h.candidates_ne_nil hperiod hxs
  let oldest := s.candidates.getLast hnonempty
  have hsplit : s.candidates = s.candidates.dropLast ++ [oldest] :=
    (List.dropLast_concat_getLast hnonempty).symm
  have holdest : oldest ∈ s.candidates := List.getLast_mem hnonempty
  have hnewer : ∀ c ∈ s.candidates.dropLast,
      rank c.value < rank oldest.value := by
    have hvalues := h.values
    rw [hsplit] at hvalues
    exact fun c hc =>
      (List.pairwise_append.mp hvalues).2.2 c hc oldest List.mem_cons_self
  have hcases (c : Candidate α) (hc : c ∈ s.candidates) :
      c ∈ s.candidates.dropLast ∨ c = oldest := by
    rwa [hsplit, List.mem_append, List.mem_singleton] at hc
  refine ⟨oldest, holdest, List.getLast?_eq_some_getLast hnonempty, ?_, ?_⟩
  · intro j y hy hroom
    obtain ⟨c, hc, -, hrank⟩ := h.covers j y hy hroom
    cases hcases c hc with
    | inl hnew => exact hrank.trans (hnewer c hnew).le
    | inr hold => rwa [← hold]
  · intro j y hy hlater
    have hroom := h.inside oldest holdest
    obtain ⟨c, hc, hplace, hrank⟩ := h.covers j y hy (by omega)
    cases hcases c hc with
    | inl hnew => exact hrank.trans_lt (hnewer c hnew)
    | inr hold =>
        rw [hold] at hplace
        omega

end Represents

theorem represents_stateAfter
    (hperiod : 0 < period)
    (xs : List α)
    (hdominates : ∀ x ∈ xs, ∀ y ∈ xs, dominates x y = true ↔ rank y ≤ rank x) :
    Represents rank period xs
      (stateAfter (step period dominates) initial xs) := by
  induction xs using List.reverseRecOn with
  | nil => exact represents_initial
  | append_singleton xs x ih =>
      rw [stateAfter_concat]
      have hbefore := ih fun a ha b hb =>
        hdominates a (List.mem_append_left _ ha) b (List.mem_append_left _ hb)
      exact hbefore.advance hperiod fun y hy =>
        hdominates x (by simp) y (List.mem_append_left _ hy)

theorem represents_take
    (hperiod : 0 < period)
    {xs : List α}
    (hdominates : ∀ x ∈ xs, ∀ y ∈ xs, dominates x y = true ↔ rank y ≤ rank x)
    (n : Nat) :
    Represents rank period (xs.take n)
      (stateAfter (step period dominates) initial (xs.take n)) := by
  refine represents_stateAfter hperiod _ ?_
  intro x hx y hy
  exact hdominates x (List.mem_of_mem_take hx) y (List.mem_of_mem_take hy)

end ExtremeState

/-! ## The points -/

section

variable {α β : Type} [LinearOrder β] {rank : α → β} {dominates : α → α → Bool}
  {period i : Nat} {xs : List α}

theorem extreme_getElem? (dominates : α → α → Bool)
    (hperiod : 0 < period)
    (hi : i < xs.length) :
    (extreme period dominates xs)[i]? =
      some ((stateAfter (ExtremeState.step period dominates)
          ExtremeState.initial (xs.take (i + 1))).extreme? period) := by
  have hread (s : ExtremeState α) (x : α) :
      (ExtremeState.step period dominates s x).2 =
        (ExtremeState.step period dominates s x).1.extreme? period := rfl
  rw [extreme, if_neg (Nat.ne_of_gt hperiod), sweep_getElem?_of_read hread,
    List.getElem?_eq_getElem hi, Option.map_some]

theorem extreme_zero_getElem? (dominates : α → α → Bool) (hi : i < xs.length) :
    (extreme 0 dominates xs)[i]? = some none := by
  rw [extreme, if_pos rfl, undefined, List.getElem?_map,
    List.getElem?_eq_getElem hi, Option.map_some]

variable
  (hdominates : ∀ x ∈ xs, ∀ y ∈ xs, dominates x y = true ↔ rank y ≤ rank x)
include hdominates

theorem extreme_eq_none
    (hi : i < xs.length)
    (hfew : period = 0 ∨ i + 1 < period) :
    (extreme period dominates xs)[i]? = some none := by
  by_cases hperiod : 0 < period
  · have hcount :=
      (ExtremeState.represents_take hperiod hdominates (i + 1)).count_eq
    rw [List.length_take_of_le hi] at hcount
    rw [extreme_getElem? dominates hperiod hi, ExtremeState.extreme?, hcount,
      if_neg (by omega)]
  · rw [Nat.eq_zero_of_not_pos hperiod, extreme_zero_getElem? dominates hi]

theorem extreme_isLatestExtreme
    (hperiod : 0 < period)
    (hi : i < xs.length)
    (hfits : period ≤ i + 1) :
    ∃ x, (extreme period dominates xs)[i]? = some (some x) ∧
      IsLatestExtreme (fun y x => rank y ≤ rank x) (fun y x => rank y < rank x)
        period i xs x := by
  have h := ExtremeState.represents_take hperiod hdominates (i + 1)
  have hlength : (xs.take (i + 1)).length = i + 1 := List.length_take_of_le hi
  obtain ⟨oldest, hmem, hlast, hextreme, hlater⟩ :=
    h.exists_oldest hperiod (by omega)
  have hplace := h.place_lt hmem
  have hroom := h.inside oldest hmem
  refine ⟨oldest.value, ?_, oldest.place, ?_, by omega, by omega, ?_, ?_⟩
  · rw [extreme_getElem? dominates hperiod hi, ExtremeState.extreme?,
      h.count_eq, hlength, if_pos hfits, hlast, Option.map_some]
  · rw [← List.getElem?_take_of_lt (hlength ▸ hplace), h.stands oldest hmem]
  · intro k y hy hk hwindow
    exact hextreme k y
      (by rwa [List.getElem?_take_of_lt (Nat.lt_succ_of_le hk)]) (by omega)
  · intro k y hy hk hafter
    exact hlater k y
      (by rwa [List.getElem?_take_of_lt (Nat.lt_succ_of_le hk)]) hafter

theorem monotoneDeque_stateAfter
    (hperiod : 0 < period)
    (hi : i < xs.length) :
    MonotoneDeque (fun newer older => rank newer < rank older) period i xs
      (stateAfter (ExtremeState.step period dominates) ExtremeState.initial
        (xs.take (i + 1))).candidates := by
  have h := ExtremeState.represents_take hperiod hdominates (i + 1)
  have hlength : (xs.take (i + 1)).length = i + 1 := List.length_take_of_le hi
  refine ⟨?_, ?_, h.places, h.values⟩
  · intro c hc
    rw [← List.getElem?_take_of_lt (hlength ▸ h.place_lt hc), h.stands c hc]
  · intro c hc
    have hplace := h.place_lt hc
    have hroom := h.inside c hc
    omega

end

/-! ## Binary numbers -/

/-- A point of the greatest or the least value is missing exactly while fewer
than `period` values have come, or where the period is zero.  Elsewhere it is
the latest of the extremes in the window that ends at its place.  After every
value the candidates are in the window, in the order of their places, and
strictly ordered by their values. -/
theorem extremes_of_windows {xs : List Float}
    (hnumbers : ∀ x ∈ xs, x.isNaN = false)
    (period : Nat) {i : Nat}
    (hi : i < xs.length) :
    ((period = 0 ∨ i + 1 < period) →
        (highest period xs)[i]? = some none ∧
          (lowest period xs)[i]? = some none) ∧
      (1 ≤ period →
        period ≤ i + 1 →
        (∃ x, (highest period xs)[i]? = some (some x) ∧
            IsLatestExtreme (· ≤ ·) (· < ·) period i xs x) ∧
          ∃ x, (lowest period xs)[i]? = some (some x) ∧
            IsLatestExtreme (· ≥ ·) (· > ·) period i xs x) ∧
      (1 ≤ period →
        MonotoneDeque (· < ·) period i xs
            (stateAfter
              (ExtremeState.step period fun candidate kept =>
                decide (kept ≤ candidate)) ExtremeState.initial
              (xs.take (i + 1))).candidates ∧
          MonotoneDeque (· > ·) period i xs
            (stateAfter
              (ExtremeState.step period fun candidate kept =>
                decide (candidate ≤ kept)) ExtremeState.initial
              (xs.take (i + 1))).candidates) := by
  have hle (x) (hx : x ∈ xs) (y) (hy : y ∈ xs) : x ≤ y ↔
      Binary64.place x ≤ Binary64.place y :=
    Binary64.le_iff_place_le (hnumbers x hx) (hnumbers y hy)
  have hlt (x) (hx : x ∈ xs) (y) (hy : y ∈ xs) : x < y ↔
      Binary64.place x < Binary64.place y :=
    Binary64.lt_iff_place_lt (hnumbers x hx) (hnumbers y hy)
  have hhighest (x) (hx : x ∈ xs) (y) (hy : y ∈ xs) :
      decide (y ≤ x) = true ↔ Binary64.place y ≤ Binary64.place x := by
    rw [decide_eq_true_eq, hle y hy x hx]
  -- For the least value the same places are taken in the opposite order.
  have hlowest (x) (hx : x ∈ xs) (y) (hy : y ∈ xs) : decide (x ≤ y) = true ↔
      OrderDual.toDual (Binary64.place y) ≤
        OrderDual.toDual (Binary64.place x) := by
    rw [decide_eq_true_eq, hle x hx y hy, OrderDual.toDual_le_toDual]
  refine ⟨?_, ?_, ?_⟩
  · intro hfew
    exact ⟨extreme_eq_none hhighest hi hfew, extreme_eq_none hlowest hi hfew⟩
  · intro hperiod hfits
    obtain ⟨x, hx, hgreatest⟩ :=
      extreme_isLatestExtreme hhighest hperiod hi hfits
    obtain ⟨y, hy, hleast⟩ := extreme_isLatestExtreme hlowest hperiod hi hfits
    refine ⟨⟨x, hx, ?_⟩, ⟨y, hy, ?_⟩⟩
    · exact hgreatest.imp (fun a ha b hb => (hle a ha b hb).mpr)
        fun a ha b hb => (hlt a ha b hb).mpr
    · exact hleast.imp (fun a ha b hb => (hle b hb a ha).mpr) fun a ha b hb =>
        (hlt b hb a ha).mpr
  · intro hperiod
    constructor
    · exact (monotoneDeque_stateAfter hhighest hperiod hi).imp fun a ha b hb =>
        (hlt a ha b hb).mpr
    · exact (monotoneDeque_stateAfter hlowest hperiod hi).imp fun a ha b hb =>
        (hlt b hb a ha).mpr

/-- The zeros share a place in the order, and the later of the two is given. -/
theorem extremes_of_windows_zeros :
    (∀ x ∈ [0.0, (-1.0 : Float), -0.0], x.isNaN = false) ∧
      (highest 3 [0.0, (-1.0 : Float), -0.0])[2]? = some (some (-0.0)) ∧
      IsLatestExtreme (· ≤ ·) (· < ·) 3 2
        [0.0, (-1.0 : Float), -0.0] (-0.0) := by
  have hnumbers : ∀ x ∈ [0.0, (-1.0 : Float), -0.0], x.isNaN = false := by
    decide
  have hpoint : (highest 3 [0.0, (-1.0 : Float), -0.0])[2]? =
      some (some (-0.0)) := by
    decide
  obtain ⟨x, hx, hlatest⟩ :=
    ((extremes_of_windows hnumbers 3 (i := 2) (by decide)).2.1 (by decide)
      (by decide)).1
  have hx : x = -0.0 := by
    rwa [hpoint, Option.some.injEq, Option.some.injEq, eq_comm] at hx
  exact ⟨hnumbers, hpoint, hx ▸ hlatest⟩

end Window

end RuleBacktest
