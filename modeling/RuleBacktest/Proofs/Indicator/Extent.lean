import RuleBacktest.Proofs.Scalar.Difference
import RuleBacktest.Proofs.Window.WarmUp

/-!
# The extent of a window of bars

Two oscillators place the close between the highest high and the lowest low of a
window.  They have no point where these are equal.  What is asked is whether
their difference is zero; between finite numbers that comes to the same.
-/

namespace RuleBacktest

open Scalar Window

variable {α : Type} [Scalar α]

namespace Indicator

/-- The last `period` bars up to place `index`. -/
def lastBars (period index : Nat) (bars : List (Bar α)) : List (Bar α) :=
  (bars.take (index + 1)).drop (index + 1 - period)

omit [Scalar α] in
theorem mem_lastBars_iff {period index : Nat} {bars : List (Bar α)}
    {b : Bar α} :
    b ∈ lastBars period index bars ↔
      ∃ place,
        bars[place]? = some b ∧ place ≤ index ∧ index < place + period := by
  rw [lastBars, List.mem_iff_getElem?]
  constructor
  · rintro ⟨k, hk⟩
    rw [List.getElem?_drop] at hk
    have hplace : index + 1 - period + k < index + 1 := by
      have hlength := (List.getElem?_eq_some_iff.mp hk).1
      rw [List.length_take] at hlength
      omega
    rw [List.getElem?_take_of_lt hplace] at hk
    exact ⟨_, hk, by omega, by omega⟩
  · rintro ⟨place, hb, hle, hroom⟩
    refine ⟨place - (index + 1 - period), ?_⟩
    have hplace :
        index + 1 - period + (place - (index + 1 - period)) = place := by omega
    rw [List.getElem?_drop, hplace,
      List.getElem?_take_of_lt (Nat.lt_succ_of_le hle), hb]

/-- The highest high of the window differs from its lowest low. -/
def HasExtent (window : List (Bar α)) : Prop :=
  ∃ b ∈ window, ∃ c ∈ window,
    (∀ d ∈ window, d.high ≤ b.high ∧ c.low ≤ d.low) ∧ same b.high c.low = false

/-! ## Extremes of a window -/

omit [Scalar α] in
/-- The extreme of a window of readings is the reading of a bar in the window,
and no bar of the window goes beyond it. -/
theorem exists_extreme_bar {β : Type} [LinearOrder β] {rank : α → β}
    {dominates : α → α → Bool} {period index : Nat} {bars : List (Bar α)}
    (read : Bar α → α)
    (hdominates : ∀ x ∈ bars.map read, ∀ y ∈ bars.map read,
      dominates x y = true ↔ rank y ≤ rank x)
    (hperiod : 0 < period)
    (hindex : index < bars.length)
    (hfits : period ≤ index + 1) :
    ∃ b ∈ lastBars period index bars,
      (extreme period dominates (bars.map read))[index]? =
        some (some (read b)) ∧
      ∀ d ∈ lastBars period index bars, rank (read d) ≤ rank (read b) := by
  obtain ⟨x, hpoint, place, hx, hle, hroom, hextreme, -⟩ :=
    extreme_isLatestExtreme hdominates hperiod (by simpa using hindex) hfits
  rw [List.getElem?_map, Option.map_eq_some_iff] at hx
  obtain ⟨b, hb, rfl⟩ := hx
  refine ⟨b, mem_lastBars_iff.mpr ⟨place, hb, hle, hroom⟩, hpoint, ?_⟩
  intro d hd
  obtain ⟨later, hlater, hle', hroom'⟩ := mem_lastBars_iff.mp hd
  exact hextreme later (read d)
    (by rw [List.getElem?_map, hlater, Option.map_some]) hle' hroom'

theorem isSome_withinRange_iff (position : α → α → α → α) {index : Nat}
    {bars : List (Bar α)}
    (hindex : index < bars.length)
    {highest lowest : List (Option α)} {h l : Option α}
    (hhighest : highest[index]? = some h)
    (hlowest : lowest[index]? = some l) :
    ((withinRange position bars highest lowest)[index]?.join).isSome = true ↔
      ∃ x y, h = some x ∧ l = some y ∧ same (x - y) 0 = false := by
  rw [withinRange, List.getElem?_zipWith, List.getElem?_eq_getElem hindex,
    pointwise, List.getElem?_zipWith, hhighest, hlowest]
  cases h with
  | none => simp [bothDefined]
  | some x =>
      cases l with
      | none => simp [bothDefined]
      | some y => cases hextent : same (x - y) 0 <;> simp [bothDefined, hextent]

/-! ## Binary numbers -/

section Binary

open Binary64

variable {bars : List (Bar Float)} (hfinite : ∀ b ∈ bars, b.isFinite = true)
include hfinite

theorem finite_of_mem {b : Bar Float} (hb : b ∈ bars) :
    isFinite b.high = true ∧ isFinite b.low = true := by
  have hbar := hfinite b hb
  simp only [Bar.isFinite, Bool.and_eq_true] at hbar
  exact ⟨hbar.1.1.1.2, hbar.1.1.2⟩

theorem finite_of_mem_lastBars {period index : Nat} {b : Bar Float}
    (hb : b ∈ lastBars period index bars) :
    isFinite b.high = true ∧ isFinite b.low = true := by
  have hmem : b ∈ bars := List.mem_of_mem_take (List.mem_of_mem_drop hb)
  exact finite_of_mem hfinite hmem

theorem high_le_iff {x y : Float}
    (hx : x ∈ highs bars)
    (hy : y ∈ highs bars) :
    x ≤ y ↔ place x ≤ place y := by
  obtain ⟨b, hb, rfl⟩ := List.mem_map.mp hx
  obtain ⟨c, hc, rfl⟩ := List.mem_map.mp hy
  exact le_iff_place_le (isNaN_of_isFinite (finite_of_mem hfinite hb).1)
    (isNaN_of_isFinite (finite_of_mem hfinite hc).1)

theorem low_le_iff {x y : Float}
    (hx : x ∈ lows bars)
    (hy : y ∈ lows bars) :
    x ≤ y ↔ place x ≤ place y := by
  obtain ⟨b, hb, rfl⟩ := List.mem_map.mp hx
  obtain ⟨c, hc, rfl⟩ := List.mem_map.mp hy
  exact le_iff_place_le (isNaN_of_isFinite (finite_of_mem hfinite hb).2)
    (isNaN_of_isFinite (finite_of_mem hfinite hc).2)

section Extremes

variable {period index : Nat} (hperiod : 0 < period)
  (hindex : index < bars.length) (hfits : period ≤ index + 1)
include hperiod hindex hfits

theorem exists_highest_bar :
    ∃ b ∈ lastBars period index bars,
      (highest period (highs bars))[index]? = some (some b.high) ∧
        ∀ d ∈ lastBars period index bars, place d.high ≤ place b.high := by
  refine exists_extreme_bar Bar.high ?_ hperiod hindex hfits
  intro x hx y hy
  rw [decide_eq_true_eq, high_le_iff hfinite hy hx]

/-- For the lowest low the same places are taken in the opposite order. -/
theorem exists_lowest_bar :
    ∃ b ∈ lastBars period index bars,
      (lowest period (lows bars))[index]? = some (some b.low) ∧
        ∀ d ∈ lastBars period index bars, place b.low ≤ place d.low := by
  have hdominates (x) (hx : x ∈ lows bars) (y) (hy : y ∈ lows bars) :
      decide (x ≤ y) = true ↔
        OrderDual.toDual (place y) ≤ OrderDual.toDual (place x) := by
    rw [decide_eq_true_eq, low_le_iff hfinite hx hy, OrderDual.toDual_le_toDual]
  exact exists_extreme_bar Bar.low hdominates hperiod hindex hfits

end Extremes

theorem hasExtent_iff {period index : Nat} {b c : Bar Float}
    (hb : b ∈ lastBars period index bars)
    (hc : c ∈ lastBars period index bars)
    (hhighest : ∀ d ∈ lastBars period index bars, place d.high ≤ place b.high)
    (hlowest : ∀ d ∈ lastBars period index bars, place c.low ≤ place d.low) :
    HasExtent (lastBars period index bars) ↔ same b.high c.low = false := by
  have hnumber {d : Bar Float} (hd : d ∈ lastBars period index bars) :
      d.high.isNaN = false ∧ d.low.isNaN = false :=
    ⟨isNaN_of_isFinite (finite_of_mem_lastBars hfinite hd).1,
      isNaN_of_isFinite (finite_of_mem_lastBars hfinite hd).2⟩
  constructor
  · rintro ⟨b', hb', c', hc', hextreme, hdiffer⟩
    -- Both pairs are extremes of one window, so they are at the same places.
    have hhigh : place b'.high = place b.high := le_antisymm (hhighest b' hb')
      ((le_iff_place_le (hnumber hb).1 (hnumber hb').1).mp (hextreme b hb).1)
    have hlow : place c'.low = place c.low :=
      le_antisymm
        ((le_iff_place_le (hnumber hc').2 (hnumber hc).2).mp (hextreme c hc).2)
        (hlowest c' hc')
    have hsame : same b.high c.low = same b'.high c'.low := by
      rw [Bool.eq_iff_iff, same_iff_place_eq (hnumber hb).1 (hnumber hc).2,
        same_iff_place_eq (hnumber hb').1 (hnumber hc').2, hhigh, hlow]
    rw [hsame, hdiffer]
  · intro hdiffer
    refine ⟨b, hb, c, hc, ?_, hdiffer⟩
    intro d hd
    exact ⟨(le_iff_place_le (hnumber hd).1 (hnumber hb).1).mpr (hhighest d hd),
      (le_iff_place_le (hnumber hc).2 (hnumber hd).2).mpr (hlowest d hd)⟩

/-- A position within the range of a window is missing when its extremes are
equal, as their difference is zero in no other case. -/
theorem isSome_withinRange_extremes_iff
    (position : Float → Float → Float → Float) {period index : Nat}
    (hperiod : 0 < period)
    (hindex : index < bars.length) :
    (withinRange position bars (highest period (highs bars))
        (lowest period (lows bars)))[index]?.join.isSome = true ↔
      period ≤ index + 1 ∧ HasExtent (lastBars period index bars) := by
  by_cases hfits : period ≤ index + 1
  · obtain ⟨b, hb, hhigh, hhighest⟩ :=
      exists_highest_bar hfinite hperiod hindex hfits
    obtain ⟨c, hc, hlow, hlowest⟩ :=
      exists_lowest_bar hfinite hperiod hindex hfits
    rw [isSome_withinRange_iff position hindex hhigh hlow,
      hasExtent_iff hfinite hb hc hhighest hlowest]
    have hdifference := same_sub_zero (finite_of_mem_lastBars hfinite hb).1
      (finite_of_mem_lastBars hfinite hc).2
    simp [hfits, hdifference]
  · have hplace : index < (highest period (highs bars)).length := by
      rw [((causal_highest period).comp causal_highs).length_eq]
      exact hindex
    have hplace' : index < (lowest period (lows bars)).length := by
      rw [((causal_lowest period).comp causal_lows).length_eq]
      exact hindex
    rw [isSome_withinRange_iff position hindex (List.getElem?_eq_getElem hplace)
      (List.getElem?_eq_getElem hplace')]
    refine iff_of_false ?_ fun h => hfits h.1
    rintro ⟨x, y, hx, -, -⟩
    have hdefined :=
      definedFrom_extreme hperiod _ _ index _ (List.getElem?_eq_getElem hplace)
    rw [hx] at hdefined
    have hfull := hdefined.mp rfl
    omega

end Binary

end Indicator

end RuleBacktest
