import Mathlib.Data.Prod.Lex
import Mathlib.Order.Compare
import RuleBacktest.Scalar.Binary64

/-!
# Order of binary numbers

A finite number is at most itself, and what equals a finite number in the order
is finite.  All numbers but the one that is none are ordered linearly, by sign,
exponent and significand; the two zeros share one place.  The one that is none
compares with nothing.
-/

namespace RuleBacktest
namespace Binary64

open Scalar Float.Model

theorem le_iff {x y : Float} :
    x ≤ y ↔ x.toModel.unpack.le y.toModel.unpack = true := by
  constructor
  · intro h
    exact of_decide_eq_true h
  · intro h
    exact decide_eq_true h

theorem isFinite_eq (x : Float) : isFinite x = x.toModel.unpack.isFinite :=
  rfl

theorem le_refl_of_isFinite {x : Float} (h : isFinite x = true) : x ≤ x := by
  rw [isFinite_eq] at h
  rw [le_iff]
  cases hx : x.toModel.unpack with
  | infinity s =>
      rw [hx] at h
      cases h
  | notANumber =>
      rw [hx] at h
      cases h
  | zero s => rfl
  | finite s m e hm =>
      have hsame : (compare e e).then (compare m m) = .eq := by simp
      cases s with
      | positive =>
          change ((compare e e).then (compare m m)).isLE = true
          rw [hsame]
          rfl
      | negative =>
          change ((compare e e).then (compare m m)).swap.isLE = true
          rw [hsame]
          rfl

theorem isFinite_of_same {x y : Float}
    (hsame : same x y = true)
    (hy : isFinite y = true) :
    isFinite x = true := by
  simp only [same, Bool.and_eq_true, decide_eq_true_eq, le_iff] at hsame
  rw [isFinite_eq] at hy ⊢
  obtain ⟨hle, hge⟩ := hsame
  cases hx : x.toModel.unpack with
  | infinity s =>
      -- An infinite number is on one side of every finite one.
      rw [hx] at hle hge
      cases hunpack : y.toModel.unpack with
      | infinity t =>
          rw [hunpack] at hy
          cases hy
      | notANumber =>
          rw [hunpack] at hy
          cases hy
      | zero t =>
          rw [hunpack] at hle hge
          cases s with
          | positive => cases hle
          | negative => cases hge
      | finite t m e hm =>
          rw [hunpack] at hle hge
          cases s with
          | positive => cases hle
          | negative => cases hge
  | notANumber =>
      rw [hx] at hle
      cases hle
  | zero s => rfl
  | finite s m e hm => rfl

/-! ## Places in a linear order -/

/-- The first part tells infinities, negative numbers, zeros and positive
numbers apart. -/
def placeOf : UnpackedFloat → ℤ ×ₗ ℤ ×ₗ ℤ
  | .infinity .negative => toLex (-2, toLex (0, 0))
  | .finite .negative m e _ => toLex (-1, toLex (-e, -(m : ℤ)))
  | .zero _ => toLex (0, toLex (0, 0))
  | .finite .positive m e _ => toLex (1, toLex (e, (m : ℤ)))
  | .infinity .positive => toLex (2, toLex (0, 0))
  | .notANumber => toLex (0, toLex (0, 0))

def place (x : Float) : ℤ ×ₗ ℤ ×ₗ ℤ :=
  placeOf x.toModel.unpack

theorem compare_neg_neg (a b : ℤ) : compare (-a) (-b) = (compare a b).swap := by
  rcases lt_trichotomy a b with hlt | heq | hgt
  · rw [compare_lt_iff_lt.mpr hlt]
    exact compare_gt_iff_gt.mpr (Int.neg_lt_neg hlt)
  · rw [heq, compare_eq_iff_eq.mpr rfl, compare_eq_iff_eq.mpr rfl]
    rfl
  · rw [compare_gt_iff_gt.mpr hgt]
    exact compare_lt_iff_lt.mpr (Int.neg_lt_neg hgt)

theorem compare_natCast (m n : ℕ) : compare (m : ℤ) (n : ℤ) = compare m n := by
  rcases lt_trichotomy m n with hlt | heq | hgt
  · rw [compare_lt_iff_lt.mpr hlt]
    exact compare_lt_iff_lt.mpr (Int.ofNat_lt.mpr hlt)
  · rw [heq, compare_eq_iff_eq.mpr rfl, compare_eq_iff_eq.mpr rfl]
  · rw [compare_gt_iff_gt.mpr hgt]
    exact compare_gt_iff_gt.mpr (Int.ofNat_lt.mpr hgt)

theorem compare_eq {a b : UnpackedFloat}
    (ha : a.isNaN = false)
    (hb : b.isNaN = false) :
    a.compare b = some (compare (placeOf a) (placeOf b)) := by
  cases a with
  | notANumber => cases ha
  | infinity s =>
      cases b with
      | notANumber => cases hb
      | infinity t => cases s <;> cases t <;> rfl
      | zero t => cases s <;> rfl
      | finite t n f hn => cases s <;> cases t <;> rfl
  | zero s =>
      cases b with
      | notANumber => cases hb
      | infinity t => cases t <;> rfl
      | zero t => rfl
      | finite t n f hn => cases t <;> rfl
  | finite s m e hm =>
      cases b with
      | notANumber => cases hb
      | infinity t => cases s <;> cases t <;> rfl
      | zero t => cases s <;> rfl
      | finite t n f hn =>
          cases s with
          | negative =>
              cases t with
              | negative =>
                  change some ((compare e f).then (compare m n)).swap =
                    some (compare (toLex ((-1 : ℤ), toLex (-e, -(m : ℤ))))
                      (toLex ((-1 : ℤ), toLex (-f, -(n : ℤ)))))
                  simp [Prod.Lex.compare_def, compareLex, compareOn,
                    compare_neg_neg, compare_natCast, Ordering.swap_then]
              | positive => rfl
          | positive =>
              cases t with
              | negative => rfl
              | positive =>
                  change some ((compare e f).then (compare m n)) =
                    some (compare (toLex ((1 : ℤ), toLex (e, (m : ℤ))))
                      (toLex ((1 : ℤ), toLex (f, (n : ℤ)))))
                  simp [Prod.Lex.compare_def, compareLex, compareOn,
                    compare_natCast]

theorem le_iff_place_le {x y : Float}
    (hx : x.isNaN = false)
    (hy : y.isNaN = false) :
    x ≤ y ↔ place x ≤ place y := by
  rw [le_iff, UnpackedFloat.le, compare_eq hx hy, Option.any_some,
    Ordering.isLE_iff_ne_gt]
  exact compare_le_iff_le

theorem lt_iff_place_lt {x y : Float}
    (hx : x.isNaN = false)
    (hy : y.isNaN = false) :
    x < y ↔ place x < place y := by
  have hlt : x < y ↔ x.toModel.unpack.lt y.toModel.unpack = true :=
    ⟨of_decide_eq_true, decide_eq_true⟩
  rw [hlt, UnpackedFloat.lt, compare_eq hx hy, beq_iff_eq, Option.some.injEq]
  exact compare_lt_iff_lt

/-! ## Only numbers compare -/

theorem isNaN_of_compare {a b : UnpackedFloat} {o : Ordering}
    (h : a.compare b = some o) :
    a.isNaN = false ∧ b.isNaN = false := by
  constructor
  · cases a with
    | notANumber => cases h
    | infinity s => rfl
    | zero s => rfl
    | finite s m e hm => rfl
  · cases b with
    | notANumber =>
        cases a with
        | infinity s => cases s <;> cases h
        | notANumber => cases h
        | zero s => cases h
        | finite s m e hm => cases s <;> cases h
    | infinity t => rfl
    | zero t => rfl
    | finite t n f hn => rfl

theorem isNaN_of_le {x y : Float} (h : x ≤ y) :
    x.isNaN = false ∧ y.isNaN = false := by
  rw [le_iff, UnpackedFloat.le, Option.any_eq_true] at h
  obtain ⟨o, ho, -⟩ := h
  exact isNaN_of_compare ho

theorem le_self_iff {x : Float} : x ≤ x ↔ x.isNaN = false := by
  constructor
  · exact fun h => (isNaN_of_le h).1
  · intro h
    exact (le_iff_place_le h h).mpr le_rfl

protected theorem le_of_lt {x y : Float} (h : x < y) : x ≤ y := by
  have hcompare : x.toModel.unpack.compare y.toModel.unpack = some .lt :=
    eq_of_beq (of_decide_eq_true h)
  rw [le_iff, UnpackedFloat.le, hcompare]
  rfl

protected theorem not_lt_of_le {x y : Float} (h : x ≤ y) : ¬ y < x := by
  obtain ⟨hx, hy⟩ := isNaN_of_le h
  rw [lt_iff_place_lt hy hx, not_lt]
  exact (le_iff_place_le hx hy).mp h

protected theorem lt_of_not_le {x y : Float}
    (hx : x.isNaN = false)
    (hy : y.isNaN = false)
    (h : ¬ x ≤ y) :
    y < x := by
  rw [lt_iff_place_lt hy hx]
  rwa [le_iff_place_le hx hy, not_le] at h

end Binary64
end RuleBacktest
