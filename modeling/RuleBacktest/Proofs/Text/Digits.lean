import Mathlib.Data.List.Induction
import RuleBacktest.Proofs.Calendar.TableText

/-!
# Digits with leading zeros

The decimal text of the number that some digits denote is these digits without
their leading zeros.
-/

namespace RuleBacktest
namespace Text

theorem digitValue_lt {c : Char} (h : isDigit c = true) :
    digitValue c < 10 := by
  have hzero : '0'.toNat = 48 := rfl
  have hrange := (isDigit_iff c).mp h
  unfold digitValue
  omega

theorem digitChar_digitValue {c : Char} (h : isDigit c = true) :
    Nat.digitChar (digitValue c) = c := by
  have hzero : '0'.toNat = 48 := rfl
  have hrange := (isDigit_iff c).mp h
  apply Char.toNat_inj.mp
  rw [Nat.toNat_digitChar_of_lt_ten (digitValue_lt h)]
  unfold digitValue
  omega

theorem digitValue_eq_zero_iff {c : Char} (h : isDigit c = true) :
    digitValue c = 0 ↔ c = '0' := by
  constructor
  · intro hvalue
    rw [← digitChar_digitValue h, hvalue]
    rfl
  · rintro rfl
    rfl

theorem valueOfDigits_concat (ds : List Char) (c : Char) :
    valueOfDigits (ds ++ [c]) = 10 * valueOfDigits ds + digitValue c := by
  simp [valueOfDigits]

/-- The decimal text of zero has a digit as well, and so it is left out here. -/
theorem dropWhile_zero_eq {ds : List Char} (h : ∀ c ∈ ds, isDigit c = true) :
    ds.dropWhile (· == '0') =
      if valueOfDigits ds = 0 then []
      else Nat.toDigits 10 (valueOfDigits ds) := by
  induction ds using List.reverseRecOn with
  | nil => rfl
  | append_singleton ds c ih =>
      have hc : isDigit c = true := h c (by simp)
      have hvalue := digitValue_lt hc
      rw [List.dropWhile_append, ih fun d hd => h d (List.mem_append_left _ hd),
        valueOfDigits_concat]
      by_cases hzero : valueOfDigits ds = 0
      · rw [if_pos hzero, hzero, if_pos (by rfl), Nat.mul_zero, Nat.zero_add]
        by_cases hlast : digitValue c = 0
        · rw [if_pos hlast, (digitValue_eq_zero_iff hc).mp hlast]
          rfl
        · have hother : c ≠ '0' := mt (digitValue_eq_zero_iff hc).mpr hlast
          rw [if_neg hlast, Nat.toDigits_of_lt_base hvalue,
            digitChar_digitValue hc]
          simp [hother]
      · rw [if_neg hzero, if_neg (by simp), if_neg (by omega),
          ← Nat.toDigits_append_toDigits (by decide)
            (Nat.pos_of_ne_zero hzero) hvalue, Nat.toDigits_of_lt_base hvalue,
          digitChar_digitValue hc]

theorem valueOfDigits_dropWhile_zero (ds : List Char) :
    valueOfDigits (ds.dropWhile (· == '0')) = valueOfDigits ds := by
  induction ds with
  | nil => rfl
  | cons c ds ih =>
      by_cases hc : c = '0'
      · rw [List.dropWhile_cons_of_pos (by simp [hc]), ih, hc]
        rfl
      · rw [List.dropWhile_cons_of_neg (by simp [hc])]

end Text
end RuleBacktest
