import Mathlib.Analysis.SpecialFunctions.Log.Basic
import RuleBacktest.Scalar

/-!
# Exact arithmetic

The real numbers are a scalar on which nothing is rounded and every value is
finite.  What is computed over them is rewritten here into the operations of the
real numbers themselves, so that the laws of arithmetic apply to it.
-/

namespace RuleBacktest

noncomputable instance : Scalar ℝ where
  ofCount n := n
  ofDecimal d :=
    (if d.negative then -1 else 1) * d.digits * (10 : ℝ) ^ d.exponent
  abs x := |x|
  sqrt := Real.sqrt
  ln := Real.log
  isFinite _ := true
  decidableLT := inferInstance
  decidableLE := inferInstance
  decidableEq := inferInstance

namespace Scalar

variable (x y : ℝ)

/-! ## The operations -/

@[simp] theorem real_add :
    @HAdd.hAdd ℝ ℝ ℝ (@instHAdd ℝ Scalar.instAdd) x y = x + y := rfl

@[simp] theorem real_sub :
    @HSub.hSub ℝ ℝ ℝ (@instHSub ℝ Scalar.instSub) x y = x - y := rfl

@[simp] theorem real_mul :
    @HMul.hMul ℝ ℝ ℝ (@instHMul ℝ Scalar.instMul) x y = x * y := rfl

@[simp] theorem real_div :
    @HDiv.hDiv ℝ ℝ ℝ (@instHDiv ℝ Scalar.instDiv) x y = x / y := rfl

@[simp] theorem real_neg : @Neg.neg ℝ Scalar.instNeg x = -x := rfl

@[simp] theorem real_lt : @LT.lt ℝ Scalar.instLT x y ↔ x < y := Iff.rfl

@[simp] theorem real_le : @LE.le ℝ Scalar.instLE x y ↔ x ≤ y := Iff.rfl

@[simp] theorem real_ofCount (n : Nat) : (ofCount n : ℝ) = n := rfl

@[simp] theorem real_zero : @OfNat.ofNat ℝ 0 Scalar.instOfNat = 0 :=
  Nat.cast_zero

@[simp] theorem real_one : @OfNat.ofNat ℝ 1 Scalar.instOfNat = 1 := Nat.cast_one

@[simp] theorem real_ofNat (n : Nat) [n.AtLeastTwo] :
    @OfNat.ofNat ℝ n Scalar.instOfNat = @OfNat.ofNat ℝ n instOfNatAtLeastTwo :=
  rfl

@[simp] theorem real_abs : abs x = |x| := rfl

@[simp] theorem real_sqrt : sqrt x = √x := rfl

@[simp] theorem real_isFinite : isFinite x = true := rfl

/-! ## What is built from them -/

@[simp] theorem real_same : same x y = decide (x = y) := by
  simp [same, ← Bool.decide_and, le_antisymm_iff]

theorem real_larger : larger x y = max x y := by
  by_cases hlt : x < y
  · simp [larger, hlt, hlt.le]
  · simp [larger, hlt, not_lt.mp hlt]

theorem real_smaller : smaller x y = min x y := by
  by_cases hlt : y < x
  · simp [smaller, hlt, hlt.le]
  · simp [smaller, hlt, not_lt.mp hlt]

theorem real_sum (xs : List ℝ) : sum xs = xs.sum := by
  have hfoldl : ∀ start : ℝ,
      xs.foldl (fun s x => s + x) start = start + xs.sum := by
    intro start
    induction xs generalizing start with
    | nil => simp
    | cons x xs ih =>
        rw [List.foldl_cons, ih, List.sum_cons, add_assoc]
  simpa [sum] using hfoldl 0

end Scalar
end RuleBacktest
