import Mathlib.Algebra.Order.Ring.Nat
import RuleBacktest.Proofs.Scalar.Binary64

/-!
# Differences of binary numbers

A difference of two finite numbers is zero only when they are equal.  They are
brought to the smaller of their exponents, which is no smaller than that of the
least positive number, so what is left of significands that differ is at least
that number, and rounding does not take it to zero.  Equal values have one form,
since every significand is full or has the least exponent.
-/

namespace RuleBacktest
namespace Binary64

open Scalar Float.Model UnpackedFloat

/-! ## The form of a number -/

/-- A significand of at most 53 binary digits with an exponent in range. -/
structure Fits (m : ℕ) (e : ℤ) : Prop where
  pos : 0 < m
  lt_top : m < 2 ^ 53
  bottom_le : -1074 ≤ e

/-- In the form in which a number is kept, fewer than 53 digits come with the
least exponent only. -/
structure Canonical (m : ℕ) (e : ℤ) : Prop extends Fits m e where
  full : e ≠ -1074 → 2 ^ 52 ≤ m

/-- What bits can stand for: an exponent of ones is beyond the finite numbers,
and an exponent of zeros leaves the significand without its first digit. -/
theorem unpack_cases (bits : BitVec Format.binary64.numBits) :
    (∃ s, UnpackedFloat.unpack Format.binary64 bits = .infinity s) ∨
      UnpackedFloat.unpack Format.binary64 bits = .notANumber ∨
      (∃ s, UnpackedFloat.unpack Format.binary64 bits = .zero s ∧
        unpackExponent bits = 0 ∧ unpackMantissa bits = 0) ∨
      ∃ s m e hm, UnpackedFloat.unpack Format.binary64 bits = .finite s m e hm ∧
        Canonical m e := by
  have hbias : Format.binary64.exponentBias = 1023 := rfl
  have htop : (unpackMantissa bits).toNat < 2 ^ 52 := (unpackMantissa bits).isLt
  unfold UnpackedFloat.unpack
  dsimp only
  by_cases hlast : unpackExponent bits = -1#11
  · rw [if_pos hlast]
    by_cases hmantissa : unpackMantissa bits = 0#52
    · left
      rw [if_pos hmantissa]
      exact ⟨_, rfl⟩
    · right
      left
      rw [if_neg hmantissa]
  rw [if_neg hlast]
  right
  right
  by_cases hzero : unpackExponent bits = 0#11
  · rw [if_pos hzero]
    have hexponent : (unpackExponent bits).toNat = 0 := by
      rw [hzero]
      rfl
    by_cases hmantissa : unpackMantissa bits = 0#52
    · left
      rw [dif_pos hmantissa]
      exact ⟨_, rfl, hzero, hmantissa⟩
    · right
      have hpos : 0 < (unpackMantissa bits).toNat := by
        apply Nat.pos_of_ne_zero
        intro hnumber
        exact hmantissa (BitVec.eq_of_toNat_eq hnumber)
      rw [dif_neg hmantissa]
      refine ⟨_, _, _, hpos, rfl, ⟨hpos, by omega, by omega⟩, ?_⟩
      intro hother
      omega
  · right
    rw [if_neg hzero]
    have hexponent : (unpackExponent bits).toNat ≠ 0 := by
      intro hnumber
      exact hzero (BitVec.eq_of_toNat_eq hnumber)
    have hfull : (1#1 ++ unpackMantissa bits).toNat =
        2 ^ 52 + (unpackMantissa bits).toNat := by
      rw [BitVec.toNat_append, ← Nat.shiftLeft_add_eq_or_of_lt htop]
      rfl
    have hpos : 0 < (1#1 ++ unpackMantissa bits).toNat := by omega
    refine ⟨_, _, _, hpos, rfl, ?_⟩
    rw [hfull]
    refine ⟨⟨by omega, by omega, by omega⟩, ?_⟩
    intro _
    exact Nat.le_add_right _ _

theorem unpack_of_isFinite {x : Float} (hx : isFinite x = true) :
    (∃ s, x.toModel.unpack = .zero s) ∨
      ∃ s m e hm, x.toModel.unpack = .finite s m e hm ∧ Canonical m e := by
  rw [isFinite_eq] at hx
  rcases unpack_cases x.toModel.toBits.toBitVec with
    ⟨s, hs⟩ | hnone | ⟨s, hs, -, -⟩ | ⟨s, m, e, hm, hs, hform⟩
  · change x.toModel.unpack = _ at hs
    rw [hs] at hx
    cases hx
  · change x.toModel.unpack = _ at hnone
    rw [hnone] at hx
    cases hx
  · left
    exact ⟨s, hs⟩
  · right
    exact ⟨s, m, e, hm, hs, hform⟩

/-- Two canonical forms of one value are the same. -/
theorem Canonical.eq_of_shift {m n : ℕ} {e f : ℤ}
    (hm : Canonical m e)
    (hn : Canonical n f)
    (hle : e ≤ f)
    (hvalue : m = n * 2 ^ (f - e).toNat) :
    e = f ∧ m = n := by
  by_cases hlt : e < f
  · -- A full significand that is shifted is too long.
    exfalso
    have hbottom := hm.bottom_le
    have hfull := hn.full (by omega)
    have hshift : 2 ^ 1 ≤ 2 ^ (f - e).toNat :=
      Nat.pow_le_pow_right (by decide) (by omega)
    have htop := hm.lt_top
    have hlong : 2 ^ 52 * 2 ^ 1 ≤ n * 2 ^ (f - e).toNat :=
      Nat.mul_le_mul hfull hshift
    omega
  · have heq : e = f := by omega
    refine ⟨heq, ?_⟩
    rw [hvalue, heq, Int.sub_self]
    simp

/-! ## Rounding -/

theorem mantissa_shiftRight (em : ExtendedMantissa) (k : ℕ) :
    (em >>> k).mantissa = em.mantissa / 2 ^ k := by
  induction k with
  | zero => simp [HShiftRight.hShiftRight, Nat.repeat]
  | succ k ih =>
      have hstep : em >>> (k + 1) = (em >>> k).shiftRightOne := rfl
      rw [hstep, ExtendedMantissa.shiftRightOne, ih, Nat.div_div_eq_div_mul,
        Nat.pow_succ]

theorem mantissa_ofMantissaAndAccuracy (m : ℕ) (a : Accuracy) :
    (ExtendedMantissa.ofMantissaAndAccuracy m a).mantissa = m := by
  cases a with
  | exact => rfl
  | inexact o => cases o <;> rfl

theorem mantissa_le_roundedMantissa (em : ExtendedMantissa) :
    em.mantissa ≤ em.roundedMantissa := by
  unfold ExtendedMantissa.roundedMantissa
  cases em.accuracy with
  | exact => exact Nat.le_refl _
  | inexact o => cases o <;> simp [Accuracy.roundToNearestEven]

/-- A positive number with an exponent in range keeps a positive significand
when it is brought to the exponent meant for it. -/
theorem fits_shiftToTargetExponent {m : ℕ} {e : ℤ}
    (hm : 0 < m)
    (he : -1074 ≤ e)
    (a : Accuracy) :
    Fits (shiftToTargetExponent Format.binary64 m e a).1.mantissa
      (shiftToTargetExponent Format.binary64 m e a).2 := by
  have htarget : Format.binary64.targetExponent (totalExponent m e) =
      max (m.log2 + 1 + e - 53) (-1074) := rfl
  have hshift :
      (max ((m.log2 : ℤ) + 1 + e - 53) (-1074) - e).toNat = m.log2 - 52 := by
    omega
  have hlow := Nat.log2_self_le hm.ne'
  have hhigh := Nat.lt_log2_self (n := m)
  simp only [shiftToTargetExponent, shiftToExponent, mantissa_shiftRight,
    mantissa_ofMantissaAndAccuracy, htarget, hshift]
  constructor
  case pos =>
    refine Nat.div_pos (le_trans (Nat.pow_le_pow_right (by decide) ?_) hlow)
      (Nat.two_pow_pos _)
    omega
  case lt_top =>
    rw [Nat.div_lt_iff_lt_mul (Nat.two_pow_pos _), ← Nat.pow_add]
    exact hhigh.trans_le (Nat.pow_le_pow_right (by decide) (by omega))
  case bottom_le => omega

theorem exists_fits_roundWithAccuracy (s : Sign) {m : ℕ} {e : ℤ}
    (hm : 0 < m)
    (he : -1074 ≤ e)
    (a : Accuracy) :
    ∃ n f hn, roundWithAccuracy Format.binary64 s m e a = .finite s n f hn ∧
      Fits n f := by
  have hfirst := fits_shiftToTargetExponent hm he a
  have hrounded := hfirst.pos.trans_le (mantissa_le_roundedMantissa _)
  -- A significand that was rounded up to 54 digits is shifted once more.
  have hsecond := fits_shiftToTargetExponent hrounded hfirst.bottom_le .exact
  refine ⟨_, _, hsecond.pos, ?_, hsecond⟩
  unfold roundWithAccuracy
  exact dif_neg hsecond.pos.ne'

theorem exists_fits_round (s : Sign) {m : ℕ} {e : ℤ}
    (hm : 0 < m)
    (he : -1074 ≤ e) :
    ∃ n f hn, UnpackedFloat.round Format.binary64 s m e = .finite s n f hn ∧
      Fits n f := by
  have htarget : Format.binary64.targetExponent (totalExponent m e) =
      max (m.log2 + 1 + e - 53) (-1074) := rfl
  unfold UnpackedFloat.round
  apply exists_fits_roundWithAccuracy
  · simp only [Nat.shiftLeft_eq]
    exact Nat.mul_pos hm (Nat.two_pow_pos _)
  · simp only [htarget]
    omega

/-! ## Packing -/

/-- What is kept of a number, read again. -/
def kept (u : UnpackedFloat) : UnpackedFloat :=
  UnpackedFloat.unpack Format.binary64 (UnpackedFloat.pack Format.binary64 u)

theorem unpack_sub (x y : Float) :
    (x - y).toModel.unpack =
      kept (UnpackedFloat.sub Format.binary64 x.toModel.unpack
          y.toModel.unpack) :=
  rfl

def IsZero (u : UnpackedFloat) : Prop :=
  ∃ s, u = .zero s

theorem isZero_kept_zero (s : Sign) : IsZero (kept (.zero s)) := by
  cases s with
  | negative => exact ⟨.negative, rfl⟩
  | positive => exact ⟨.positive, rfl⟩

theorem components_of_isZero_unpack {bits : BitVec Format.binary64.numBits}
    (h : IsZero (UnpackedFloat.unpack Format.binary64 bits)) :
    unpackExponent bits = 0 ∧ unpackMantissa bits = 0 := by
  obtain ⟨s, hzero⟩ := h
  rcases unpack_cases bits with
    ⟨t, ht⟩ | hnone | ⟨t, -, hcomponents⟩ | ⟨t, m, e, hm, ht, -⟩
  · rw [ht] at hzero
    cases hzero
  · rw [hnone] at hzero
    cases hzero
  · exact hcomponents
  · rw [ht] at hzero
    cases hzero

theorem not_isZero_kept_finite (s : Sign) {m : ℕ} {e : ℤ}
    (hm : 0 < m)
    (h : Fits m e) :
    ¬ IsZero (kept (.finite s m e hm)) := by
  intro hzero
  obtain ⟨hexponent, hmantissa⟩ := components_of_isZero_unpack hzero
  have hbias : Format.binary64.exponentBias = 1023 := rfl
  have hbits : Format.binary64.mantissaBits = 53 := rfl
  have hbottom := h.bottom_le
  unfold UnpackedFloat.pack at hexponent hmantissa
  simp only [hbias, hbits] at hexponent hmantissa
  split at hexponent
  · -- An exponent beyond the range makes an infinite number.
    rw [packedInfinity, unpackExponent_packComponents] at hexponent
    exact absurd hexponent (by decide)
  next hrange =>
    rw [if_neg hrange] at hmantissa
    split at hexponent
    · rw [unpackExponent_packComponents] at hexponent
      have hnumber := congrArg BitVec.toNat hexponent
      simp at hnumber
      omega
    next hshort =>
      rw [if_neg hshort, unpackMantissa_packComponents] at hmantissa
      have hlog := (Nat.log2_lt hm.ne').mpr h.lt_top
      have htop : m < 2 ^ 52 := (Nat.log2_lt hm.ne').mp (by omega)
      have hnumber := congrArg BitVec.toNat hmantissa
      simp at hnumber
      omega

/-! ## Differences -/

theorem isZero_kept_normalize_iff {m e : ℤ} (he : -1074 ≤ e) :
    IsZero (kept (UnpackedFloat.normalize Format.binary64 m e .positive)) ↔
      m = 0 := by
  rcases lt_trichotomy m 0 with hneg | rfl | hpos
  · obtain ⟨n, f, hn, hround, hfits⟩ :=
      exists_fits_round .negative (show 0 < (-m).toNat by omega) he
    rw [UnpackedFloat.normalize, compare_lt_iff_lt.mpr hneg, hround]
    exact iff_of_false (not_isZero_kept_finite _ hn hfits) hneg.ne
  · exact iff_of_true (isZero_kept_zero _) rfl
  · obtain ⟨n, f, hn, hround, hfits⟩ :=
      exists_fits_round .positive (show 0 < m.toNat by omega) he
    rw [UnpackedFloat.normalize, compare_gt_iff_gt.mpr hpos, hround]
    exact iff_of_false (not_isZero_kept_finite _ hn hfits) hpos.ne'

/-- Brought to the smaller exponent, two canonical forms agree when they were
the same before. -/
theorem Canonical.shiftLeft_eq_iff {m n : ℕ} {e f : ℤ}
    (hm : Canonical m e)
    (hn : Canonical n f) :
    m <<< (e - min e f).toNat = n <<< (f - min e f).toNat ↔ e = f ∧ m = n := by
  rw [Nat.shiftLeft_eq, Nat.shiftLeft_eq]
  constructor
  · intro hvalue
    rcases le_total e f with hle | hle
    · rw [min_eq_left hle, Int.sub_self, Int.toNat_zero, Nat.pow_zero,
        Nat.mul_one] at hvalue
      exact hm.eq_of_shift hn hle hvalue
    · rw [min_eq_right hle, Int.sub_self, Int.toNat_zero, Nat.pow_zero,
        Nat.mul_one] at hvalue
      obtain ⟨hexponent, hmantissa⟩ := hn.eq_of_shift hm hle hvalue.symm
      exact ⟨hexponent.symm, hmantissa.symm⟩
  · rintro ⟨rfl, rfl⟩
    rfl

section

variable {m n : ℕ} {e f : ℤ} {hm : 0 < m} {hn : 0 < n}

theorem placeOf_finite_negative :
    placeOf (.finite .negative m e hm) = toLex (-1, toLex (-e, -(m : ℤ))) :=
  rfl

theorem placeOf_finite_positive :
    placeOf (.finite .positive m e hm) = toLex (1, toLex (e, (m : ℤ))) :=
  rfl

theorem placeOf_zero (s : Sign) : placeOf (.zero s) = toLex (0, toLex (0, 0)) :=
  rfl

theorem placeOf_finite_eq_iff {s : Sign} :
    placeOf (.finite s m e hm) = placeOf (.finite s n f hn) ↔
      e = f ∧ m = n := by
  have hcast : (m : ℤ) = n ↔ m = n := Int.ofNat_inj
  cases s with
  | negative =>
      rw [placeOf_finite_negative, placeOf_finite_negative]
      simp only [EmbeddingLike.apply_eq_iff_eq, Prod.mk.injEq, true_and,
        Int.neg_inj, hcast]
  | positive =>
      rw [placeOf_finite_positive, placeOf_finite_positive]
      simp only [EmbeddingLike.apply_eq_iff_eq, Prod.mk.injEq, true_and, hcast]

theorem placeOf_finite_ne_of_sign :
    placeOf (.finite .negative m e hm) ≠
      placeOf (.finite .positive n f hn) := by
  rw [placeOf_finite_negative, placeOf_finite_positive]
  simp

theorem placeOf_zero_ne_finite (s t : Sign) :
    placeOf (.zero s) ≠ placeOf (.finite t m e hm) := by
  rw [placeOf_zero]
  cases t with
  | negative =>
      rw [placeOf_finite_negative]
      simp
  | positive =>
      rw [placeOf_finite_positive]
      simp

end

theorem isZero_kept_sub_finite_iff {s t : Sign} {m n : ℕ} {e f : ℤ} {hm : 0 < m}
    {hn : 0 < n}
    (hx : Canonical m e)
    (hy : Canonical n f) :
    IsZero (kept (UnpackedFloat.sub Format.binary64 (.finite s m e hm)
            (.finite t n f hn))) ↔
      placeOf (.finite s m e hm) = placeOf (.finite t n f hn) := by
  have hbottom : -1074 ≤ min e f := le_min hx.bottom_le hy.bottom_le
  have hpos (k shift : ℕ) (hk : 0 < k) : 0 < k <<< shift := by
    rw [Nat.shiftLeft_eq]
    exact Nat.mul_pos hk (Nat.two_pow_pos _)
  have hm' := hpos m (e - min e f).toNat hm
  have hn' := hpos n (f - min e f).toNat hn
  have hsame := hx.shiftLeft_eq_iff hy
  unfold UnpackedFloat.sub decreaseExponent
  dsimp only
  rw [isZero_kept_normalize_iff hbottom]
  generalize m <<< (e - min e f).toNat = a at hm' hsame ⊢
  generalize n <<< (f - min e f).toNat = b at hn' hsame ⊢
  cases s with
  | negative =>
      cases t with
      | negative =>
          rw [placeOf_finite_eq_iff, ← hsame]
          simp only [Sign.apply]
          omega
      | positive =>
          refine iff_of_false ?_ placeOf_finite_ne_of_sign
          simp only [Sign.apply]
          omega
  | positive =>
      cases t with
      | negative =>
          refine iff_of_false ?_ placeOf_finite_ne_of_sign.symm
          simp only [Sign.apply]
          omega
      | positive =>
          rw [placeOf_finite_eq_iff, ← hsame]
          simp only [Sign.apply]
          omega

theorem isZero_unpack_sub_iff {x y : Float}
    (hx : isFinite x = true)
    (hy : isFinite y = true) :
    IsZero (x - y).toModel.unpack ↔ place x = place y := by
  rw [unpack_sub, place, place]
  rcases unpack_of_isFinite hx with ⟨s, hs⟩ | ⟨s, m, e, hm, hs, hform⟩
  · rcases unpack_of_isFinite hy with ⟨t, ht⟩ | ⟨t, n, f, hn, ht, hform'⟩
    · rw [hs, ht]
      refine iff_of_true ?_ rfl
      cases s <;> cases t <;> exact isZero_kept_zero _
    · rw [hs, ht]
      exact iff_of_false (not_isZero_kept_finite (-t) hn hform'.toFits)
        (placeOf_zero_ne_finite s t)
  · rcases unpack_of_isFinite hy with ⟨t, ht⟩ | ⟨t, n, f, hn, ht, hform'⟩
    · rw [hs, ht]
      exact iff_of_false (not_isZero_kept_finite s hm hform.toFits)
        (placeOf_zero_ne_finite t s).symm
    · rw [hs, ht]
      exact isZero_kept_sub_finite_iff hform hform'

/-! ## Equality in the order -/

theorem isNaN_of_isFinite {x : Float} (hx : isFinite x = true) :
    x.isNaN = false := by
  have hnumber : x.isNaN = x.toModel.unpack.isNaN := rfl
  rcases unpack_of_isFinite hx with ⟨s, hs⟩ | ⟨s, m, e, hm, hs, -⟩
  · rw [hnumber, hs]
    rfl
  · rw [hnumber, hs]
    rfl

theorem same_iff_place_eq {x y : Float}
    (hx : x.isNaN = false)
    (hy : y.isNaN = false) :
    same x y = true ↔ place x = place y := by
  rw [same, Bool.and_eq_true, decide_eq_true_eq, decide_eq_true_eq,
    le_iff_place_le hx hy, le_iff_place_le hy hx, le_antisymm_iff]

theorem same_zero_iff (x : Float) :
    same x 0 = true ↔ IsZero x.toModel.unpack := by
  have hzero : (0 : Float).toModel.unpack = .zero .positive := rfl
  simp only [same, Bool.and_eq_true, decide_eq_true_eq, le_iff]
  rw [hzero]
  cases x.toModel.unpack with
  | infinity s =>
      refine iff_of_false ?_ ?_
      · rintro ⟨hbelow, habove⟩
        cases s with
        | negative => exact Bool.false_ne_true habove
        | positive => exact Bool.false_ne_true hbelow
      · rintro ⟨t, ht⟩
        cases ht
  | notANumber =>
      refine iff_of_false ?_ ?_
      · rintro ⟨hbelow, -⟩
        exact Bool.false_ne_true hbelow
      · rintro ⟨t, ht⟩
        cases ht
  | zero s => exact iff_of_true ⟨rfl, rfl⟩ ⟨s, rfl⟩
  | finite s m e hm =>
      refine iff_of_false ?_ ?_
      · rintro ⟨hbelow, habove⟩
        cases s with
        | negative => exact Bool.false_ne_true habove
        | positive => exact Bool.false_ne_true hbelow
      · rintro ⟨t, ht⟩
        cases ht

/-- A difference of finite numbers is zero exactly when they are equal. -/
theorem same_sub_zero {x y : Float}
    (hx : isFinite x = true)
    (hy : isFinite y = true) :
    same (x - y) 0 = same x y := by
  rw [Bool.eq_iff_iff, same_zero_iff, isZero_unpack_sub_iff hx hy,
    same_iff_place_eq (isNaN_of_isFinite hx) (isNaN_of_isFinite hy)]

end Binary64
end RuleBacktest
