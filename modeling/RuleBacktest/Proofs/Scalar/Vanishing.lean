import Mathlib
import RuleBacktest.Proofs.Scalar.Difference

/-!
# Binary numbers that come to nothing

What a number differs from itself is a zero, or no number if it is infinite.
Such values stay among themselves: their sums, differences and products, their
quotients by whatever divisor and their roots are zero or no number again, and
none of them is positive.
-/

namespace RuleBacktest
namespace Binary64

open Float.Model UnpackedFloat

/-- A zero of either sign, or no number. -/
def IsNull (u : UnpackedFloat) : Prop :=
  IsZero u ∨ u = .notANumber

theorem isNull_zero (s : Sign) : IsNull (.zero s) :=
  Or.inl ⟨s, rfl⟩

theorem isNull_notANumber : IsNull .notANumber :=
  Or.inr rfl

theorem IsNull.kept {u : UnpackedFloat} (h : IsNull u) : IsNull (kept u) := by
  rcases h with ⟨s, rfl⟩ | rfl
  · exact Or.inl (isZero_kept_zero s)
  · exact isNull_notANumber

/-- An operation keeps to null values if it does so on two zeros and on what is
no number. -/
theorem IsNull.combine {op : UnpackedFloat → UnpackedFloat → UnpackedFloat}
    (hzeros : ∀ s t, IsNull (op (.zero s) (.zero t)))
    (hleft : ∀ v, op .notANumber v = .notANumber)
    (hright : ∀ s, op (.zero s) .notANumber = .notANumber)
    {u v : UnpackedFloat}
    (hu : IsNull u)
    (hv : IsNull v) :
    IsNull (op u v) := by
  rcases hu with ⟨s, rfl⟩ | rfl
  · rcases hv with ⟨t, rfl⟩ | rfl
    · exact hzeros s t
    · exact Or.inr (hright s)
  · exact Or.inr (hleft v)

def Vanishes (x : Float) : Prop :=
  IsNull x.toModel.unpack

theorem vanishes_sub_self (x : Float) : Vanishes (x - x) := by
  rw [Vanishes, unpack_sub]
  apply IsNull.kept
  cases x.toModel.unpack with
  | notANumber => exact isNull_notANumber
  | infinity s => cases s <;> exact isNull_notANumber
  | zero s => cases s <;> exact isNull_zero _
  | finite s m e hm =>
      simp only [UnpackedFloat.sub, Int.sub_self, UnpackedFloat.normalize]
      exact isNull_zero _

namespace Vanishes

variable {x y : Float}

theorem add (hx : Vanishes x) (hy : Vanishes y) : Vanishes (x + y) := by
  have hsum : (x + y).toModel.unpack =
      kept (UnpackedFloat.add Format.binary64 x.toModel.unpack
          y.toModel.unpack) := rfl
  rw [Vanishes, hsum]
  refine (hx.combine ?_ (fun _ => rfl) (fun _ => rfl) hy).kept
  intro s t
  cases s <;> cases t <;> exact isNull_zero _

theorem sub (hx : Vanishes x) (hy : Vanishes y) : Vanishes (x - y) := by
  rw [Vanishes, unpack_sub]
  refine (hx.combine ?_ (fun _ => rfl) (fun _ => rfl) hy).kept
  intro s t
  cases s <;> cases t <;> exact isNull_zero _

theorem mul (hx : Vanishes x) (hy : Vanishes y) : Vanishes (x * y) := by
  have hproduct : (x * y).toModel.unpack =
      kept (UnpackedFloat.mul Format.binary64 x.toModel.unpack
          y.toModel.unpack) := rfl
  rw [Vanishes, hproduct]
  exact (hx.combine (fun _ _ => isNull_zero _) (fun _ => rfl)
      (fun _ => rfl) hy).kept

theorem div (hx : Vanishes x) (y : Float) : Vanishes (x / y) := by
  have hquotient : (x / y).toModel.unpack =
      kept (UnpackedFloat.div Format.binary64 x.toModel.unpack
          y.toModel.unpack) := rfl
  rw [Vanishes, hquotient]
  apply IsNull.kept
  rcases hx with ⟨s, hs⟩ | hnumber
  · rw [hs]
    cases y.toModel.unpack with
    | notANumber => exact isNull_notANumber
    | infinity t => exact isNull_zero _
    | zero t => exact isNull_notANumber
    | finite t m e hm => exact isNull_zero _
  · rw [hnumber]
    exact isNull_notANumber

theorem sqrt (hx : Vanishes x) : Vanishes x.sqrt := by
  have hroot : x.sqrt.toModel.unpack =
      kept (UnpackedFloat.sqrt Format.binary64 x.toModel.unpack) :=
    rfl
  rw [Vanishes, hroot]
  apply IsNull.kept
  rcases hx with ⟨s, hs⟩ | hnumber
  · rw [hs]
    exact isNull_zero _
  · rw [hnumber]
    exact isNull_notANumber

end Vanishes

theorem not_isNull_of_pos {x : Float} (hx : 0 < x) :
    ¬ IsNull x.toModel.unpack := by
  have hlt : UnpackedFloat.lt (.zero .positive) x.toModel.unpack = true :=
    of_decide_eq_true hx
  rintro (⟨s, hs⟩ | hnumber)
  · rw [hs] at hlt
    cases hlt
  · rw [hnumber] at hlt
    cases hlt

theorem Vanishes.not_pos {x : Float} (hx : Vanishes x) : ¬ 0 < x := by
  intro hpos
  exact not_isNull_of_pos hpos hx

theorem vanishes_sum {xs : List Float} (hxs : ∀ x ∈ xs, Vanishes x) :
    Vanishes (Scalar.sum xs) := by
  have hfoldl (start : Float) (hstart : Vanishes start) :
      Vanishes (xs.foldl (fun s x => s + x) start) := by
    induction xs generalizing start with
    | nil => exact hstart
    | cons x xs ih =>
        obtain ⟨hx, hrest⟩ := List.forall_mem_cons.mp hxs
        exact ih hrest _ (hstart.add hx)
  exact hfoldl _ (isNull_zero .negative)

-- The fact about valid bits is in no module short of the whole library.
theorem pack_unpack (m : Float.Model) : Float.Model.pack m.unpack = m := by
  obtain ⟨bits, hvalid⟩ := m
  have hbits : UnpackedFloat.pack Format.binary64
      (UnpackedFloat.unpack Format.binary64 bits.toBitVec) = bits.toBitVec :=
    UnpackedFloat.pack_unpack_of_valid hvalid
  simp only [Float.Model.pack, Float.Model.unpack, hbits]

/-- A zero that is added leaves a positive number as it is. -/
theorem add_zero_of_pos {x : Float} (hx : 0 < x) : x + 0 = x := by
  have hsum :
      UnpackedFloat.add Format.binary64 x.toModel.unpack (.zero .positive) =
        x.toModel.unpack := by
    cases hunpack : x.toModel.unpack with
    | notANumber => rfl
    | infinity s => rfl
    | zero s =>
        -- Only the negative zero would lose its sign.
        exact absurd (hunpack ▸ isNull_zero s) (not_isNull_of_pos hx)
    | finite s m e hm => rfl
  have hmodel : (x + 0).toModel = x.toModel := by
    change Float.Model.pack
      (UnpackedFloat.add Format.binary64 x.toModel.unpack (.zero .positive)) = _
    rw [hsum, pack_unpack]
  exact congrArg Float.ofModel hmodel

end Binary64
end RuleBacktest
