import RuleBacktest.Proofs.Scalar.Binary64
import RuleBacktest.Proofs.Scalar.Exact

/-!
# Laws of the comparison

The real numbers and the binary numbers are compared by the same few laws.  A
value that is at most itself is a number; any other value compares with nothing.
What holds of a rising direction holds of a falling one with the comparison the
other way round, so that the direction is a parameter here.
-/

namespace RuleBacktest
namespace Scalar

class LawfulComparison (α : Type) [Scalar α] : Prop where
  le_of_lt {x y : α} : x < y → x ≤ y
  le_iff {x y : α} : x ≤ y ↔ x ≤ x ∧ y ≤ y ∧ ¬ y < x
  lt_or_lt {x y z : α} : x < z → y ≤ y → x < y ∨ y < z

instance : LawfulComparison ℝ where
  le_of_lt hlt := LT.lt.le hlt
  le_iff := by simp
  lt_or_lt {x y z} (hlt : x < z) _ :=
    (lt_or_ge x y).imp_right fun hle => hle.trans_lt hlt

instance : LawfulComparison Float where
  le_of_lt := Binary64.le_of_lt
  le_iff {x y} := by
    constructor
    · intro h
      obtain ⟨hx, hy⟩ := Binary64.isNaN_of_le h
      exact ⟨Binary64.le_self_iff.mpr hx, Binary64.le_self_iff.mpr hy,
        Binary64.not_lt_of_le h⟩
    · rintro ⟨hx, hy, h⟩
      rw [Binary64.le_self_iff] at hx hy
      rw [Binary64.lt_iff_place_lt hy hx, not_lt] at h
      exact (Binary64.le_iff_place_le hx hy).mpr h
  lt_or_lt {x y z} hlt hy := by
    obtain ⟨hx, hz⟩ := Binary64.isNaN_of_le (Binary64.le_of_lt hlt)
    rw [Binary64.le_self_iff] at hy
    rw [Binary64.lt_iff_place_lt hx hz] at hlt
    rw [Binary64.lt_iff_place_lt hx hy, Binary64.lt_iff_place_lt hy hz]
    exact (lt_or_ge _ _).imp_right fun hle => hle.trans_lt hlt

/-! ## A direction -/

variable {α : Type} [Scalar α] {rising : Bool} {x y z : α}

/-- From `x` to `y` the way leads in the direction. -/
def Before (rising : Bool) (x y : α) : Prop :=
  match rising with
  | true => x < y
  | false => y < x

instance : Decidable (Before rising x y) :=
  match rising with
  | true => decidableLT x y
  | false => decidableLT y x

/-- The one of two values that a way in the direction meets first. -/
def firstMet (rising : Bool) (x y : α) : α :=
  match rising with
  | true => smaller x y
  | false => larger x y

theorem before_not : Before (!rising) x y ↔ Before rising y x := by
  cases rising <;> rfl

theorem firstMet_eq (rising : Bool) (x y : α) :
    firstMet rising x y =
      if Before rising y x then y else if x ≤ x then x else y := by
  cases rising <;> rfl

theorem firstMet_le_self (hy : y ≤ y) :
    firstMet rising x y ≤ firstMet rising x y := by
  rw [firstMet_eq]
  split_ifs with hbefore hx
  · exact hy
  · exact hx
  · exact hy

variable [LawfulComparison α]

theorem le_self_of_lt (h : x < y) : x ≤ x ∧ y ≤ y := by
  obtain ⟨hx, hy, -⟩ := LawfulComparison.le_iff.mp (LawfulComparison.le_of_lt h)
  exact ⟨hx, hy⟩

theorem lt_asymm (h : x < y) : ¬ y < x := by
  obtain ⟨-, -, hnot⟩ :=
    LawfulComparison.le_iff.mp (LawfulComparison.le_of_lt h)
  exact hnot

theorem le_iff_not_lt (hx : x ≤ x) (hy : y ≤ y) : x ≤ y ↔ ¬ y < x := by
  rw [LawfulComparison.le_iff, and_iff_right hx, and_iff_right hy]

namespace Before

theorem asymm (h : Before rising x y) : ¬ Before rising y x := by
  cases rising with
  | true => exact lt_asymm (α := α) h
  | false => exact lt_asymm (α := α) h

theorem irrefl : ¬ Before rising x x := by
  intro h
  exact h.asymm h

theorem le_self (h : Before rising x y) : x ≤ x ∧ y ≤ y := by
  cases rising with
  | true => exact le_self_of_lt h
  | false => exact (le_self_of_lt h).symm

theorem before_or_before
    (h : Before rising x z)
    (hy : y ≤ y) :
    Before rising x y ∨ Before rising y z := by
  cases rising with
  | true => exact LawfulComparison.lt_or_lt h hy
  | false => exact (LawfulComparison.lt_or_lt h hy).symm

theorem trans
    (hxy : Before rising x y)
    (hyz : Before rising y z) :
    Before rising x z := by
  rcases hxy.before_or_before hyz.le_self.2 with hxz | hzy
  · exact hxz
  · exact absurd hzy hyz.asymm

end Before

theorem not_before_firstMet_left : ¬ Before rising x (firstMet rising x y) := by
  rw [firstMet_eq]
  split_ifs with hbefore hx
  · exact hbefore.asymm
  · exact Before.irrefl
  · exact fun h => hx h.le_self.1

theorem not_before_firstMet_right :
    ¬ Before rising y (firstMet rising x y) := by
  rw [firstMet_eq]
  split_ifs with hbefore hx
  · exact Before.irrefl
  · exact hbefore
  · exact Before.irrefl

end Scalar
end RuleBacktest
