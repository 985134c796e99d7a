import RuleBacktest.Proofs.Text.AsciiCase
import RuleBacktest.Text.Blank

/-!
# Respelled texts

A text is respelled by putting blanks into it and by changing the case of ASCII
letters.  A letter and a blank are never confused, and so the text without
blanks and in capitals stays what it was.
-/

namespace RuleBacktest
namespace Text

/-- The second text is the first with blanks put in and with ASCII letters in
another case. -/
inductive Respelled : List Char → List Char → Prop where
  | nil : Respelled [] []
  | blank {c : Char} {cs ds : List Char}
      (isBlank : isBlank c = true)
      (rest : Respelled cs ds) :
      Respelled cs (c :: ds)
  | letter {c d : Char} {cs ds : List Char}
      (sameLetter : c.toLower = d.toLower)
      (rest : Respelled cs ds) :
      Respelled (c :: cs) (d :: ds)

variable {c d : Char}

theorem isBlank_of_letter
    (h : 65 ≤ c.toNat ∧ c.toNat ≤ 90 ∨ 97 ≤ c.toNat ∧ c.toNat ≤ 122) :
    isBlank c = false := by
  simp only [isBlank, Bool.or_eq_false_iff, Bool.and_eq_false_iff,
    decide_eq_false_iff_not, beq_eq_false_iff_ne]
  omega

theorem isBlank_congr (h : c.toLower = d.toLower) : isBlank c = isBlank d := by
  rcases eq_or_capital_of_toLower_eq h with
    rfl | ⟨hlow, hhigh, hsmall⟩ | ⟨hlow, hhigh, hsmall⟩
  · rfl
  · rw [isBlank_of_letter (by omega), isBlank_of_letter (by omega)]
  · rw [isBlank_of_letter (by omega), isBlank_of_letter (by omega)]

theorem toUpper_congr (h : c.toLower = d.toLower) : c.toUpper = d.toUpper := by
  rcases eq_or_capital_of_toLower_eq h with
    rfl | ⟨hlow, hhigh, hsmall⟩ | ⟨hlow, hhigh, hsmall⟩
  · rfl
  · apply Char.toNat_inj.mp
    rw [toUpper_of_not_small (by omega),
      toNat_toUpper_of_small (by omega) (by omega)]
    omega
  · apply Char.toNat_inj.mp
    rw [toNat_toUpper_of_small (by omega) (by omega),
      toUpper_of_not_small (by omega)]
    omega

theorem Respelled.map_toUpper_filter {cs ds : List Char} (h : Respelled cs ds) :
    (ds.filter fun c => !isBlank c).map Char.toUpper =
      (cs.filter fun c => !isBlank c).map Char.toUpper := by
  induction h with
  | nil => rfl
  | blank hblank _ ih => rw [List.filter_cons_of_neg (by simp [hblank]), ih]
  | letter hletter _ ih =>
      rw [List.filter_cons, List.filter_cons, isBlank_congr hletter]
      split
      · rw [List.map_cons, List.map_cons, ih, toUpper_congr hletter]
      · exact ih

theorem Respelled.upperAscii_removeBlanks {s t : String}
    (h : Respelled s.toList t.toList) :
    upperAscii (removeBlanks t) = upperAscii (removeBlanks s) := by
  apply String.toList_inj.mp
  rw [upperAscii, upperAscii, String.toList_map, String.toList_map,
    removeBlanks, removeBlanks, String.toList_ofList, String.toList_ofList]
  exact h.map_toUpper_filter

end Text
end RuleBacktest
