import Mathlib.Data.List.DropRight
import RuleBacktest.Text.Blank

/-!
# Texts without blanks around them

Trimming takes off the blanks at both ends and nothing else, so that a text that
was trimmed before does not change.  A text is read as it stands when there are
no blanks around it and it is not empty, and what is read of any text is of this
kind.
-/

namespace RuleBacktest
namespace Text

theorem trimChars_eq (cs : List Char) :
    trimChars cs = (cs.dropWhile isBlank).rdropWhile isBlank :=
  rfl

theorem trimChars_trimChars (cs : List Char) :
    trimChars (trimChars cs) = trimChars cs := by
  have hprefix : trimChars cs <+: cs.dropWhile isBlank :=
    List.rdropWhile_prefix _ _
  have hfirst : (trimChars cs).dropWhile isBlank = trimChars cs := by
    rw [List.dropWhile_eq_self_iff]
    intro hpos
    -- What begins the trimmed text begins what was left of the blanks before
    -- it.
    have hdropped := hprefix.length_le
    have hhead :=
      List.dropWhile_get_zero_not isBlank cs (hpos.trans_le hdropped)
    rwa [List.get_eq_getElem, ← hprefix.getElem hpos] at hhead
  rw [trimChars_eq (trimChars cs), hfirst, trimChars_eq cs,
    List.rdropWhile_idempotent]

@[simp] theorem trim_trim (s : String) : trim (trim s) = trim s := by
  rw [trim, trim, String.toList_ofList, trimChars_trimChars]

/-- What is trimmed off is blank. -/
theorem exists_eq_trimChars (cs : List Char) :
    ∃ before after, cs = before ++ trimChars cs ++ after ∧
      ∀ c ∈ before ++ after, isBlank c = true := by
  refine ⟨cs.takeWhile isBlank, (cs.dropWhile isBlank).rtakeWhile isBlank, ?_,
    ?_⟩
  · rw [trimChars_eq, List.append_assoc, List.rdropWhile_append_rtakeWhile,
      List.takeWhile_append_dropWhile]
  · intro c hc
    rcases List.mem_append.mp hc with hbefore | hafter
    · exact List.mem_takeWhile_imp hbefore
    · exact List.mem_rtakeWhile_imp hafter

/-- Blanks put around a text make no difference. -/
theorem trimChars_append_append {before after : List Char} (cs : List Char)
    (hblank : ∀ c ∈ before ++ after, isBlank c = true) :
    trimChars (before ++ cs ++ after) = trimChars cs := by
  have hbefore : ∀ c ∈ before, isBlank c = true := fun c hc =>
    hblank c (List.mem_append_left after hc)
  have hafter : ∀ c ∈ after, isBlank c = true := fun c hc =>
    hblank c (List.mem_append_right before hc)
  have hend (ds : List Char) : (ds ++ after).rdropWhile isBlank =
      ds.rdropWhile isBlank := by
    rw [List.rdropWhile, List.reverse_append, List.dropWhile_append_of_pos,
      List.rdropWhile]
    exact fun c hc => hafter c (List.mem_reverse.mp hc)
  rw [trimChars_eq, trimChars_eq, List.append_assoc,
    List.dropWhile_append_of_pos hbefore, List.dropWhile_append]
  split
  · next hempty =>
      rw [List.isEmpty_iff.mp hempty, List.dropWhile_eq_nil_iff.mpr hafter]
  · exact hend _

theorem trimChars_eq_self {word : List Char}
    (h : ∀ c ∈ word, isBlank c = false) :
    trimChars word = word := by
  have hkept {cs : List Char} (hcs : ∀ c ∈ cs, isBlank c = false) :
      cs.dropWhile isBlank = cs := by
    rw [List.dropWhile_eq_self_iff]
    intro hpos
    rw [hcs _ (List.getElem_mem hpos)]
    exact Bool.false_ne_true
  rw [trimChars, hkept h, hkept fun c hc => h c (List.mem_reverse.mp hc),
    List.reverse_reverse]

theorem trimChars_of_blank_around {before word after : List Char}
    (hblank : ∀ c ∈ before ++ after, isBlank c = true)
    (hword : ∀ c ∈ word, isBlank c = false) :
    trimChars (before ++ word ++ after) = word := by
  rw [trimChars_append_append word hblank, trimChars_eq_self hword]

theorem nonBlank?_of_trim {s : String} (h : trim s = s) :
    nonBlank? s = if s.isEmpty then none else some s := by
  rw [nonBlank?, h]

theorem nonBlank?_eq_some_iff {s t : String} :
    nonBlank? s = some t ↔ trim s = t ∧ t ≠ "" := by
  unfold nonBlank?
  by_cases hempty : trim s = ""
  · simp only [hempty]
    constructor
    · intro h
      cases h
    · rintro ⟨rfl, hnonempty⟩
      exact absurd rfl hnonempty
  · have hnot : ¬ (trim s).isEmpty = true := by
      rwa [String.isEmpty_iff]
    simp only [if_neg hnot, Option.some.injEq]
    constructor
    · rintro rfl
      exact ⟨rfl, hempty⟩
    · rintro ⟨rfl, -⟩
      rfl

end Text
end RuleBacktest
