import RuleBacktest.Proofs.Text.AsciiCase
import RuleBacktest.Text.Lowercase

/-!
# Lower case and the letters of ASCII

The lower case of a character outside ASCII begins outside ASCII, except for a
capital I with a dot, which begins with `i`, and for the sign of the kelvin,
which becomes `k`.  So a text of other ASCII characters is the lower case of
those texts alone that differ from it in the case of ASCII letters.
-/

namespace RuleBacktest
namespace Text

/-- An ASCII character that is the lower case of ASCII characters alone. -/
def IsPlain (c : Char) : Prop :=
  c.toNat < 128 ∧ c ≠ 'i' ∧ c ≠ 'k'

instance (c : Char) : Decidable (IsPlain c) :=
  inferInstanceAs (Decidable (c.toNat < 128 ∧ c ≠ 'i' ∧ c ≠ 'k'))

theorem lowerRuns_reach :
    ∀ r ∈ lowerRuns,
      128 ≤ (r.first : Int) + r.offset ∧
        ((r.last : Int) + r.offset < 0xD800 ∨
          0xDFFF < (r.first : Int) + r.offset ∧
            (r.last : Int) + r.offset < 0x110000) ∨
      r.first = r.last ∧ (r.first : Int) + r.offset = 'k'.toNat := by
  decide +kernel

theorem not_isPlain_of_runs {n : Nat} {r : CaseRun}
    (hr : r ∈ lowerRuns)
    (hn : r.contains n = true) :
    ¬ IsPlain (Char.ofNat ((n : Int) + r.offset).toNat) := by
  simp only [CaseRun.contains, Bool.and_eq_true, decide_eq_true_eq] at hn
  obtain ⟨⟨hfirst, hlast⟩, _⟩ := hn
  rcases lowerRuns_reach r hr with ⟨hlow, hvalid⟩ | ⟨hsingle, hkelvin⟩
  · have hchar : ((n : Int) + r.offset).toNat.isValidChar := by
      unfold Nat.isValidChar
      omega
    have hcode : (Char.ofNat ((n : Int) + r.offset).toNat).toNat =
        ((n : Int) + r.offset).toNat := by
      rw [Char.ofNat, dif_pos hchar]
      rfl
    rintro ⟨hascii, _⟩
    omega
  · have hcode : ((n : Int) + r.offset).toNat = 'k'.toNat := by omega
    rw [hcode, Char.ofNat_toNat]
    decide

theorem exists_lowerChar_eq_cons {c : Char} (h : 128 ≤ c.toNat) :
    ∃ d ds, lowerChar c = d :: ds ∧ ¬ IsPlain d := by
  unfold lowerChar
  rw [if_neg (Nat.not_lt.mpr h)]
  split
  · exact ⟨_, _, rfl, by decide⟩
  · split
    · next r hr =>
        have hcontains := List.find?_some hr
        exact ⟨_, _, rfl,
          not_isPlain_of_runs (List.mem_of_find?_eq_some hr) hcontains⟩
    · exact ⟨_, _, rfl, fun hplain => absurd hplain.1 (Nat.not_lt.mpr h)⟩

theorem lowerAfter_cons_of_lt (before cs : List Char) {c : Char}
    (h : c.toNat < 128) :
    lowerAfter before (c :: cs) = c.toLower :: lowerAfter (c :: before) cs := by
  have hsigma : c ≠ 'Σ' := by
    rintro rfl
    exact absurd h (by decide)
  rw [lowerAfter, if_neg hsigma, lowerChar, if_pos h]
  rfl

theorem exists_lowerAfter_eq_cons (before cs : List Char) {c : Char}
    (h : 128 ≤ c.toNat) :
    ∃ d ds, lowerAfter before (c :: cs) = d :: ds ∧ ¬ IsPlain d := by
  rw [lowerAfter]
  split
  · split
    · exact ⟨_, _, rfl, by decide⟩
    · exact ⟨_, _, rfl, by decide⟩
  · obtain ⟨d, ds, hlower, hplain⟩ := exists_lowerChar_eq_cons h
    exact ⟨d, _, by rw [hlower]; rfl, hplain⟩

/-- On plain characters lower case and the case of ASCII letters are the
same. -/
theorem lowerAfter_eq_iff {before cs word : List Char}
    (hword : ∀ c ∈ word, IsPlain c) :
    lowerAfter before cs = word ↔ cs.map Char.toLower = word := by
  induction cs generalizing before word with
  | nil => simp [lowerAfter]
  | cons c cs ih =>
      by_cases hascii : c.toNat < 128
      · rw [lowerAfter_cons_of_lt before cs hascii, List.map_cons]
        cases word with
        | nil => simp
        | cons d ds =>
            have hrest : ∀ c ∈ ds, IsPlain c :=
              fun c hc => hword c (List.mem_cons_of_mem d hc)
            rw [List.cons.injEq, List.cons.injEq, ih hrest]
      · have houtside := Nat.not_lt.mp hascii
        obtain ⟨d, ds, hlower, hplain⟩ :=
          exists_lowerAfter_eq_cons before cs houtside
        have hsame : c.toLower = c := toLower_of_not_capital (by omega)
        rw [hlower, List.map_cons, hsame]
        -- Neither side begins with a plain character.
        refine iff_of_false ?_ ?_
        · rintro rfl
          exact hplain (hword d List.mem_cons_self)
        · rintro rfl
          exact hascii (hword c List.mem_cons_self).1

theorem toList_lower (s : String) : (lower s).toList = lowerAfter [] s.toList :=
  String.toList_ofList

end Text
end RuleBacktest
