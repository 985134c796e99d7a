import RuleBacktest.Backtest.Request
import RuleBacktest.Proofs.Text.Digits
import RuleBacktest.Proofs.Text.Lowercase
import RuleBacktest.Proofs.Text.Trimming

/-!
# Texts of ranges

A range is spelled by a keyword, or by a count in digits with a unit behind it,
in letters of either case and with blanks around it.  Reading accepts exactly
these texts and gives the range that is spelled.  The whole text is put into
lower case first, by the rules for all letters, but none of the letters of the
grammar is the lower case of a letter outside ASCII.

A range is written as the shortest of its spellings in lower case, which reads
back as the range.
-/

namespace RuleBacktest
namespace HistoryRange

open Text

variable {range : HistoryRange} {word digits : List Char}

/-- Digits of a number between 1 and the largest unsigned 32-bit number. -/
structure IsCount (digits : List Char) : Prop where
  isDigit : ∀ c ∈ digits, '0' ≤ c ∧ c ≤ '9'
  pos : 1 ≤ valueOfDigits digits
  le : valueOfDigits digits ≤ 4294967295

/-- A word that names a range, without regard to the case of ASCII letters. -/
inductive Spells : List Char → HistoryRange → Prop where
  | max {word : List Char}
      (letters : word.map Char.toLower = ['m', 'a', 'x']) :
      Spells word .max
  | yearToDate {word : List Char}
      (letters : word.map Char.toLower = ['y', 't', 'd']) :
      Spells word .yearToDate
  | days {digits unit : List Char} (count : IsCount digits)
      (letters : unit.map Char.toLower = ['d']) :
      Spells (digits ++ unit) (.days (valueOfDigits digits))
  | months {digits unit : List Char} (count : IsCount digits)
      (letters : unit.map Char.toLower = ['m', 'o']) :
      Spells (digits ++ unit) (.months (valueOfDigits digits))
  | years {digits unit : List Char} (count : IsCount digits)
      (letters : unit.map Char.toLower = ['y']) :
      Spells (digits ++ unit) (.years (valueOfDigits digits))

/-! ## Digits in front of a unit -/

theorem isPlain_of_isDigit {c : Char} (h : Text.isDigit c = true) :
    IsPlain c := by
  have hrange := (isDigit_iff c).mp h
  refine ⟨by omega, ?_, ?_⟩
  · rintro rfl
    exact absurd hrange (by decide)
  · rintro rfl
    exact absurd hrange (by decide)

namespace IsCount

theorem allDigits (h : IsCount digits) :
    ∀ c ∈ digits, Text.isDigit c = true := by
  intro c hc
  simpa [Text.isDigit] using h.isDigit c hc

theorem ne_nil (h : IsCount digits) : digits ≠ [] := by
  rintro rfl
  exact absurd h.pos (by decide)

theorem map_toLower (h : IsCount digits) :
    digits.map Char.toLower = digits := by
  apply map_toLower_eq_self
  intro c hc
  have hrange := (isDigit_iff c).mp (h.allDigits c hc)
  exact toLower_of_not_capital (by omega)

/-- The digits without leading zeros are those of the count, and they are a
count as well. -/
theorem dropWhile_zero (h : IsCount digits) :
    digits.dropWhile (· == '0') = Nat.toDigits 10 (valueOfDigits digits) := by
  have hpos := h.pos
  rw [dropWhile_zero_eq h.allDigits, if_neg (by omega)]

theorem shortest (h : IsCount digits) :
    IsCount (digits.dropWhile (· == '0')) where
  isDigit c hc := h.isDigit c ((List.dropWhile_sublist _).mem hc)
  pos := by
    rw [valueOfDigits_dropWhile_zero]
    exact h.pos
  le := by
    rw [valueOfDigits_dropWhile_zero]
    exact h.le

theorem toList_text (h : IsCount digits) :
    (HistoryRange.days (valueOfDigits digits)).text.toList =
        digits.dropWhile (· == '0') ++ ['d'] ∧
      (HistoryRange.months (valueOfDigits digits)).text.toList =
        digits.dropWhile (· == '0') ++ ['m', 'o'] ∧
      (HistoryRange.years (valueOfDigits digits)).text.toList =
        digits.dropWhile (· == '0') ++ ['y'] := by
  have hdigits : (toString (valueOfDigits digits)).toList =
      digits.dropWhile (· == '0') := by
    rw [h.dropWhile_zero]
    simp
  rw [← hdigits]
  exact ⟨String.toList_append, String.toList_append, String.toList_append⟩

theorem takeWhile_append
    (h : IsCount digits)
    {c : Char}
    (hc : Text.isDigit c = false)
    (cs : List Char) :
    (digits ++ c :: cs).takeWhile Text.isDigit = digits := by
  rw [List.takeWhile_append_of_pos h.allDigits,
    List.takeWhile_cons_of_neg (by simp [hc]), List.append_nil]

theorem dropWhile_append
    (h : IsCount digits)
    {c : Char}
    (hc : Text.isDigit c = false)
    (cs : List Char) :
    (digits ++ c :: cs).dropWhile Text.isDigit = c :: cs := by
  rw [List.dropWhile_append_of_pos h.allDigits,
    List.dropWhile_cons_of_neg (by simp [hc])]

theorem append_ne_cons
    (h : IsCount digits)
    {c : Char}
    (hc : Text.isDigit c = false)
    (cs rest : List Char) :
    digits ++ cs ≠ c :: rest := by
  cases digits with
  | nil => exact (h.ne_nil rfl).elim
  | cons d ds =>
      intro heq
      have hd := h.allDigits d List.mem_cons_self
      rw [List.cons_append, List.cons.injEq] at heq
      rw [heq.1, hc] at hd
      cases hd

end IsCount

theorem exists_of_counted? (h : counted? word = some range) :
    ∃ digits, IsCount digits ∧
      (word = digits ++ ['d'] ∧ range = days (valueOfDigits digits) ∨
        word = digits ++ ['m', 'o'] ∧ range = months (valueOfDigits digits) ∨
        word = digits ++ ['y'] ∧ range = years (valueOfDigits digits)) := by
  have hsplit := List.takeWhile_append_dropWhile (p := Text.isDigit) (l := word)
  unfold counted? digits? at h
  split at h
  · cases h
  · next n hn =>
      split at hn
      · cases hn
      · cases hn
        split at h
        · cases h
        · next hbounds =>
            have hmost : maxUnsigned32 = 4294967295 := rfl
            have hcount : IsCount (word.takeWhile Text.isDigit) := by
              refine ⟨?_, by omega, by omega⟩
              intro c hc
              simpa [Text.isDigit] using List.mem_takeWhile_imp hc
            refine ⟨_, hcount, ?_⟩
            split at h
            · next hunit =>
                cases h
                rw [hunit] at hsplit
                exact Or.inl ⟨hsplit.symm, rfl⟩
            · next hunit =>
                cases h
                rw [hunit] at hsplit
                exact Or.inr (Or.inl ⟨hsplit.symm, rfl⟩)
            · next hunit =>
                cases h
                rw [hunit] at hsplit
                exact Or.inr (Or.inr ⟨hsplit.symm, rfl⟩)
            · cases h

theorem IsCount.counted? (h : IsCount digits) :
    HistoryRange.counted? (digits ++ ['d']) =
        some (.days (valueOfDigits digits)) ∧
      HistoryRange.counted? (digits ++ ['m', 'o']) =
        some (.months (valueOfDigits digits)) ∧
      HistoryRange.counted? (digits ++ ['y']) =
        some (.years (valueOfDigits digits)) := by
  have hbounds :
      ¬ (valueOfDigits digits = 0 ∨ maxUnsigned32 < valueOfDigits digits) := by
    have hmost : maxUnsigned32 = 4294967295 := rfl
    have hpos := h.pos
    have hle := h.le
    omega
  have hdigits : digits? digits = some (valueOfDigits digits) := by
    have hall : digits.all Text.isDigit = true :=
      List.all_eq_true.mpr h.allDigits
    rw [digits?, if_neg]
    simp [h.ne_nil, hall]
  have hsplit {c : Char} (hc : Text.isDigit c = false) (cs : List Char) :=
    And.intro (h.takeWhile_append hc cs) (h.dropWhile_append hc cs)
  refine ⟨?_, ?_, ?_⟩
  · obtain ⟨htake, hdrop⟩ := hsplit (c := 'd') rfl []
    simp only [HistoryRange.counted?, htake, hdrop, hdigits, if_neg hbounds]
  · obtain ⟨htake, hdrop⟩ := hsplit (c := 'm') rfl ['o']
    simp only [HistoryRange.counted?, htake, hdrop, hdigits, if_neg hbounds]
  · obtain ⟨htake, hdrop⟩ := hsplit (c := 'y') rfl []
    simp only [HistoryRange.counted?, htake, hdrop, hdigits, if_neg hbounds]

/-! ## Words of the grammar -/

namespace Spells

/-- The letters and digits of which the words are made. -/
theorem mem_toLower (h : Spells word range) :
    ∀ c ∈ word.map Char.toLower, c ∈ ['a', 'd', 'm', 'o', 't', 'x', 'y'] ∨
      Text.isDigit c = true := by
  have hcounted {digits unit letters : List Char} (hcount : IsCount digits)
      (hletters : unit.map Char.toLower = letters)
      (hmem : ∀ c ∈ letters, c ∈ ['a', 'd', 'm', 'o', 't', 'x', 'y']) :
      ∀ c ∈ (digits ++ unit).map Char.toLower,
        c ∈ ['a', 'd', 'm', 'o', 't', 'x', 'y'] ∨ Text.isDigit c = true := by
    intro c hc
    rw [List.map_append, hcount.map_toLower, hletters] at hc
    rcases List.mem_append.mp hc with hdigit | hletter
    · exact Or.inr (hcount.allDigits c hdigit)
    · exact Or.inl (hmem c hletter)
  cases h with
  | max letters => rw [letters]; simp
  | yearToDate letters => rw [letters]; simp
  | days count letters => exact hcounted count letters (by simp)
  | months count letters => exact hcounted count letters (by simp)
  | years count letters => exact hcounted count letters (by simp)

theorem isPlain_toLower (h : Spells word range) :
    ∀ c ∈ word.map Char.toLower, IsPlain c := by
  have hletters : ∀ c ∈ ['a', 'd', 'm', 'o', 't', 'x', 'y'], IsPlain c := by
    simp [IsPlain]
  intro c hc
  rcases h.mem_toLower c hc with hletter | hdigit
  · exact hletters c hletter
  · exact isPlain_of_isDigit hdigit

theorem not_isBlank (h : Spells word range) :
    ∀ c ∈ word, isBlank c = false := by
  have hletters : ∀ c ∈ ['a', 'd', 'm', 'o', 't', 'x', 'y'],
      isBlank c = false := by
    simp [isBlank]
  intro c hc
  by_contra hblank
  have hsame : c.toLower = c := by
    apply toLower_of_not_capital
    simp only [isBlank, Bool.not_eq_false, Bool.or_eq_true, Bool.and_eq_true,
      decide_eq_true_eq, beq_iff_eq] at hblank
    omega
  have hmem := h.mem_toLower _ (List.mem_map_of_mem hc)
  rw [hsame] at hmem
  rcases hmem with hletter | hdigit
  · exact hblank (hletters c hletter)
  · exact hblank (not_isBlank_of_isDigit hdigit)

/-- The word in lower case, without leading zeros, is how the range is
written. -/
theorem toList_text (h : Spells word range) :
    range.text.toList = (word.map Char.toLower).dropWhile (· == '0') := by
  have hshort {digits unit letters : List Char} (hcount : IsCount digits)
      (hletters : unit.map Char.toLower = letters) :
      ((digits ++ unit).map Char.toLower).dropWhile (· == '0') =
        digits.dropWhile (· == '0') ++ letters := by
    rw [List.map_append, hletters, hcount.map_toLower, List.dropWhile_append,
      if_neg (by simpa using hcount.shortest.ne_nil)]
  cases h with
  | max letters => rw [letters]; rfl
  | yearToDate letters => rw [letters]; rfl
  | days count letters => rw [hshort count letters, count.toList_text.1]
  | months count letters => rw [hshort count letters, count.toList_text.2.1]
  | years count letters => rw [hshort count letters, count.toList_text.2.2]

/-- What a range is written as spells it too. -/
theorem text (h : Spells word range) : Spells range.text.toList range := by
  cases h with
  | max letters => exact .max rfl
  | yearToDate letters => exact .yearToDate rfl
  | days count letters =>
      rw [count.toList_text.1, ← valueOfDigits_dropWhile_zero]
      exact .days count.shortest rfl
  | months count letters =>
      rw [count.toList_text.2.1, ← valueOfDigits_dropWhile_zero]
      exact .months count.shortest rfl
  | years count letters =>
      rw [count.toList_text.2.2, ← valueOfDigits_dropWhile_zero]
      exact .years count.shortest rfl

end Spells

/-! ## Reading -/

theorem toLower_eq_of_isDigit {c : Char} (h : Text.isDigit c.toLower = true) :
    c.toLower = c := by
  by_cases hcapital : 65 ≤ c.toNat ∧ c.toNat ≤ 90
  · have hall : ∀ n < 91, 65 ≤ n →
        Text.isDigit (Char.ofNat n).toLower = false := by decide
    have hletter := hall c.toNat (by omega) hcapital.1
    rw [Char.ofNat_toNat, h] at hletter
    cases hletter
  · exact toLower_of_not_capital hcapital

/-- A word that is a count with a unit in lower case is one as it stands. -/
theorem IsCount.exists_unit (h : IsCount digits) {letters : List Char}
    (hword : word.map Char.toLower = digits ++ letters) :
    ∃ unit, word = digits ++ unit ∧ unit.map Char.toLower = letters := by
  obtain ⟨start, unit, rfl, hstart, hunit⟩ := List.map_eq_append_iff.mp hword
  have hsame : start.map Char.toLower = start := by
    apply map_toLower_eq_self
    intro c hc
    apply toLower_eq_of_isDigit
    apply h.allDigits
    rw [← hstart]
    exact List.mem_map_of_mem hc
  exact ⟨unit, by rw [← hstart, hsame], hunit⟩

theorem Spells.of_counted? (h : counted? (word.map Char.toLower) = some range) :
    Spells word range := by
  obtain ⟨digits, hcount, ⟨hword, rfl⟩ | ⟨hword, rfl⟩ | ⟨hword, rfl⟩⟩ :=
    exists_of_counted? h
  · obtain ⟨unit, rfl, hunit⟩ := hcount.exists_unit hword
    exact .days hcount hunit
  · obtain ⟨unit, rfl, hunit⟩ := hcount.exists_unit hword
    exact .months hcount hunit
  · obtain ⟨unit, rfl, hunit⟩ := hcount.exists_unit hword
    exact .years hcount hunit

theorem isPlain_of_counted? (h : counted? word = some range) :
    ∀ c ∈ word, IsPlain c := by
  have hplain {digits letters : List Char} (hcount : IsCount digits)
      (hletters : ∀ c ∈ letters, IsPlain c) :
      ∀ c ∈ digits ++ letters, IsPlain c := by
    intro c hc
    rcases List.mem_append.mp hc with hdigit | hletter
    · exact isPlain_of_isDigit (hcount.allDigits c hdigit)
    · exact hletters c hletter
  obtain ⟨digits, hcount, ⟨rfl, -⟩ | ⟨rfl, -⟩ | ⟨rfl, -⟩⟩ :=
    exists_of_counted? h
  · exact hplain hcount (by simp [IsPlain])
  · exact hplain hcount (by simp [IsPlain])
  · exact hplain hcount (by simp [IsPlain])

theorem Spells.toList_lower_trim {s : String}
    (h : Spells (trimChars s.toList) range) :
    (lower (trim s)).toList = (trimChars s.toList).map Char.toLower := by
  rw [toList_lower, trim, String.toList_ofList]
  exact (lowerAfter_eq_iff h.isPlain_toLower).mpr rfl

/-- Whatever the text becomes in lower case, only the case of its ASCII letters
decides. -/
theorem ofText?_eq_some_iff {s : String} :
    ofText? s = some range ↔ Spells (trimChars s.toList) range := by
  have hword : (lower (trim s)).toList =
      lowerAfter [] (trimChars s.toList) := by
    rw [toList_lower, trim, String.toList_ofList]
  have hmax : "max".toList = ['m', 'a', 'x'] := rfl
  have hyear : "ytd".toList = ['y', 't', 'd'] := rfl
  simp only [ofText?, ← String.toList_inj, hword, hmax, hyear]
  constructor
  · intro h
    split at h
    · next hmax =>
        cases h
        exact .max ((lowerAfter_eq_iff (by simp [IsPlain])).mp hmax)
    · split at h
      · next hyear =>
          cases h
          exact .yearToDate ((lowerAfter_eq_iff (by simp [IsPlain])).mp hyear)
      · apply Spells.of_counted?
        rwa [(lowerAfter_eq_iff (isPlain_of_counted? h)).mp rfl]
  · intro h
    rw [(lowerAfter_eq_iff h.isPlain_toLower).mpr rfl]
    have hcounted {digits unit letters : List Char} (hcount : IsCount digits)
        (hletters : unit.map Char.toLower = letters)
        (hread : counted? (digits ++ letters) = some range) :
        (if (digits ++ unit).map Char.toLower = ['m', 'a', 'x'] then
            some HistoryRange.max
          else if (digits ++ unit).map Char.toLower = ['y', 't', 'd'] then
            some yearToDate
          else counted? ((digits ++ unit).map Char.toLower)) = some range := by
      rw [List.map_append, hcount.map_toLower, hletters,
        if_neg (hcount.append_ne_cons (c := 'm') rfl letters ['a', 'x']),
        if_neg (hcount.append_ne_cons (c := 'y') rfl letters ['t', 'd']), hread]
    generalize trimChars s.toList = word at h
    cases h with
    | max letters => rw [if_pos letters]
    | yearToDate letters =>
        rw [if_neg (by rw [letters]; decide), if_pos letters]
    | days count letters => exact hcounted count letters count.counted?.1
    | months count letters => exact hcounted count letters count.counted?.2.1
    | years count letters => exact hcounted count letters count.counted?.2.2

theorem ofText_eq_ok_iff {s : String} :
    ofText s = .ok range ↔ ofText? s = some range := by
  unfold ofText
  split
  · next r hr => rw [hr, Except.ok.injEq, Option.some.injEq]
  · next hnone => simp [hnone]

/-- A text reads as a range exactly when it spells the range between blanks, and
else fails with the whole text in the message.  The written form of a range that
was read reads back as that range, and is the text without its blanks, in lower
case and without leading zeros. -/
theorem ofText_reads_spellings (s : String) :
    (∀ range, ofText s = .ok range ↔
        ∃ before word after,
          s.toList = before ++ word ++ after ∧
          (∀ c ∈ before ++ after, isBlank c = true) ∧
          Spells word range) ∧
      ((¬ ∃ range, ofText s = .ok range) →
        ofText s =
          .error (.invalidRequest ("unsupported range '" ++ s ++ "'"))) ∧
      ∀ range, ofText s = .ok range →
        ofText range.text = .ok range ∧
          range.text =
            String.ofList ((lower (trim s)).toList.dropWhile (· == '0')) := by
  refine ⟨?_, ?_, ?_⟩
  · intro range
    rw [ofText_eq_ok_iff, ofText?_eq_some_iff]
    constructor
    · intro h
      obtain ⟨before, after, hs, hblank⟩ := exists_eq_trimChars s.toList
      exact ⟨before, _, after, hs, hblank, h⟩
    · rintro ⟨before, word, after, hs, hblank, h⟩
      rwa [hs, trimChars_of_blank_around hblank h.not_isBlank]
  · intro hfails
    unfold ofText at hfails ⊢
    split
    · next range hrange => exact (hfails ⟨range, by rw [hrange]⟩).elim
    · rfl
  · intro range hread
    have hspells := ofText?_eq_some_iff.mp (ofText_eq_ok_iff.mp hread)
    have hwritten := hspells.text
    constructor
    · rw [ofText_eq_ok_iff, ofText?_eq_some_iff]
      have htrimmed : trimChars ([] ++ range.text.toList ++ []) =
          range.text.toList :=
        trimChars_of_blank_around (by simp) hwritten.not_isBlank
      rw [List.nil_append, List.append_nil] at htrimmed
      rwa [htrimmed]
    · rw [hspells.toList_lower_trim, ← hspells.toList_text,
        String.ofList_toList]

end HistoryRange
end RuleBacktest
