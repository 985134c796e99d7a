import Mathlib.Data.String.Basic
import RuleBacktest.Calendar.Reading
import RuleBacktest.Calendar.Text
import RuleBacktest.Proofs.Calendar.Order

/-!
# Moments in a table

The text of a moment whose year has four digits shows every field in its own
places, the highest first. Such texts read back as the moments, down to the
second, and are ordered as the moments are.
-/

namespace RuleBacktest

/-! ## Decimal places -/

namespace Text

/-- The last decimal places of a number, the highest first. -/
def places : Nat → Nat → List Char
  | 0, _ => []
  | width + 1, n => places width (n / 10) ++ [Nat.digitChar (n % 10)]

theorem isDigit_iff (c : Char) :
    isDigit c = true ↔ 48 ≤ c.toNat ∧ c.toNat ≤ 57 := by
  rw [isDigit, Bool.and_eq_true, decide_eq_true_iff, decide_eq_true_iff,
    Char.le_def, Char.le_def, UInt32.le_iff_toNat_le, UInt32.le_iff_toNat_le]
  exact Iff.rfl

theorem isDigit_digitChar {n : Nat} (h : n < 10) :
    isDigit (Nat.digitChar n) = true := by
  rw [isDigit_iff, Nat.toNat_digitChar_of_lt_ten h]
  omega

theorem digitValue_digitChar {n : Nat} (h : n < 10) :
    digitValue (Nat.digitChar n) = n := by
  have hzero : '0'.toNat = 48 := rfl
  rw [digitValue, Nat.toNat_digitChar_of_lt_ten h, hzero]
  omega

theorem digitChar_lt_iff {m n : Nat}
    (hm : m < 10)
    (hn : n < 10) :
    Nat.digitChar m < Nat.digitChar n ↔ m < n := by
  have horder : Nat.digitChar m < Nat.digitChar n ↔
      (Nat.digitChar m).toNat < (Nat.digitChar n).toNat :=
    Char.lt_def.trans UInt32.lt_iff_toNat_lt
  rw [horder, Nat.toNat_digitChar_of_lt_ten hm,
    Nat.toNat_digitChar_of_lt_ten hn]
  omega

theorem digitChar_inj {m n : Nat}
    (hm : m < 10)
    (hn : n < 10) :
    Nat.digitChar m = Nat.digitChar n ↔ m = n := by
  constructor
  · intro h
    rw [← digitValue_digitChar hm, h, digitValue_digitChar hn]
  · rintro rfl
    rfl

@[simp] theorem length_places (width n : Nat) :
    (places width n).length = width := by
  induction width generalizing n with
  | zero => rfl
  | succ width ih => rw [places, List.length_append, ih, List.length_singleton]

theorem isDigit_of_mem_places {width n : Nat} {c : Char}
    (h : c ∈ places width n) :
    isDigit c = true := by
  induction width generalizing n with
  | zero => cases h
  | succ width ih =>
      rcases List.mem_append.mp h with hbefore | hlast
      · exact ih hbefore
      · rw [List.mem_singleton.mp hlast]
        exact isDigit_digitChar (Nat.mod_lt n (by decide))

theorem valueOfDigits_places {width n : Nat} (h : n < 10 ^ width) :
    valueOfDigits (places width n) = n := by
  induction width generalizing n with
  | zero =>
      have hzero : n = 0 := by simpa using h
      rw [hzero]
      rfl
  | succ width ih =>
      have hbefore : n / 10 < 10 ^ width := by
        rw [Nat.pow_succ] at h
        omega
      have hlast := digitValue_digitChar (Nat.mod_lt n (by decide : 10 > 0))
      have hvalue := ih hbefore
      unfold valueOfDigits at hvalue ⊢
      rw [places, List.foldl_append, hvalue, List.foldl_cons, List.foldl_nil,
        hlast]
      omega

/-- Numbers in as many places are ordered as texts are, and before what follows
them. -/
theorem places_append_lt_iff {width m n : Nat}
    (hm : m < 10 ^ width)
    (hn : n < 10 ^ width)
    (cs ds : List Char) :
    places width m ++ cs < places width n ++ ds ↔ m < n ∨ m = n ∧ cs < ds := by
  induction width generalizing m n cs ds with
  | zero =>
      have hm0 : m = 0 := by simpa using hm
      have hn0 : n = 0 := by simpa using hn
      simp [hm0, hn0, places]
  | succ width ih =>
      rw [Nat.pow_succ] at hm hn
      have hlastm : m % 10 < 10 := Nat.mod_lt m (by decide)
      have hlastn : n % 10 < 10 := Nat.mod_lt n (by decide)
      simp only [places, List.append_assoc, List.singleton_append]
      rw [ih (by omega) (by omega), List.cons_lt_cons_iff,
        digitChar_lt_iff hlastm hlastn, digitChar_inj hlastm hlastn]
      constructor
      · rintro (h | ⟨h, h' | ⟨h', hrest⟩⟩)
        · exact Or.inl (by omega)
        · exact Or.inl (by omega)
        · exact Or.inr ⟨by omega, hrest⟩
      · rintro (h | ⟨h, hrest⟩)
        · by_cases hbefore : m / 10 < n / 10
          · exact Or.inl hbefore
          · exact Or.inr ⟨by omega, Or.inl (by omega)⟩
        · exact Or.inr ⟨by omega, Or.inr ⟨by omega, hrest⟩⟩

theorem filled_toDigits {width n : Nat} (h : n < 10 ^ (width + 1)) :
    List.replicate (width + 1 - (Nat.toDigits 10 n).length) '0' ++
        Nat.toDigits 10 n =
      places (width + 1) n := by
  induction width generalizing n with
  | zero =>
      have hn : n < 10 := by simpa using h
      have hmod : n % 10 = n := Nat.mod_eq_of_lt hn
      rw [Nat.toDigits_of_lt_base hn]
      simp [places, hmod]
  | succ width ih =>
      by_cases hn : n < 10
      -- A single digit takes the place of the zero in the last place of zero.
      · have hzeros :=
          ih (Nat.pow_pos (by decide : 0 < 10) : 0 < 10 ^ (width + 1))
        have hdiv : n / 10 = 0 := Nat.div_eq_of_lt hn
        have hmod : n % 10 = n := Nat.mod_eq_of_lt hn
        have hzero : Nat.toDigits 10 0 = ['0'] := rfl
        rw [hzero] at hzeros
        rw [places, hdiv, hmod, ← hzeros, Nat.toDigits_of_lt_base hn,
          List.length_singleton, List.length_singleton, Nat.add_sub_cancel,
          Nat.add_sub_cancel, List.replicate_succ']
      · have hbefore : n / 10 < 10 ^ (width + 1) := by
          rw [Nat.pow_succ] at h
          omega
        have hdigits : Nat.toDigits 10 n =
            Nat.toDigits 10 (n / 10) ++ [Nat.digitChar (n % 10)] := by
          rw [Nat.toDigits_eq_if (by decide), if_neg hn]
        rw [places, ← ih hbefore, hdigits, List.length_append,
          List.length_singleton, Nat.add_sub_add_right, List.append_assoc]

theorem toList_padded {width n : Nat} (h : n < 10 ^ (width + 1)) :
    (padded (width + 1) n).toList = places (width + 1) n := by
  have hdigits : (toString n).toList = Nat.toDigits 10 n := by simp
  have hlength : (toString n).length = (Nat.toDigits 10 n).length := by
    rw [← hdigits, String.length_toList]
  rw [padded, String.toList_append, String.toList_ofList, hdigits, hlength,
    filled_toDigits h]

theorem not_isBlank_of_isDigit {c : Char} (h : isDigit c = true) :
    isBlank c = false := by
  obtain ⟨hlow, hhigh⟩ := (isDigit_iff c).mp h
  simp only [isBlank, Bool.or_eq_false_iff, Bool.and_eq_false_iff,
    decide_eq_false_iff_not, beq_eq_false_iff_ne]
  omega

/-- Places begin with a digit. -/
theorem places_succ_eq_cons (width n : Nat) :
    ∃ c cs, isDigit c = true ∧ places (width + 1) n = c :: cs := by
  cases hplaces : places (width + 1) n with
  | nil =>
      have hlength := length_places (width + 1) n
      rw [hplaces] at hlength
      cases hlength
  | cons c cs =>
      have hmem : c ∈ places (width + 1) n := by
        rw [hplaces]
        exact List.mem_cons_self
      exact ⟨c, cs, isDigit_of_mem_places hmem, rfl⟩

theorem dropWhile_places (width n : Nat) (cs : List Char) :
    (places (width + 1) n ++ cs).dropWhile isBlank =
      places (width + 1) n ++ cs := by
  obtain ⟨c, rest, hdigit, hplaces⟩ := places_succ_eq_cons width n
  rw [hplaces, List.cons_append, List.dropWhile_cons_of_neg]
  rw [not_isBlank_of_isDigit hdigit]
  exact Bool.false_ne_true

end Text

/-! ## Fields read back -/

namespace Calendar

open Text

namespace Reading

theorem digits_places {width n : Nat}
    (h : n < 10 ^ (width + 1))
    (cs : List Char) :
    digits (some (width + 1)) (places (width + 1) n ++ cs) = .ok (n, cs) := by
  have hrun : (places (width + 1) n ++ cs).takeWhile isDigit =
      places (width + 1) n ++ cs.takeWhile isDigit :=
    List.takeWhile_append_of_pos fun c hc => isDigit_of_mem_places hc
  have htaken :
      ((places (width + 1) n ++ cs).takeWhile isDigit).take (width + 1) =
        places (width + 1) n := by
    rw [hrun,
      List.take_append_of_le_length (Nat.le_of_eq (length_places _ _).symm),
      List.take_of_length_le (Nat.le_of_eq (length_places _ _))]
  have hdropped : (places (width + 1) n ++ cs).drop (width + 1) = cs := by
    rw [List.drop_append_of_le_length (Nat.le_of_eq (length_places _ _).symm),
      List.drop_of_length_le (Nat.le_of_eq (length_places _ _)),
      List.nil_append]
  have hnil : places (width + 1) n ≠ [] := by
    intro hnil
    have hlength := length_places (width + 1) n
    rw [hnil] at hlength
    cases hlength
  simp [digits, htaken, hdropped, hnil, valueOfDigits_places h]

theorem field_places {lowest highest n : Nat}
    (hlow : lowest ≤ n)
    (hhigh : n ≤ highest)
    (hn : n < 10 ^ 2)
    (cs : List Char) :
    field lowest highest (places 2 n ++ cs) = .ok (n, cs) := by
  have hdigits : digits (some 2) (places 2 n ++ cs) = .ok (n, cs) :=
    digits_places hn cs
  rw [field, dropWhile_places, hdigits]
  simp only [bind, Except.bind, if_pos (And.intro hlow hhigh)]

theorem bounded_of_lt {limit n : Nat} (h : n < limit) (cs : List Char) :
    bounded limit n cs = .ok ((n : Int), cs) := by
  apply if_pos
  omega

theorem signedYear_places {n : Nat} (hn : n < 10 ^ 4) (cs : List Char) :
    signedYear (places 4 n ++ cs) = .ok ((n : Int), cs) := by
  have hdigits : digits (some 4) (places 4 n ++ cs) = .ok (n, cs) :=
    digits_places hn cs
  obtain ⟨c, rest, hdigit, hplaces⟩ := places_succ_eq_cons 3 n
  have hminus : c ≠ '-' := by
    rintro rfl
    cases hdigit
  have hplus : c ≠ '+' := by
    rintro rfl
    cases hdigit
  unfold signedYear
  rw [dropWhile_places]
  rw [hplaces, List.cons_append] at hdigits ⊢
  split
  · next r heq => exact (hminus (List.cons.inj heq).1).elim
  · next r heq => exact (hplus (List.cons.inj heq).1).elim
  · next r _ _ =>
      rw [hdigits]
      rfl

theorem year_places {n : Nat} (hn : n < 10 ^ 4) (cs : List Char) :
    year (places 4 n ++ cs) = .ok ((n : Int), cs) := by
  have hlimit : n < Nat.pow 2 31 := Nat.lt_trans hn (by decide)
  have hbounded := bounded_of_lt hlimit cs
  simp only [year, signedYear_places hn, bind, Except.bind, hbounded]

theorem literal_cons (c : Char) (cs : List Char) :
    literal c (c :: cs) = .ok ((), cs) :=
  if_pos rfl

end Reading

/-! ## Moments read back -/

namespace Moment

/-- The year has four digits. -/
def HasPlainYear (t : Moment) : Prop := 0 ≤ t.date.year ∧ t.date.year ≤ 9999

/-- The text of the date, followed by other text. -/
def datePlaces (d : Date) (cs : List Char) : List Char :=
  places 4 d.year.toNat ++ '-' ::
    (places 2 d.month ++ '-' :: (places 2 d.day ++ cs))

def clockPlaces (c : Clock) : List Char :=
  places 2 c.hour ++ ':' :: (places 2 c.minute ++ ':' :: places 2 c.second)

theorem toList_tableText {t : Moment} (ht : t.HasPlainYear) :
    t.tableText.toList = datePlaces t.date (' ' :: clockPlaces t.clock) := by
  have hdate := t.date.valid
  have hclock := t.clock.valid
  have hdays := daysInMonth_le t.date.year t.date.month
  have hyear : t.date.year.toNat < 10 ^ 4 := by
    have := ht.2
    omega
  have hyearText : yearText t.date.year = padded 4 t.date.year.toNat :=
    if_pos ht
  rw [tableText, Date.text, Clock.text, hyearText]
  simp only [String.toList_append, toList_padded hyear,
    toList_padded (show t.date.month < 10 ^ 2 by omega),
    toList_padded (show t.date.day < 10 ^ 2 by omega),
    toList_padded (show t.clock.hour < 10 ^ 2 by omega),
    toList_padded (show t.clock.minute < 10 ^ 2 by omega),
    toList_padded (show t.clock.second < 10 ^ 2 by omega)]
  simp [datePlaces, clockPlaces]

theorem dateFields_datePlaces {d : Date}
    (hyear : 0 ≤ d.year ∧ d.year ≤ 9999)
    (cs : List Char) :
    Reading.dateFields (datePlaces d cs) =
      .ok ((d.year, d.month, d.day), cs) := by
  have hvalid := d.valid
  have hdays := daysInMonth_le d.year d.month
  have hplain : d.year.toNat < 10 ^ 4 := by omega
  have hyearOf : (d.year.toNat : Int) = d.year := Int.toNat_of_nonneg hyear.1
  simp only [Reading.dateFields, datePlaces, Reading.year_places hplain, bind,
    Except.bind, Reading.literal_cons,
    Reading.field_places (show 1 ≤ d.month by omega)
      (show d.month ≤ 12 by omega) (by omega),
    Reading.field_places (show 1 ≤ d.day by omega) (show d.day ≤ 31 by omega)
      (by omega), hyearOf]

theorem clockFields_clockPlaces (c : Clock) :
    Reading.clockFields (clockPlaces c) =
      .ok ((c.hour, c.minute, c.second), []) := by
  have hvalid := c.valid
  have hsecond :=
    Reading.field_places (Nat.zero_le c.second) hvalid.2.2.1 (by omega) []
  rw [List.append_nil] at hsecond
  simp only [Reading.clockFields, clockPlaces, bind, Except.bind,
    Reading.literal_cons,
    Reading.field_places (Nat.zero_le c.hour) (show c.hour ≤ 23 by omega)
      (by omega),
    Reading.field_places (Nat.zero_le c.minute) (show c.minute ≤ 59 by omega)
      (by omega), hsecond]

theorem date_fields (d : Date) :
    Reading.date (d.year, d.month, d.day) = .ok d := by
  have hof : Date.of? d.year d.month d.day = some d := dif_pos d.valid
  rw [Reading.date, hof]

theorem clock_fields (c : Clock) :
    Reading.clock (c.hour, c.minute, c.second) 0 = .ok c.wholeSeconds := by
  have hof : Clock.of? c.hour c.minute c.second 0 = some c.wholeSeconds :=
    dif_pos c.wholeSeconds.valid
  rw [Reading.clock, hof]

/-- What is written of a moment reads back as the moment without its fraction of
a second. -/
theorem ofTableText_tableText {t : Moment} (ht : t.HasPlainYear) :
    ofTableText t.tableText = .ok t.wholeSeconds := by
  have hblank : (' ' :: clockPlaces t.clock).dropWhile isBlank =
      clockPlaces t.clock := by
    rw [List.dropWhile_cons_of_pos (by rfl)]
    exact dropWhile_places 1 t.clock.hour _
  rw [ofTableText, toList_tableText ht]
  simp only [dateFields_datePlaces ht, bind, Except.bind, hblank,
    clockFields_clockPlaces, Reading.finished, date_fields, clock_fields]
  rfl

theorem wholeSeconds_eq_of_tableText_eq {s t : Moment}
    (hs : s.HasPlainYear)
    (ht : t.HasPlainYear)
    (h : s.tableText = t.tableText) :
    s.wholeSeconds = t.wholeSeconds := by
  have hread := ofTableText_tableText hs
  rw [h, ofTableText_tableText ht] at hread
  exact (Except.ok.inj hread).symm

theorem clockPlaces_lt_iff (c e : Clock) :
    clockPlaces c < clockPlaces e ↔ c.hour < e.hour ∨ c.hour = e.hour ∧
      (c.minute < e.minute ∨ c.minute = e.minute ∧ c.second < e.second) := by
  have hc := c.valid
  have he := e.valid
  have hsecond : places 2 c.second < places 2 e.second ↔
      c.second < e.second := by
    have hplaces := places_append_lt_iff (show c.second < 10 ^ 2 by omega)
      (show e.second < 10 ^ 2 by omega) [] []
    simpa using hplaces
  simp only [clockPlaces]
  rw [places_append_lt_iff (by omega) (by omega), List.cons_lt_cons_iff,
    places_append_lt_iff (by omega) (by omega), List.cons_lt_cons_iff, hsecond]
  simp

theorem datePlaces_lt_iff {d e : Date}
    (hd : 0 ≤ d.year ∧ d.year ≤ 9999)
    (he : 0 ≤ e.year ∧ e.year ≤ 9999)
    (cs ds : List Char) :
    datePlaces d cs < datePlaces e ds ↔
      d.rank < e.rank ∨ d.rank = e.rank ∧ cs < ds := by
  have hvalid := d.valid
  have hvalid' := e.valid
  have hdays := daysInMonth_le d.year d.month
  have hdays' := daysInMonth_le e.year e.month
  have hfields : datePlaces d cs < datePlaces e ds ↔
      d.year.toNat < e.year.toNat ∨
        d.year.toNat = e.year.toNat ∧
          (d.month < e.month ∨
            d.month = e.month ∧ (d.day < e.day ∨ d.day = e.day ∧ cs < ds)) := by
    simp only [datePlaces]
    rw [places_append_lt_iff (by omega) (by omega), List.cons_lt_cons_iff,
      places_append_lt_iff (by omega) (by omega), List.cons_lt_cons_iff,
      places_append_lt_iff (by omega) (by omega)]
    simp
  rw [hfields]
  unfold Date.rank
  by_cases hrest : cs < ds
  · simp only [hrest, and_true]
    omega
  · simp only [hrest, and_false, or_false]
    omega

/-- What is written of moments is ordered as the moments are. -/
theorem tableText_lt_iff {s t : Moment}
    (hs : s.HasPlainYear)
    (ht : t.HasPlainYear) :
    s.tableText < t.tableText ↔ s.wholeSeconds < t.wholeSeconds := by
  have hblank : ∀ cs ds : List Char, ' ' :: cs < ' ' :: ds ↔ cs < ds := by
    intro cs ds
    simp
  have hwhole : s.wholeSeconds < t.wholeSeconds ↔
      s.wholeSeconds.rank < t.wholeSeconds.rank :=
    Iff.rfl
  rw [String.lt_iff_toList_lt, toList_tableText hs, toList_tableText ht,
    datePlaces_lt_iff hs ht, hblank, clockPlaces_lt_iff, hwhole, rank_eq,
    rank_eq]
  have hclock := s.wholeSeconds.clock.rank_lt
  have hclock' := t.wholeSeconds.clock.rank_lt
  have hnonneg := s.wholeSeconds.clock.rank_nonneg
  have hnonneg' := t.wholeSeconds.clock.rank_nonneg
  have hvalid := s.clock.valid
  have hvalid' := t.clock.valid
  simp only [wholeSeconds, Clock.wholeSeconds, Clock.rank] at *
  omega

theorem tableText_le_iff {s t : Moment}
    (hs : s.HasPlainYear)
    (ht : t.HasPlainYear) :
    s.tableText ≤ t.tableText ↔ s.wholeSeconds ≤ t.wholeSeconds := by
  have hlt := tableText_lt_iff ht hs
  have hwhole : s.wholeSeconds ≤ t.wholeSeconds ↔
      ¬ t.wholeSeconds < s.wholeSeconds :=
    Int.not_lt.symm
  rw [hwhole, ← hlt, not_lt]

end Moment
end Calendar
end RuleBacktest
