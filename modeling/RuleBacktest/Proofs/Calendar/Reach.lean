import RuleBacktest.Proofs.Calendar.Order

/-!
# How far back the calendar reaches

Every day between the first and the last of the calendar has a date, and so a
move back by days or by months fails exactly when it would pass the first day.
A longer move back ends no later than a shorter one, on the last days of short
months too, and it never succeeds where the shorter one fails.
-/

namespace RuleBacktest
namespace Calendar

theorem daysInMonth_pos (year : Int) {month : Nat}
    (hfirst : 1 ≤ month)
    (hlast : month ≤ 12) :
    1 ≤ daysInMonth year month := by
  obtain ⟨m, rfl⟩ := Nat.exists_eq_add_of_le' hfirst
  have hplace : m < (monthLengths year).length := by
    have hcount : (monthLengths year).length = 12 := rfl
    omega
  have hall : ∀ n ∈ monthLengths year, 1 ≤ n := by
    unfold monthLengths
    cases isLeapYear year <;> decide
  rw [daysInMonth, List.getElem?_eq_getElem hplace, Option.getD_some]
  exact hall _ (List.getElem_mem hplace)

namespace Date

variable {d e : Date} {n m : Nat}

theorem exists_of?_iff {year : Int} {month day : Nat} :
    (∃ d, of? year month day = some d) ↔
      firstYear ≤ year ∧ year ≤ lastYear ∧ 1 ≤ month ∧ month ≤ 12 ∧
        1 ≤ day ∧ day ≤ daysInMonth year month := by
  unfold of?
  split
  · next h => exact ⟨fun _ => h, fun _ => ⟨_, rfl⟩⟩
  · next h =>
      refine ⟨?_, fun hvalid => (h hvalid).elim⟩
      rintro ⟨_, hnone⟩
      cases hnone

/-! ## Days -/

/-- A walk that ends inside the months it goes through ends on a day of one of
them. -/
theorem walkMonths_within {lengths : List Nat} (month : Nat) {rest : Nat}
    (h : rest < lengths.sum) :
    (walkMonths lengths month rest).1 < month + lengths.length ∧
      (walkMonths lengths month rest).2 ≤
        lengths[(walkMonths lengths month rest).1 - month]?.getD 0 := by
  induction lengths generalizing month rest with
  | nil => simp at h
  | cons length lengths ih =>
      rw [walkMonths]
      split
      · next hrest => simpa [Nat.succ_le_iff] using hrest
      · next hrest =>
          rw [List.sum_cons] at h
          have hinside : rest - length < lengths.sum := by omega
          obtain ⟨hmonth, hday⟩ := ih (month + 1) hinside
          have hreached :=
            (walkMonths_spec lengths (month + 1) (rest - length)).1
          have hplace :
              (walkMonths lengths (month + 1) (rest - length)).1 - month =
                (walkMonths lengths (month + 1) (rest - length)).1 -
                  (month + 1) + 1 := by
            omega
          rw [List.length_cons, hplace, List.getElem?_cons_succ]
          exact ⟨by omega, hday⟩

/-- Every day of the calendar has a date. -/
theorem exists_ofDayNumber?_iff {n : Int} :
    (∃ d, ofDayNumber? n = some d) ↔
      daysBeforeYear firstYear ≤ n ∧ n < daysBeforeYear (lastYear + 1) := by
  have hfirst := daysBeforeYear_yearOfDayNumber_le n
  have hnext := lt_daysBeforeYear_yearOfDayNumber_succ n
  have hsum := sum_monthLengths (yearOfDayNumber n)
  have hwithin :=
    walkMonths_within 1
      (show (n - daysBeforeYear (yearOfDayNumber n)).toNat <
        (monthLengths (yearOfDayNumber n)).sum by
      omega)
  have hspec := walkMonths_spec (monthLengths (yearOfDayNumber n)) 1
    (n - daysBeforeYear (yearOfDayNumber n)).toNat
  have hcount : (monthLengths (yearOfDayNumber n)).length = 12 := rfl
  simp only [ofDayNumber?]
  generalize walkMonths (monthLengths (yearOfDayNumber n)) 1
    (n - daysBeforeYear (yearOfDayNumber n)).toNat = reached at hwithin hspec
  obtain ⟨hmonth, hday⟩ := hwithin
  have hlength : daysInMonth (yearOfDayNumber n) reached.1 =
      (monthLengths (yearOfDayNumber n))[reached.1 - 1]?.getD 0 := by
    obtain ⟨m, hm⟩ := Nat.exists_eq_add_of_le' hspec.1
    rw [hm]
    rfl
  rw [exists_of?_iff, hlength]
  constructor
  · rintro ⟨hlow, hhigh, _⟩
    have hearliest := daysBeforeYear_mono hlow
    have hlatest := daysBeforeYear_mono (Int.add_le_add_right hhigh 1)
    exact ⟨by omega, by omega⟩
  · rintro ⟨hlow, hhigh⟩
    have hearliest : firstYear ≤ yearOfDayNumber n := by
      by_contra hbefore
      have hmono :=
        daysBeforeYear_mono (show yearOfDayNumber n + 1 ≤ firstYear by omega)
      omega
    have hlatest : yearOfDayNumber n ≤ lastYear := by
      by_contra hafter
      have hmono :=
        daysBeforeYear_mono (show lastYear + 1 ≤ yearOfDayNumber n by omega)
      omega
    exact ⟨hearliest, hlatest, hspec.1, by omega, hspec.2.1, hday⟩

theorem dayNumber_mem (d : Date) :
    daysBeforeYear firstYear ≤ d.dayNumber ∧
      d.dayNumber < daysBeforeYear (lastYear + 1) := by
  have hvalid := d.valid
  have hnumber := dayNumber_eq d
  have hbefore := dayNumber_lt_daysBeforeYear d
  have hfirst := daysBeforeYear_mono hvalid.1
  have hlast := daysBeforeYear_mono (Int.add_le_add_right hvalid.2.1 1)
  exact ⟨by omega, by omega⟩

/-! ## Months -/

/-- Counts the months from the first of year zero. -/
def monthNumber (d : Date) : Int :=
  d.year * 12 + ((d.month : Int) - 1)

theorem exists_monthsBefore?_iff :
    (∃ e, d.monthsBefore? n = some e) ↔ firstYear * 12 ≤ d.monthNumber - n := by
  have hvalid := d.valid
  have hplace : d.year * 12 + ((d.month : Int) - 1) - n = d.monthNumber - n :=
    rfl
  have hmonth : 1 ≤ ((d.monthNumber - n) % 12).toNat + 1 ∧
      ((d.monthNumber - n) % 12).toNat + 1 ≤ 12 := by
    omega
  have hdays := daysInMonth_pos ((d.monthNumber - n) / 12) hmonth.1 hmonth.2
  have hnumber : d.monthNumber ≤ lastYear * 12 + 11 := by
    unfold monthNumber
    omega
  simp only [monthsBefore?, hplace]
  rw [exists_of?_iff]
  constructor
  · rintro ⟨hlow, _⟩
    omega
  · intro hlow
    exact ⟨by omega, by omega, hmonth.1, hmonth.2, by omega,
      Nat.min_le_right _ _⟩

/-- A date that is more months back comes no later, although its month may be
longer. -/
theorem rank_monthsBefore?_le
    (hle : n ≤ m)
    {d' : Date}
    (hn : d.monthsBefore? n = some d')
    (hm : d.monthsBefore? m = some e) :
    e.rank ≤ d'.rank := by
  rcases Nat.eq_or_lt_of_le hle with rfl | hlt
  · rw [hn] at hm
    cases hm
    exact Int.le_refl _
  · obtain ⟨hyear, hmonth, _⟩ := of?_eq_some hn
    obtain ⟨hyear', hmonth', _⟩ := of?_eq_some hm
    have hdays := daysInMonth_le e.year e.month
    have hvalid := e.valid
    have hvalid' := d'.valid
    unfold rank
    omega

end Date

/-! ## Moves back -/

namespace Moment

variable {t s : Moment} {n m : Nat}

theorem daysBefore?_pos (t : Moment) (hn : 0 < n) :
    t.daysBefore? n =
      (Date.ofDayNumber?
        (t.date.dayNumber + t.clock.nextRegularSecond.2 - n)).map fun d =>
        ⟨d, t.clock.nextRegularSecond.1⟩ := by
  unfold daysBefore?
  rw [if_neg (by omega), if_pos (by omega)]

theorem nextRegularSecond_mem (c : Clock) :
    0 ≤ c.nextRegularSecond.2 ∧ c.nextRegularSecond.2 ≤ 1 := by
  rcases c.nextRegularSecond_cases with h | h <;> omega

theorem daysBefore?_eq_none_iff :
    t.daysBefore? n = none ↔
      t.date.dayNumber + t.clock.nextRegularSecond.2 - n <
        Date.daysBeforeYear firstYear := by
  have hnumber := t.date.dayNumber_mem
  have hcarry := nextRegularSecond_mem t.clock
  rcases Nat.eq_zero_or_pos n with rfl | hn
  · have hstays : t.daysBefore? ((0 : Nat) : Int) = some t := by
      simp [daysBefore?]
    rw [hstays]
    constructor
    · intro hnone
      cases hnone
    · intro hbefore
      omega
  · rw [daysBefore?_pos t hn, Option.map_eq_none_iff,
      Option.eq_none_iff_forall_ne_some, ← not_exists,
      Date.exists_ofDayNumber?_iff]
    omega

theorem monthsBefore?_eq_none_iff :
    t.monthsBefore? n = none ↔ t.date.monthNumber - n < firstYear * 12 := by
  rw [monthsBefore?, Option.map_eq_none_iff, Option.eq_none_iff_forall_ne_some,
    ← not_exists, Date.exists_monthsBefore?_iff, Int.not_le]

/-- A longer move back by days succeeds only if the shorter one does, and then
ends no later. -/
theorem exists_daysBefore?_of_le
    (hle : n ≤ m)
    (hm : t.daysBefore? m = some s) :
    ∃ u, t.daysBefore? n = some u ∧ s ≤ u := by
  obtain ⟨u, hu⟩ : ∃ u, t.daysBefore? n = some u := by
    apply Option.ne_none_iff_exists'.mp
    intro hnone
    have hbefore := daysBefore?_eq_none_iff.mp hnone
    have hnot :=
      mt daysBefore?_eq_none_iff.mpr (by rw [hm]; exact Option.some_ne_none s)
    omega
  refine ⟨u, hu, ?_⟩
  rcases Nat.eq_or_lt_of_le hle with rfl | hlt
  · rw [hu] at hm
    cases hm
    exact Int.le_refl _
  · rcases Nat.eq_zero_or_pos n with rfl | hn
    · have hstays : t.daysBefore? ((0 : Nat) : Int) = some t := by
        simp [daysBefore?]
      rw [hstays] at hu
      cases hu
      exact le_of_daysBefore? (Int.natCast_nonneg m) hm
    · rw [daysBefore?_pos t (hn.trans_le hle)] at hm
      rw [daysBefore?_pos t hn] at hu
      obtain ⟨d, hd, rfl⟩ := Option.map_eq_some_iff.mp hm
      obtain ⟨d', hd', rfl⟩ := Option.map_eq_some_iff.mp hu
      have hday := Date.dayNumber_of_ofDayNumber? hd
      have hday' := Date.dayNumber_of_ofDayNumber? hd'
      have hearlier : d.dayNumber < d'.dayNumber := by omega
      exact le_of_date_lt (Date.rank_lt_of_dayNumber_lt hearlier)

/-- A longer move back by months succeeds only if the shorter one does, and then
ends no later. -/
theorem exists_monthsBefore?_of_le
    (hle : n ≤ m)
    (hm : t.monthsBefore? m = some s) :
    ∃ u, t.monthsBefore? n = some u ∧ s ≤ u := by
  obtain ⟨d, hd, rfl⟩ := Option.map_eq_some_iff.mp hm
  obtain ⟨d', hd'⟩ : ∃ d', t.date.monthsBefore? n = some d' := by
    have hreach := Date.exists_monthsBefore?_iff.mp ⟨d, hd⟩
    exact Date.exists_monthsBefore?_iff.mpr (by omega)
  refine ⟨⟨d', t.clock⟩, ?_, ?_⟩
  · rw [monthsBefore?, hd']
    rfl
  · exact le_of_date_le (Date.rank_monthsBefore?_le hle hd' hd) (Int.le_refl _)

theorem exists_startOfYear? (t : Moment) : ∃ s, t.startOfYear? = some s := by
  obtain ⟨d, hd⟩ : ∃ d, t.date.firstOfYear? = some d := by
    have hvalid := t.date.valid
    have hdays : 1 ≤ daysInMonth t.date.year 1 :=
      daysInMonth_pos t.date.year le_rfl (by omega)
    exact Date.exists_of?_iff.mpr
      ⟨hvalid.1, hvalid.2.1, by omega, by omega, by omega, hdays⟩
  exact ⟨_, by rw [startOfYear?, hd]; rfl⟩

end Moment
end Calendar
end RuleBacktest
