import Mathlib.Algebra.Order.BigOperators.Group.List
import Mathlib.Algebra.Order.Ring.Nat
import RuleBacktest.Calendar.Moment

/-!
# Order of dates and moments

Counting days and comparing year, month and day order the dates alike, and the
date found for a day has the number of that day.  So a move back by days, by
months or to the first of January ends no later than where it starts,
sixty-first seconds included.
-/

namespace RuleBacktest
namespace Calendar

/-! ## Days of a year -/

theorem isLeapYear_iff (year : Int) :
    isLeapYear year = true ↔
      year % 4 = 0 ∧ (year % 100 ≠ 0 ∨ year % 400 = 0) := by
  simp [isLeapYear]

theorem sum_monthLengths (year : Int) :
    ((monthLengths year).sum : Int) =
      Date.daysBeforeYear (year + 1) - Date.daysBeforeYear year := by
  unfold Date.daysBeforeYear
  by_cases h : isLeapYear year = true
  · have hsum : (monthLengths year).sum = 366 := by
      simp [monthLengths, h]
    rw [isLeapYear_iff] at h
    rw [hsum]
    omega
  · have hsum : (monthLengths year).sum = 365 := by
      simp [monthLengths, h]
    rw [isLeapYear_iff] at h
    rw [hsum]
    omega

theorem daysInMonth_le (year : Int) (month : Nat) :
    daysInMonth year month ≤ 31 := by
  unfold daysInMonth
  split
  · omega
  · next m =>
      rw [List.getD_getElem?]
      split
      · next h =>
          have hall : ∀ n ∈ monthLengths year, n ≤ 31 := by
            unfold monthLengths
            cases isLeapYear year <;> decide
          exact hall _ (List.getElem_mem h)
      · omega

namespace Date

theorem daysBeforeYear_mono {year year' : Int} (h : year ≤ year') :
    daysBeforeYear year ≤ daysBeforeYear year' := by
  unfold daysBeforeYear
  omega

/-- The days of a year before a month. -/
def daysBeforeMonth (year : Int) (month : Nat) : Nat :=
  ((monthLengths year).take (month - 1)).sum

theorem dayNumber_eq (d : Date) :
    d.dayNumber =
      daysBeforeYear d.year + daysBeforeMonth d.year d.month +
        ((d.day : Int) - 1) := by
  rw [dayNumber, daysBeforeMonth, List.sum_eq_foldl]

theorem daysBeforeMonth_add_daysInMonth {year : Int} {month : Nat}
    (hmonth : 1 ≤ month) :
    daysBeforeMonth year month + daysInMonth year month =
      daysBeforeMonth year (month + 1) := by
  obtain ⟨m, rfl⟩ := Nat.exists_eq_add_of_le' hmonth
  rw [daysBeforeMonth, daysBeforeMonth, daysInMonth, Nat.add_sub_cancel,
    Nat.add_sub_cancel, List.take_add_one, List.sum_append]
  cases (monthLengths year)[m]? <;> simp

theorem daysBeforeMonth_mono {year : Int} {month month' : Nat}
    (h : month ≤ month') :
    daysBeforeMonth year month ≤ daysBeforeMonth year month' := by
  apply List.Sublist.sum_le_sum
  · exact (List.take_prefix_take_left (by omega)).sublist
  · intro n _
    exact Nat.zero_le n

theorem dayNumber_lt_daysBeforeMonth (d : Date) :
    d.dayNumber <
      daysBeforeYear d.year + daysBeforeMonth d.year (d.month + 1) := by
  have hvalid := d.valid
  have hmonth : daysBeforeMonth d.year d.month + daysInMonth d.year d.month =
      daysBeforeMonth d.year (d.month + 1) :=
    daysBeforeMonth_add_daysInMonth hvalid.2.2.1
  rw [dayNumber_eq]
  omega

theorem dayNumber_lt_daysBeforeYear (d : Date) :
    d.dayNumber < daysBeforeYear (d.year + 1) := by
  have hmonth := dayNumber_lt_daysBeforeMonth d
  have hyear : daysBeforeMonth d.year (d.month + 1) ≤
      daysBeforeMonth d.year 13 :=
    daysBeforeMonth_mono (by have := d.valid; omega)
  have htotal : daysBeforeMonth d.year 13 = (monthLengths d.year).sum := rfl
  have hsum := sum_monthLengths d.year
  omega

/-! ## Both orders agree -/

/-- A number that grows with year, month and day. -/
def rank (d : Date) : Int :=
  (d.year * 13 + d.month) * 32 + d.day

theorem rank_lt_rank_iff {d e : Date} :
    d.rank < e.rank ↔
      d.year < e.year ∨
        d.year = e.year ∧
          (d.month < e.month ∨ d.month = e.month ∧ d.day < e.day) := by
  have hd := d.valid
  have he := e.valid
  have hdays := daysInMonth_le d.year d.month
  have hdays' := daysInMonth_le e.year e.month
  unfold rank
  omega

theorem eq_of_rank_eq {d e : Date} (h : d.rank = e.rank) : d = e := by
  have hd := d.valid
  have he := e.valid
  have hdays := daysInMonth_le d.year d.month
  have hdays' := daysInMonth_le e.year e.month
  unfold rank at h
  have hyear : d.year = e.year := by omega
  have hmonth : d.month = e.month := by omega
  have hday : d.day = e.day := by omega
  cases d
  cases e
  simp only at hyear hmonth hday
  subst hyear hmonth hday
  rfl

theorem dayNumber_lt_of_rank_lt {d e : Date} (h : d.rank < e.rank) :
    d.dayNumber < e.dayNumber := by
  have hvalid := e.valid
  have hlater := dayNumber_eq e
  rcases rank_lt_rank_iff.mp h with hyear | ⟨hyear, hmonth | ⟨hmonth, hdays⟩⟩
  · have hbefore := dayNumber_lt_daysBeforeYear d
    have hmono := daysBeforeYear_mono hyear
    omega
  · have hbefore := dayNumber_lt_daysBeforeMonth d
    have hmono : daysBeforeMonth d.year (d.month + 1) ≤
        daysBeforeMonth d.year e.month :=
      daysBeforeMonth_mono hmonth
    rw [← hyear] at hlater
    omega
  · have hearlier := dayNumber_eq d
    rw [← hyear, ← hmonth] at hlater
    omega

theorem rank_le_of_dayNumber_le {d e : Date} (h : d.dayNumber ≤ e.dayNumber) :
    d.rank ≤ e.rank := by
  by_contra hlt
  have hlater := dayNumber_lt_of_rank_lt (Int.not_le.mp hlt)
  omega

theorem rank_lt_of_dayNumber_lt {d e : Date} (h : d.dayNumber < e.dayNumber) :
    d.rank < e.rank := by
  apply lt_of_le_of_ne (rank_le_of_dayNumber_le (Int.le_of_lt h))
  intro hsame
  rw [eq_of_rank_eq hsame] at h
  exact Int.lt_irrefl _ h

/-! ## The date of a day -/

theorem walkMonths_spec (lengths : List Nat) (month rest : Nat) :
    month ≤ (walkMonths lengths month rest).1 ∧
      1 ≤ (walkMonths lengths month rest).2 ∧
      (lengths.take ((walkMonths lengths month rest).1 - month)).sum +
        ((walkMonths lengths month rest).2 - 1) = rest := by
  induction lengths generalizing month rest with
  | nil => simp [walkMonths]
  | cons length lengths ih =>
      rw [walkMonths]
      split
      · simp
      · next hrest =>
          obtain ⟨hmonth, hday, hsum⟩ := ih (month + 1) (rest - length)
          refine ⟨by omega, hday, ?_⟩
          have hstep :
              (walkMonths lengths (month + 1) (rest - length)).1 - month =
                (walkMonths lengths (month + 1) (rest - length)).1 -
                  (month + 1) + 1 := by
            omega
          rw [hstep, List.take_succ_cons, List.sum_cons]
          omega

theorem of?_eq_some {year : Int} {month day : Nat} {d : Date}
    (h : of? year month day = some d) :
    d.year = year ∧ d.month = month ∧ d.day = day := by
  unfold of? at h
  split at h
  · cases h
    exact ⟨rfl, rfl, rfl⟩
  · cases h

theorem dayNumber_of_ofDayNumber? {n : Int} {d : Date}
    (h : ofDayNumber? n = some d) :
    d.dayNumber = n := by
  have hfirst := daysBeforeYear_yearOfDayNumber_le n
  have hwalk := walkMonths_spec (monthLengths (yearOfDayNumber n)) 1
    (n - daysBeforeYear (yearOfDayNumber n)).toNat
  simp only [ofDayNumber?] at h
  generalize walkMonths (monthLengths (yearOfDayNumber n)) 1
    (n - daysBeforeYear (yearOfDayNumber n)).toNat = reached at h hwalk
  obtain ⟨hyear, hmonth, hday⟩ := of?_eq_some h
  rw [dayNumber_eq, daysBeforeMonth, hyear, hmonth, hday]
  omega

theorem rank_of_monthsBefore?_le {d e : Date} {months : Nat}
    (h : d.monthsBefore? months = some e) :
    e.rank ≤ d.rank := by
  obtain ⟨hyear, hmonth, hday⟩ := of?_eq_some h
  have hvalid := d.valid
  have hdays := daysInMonth_le d.year d.month
  unfold rank
  omega

theorem rank_of_firstOfYear?_le {d e : Date} (h : d.firstOfYear? = some e) :
    e.rank ≤ d.rank := by
  obtain ⟨hyear, hmonth, hday⟩ := of?_eq_some h
  have hvalid := d.valid
  unfold rank
  omega

end Date

/-! ## Moves back -/

namespace Clock

/-- A number that grows with the time of day. -/
def rank (c : Clock) : Int :=
  ((c.hour * 60 + c.minute) * 61 + c.second) * 1000000000 + c.nano

theorem rank_nonneg (c : Clock) : 0 ≤ c.rank := by
  unfold rank
  omega

theorem rank_lt (c : Clock) : c.rank < 87840000000000 := by
  have hvalid := c.valid
  have hnano : c.nano < 1000000000 := hvalid.2.2.2
  unfold rank
  omega

theorem eq_of_rank_eq {c d : Clock} (h : c.rank = d.rank) : c = d := by
  have hc := c.valid
  have hd := d.valid
  have hnanos : Nat.pow 10 9 = 1000000000 := rfl
  unfold rank at h
  have hnano : c.nano = d.nano := by omega
  have hsecond : c.second = d.second := by omega
  have hminute : c.minute = d.minute := by omega
  have hhour : c.hour = d.hour := by omega
  cases c
  cases d
  simp only at hnano hsecond hminute hhour
  subst hnano hsecond hminute hhour
  rfl

/-- Only the sixty-first second before midnight is followed by a second of the
next day. -/
theorem nextRegularSecond_cases (c : Clock) :
    c.nextRegularSecond.2 = 0 ∨
      c.nextRegularSecond.2 = 1 ∧ c.nextRegularSecond.1.rank ≤ c.rank := by
  unfold nextRegularSecond
  split
  · split
    · exact Or.inl rfl
    · split
      · exact Or.inl rfl
      · refine Or.inr ⟨rfl, ?_⟩
        simp only [rank]
        omega
  · exact Or.inl rfl

end Clock

namespace Moment

theorem rank_eq (t : Moment) :
    t.rank = t.date.rank * 87840000000000 + t.clock.rank := by
  have hnanos : Nat.pow 10 9 = 1000000000 := rfl
  unfold rank Date.rank Clock.rank
  rw [hnanos]
  omega

theorem rank_injective : Function.Injective rank := by
  intro s t h
  have hs := s.clock.rank_lt
  have ht := t.clock.rank_lt
  have hs' := s.clock.rank_nonneg
  have ht' := t.clock.rank_nonneg
  rw [rank_eq, rank_eq] at h
  have hdate : s.date = t.date := Date.eq_of_rank_eq (by omega)
  have hclock : s.clock = t.clock := Clock.eq_of_rank_eq (by omega)
  cases s
  cases t
  simp only at hdate hclock
  rw [hdate, hclock]

theorem le_of_date_lt {s t : Moment} (h : s.date.rank < t.date.rank) :
    s ≤ t := by
  have hclock := s.clock.rank_lt
  have hclock' := t.clock.rank_nonneg
  have hrank : s.rank ≤ t.rank := by
    rw [rank_eq, rank_eq]
    omega
  exact hrank

theorem le_of_date_le {s t : Moment} (hdate : s.date.rank ≤ t.date.rank)
    (hclock : s.clock.rank ≤ t.clock.rank) : s ≤ t := by
  have hrank : s.rank ≤ t.rank := by
    rw [rank_eq, rank_eq]
    omega
  exact hrank

/-- A move back by days lands on an earlier day, or at the start of the day that
follows the second it left. -/
theorem le_of_daysBefore? {t s : Moment} {days : Int} (hdays : 0 ≤ days)
    (h : t.daysBefore? days = some s) : s ≤ t := by
  unfold daysBefore? at h
  split at h
  · cases h
    exact Int.le_refl _
  · split at h
    · have hcases := t.clock.nextRegularSecond_cases
      simp only at h
      generalize t.clock.nextRegularSecond = next at h hcases
      obtain ⟨d, hd, rfl⟩ := Option.map_eq_some_iff.mp h
      have hnumber := Date.dayNumber_of_ofDayNumber? hd
      rcases hcases with hcarry | ⟨hcarry, hclock⟩
      · have hearlier : d.dayNumber < t.date.dayNumber := by omega
        exact le_of_date_lt (Date.rank_lt_of_dayNumber_lt hearlier)
      · have hearlier : d.dayNumber ≤ t.date.dayNumber := by omega
        exact le_of_date_le (Date.rank_le_of_dayNumber_le hearlier) hclock
    · omega

theorem le_of_monthsBefore? {t s : Moment} {months : Nat}
    (h : t.monthsBefore? months = some s) :
    s ≤ t := by
  obtain ⟨d, hd, rfl⟩ := Option.map_eq_some_iff.mp h
  exact le_of_date_le (Date.rank_of_monthsBefore?_le hd) (Int.le_refl _)

theorem le_of_startOfYear? {t s : Moment} (h : t.startOfYear? = some s) :
    s ≤ t := by
  obtain ⟨d, hd, rfl⟩ := Option.map_eq_some_iff.mp h
  have hmidnight : Clock.midnight.rank = 0 := rfl
  apply le_of_date_le (Date.rank_of_firstOfYear?_le hd)
  rw [hmidnight]
  exact t.clock.rank_nonneg

end Moment
end Calendar
end RuleBacktest
