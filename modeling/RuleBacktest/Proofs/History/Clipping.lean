import RuleBacktest.Proofs.Calendar.Reach
import RuleBacktest.Proofs.History.Window

/-!
# Laws of clipping

A window that was measured once is measured alike on what it keeps, because it
keeps the latest record. So clipping a second time by the same range changes
nothing, and clipping by two ranges keeps what lies inside both windows,
whichever comes first.

A larger count of one unit starts earlier, or before the calendar begins.  In
the second case the window has no start and keeps everything.  The two limits on
the width of a count are never the ones that decide: a count beyond them is
beyond the calendar as well.
-/

namespace RuleBacktest
namespace HistoryRange

open Calendar

variable {β : Type} {time : β → Moment} {range other : HistoryRange}
  {records : List β}

/-! ## The second clip -/

theorem includes_latest
    (hback : range.ReachesBack)
    {times : List Moment} {latest : Moment}
    (hlatest : ∀ t ∈ times, t ≤ latest) :
    range.includes times latest = true := by
  unfold includes
  cases htimes : latest? times with
  | none => rfl
  | some last =>
      cases hstart : range.windowStart? last with
      | none => simp [hstart]
      | some start =>
          have hlast := hlatest last (latest?_mem htimes)
          have hinside : start ≤ latest :=
            Int.le_trans (windowStart?_le hback hstart) hlast
          simp only [hstart, Option.all_some, decide_eq_true_eq]
          exact hinside

theorem latest?_map_clip
    (hback : range.ReachesBack)
    (time : β → Moment) (records : List β) :
    latest? ((range.clip time records).map time) =
      latest? (records.map time) := by
  apply Option.ext
  intro latest
  simp only [latest?_eq_some_iff, List.mem_map]
  constructor
  · rintro ⟨⟨r, hr, rfl⟩, hlatest⟩
    refine ⟨⟨r, (mem_clip.mp hr).1, rfl⟩, ?_⟩
    rintro _ ⟨s, hs, rfl⟩
    by_cases hle : time r ≤ time s
    · exact hlatest _ ⟨s, mem_clip_of_le hr hs hle, rfl⟩
    · exact Int.le_of_lt (Int.not_le.mp hle)
  · rintro ⟨⟨r, hr, rfl⟩, hlatest⟩
    have hbound : ∀ s ∈ records, time s ≤ time r :=
      fun s hs => hlatest _ ⟨s, hs, rfl⟩
    refine ⟨⟨r, latest_mem_clip hback hr hbound, rfl⟩, ?_⟩
    rintro _ ⟨s, hs, rfl⟩
    exact hbound s (mem_clip.mp hs).1

theorem includes_map_clip
    (hback : range.ReachesBack)
    (other : HistoryRange) (time : β → Moment) (records : List β) :
    other.includes ((range.clip time records).map time) =
      other.includes (records.map time) := by
  funext t
  rw [includes, includes, latest?_map_clip hback]

theorem clip_clip_eq_filter
    (hback : range.ReachesBack)
    (other : HistoryRange) (time : β → Moment) (records : List β) :
    other.clip time (range.clip time records) = records.filter fun r =>
        range.includes (records.map time) (time r) &&
            other.includes (records.map time) (time r) := by
  rw [clip_eq_filter time (range.clip time records), includes_map_clip hback,
    clip_eq_filter, List.filter_filter]
  congr 1
  funext r
  exact Bool.and_comm _ _

theorem clip_clip
    (hback : range.ReachesBack)
    (time : β → Moment) (records : List β) :
    range.clip time (range.clip time records) = range.clip time records := by
  rw [clip_clip_eq_filter hback, clip_eq_filter]
  simp only [Bool.and_self]

theorem clip_comm
    (hback : range.ReachesBack)
    (hback' : other.ReachesBack)
    (time : β → Moment) (records : List β) :
    other.clip time (range.clip time records) =
      range.clip time (other.clip time records) := by
  rw [clip_clip_eq_filter hback, clip_clip_eq_filter hback']
  congr 1
  funext r
  exact Bool.and_comm _ _

/-! ## Wider windows -/

/-- Wherever one window has a start, the other one starts there or later. -/
def StartsNoLater (wide narrow : HistoryRange) : Prop :=
  ∀ latest start, wide.windowStart? latest = some start →
    ∃ later, narrow.windowStart? latest = some later ∧ start ≤ later

theorem clip_sublist_clip {wide narrow : HistoryRange}
    (h : wide.StartsNoLater narrow)
    (time : β → Moment) (records : List β) :
    (narrow.clip time records).Sublist (wide.clip time records) := by
  rw [clip_eq_filter, clip_eq_filter]
  apply List.monotone_filter_right
  intro r
  unfold includes
  cases latest? (records.map time) with
  | none => exact fun _ => rfl
  | some latest =>
      cases hstart : wide.windowStart? latest with
      | none => simp [hstart]
      | some start =>
          obtain ⟨later, hlater, hle⟩ := h latest start hstart
          simp only [hlater, hstart, Option.all_some, decide_eq_true_eq]
          exact Int.le_trans hle

theorem startsNoLater_days {n m : Nat} (hle : n ≤ m) :
    (days m).StartsNoLater (days n) := by
  intro latest start hstart
  simp only [windowStart?] at hstart ⊢
  split at hstart
  · cases hstart
  · rw [if_neg (by omega)]
    exact Moment.exists_daysBefore?_of_le hle hstart

theorem startsNoLater_months {n m : Nat} (hle : n ≤ m) :
    (months m).StartsNoLater (months n) := by
  intro latest start hstart
  exact Moment.exists_monthsBefore?_of_le hle hstart

theorem startsNoLater_years {n m : Nat} (hle : n ≤ m) :
    (years m).StartsNoLater (years n) := by
  intro latest start hstart
  simp only [windowStart?] at hstart ⊢
  split at hstart
  · cases hstart
  · rw [if_neg (by omega)]
    exact Moment.exists_monthsBefore?_of_le (Nat.mul_le_mul_left 12 hle) hstart

/-! ## Starts before the calendar -/

/-- The start of the window that ends at `latest` would lie before the first day
of the calendar. -/
def StartsBeforeCalendar : HistoryRange → Moment → Prop
  | .days n, latest =>
      latest.date.dayNumber + latest.clock.nextRegularSecond.2 - n <
        Date.daysBeforeYear firstYear
  | .months n, latest => latest.date.monthNumber - n < firstYear * 12
  | .years n, latest => latest.date.year - n < firstYear
  | .yearToDate, _ => False
  | .max, _ => False

theorem monthNumber_sub_lt_iff (d : Date) (n : Nat) :
    d.monthNumber - (12 * n : Nat) < firstYear * 12 ↔
      d.year - n < firstYear := by
  have hvalid := d.valid
  unfold Date.monthNumber
  omega

theorem startsBeforeCalendar_of_longestSpan_lt {n : Nat}
    (hlong : longestSpan < n)
    (latest : Moment) :
    (days n).StartsBeforeCalendar latest := by
  have hspan : longestSpan = 106751991167 := rfl
  have hfirst : Date.daysBeforeYear firstYear = -95745764 := by decide
  have hend : Date.daysBeforeYear (lastYear + 1) = 95745765 := by decide
  have hnumber := latest.date.dayNumber_mem
  have hcarry := Moment.nextRegularSecond_mem latest.clock
  unfold StartsBeforeCalendar
  omega

theorem startsBeforeCalendar_of_maxUnsigned32_lt {n : Nat}
    (hmany : Text.maxUnsigned32 < 12 * n)
    (latest : Moment) :
    (years n).StartsBeforeCalendar latest := by
  have hmost : Text.maxUnsigned32 = 4294967295 := rfl
  have hfirst : firstYear = -262143 := rfl
  have hlast : lastYear = 262142 := rfl
  have hvalid := latest.date.valid
  unfold StartsBeforeCalendar
  omega

theorem windowStart?_years (n : Nat) :
    (years n).windowStart? = (months (12 * n)).windowStart? := by
  funext latest
  simp only [windowStart?]
  split
  · next hmany =>
      symm
      rw [Moment.monthsBefore?_eq_none_iff, monthNumber_sub_lt_iff]
      exact startsBeforeCalendar_of_maxUnsigned32_lt hmany latest
  · rfl

theorem windowStart?_eq_none_iff (hback : range.ReachesBack) (latest : Moment) :
    range.windowStart? latest = none ↔
      range = max ∨ range.StartsBeforeCalendar latest := by
  cases range with
  | days n =>
      obtain ⟨k, rfl⟩ := Int.eq_ofNat_of_zero_le hback
      have hnone : (days (k : Int)).windowStart? latest = none ↔
          (days k).StartsBeforeCalendar latest := by
        simp only [windowStart?]
        split
        · next hlong =>
            exact iff_of_true rfl
              (startsBeforeCalendar_of_longestSpan_lt (by omega) latest)
        · exact Moment.daysBefore?_eq_none_iff
      simpa using hnone
  | months n =>
      have hnone : (months n).windowStart? latest = none ↔
          (months n).StartsBeforeCalendar latest :=
        Moment.monthsBefore?_eq_none_iff
      simpa using hnone
  | years n =>
      have hnone : (years n).windowStart? latest = none ↔
          (years n).StartsBeforeCalendar latest := by
        rw [windowStart?_years]
        exact Moment.monthsBefore?_eq_none_iff.trans
          (monthNumber_sub_lt_iff latest.date n)
      simpa using hnone
  | yearToDate =>
      obtain ⟨start, hstart⟩ := Moment.exists_startOfYear? latest
      simp [windowStart?, hstart, StartsBeforeCalendar]
  | max => simp [windowStart?]

theorem clip_of_unbounded {latest : Moment}
    (hlatest : latest? (records.map time) = some latest)
    (hstart : range.windowStart? latest = none) :
    range.clip time records = records := by
  simp [clip, hlatest, hstart]

theorem clip_congr
    (h : range.windowStart? = other.windowStart?)
    (time : β → Moment) (records : List β) :
    range.clip time records = other.clip time records := by
  unfold clip
  rw [h]

/-! ## The laws -/

/-- Clipping by a range that reads from a text keeps a part of the records in
their order, with all that are as late as the latest.  It can be repeated and
exchanged with another such clipping: both windows are those of the whole
history.  A larger count of a unit keeps more, years are twelve months each, and
a window has no start exactly when it would start before the calendar, which is
then as good as no limit. -/
theorem clip_obeys_laws (time : β → Moment) (records : List β)
    {text text' : String}
    (hrange : ofText text = .ok range)
    (hother : ofText text' = .ok other) :
    (range.clip time records).Sublist records ∧
      (∀ latest, (∀ r ∈ records, time r ≤ latest) →
        (range.clip time records).filter (fun r => time r = latest) =
          records.filter fun r => time r = latest) ∧
      range.clip time (range.clip time records) = range.clip time records ∧
      other.clip time (range.clip time records) = (records.filter fun r =>
        range.includes (records.map time) (time r) &&
          other.includes (records.map time) (time r)) ∧
      range.clip time (other.clip time records) =
        other.clip time (range.clip time records) ∧
      (∀ n m : Nat, n ≤ m →
        ((days n).clip time records).Sublist ((days m).clip time records) ∧
        ((months n).clip time records).Sublist ((months m).clip time records) ∧
        ((years n).clip time records).Sublist ((years m).clip time records)) ∧
      (∀ n, (years n).clip time records = (months (12 * n)).clip time records) ∧
      (∀ latest, latest? (records.map time) = some latest →
        (range.windowStart? latest = none ↔
            range = max ∨ range.StartsBeforeCalendar latest) ∧
          (range.StartsBeforeCalendar latest →
            range.clip time records = max.clip time records)) ∧
      (∀ n, Text.maxUnsigned32 < 12 * n →
        (years n).clip time records = max.clip time records) ∧
      max.clip time records = records := by
  have hback := reachesBack_of_ofText hrange
  have hback' := reachesBack_of_ofText hother
  refine ⟨?_, ?_, clip_clip hback time records,
    clip_clip_eq_filter hback other time records,
    clip_comm hback' hback time records, ?_, ?_, ?_, ?_, clip_max time records⟩
  · rw [clip_eq_filter]
    exact List.filter_sublist
  · intro latest hlatest
    have hinside : range.includes (records.map time) latest = true :=
      includes_latest hback (by simpa using hlatest)
    rw [clip_eq_filter, List.filter_filter]
    apply List.filter_congr
    intro r _
    by_cases htime : time r = latest
    · rw [htime, hinside, Bool.and_true]
    · simp [htime]
  · intro n m hle
    exact ⟨clip_sublist_clip (startsNoLater_days hle) time records,
      clip_sublist_clip (startsNoLater_months hle) time records,
      clip_sublist_clip (startsNoLater_years hle) time records⟩
  · intro n
    exact clip_congr (windowStart?_years n) time records
  · intro latest hlatest
    refine ⟨windowStart?_eq_none_iff hback latest, ?_⟩
    intro hbefore
    rw [clip_max]
    exact clip_of_unbounded hlatest
      ((windowStart?_eq_none_iff hback latest).mpr (Or.inr hbefore))
  · intro n hmany
    rw [clip_max]
    cases hlatest : latest? (records.map time) with
    | none => simp [clip, hlatest]
    | some latest =>
        apply clip_of_unbounded hlatest
        have hbefore := startsBeforeCalendar_of_maxUnsigned32_lt hmany latest
        have hback : (years n).ReachesBack := trivial
        exact (windowStart?_eq_none_iff hback latest).mpr (Or.inr hbefore)

/-- Two days around the end of a short month, and two in the month after it. -/
def aroundMonthEnd : List Moment :=
  [⟨{ year := 2019, month := 3, day := 31 }, .midnight⟩,
    ⟨{ year := 2019, month := 2, day := 27 }, .midnight⟩,
    ⟨{ year := 2019, month := 3, day := 2 }, .midnight⟩,
    ⟨{ year := 2019, month := 2, day := 28 }, .midnight⟩]

/-- A month before the end of March the window starts at the end of February.
Within the 29 days before it are the two days of March, whichever of the two
clippings comes first. -/
theorem clip_obeys_laws_aroundMonthEnd :
    ofText " 1MO " = .ok (.months 1) ∧ ofText "029d" = .ok (.days 29) ∧
      ((months 1).clip id aroundMonthEnd).length = 3 ∧
      (days 29).clip id ((months 1).clip id aroundMonthEnd) =
        [aroundMonthEnd[0], aroundMonthEnd[2]] ∧
      (months 1).clip id ((days 29).clip id aroundMonthEnd) =
        [aroundMonthEnd[0], aroundMonthEnd[2]] := by
  have hmonth : ofText " 1MO " = .ok (.months 1) := by
    decide +kernel
  have hdays : ofText "029d" = .ok (.days 29) := by
    decide +kernel
  have hkept : (days 29).clip id ((months 1).clip id aroundMonthEnd) =
      [aroundMonthEnd[0], aroundMonthEnd[2]] := by
    decide +kernel
  obtain ⟨-, -, -, -, hcomm, -⟩ :=
    clip_obeys_laws id aroundMonthEnd hmonth hdays
  refine ⟨hmonth, hdays, by decide +kernel, hkept, ?_⟩
  rw [hcomm, hkept]

end HistoryRange
end RuleBacktest
