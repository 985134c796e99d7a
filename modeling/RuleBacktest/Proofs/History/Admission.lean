import RuleBacktest.PriceSeries
import RuleBacktest.Proofs.Calendar.Order

/-!
# Admission of records

A record is complete when its four prices are there and finite, and only
complete records become bars. A complete record is left out only for a bar that
is at least as late, so a series has bars as soon as one of its records is
complete, and its last bar comes from the latest of these.
-/

namespace RuleBacktest

open Calendar

variable {α : Type} [Scalar α]

namespace PriceRecord

def IsComplete (r : PriceRecord α) : Prop :=
  ∀ price ∈ [r.opening, r.high, r.low, r.close], ∃ x, price = some x ∧
    Scalar.isFinite x = true

/-- A complete record that no complete record comes after. -/
def IsLatestComplete (records : List (PriceRecord α)) (last : PriceRecord α) :
    Prop :=
  last ∈ records ∧
    last.IsComplete ∧
    ∀ r ∈ records, r.IsComplete → r.time ≤ last.time

theorem isComplete_iff {r : PriceRecord α} :
    r.IsComplete ↔ ∃ b, Bar.ofRecord? r = some b := by
  have hprice : ∀ price : Option α,
      (∃ x, price = some x ∧ Scalar.isFinite x = true) ↔
      ∃ x, price.filter Scalar.isFinite = some x := by
    intro price
    simp only [Option.filter_eq_some_iff]
  simp only [IsComplete, List.forall_mem_cons, hprice]
  unfold Bar.ofRecord?
  split
  next o h l c ho hh hl hc => simp [ho, hh, hl, hc]
  next hmissing =>
    constructor
    · rintro ⟨⟨o, ho⟩, ⟨h, hh⟩, ⟨l, hl⟩, ⟨c, hc⟩, _⟩
      exact (hmissing o h l c ho hh hl hc).elim
    · rintro ⟨b, hb⟩
      cases hb

end PriceRecord

namespace Bar

theorem time_of_ofRecord? {r : PriceRecord α} {b : Bar α}
    (h : ofRecord? r = some b) :
    b.time = r.time := by
  unfold ofRecord? at h
  split at h
  · cases h
    rfl
  · cases h

end Bar

namespace PriceSeries

open PriceRecord

theorem all_lt_iff {last : Option Moment} {t' : Moment} :
    (last.all fun t => decide (t < t')) = true ↔ ∀ t ∈ last, t < t' := by
  cases last <;> simp

theorem accepted_sublist (last : Option Moment)
    (records : List (PriceRecord α)) :
    (accepted last records).Sublist (records.filterMap Bar.ofRecord?) := by
  induction records generalizing last with
  | nil => exact List.Sublist.refl []
  | cons r records ih =>
      simp only [accepted, List.filterMap_cons]
      cases Bar.ofRecord? r with
      | none => exact ih last
      | some b =>
          simp only
          split
          · exact (ih (some b.time)).cons_cons b
          · exact (ih last).cons b

/-- A bar is left out only for one that is at least as late: the last one before
or one that follows. -/
theorem exists_le_of_ofRecord? (last : Option Moment)
    {records : List (PriceRecord α)} {r : PriceRecord α} {c : Bar α}
    (hr : r ∈ records)
    (hc : Bar.ofRecord? r = some c) :
    (∃ t, last = some t ∧ c.time ≤ t) ∨
      ∃ b ∈ accepted last records, c.time ≤ b.time := by
  induction records generalizing last with
  | nil => cases hr
  | cons s records ih =>
      rcases List.mem_cons.mp hr with rfl | hr
      · simp only [accepted, hc]
        split
        next => exact Or.inr ⟨c, List.mem_cons_self, Int.le_refl _⟩
        next hlate =>
          cases last with
          | none => exact (hlate rfl).elim
          | some t =>
              rw [Option.all_some, decide_eq_true_eq] at hlate
              exact Or.inl ⟨t, rfl, Int.not_lt.mp hlate⟩
      · simp only [accepted]
        split
        next => exact ih last hr
        next b _ =>
          split
          next =>
            rcases ih (some b.time) hr with ⟨t, ht, hle⟩ | ⟨b', hb', hle⟩
            · cases ht
              exact Or.inr ⟨b, List.mem_cons_self, hle⟩
            · exact Or.inr ⟨b', List.mem_cons_of_mem b hb', hle⟩
          next => exact ih last hr

theorem lt_of_findSome?_filter_time {r : PriceRecord α}
    {records : List (PriceRecord α)}
    (hfirst : ∀ s ∈ records, r.time ≤ s.time)
    {b : Bar α}
    (htime : ¬ r.time = b.time)
    (hfound :
      (records.filter fun s => s.time = b.time).findSome?
        Bar.ofRecord? = some b) :
    r.time < b.time := by
  obtain ⟨s, hs, _⟩ := List.exists_of_findSome?_eq_some hfound
  obtain ⟨hmem, hsame⟩ := List.mem_filter.mp hs
  have hle : r.time.rank ≤ b.time.rank :=
    of_decide_eq_true hsame ▸ hfirst s hmem
  exact lt_of_le_of_ne hle fun h => htime (Moment.rank_injective h)

/-- Of records in the order of their times the first complete one of each time
is admitted. -/
theorem mem_accepted_iff {records : List (PriceRecord α)}
    (hsorted : records.Pairwise fun r s => r.time ≤ s.time)
    (last : Option Moment) {b : Bar α} :
    b ∈ accepted last records ↔
      (∀ t ∈ last, t < b.time) ∧
        (records.filter fun r => r.time = b.time).findSome?
          Bar.ofRecord? = some b := by
  induction records generalizing last with
  | nil => simp [accepted]
  | cons r records ih =>
      obtain ⟨hfirst, hrest⟩ := List.pairwise_cons.mp hsorted
      rw [accepted]
      cases hbar : Bar.ofRecord? r with
      | none =>
          rw [ih hrest]
          by_cases htime : r.time = b.time <;> simp [htime, hbar]
      | some c =>
          have hc : c.time = r.time := Bar.time_of_ofRecord? hbar
          have hlast : (last.all fun t => decide (t < c.time)) = true ↔
              ∀ t ∈ last, t < c.time :=
            all_lt_iff
          by_cases htime : r.time = b.time
          · -- The record has the time in question, so it is this bar or none
            -- that comes of it.
            have hlate : ¬ b.time < b.time := Int.lt_irrefl _
            have hsame : b = c ↔ c = b := eq_comm
            rw [htime] at hc
            rw [hc] at hlast
            simp only [hc]
            by_cases hall : ∀ t ∈ last, t < b.time
            · rw [if_pos (hlast.mpr hall), List.mem_cons, ih hrest,
                and_iff_right hall]
              simp [htime, hbar, hlate, hsame]
            · rw [if_neg (mt hlast.mp hall), ih hrest]
              simp only [hall, false_and]
          · have hother : b ≠ c := by
              rintro rfl
              exact htime hc.symm
            have hskip : (r :: records).filter (fun r => r.time = b.time) =
                records.filter fun r => r.time = b.time := by
              simp [htime]
            rw [hskip]
            simp only [hlast]
            split
            next hall =>
              rw [List.mem_cons, or_iff_right hother, ih hrest,
                and_congr_left_iff]
              intro hfound
              have hlt : c.time < b.time := by
                rw [hc]
                exact lt_of_findSome?_filter_time hfirst htime hfound
              constructor
              · intro _ t ht
                exact Int.lt_trans (hall t ht) hlt
              · rintro _ t ht
                cases ht
                exact hlt
            next => exact ih hrest last

variable {symbol : String} {records : List (PriceRecord α)}

theorem exists_record_of_mem_bars {b : Bar α}
    (hb : b ∈ (ofRecords symbol records).bars) :
    ∃ r ∈ records, Bar.ofRecord? r = some b := by
  have hcomplete : b ∈ records.filterMap Bar.ofRecord? :=
    (accepted_sublist none records).mem hb
  exact List.mem_filterMap.mp hcomplete

theorem exists_bar_of_mem_records {r : PriceRecord α} (hr : r ∈ records)
    (hcomplete : r.IsComplete) :
    ∃ b ∈ (ofRecords symbol records).bars, r.time ≤ b.time := by
  obtain ⟨c, hc⟩ := isComplete_iff.mp hcomplete
  rw [← Bar.time_of_ofRecord? hc]
  rcases exists_le_of_ofRecord? none hr hc with ⟨t, h, _⟩ | hlater
  · cases h
  · exact hlater

theorem bars_ofRecords_eq_nil_iff :
    (ofRecords symbol records).bars = [] ↔ ∀ r ∈ records, ¬ r.IsComplete := by
  rw [List.eq_nil_iff_forall_not_mem]
  constructor
  · intro hnone r hr hcomplete
    obtain ⟨b, hb, _⟩ := exists_bar_of_mem_records hr hcomplete
    exact hnone b hb
  · intro hnone b hb
    obtain ⟨r, hr, hbar⟩ := exists_record_of_mem_bars hb
    exact hnone r hr (isComplete_iff.mpr ⟨b, hbar⟩)

theorem time_le_getLast (series : PriceSeries α) {last b : Bar α}
    (hlast : series.bars.getLast? = some last)
    (hb : b ∈ series.bars) :
    b.time ≤ last.time := by
  obtain ⟨before, hbars⟩ := List.getLast?_eq_some_iff.mp hlast
  have hordered := series.ordered
  rw [hbars, List.pairwise_append] at hordered
  rw [hbars] at hb
  rcases List.mem_append.mp hb with hb | hb
  · exact Int.le_of_lt (hordered.2.2 b hb last (List.mem_singleton_self last))
  · rw [List.mem_singleton.mp hb]
    exact Int.le_refl _

/-- The last bar of a series comes from the latest complete record. -/
theorem exists_isLatestComplete {b : Bar α}
    (hlast : (ofRecords symbol records).bars.getLast? = some b) :
    ∃ r, IsLatestComplete records r ∧ Bar.ofRecord? r = some b := by
  obtain ⟨r, hr, hbar⟩ := exists_record_of_mem_bars (List.mem_of_getLast? hlast)
  refine ⟨r, ⟨hr, isComplete_iff.mpr ⟨b, hbar⟩, ?_⟩, hbar⟩
  intro s hs hcomplete
  obtain ⟨c, hc, hle⟩ := exists_bar_of_mem_records hs hcomplete
  rw [← Bar.time_of_ofRecord? hbar]
  exact Int.le_trans hle (time_le_getLast _ hlast hc)

end PriceSeries
end RuleBacktest
