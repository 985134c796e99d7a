import RuleBacktest.Proofs.History.Admission

/-!
# Admission of running maxima

A record is compared with the last bar admitted and with nothing else.  That bar
is at least as late as every complete record before it, admitted or left out, so
those admitted are the complete records that come after all complete ones before
them.  The bars of a series come after each other, and made into records they
are all admitted again.
-/

namespace RuleBacktest

open Calendar

variable {α : Type} [Scalar α]

/-- A bar has the time and the prices of its record, and the volume where that
is finite. -/
structure Bar.Copies (b : Bar α) (r : PriceRecord α) : Prop where
  time : b.time = r.time
  opening : r.opening = some b.opening
  high : r.high = some b.high
  low : r.low = some b.low
  close : r.close = some b.close
  volume : ∀ v, b.volume = some v ↔ r.volume = some v ∧ Scalar.isFinite v = true

theorem Bar.copies_of_ofRecord? {r : PriceRecord α} {b : Bar α}
    (h : ofRecord? r = some b) :
    b.Copies r := by
  unfold ofRecord? at h
  split at h
  next o hi l c ho hh hl hc =>
    rw [Option.filter_eq_some_iff] at ho hh hl hc
    cases h
    exact ⟨rfl, ho.1, hh.1, hl.1, hc.1, fun v => Option.filter_eq_some_iff⟩
  next => cases h

theorem Bar.ofRecord?_toRecord {b : Bar α} (h : b.isFinite = true) :
    ofRecord? b.toRecord = some b := by
  simp only [isFinite, Bool.and_eq_true] at h
  obtain ⟨⟨⟨⟨hopening, hhigh⟩, hlow⟩, hclose⟩, hvolume⟩ := h
  have hkept : b.volume.filter Scalar.isFinite = b.volume := by
    cases hv : b.volume with
    | none => rfl
    | some v =>
        rw [hv] at hvolume
        exact Option.filter_eq_some_iff.mpr ⟨rfl, hvolume⟩
  simp [ofRecord?, toRecord, Option.filter_some, hopening, hhigh, hlow, hclose,
    hkept]

namespace PriceRecord

variable {last last' : Option Moment} {r : PriceRecord α}
  {records : List (PriceRecord α)} {place : Nat}

/-- A complete record later than every complete record before it. -/
def IsRunningMaximum (records : List (PriceRecord α)) (place : Nat) : Prop :=
  ∃ r,
    records[place]? = some r ∧
    r.IsComplete ∧
    ∀ earlier s,
      earlier < place →
      records[earlier]? = some s →
      s.IsComplete →
      s.time < r.time

/-- A running maximum that is also later than a moment given beforehand. -/
def IsRunningMaximumFrom (last : Option Moment) (records : List (PriceRecord α))
    (place : Nat) : Prop :=
  ∃ r,
    records[place]? = some r ∧
    r.IsComplete ∧
    (∀ t ∈ last, t < r.time) ∧
    ∀ earlier s,
      earlier < place →
      records[earlier]? = some s →
      s.IsComplete →
      s.time < r.time

theorem isRunningMaximumFrom_none_iff :
    IsRunningMaximumFrom none records place ↔
      IsRunningMaximum records place := by
  simp [IsRunningMaximumFrom, IsRunningMaximum]

theorem isRunningMaximumFrom_zero_iff :
    IsRunningMaximumFrom last (r :: records) 0 ↔
      r.IsComplete ∧ ∀ t ∈ last, t < r.time := by
  simp [IsRunningMaximumFrom]

/-- Behind a record another moment has to be passed, which stands for the one
before and the record. -/
theorem isRunningMaximumFrom_succ_iff
    (hlast : ∀ t', (∀ t ∈ last', t < t') ↔
      (∀ t ∈ last, t < t') ∧ (r.IsComplete → r.time < t')) :
    IsRunningMaximumFrom last (r :: records) (place + 1) ↔
      IsRunningMaximumFrom last' records place := by
  unfold IsRunningMaximumFrom
  refine exists_congr fun s =>
    and_congr_right fun _ => and_congr_right fun _ => ?_
  rw [hlast, and_assoc, and_congr_right_iff]
  intro _
  constructor
  · intro h
    exact ⟨h 0 r place.succ_pos rfl,
      fun earlier s' hlt => h (earlier + 1) s' (Nat.succ_lt_succ hlt)⟩
  · rintro ⟨hfirst, hrest⟩ earlier s' hlt hs'
    cases earlier with
    | zero =>
        cases hs'
        exact hfirst
    | succ earlier => exact hrest earlier s' (Nat.lt_of_succ_lt_succ hlt) hs'

/-- The bars are those of the records at some places, which are the running
maxima in their order. -/
structure Admission (last : Option Moment) (records : List (PriceRecord α))
    (places : List Nat) (bars : List (Bar α)) : Prop where
  ordered : places.Pairwise (· < ·)
  mem_iff : ∀ place, place ∈ places ↔ IsRunningMaximumFrom last records place
  copies : List.Forall₂
    (fun place b => ∃ r, records[place]? = some r ∧ b.Copies r) places bars

namespace Admission

variable {places : List Nat} {bars : List (Bar α)}
  (h : Admission last' records places bars)
  (hlast : ∀ t', (∀ t ∈ last', t < t') ↔
    (∀ t ∈ last, t < t') ∧ (r.IsComplete → r.time < t'))
include h hlast

theorem leaveOut (hzero : ¬ IsRunningMaximumFrom last (r :: records) 0) :
    Admission last (r :: records) (places.map (· + 1)) bars where
  ordered := h.ordered.map _ fun _ _ => Nat.succ_lt_succ
  mem_iff place := by
    cases place with
    | zero => simpa using hzero
    | succ place => simp [h.mem_iff, isRunningMaximumFrom_succ_iff hlast]
  copies := List.forall₂_map_left_iff.mpr h.copies

theorem takeIn (hzero : IsRunningMaximumFrom last (r :: records) 0) {b : Bar α}
    (hb : b.Copies r) :
    Admission last (r :: records) (0 :: places.map (· + 1)) (b :: bars) where
  ordered :=
    List.pairwise_cons.mpr
      ⟨by simp, h.ordered.map _ fun _ _ => Nat.succ_lt_succ⟩
  mem_iff place := by
    cases place with
    | zero => simpa using hzero
    | succ place => simp [h.mem_iff, isRunningMaximumFrom_succ_iff hlast]
  copies := .cons ⟨r, rfl, hb⟩ (List.forall₂_map_left_iff.mpr h.copies)

end Admission

end PriceRecord

namespace PriceSeries

open PriceRecord

theorem exists_admission (last : Option Moment)
    (records : List (PriceRecord α)) :
    ∃ places, Admission last records places (accepted last records) := by
  induction records generalizing last with
  | nil =>
      exact ⟨[], List.Pairwise.nil, by simp [IsRunningMaximumFrom],
        List.Forall₂.nil⟩
  | cons r records ih =>
      rw [accepted]
      cases hbar : Bar.ofRecord? r with
      | none =>
          have hincomplete : ¬ r.IsComplete := by
            rw [isComplete_iff, hbar]
            simp
          obtain ⟨places, h⟩ := ih last
          refine ⟨_, h.leaveOut (fun t' => by simp [hincomplete]) ?_⟩
          rw [isRunningMaximumFrom_zero_iff]
          exact fun hzero => hincomplete hzero.1
      | some b =>
          have hcomplete : r.IsComplete := isComplete_iff.mpr ⟨b, hbar⟩
          have htime := Bar.time_of_ofRecord? hbar
          simp only [htime]
          split
          next hlate =>
            -- From here on the record alone is to be passed.
            have hpassed : ∀ t ∈ last, t < r.time := all_lt_iff.mp hlate
            obtain ⟨places, h⟩ := ih (some r.time)
            refine ⟨_,
              h.takeIn (fun t' => ?_) ?_ (Bar.copies_of_ofRecord? hbar)⟩
            · simp only [Option.mem_some_iff, forall_eq', hcomplete,
                forall_const]
              exact ⟨fun hlt =>
                  ⟨fun t ht => Int.lt_trans (hpassed t ht) hlt, hlt⟩, And.right⟩
            · exact isRunningMaximumFrom_zero_iff.mpr ⟨hcomplete, hpassed⟩
          next hearly =>
            -- What is later than the last bar is later than this record too.
            rw [all_lt_iff] at hearly
            push Not at hearly
            obtain ⟨t, ht, hle⟩ := hearly
            obtain ⟨places, h⟩ := ih last
            refine ⟨_, h.leaveOut (fun t' => ?_) ?_⟩
            · exact ⟨fun hlt =>
                  ⟨hlt,
                    fun _ => Int.lt_of_le_of_lt (Int.not_lt.mp hle) (hlt t ht)⟩,
                And.left⟩
            · rw [isRunningMaximumFrom_zero_iff]
              exact fun hzero => hle (hzero.2 t ht)

/-! ## Series of bars -/

theorem accepted_toRecord {last : Option Moment} {bars : List (Bar α)}
    (hordered : bars.Pairwise fun a b => a.time < b.time)
    (hfinite : ∀ b ∈ bars, b.isFinite = true)
    (hlast : ∀ t ∈ last, ∀ b ∈ bars, t < b.time) :
    accepted last (bars.map Bar.toRecord) = bars := by
  induction bars generalizing last with
  | nil => rfl
  | cons b bars ih =>
      obtain ⟨hlater, hrest⟩ := List.pairwise_cons.mp hordered
      obtain ⟨hbar, hbars⟩ := List.forall_mem_cons.mp hfinite
      have hlate : last.all (fun t => decide (t < b.time)) = true := by
        cases last with
        | none => rfl
        | some t => exact decide_eq_true (hlast t rfl b List.mem_cons_self)
      rw [List.map_cons, accepted, Bar.ofRecord?_toRecord hbar]
      simp only [hlate, if_true]
      rw [ih hrest hbars]
      intro t ht
      cases ht
      exact hlater

theorem ofBars_bars (series : PriceSeries α) :
    ofBars series.symbol series.bars = series := by
  obtain ⟨symbol, bars, hordered, hfinite⟩ := series
  have hbars : accepted none (bars.map Bar.toRecord) = bars :=
    accepted_toRecord hordered hfinite (by simp)
  simp only [ofBars, ofRecords, hbars]

/-- The bars of a series are made of the records at certain places: those of the
complete records that are later than every complete one before them.  They stand
in the order of the records and of time, and a series made of its own bars is
the same. -/
theorem ofRecords_admits_running_maxima (symbol : String)
    (records : List (PriceRecord α)) :
    (∃ places : List Nat,
        places.Pairwise (· < ·) ∧
        (∀ place, place ∈ places ↔ IsRunningMaximum records place) ∧
        List.Forall₂ (fun place b => ∃ r, records[place]? = some r ∧ b.Copies r)
          places (ofRecords symbol records).bars) ∧
      (ofRecords symbol records).bars.Pairwise (fun a b => a.time < b.time) ∧
      ∀ series : PriceSeries α, ofBars series.symbol series.bars = series := by
  obtain ⟨places, h⟩ := exists_admission none records
  refine ⟨⟨places, h.ordered, ?_, h.copies⟩, (ofRecords symbol records).ordered,
    ofBars_bars⟩
  intro place
  rw [h.mem_iff, isRunningMaximumFrom_none_iff]

end PriceSeries

end RuleBacktest
