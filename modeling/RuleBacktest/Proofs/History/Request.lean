import RuleBacktest.Proofs.History.Admission
import RuleBacktest.Proofs.History.Window
import RuleBacktest.Proofs.Trading.Validation

/-!
# Backtests over a window of the history

The window is measured from the latest record, complete or not, and only then
are the records in it admitted.  A request over rules that compile fails for
want of data exactly when nothing in its window is complete.  Otherwise its
curve ends at the latest complete record of the whole history, since a window
that holds a record holds every later one.  Where the latest record is itself
complete the window holds it; where it is not, a short window may hold nothing
that is.
-/

namespace RuleBacktest

open PriceRecord

theorem Performance.curve_getLast? {α : Type} {values : List α}
    {bars : List (Bar α)} {b : Bar α}
    (hlength : values.length = bars.length)
    (hlast : bars.getLast? = some b) :
    ∃ value, (curve values bars).getLast? =
      some ⟨(curve values bars).length, value, b.time.curveLabel⟩ := by
  obtain ⟨before, rfl⟩ := List.getLast?_eq_some_iff.mp hlast
  have hcount : values.length = before.length + 1 := by
    rw [hlength, List.length_append, List.length_singleton]
  obtain ⟨value, hvalue⟩ : ∃ value, values[before.length]? = some value :=
    ⟨_, List.getElem?_eq_getElem (by omega)⟩
  have hcurve : (curve values (before ++ [b])).length = before.length + 1 := by
    simp [curve, hcount]
  have hpair :
      (values.zip (before ++ [b]))[before.length]? = some (value, b) := by
    rw [List.getElem?_zip_eq_some]
    exact ⟨hvalue, by simp⟩
  refine ⟨value, ?_⟩
  rw [List.getLast?_eq_getElem?, hcurve, Nat.add_sub_cancel, curve,
    List.getElem?_map, List.getElem?_zipIdx, hpair]
  simp

/-- A source that has some records and keeps those in the range it is asked
for. -/
def PriceSource.clipping {α : Type} (records : List (PriceRecord α)) :
    PriceSource α :=
  fun _ range _ => .ok (range.clip PriceRecord.time records)

theorem PriceSource.clipping_eq_ok {α : Type} (records : List (PriceRecord α))
    (symbol interval : String) (range : HistoryRange) :
    PriceSource.clipping records symbol range interval =
      .ok (range.clip PriceRecord.time records) :=
  rfl

variable {α : Type} [Scalar α]

theorem runBacktest_of_bars {series : PriceSeries α}
    {entry exit : Option RulesConfig} {counts : Nat × Nat}
    (hrules : checkRules α entry exit = .ok counts)
    {b : Bar α}
    (hlast : series.bars.getLast? = some b)
    (settings : BacktestSettings α) :
    ∃ p value, runBacktest series entry exit settings = .ok p ∧
      p.equityCurve.getLast? =
        some ⟨p.equityCurve.length, value, b.time.curveLabel⟩ := by
  have hbars : series.bars ≠ [] := by
    intro hnone
    rw [hnone] at hlast
    cases hlast
  have hruns : ∃ p, runBacktest series entry exit settings = .ok p := by
    cases hrun : runBacktest series entry exit settings with
    | ok p => exact ⟨p, rfl⟩
    | error e =>
        obtain ⟨hnone, _⟩ := (runBacktest_eq_error_iff hrules).mp hrun
        exact (hbars hnone).elim
  obtain ⟨p, hrun⟩ := hruns
  have hrecord := hrun
  rw [runBacktest_eq_map_record] at hrecord
  obtain ⟨r, _, rfl⟩ := map_eq_ok.mp hrecord
  have hlength :
      (Performance.equityValues settings r (series.bars.map Bar.close)).length =
        series.bars.length := by
    rw [Performance.equityValues, length_sweep, List.length_map]
  obtain ⟨value, hpoint⟩ := Performance.curve_getLast? hlength hlast
  exact ⟨_, value, hrun, hpoint⟩

/-! ## The window of a request -/

namespace BacktestRequest

variable {request : BacktestRequest} {range : HistoryRange} {counts : Nat × Nat}
  {records : List (PriceRecord α)} {source : PriceSource α}

theorem run_clipped
    (hrange : HistoryRange.ofText request.range = .ok range)
    (hsource : source request.stockSymbol range request.interval =
      .ok (range.clip PriceRecord.time records))
    (settings : BacktestSettings α) :
    request.run source settings =
      runBacktest
        (.ofRecords request.stockSymbol (range.clip PriceRecord.time records))
        request.entry request.exit settings := by
  rw [run, hrange]
  simp only [bind, Except.bind, hsource]

/-- The latest complete record of a window that holds one is the latest of
all. -/
theorem isLatestComplete_of_clip {last : PriceRecord α}
    (h : IsLatestComplete (range.clip PriceRecord.time records) last) :
    IsLatestComplete records last := by
  obtain ⟨hlast, hcomplete, hlatest⟩ := h
  refine ⟨(HistoryRange.mem_clip.mp hlast).1, hcomplete, ?_⟩
  intro r hr hother
  by_cases hlater : last.time ≤ r.time
  · exact hlatest r (HistoryRange.mem_clip_of_le hlast hr hlater) hother
  · exact Int.le_of_lt (Int.not_le.mp hlater)

/-- A request over rules that compile and a source that keeps the records of its
window fails for want of data exactly when none of these is complete.  If one
is, the request gives a result whose curve ends at the latest complete record of
the whole history.  The window holds the latest record of the history, so it is
enough that this one is complete. -/
theorem run_endsAtLatestComplete
    (hrange : HistoryRange.ofText request.range = .ok range)
    (hrules : checkRules α request.entry request.exit = .ok counts)
    (hsource : source request.stockSymbol range request.interval =
      .ok (range.clip PriceRecord.time records))
    (settings : BacktestSettings α) :
    (request.run source settings = .error (.noData request.stockSymbol) ↔
        ∀ r ∈ range.clip PriceRecord.time records, ¬ r.IsComplete) ∧
      ((∃ r ∈ range.clip PriceRecord.time records, r.IsComplete) →
        ∃ p last value,
          request.run source settings = .ok p ∧
          IsLatestComplete records last ∧
          (PriceSeries.ofRecords request.stockSymbol
              (range.clip PriceRecord.time records)).bars.getLast? =
            Bar.ofRecord? last ∧
          p.equityCurve.getLast? =
            some ⟨p.equityCurve.length, value, last.time.curveLabel⟩) ∧
      ∀ latest ∈ records, (∀ r ∈ records, r.time ≤ latest.time) →
        latest ∈ range.clip PriceRecord.time records := by
  rw [run_clipped hrange hsource]
  refine ⟨?_, ?_, ?_⟩
  · rw [runBacktest_eq_error_iff hrules, PriceSeries.bars_ofRecords_eq_nil_iff]
    exact and_iff_left rfl
  · rintro ⟨r, hr, hcomplete⟩
    obtain ⟨b, hb, _⟩ := PriceSeries.exists_bar_of_mem_records hr hcomplete
    obtain ⟨b, hlast⟩ := Option.ne_none_iff_exists'.mp
      (mt List.getLast?_eq_none_iff.mp (List.ne_nil_of_mem hb))
    obtain ⟨last, hlatest, hbar⟩ := PriceSeries.exists_isLatestComplete hlast
    obtain ⟨p, value, hrun, hpoint⟩ := runBacktest_of_bars hrules hlast settings
    rw [Bar.time_of_ofRecord? hbar] at hpoint
    exact ⟨p, last, value, hrun, isLatestComplete_of_clip hlatest,
      hlast.trans hbar.symm, hpoint⟩
  · intro latest hmem hlatest
    exact HistoryRange.latest_mem_clip
      (HistoryRange.reachesBack_of_ofText hrange) hmem hlatest

end BacktestRequest

/-! ## An unfinished last record -/

namespace PriceRecord

def friday : PriceRecord Float :=
  ⟨⟨{ year := 2024, month := 3, day := 1 }, .midnight⟩, some 10, some 12,
    some 9, some 11, none, some 100⟩

/-- The record of the next day of trading, before it has prices. -/
def monday : PriceRecord Float :=
  ⟨⟨{ year := 2024, month := 3, day := 4 }, .midnight⟩, none, none, none, none,
    none, none⟩

theorem isComplete_friday : friday.IsComplete := by
  have hfinite : Scalar.isFinite (10 : Float) = true ∧
      Scalar.isFinite (12 : Float) = true ∧
      Scalar.isFinite (9 : Float) = true ∧
      Scalar.isFinite (11 : Float) = true := by
    decide
  simpa [IsComplete, friday] using hfinite

theorem not_isComplete_monday : ¬ monday.IsComplete := by
  simp [IsComplete, monday]

theorem clip_one_day :
    HistoryRange.clip (.days 1) PriceRecord.time
      [friday, monday] = [monday] := by
  decide +kernel

theorem clip_five_days :
    HistoryRange.clip (.days 5) PriceRecord.time [friday, monday] =
      [friday, monday] := by
  decide +kernel

end PriceRecord

namespace BacktestRequest

def withoutRules (range : String) : BacktestRequest :=
  ⟨"ACME", range, "1d", none, none⟩

theorem checkRules_withoutRules (range : String) :
    checkRules Float (withoutRules range).entry (withoutRules range).exit =
      .ok (0, 0) :=
  rfl

/-- The window of one day holds the unfinished record only, so the request fails
though there is a complete record to end at. -/
theorem run_noData_of_unfinished_latest :
    HistoryRange.ofText (withoutRules "1d").range = .ok (.days 1) ∧
      checkRules Float (withoutRules "1d").entry (withoutRules "1d").exit =
        .ok (0, 0) ∧
      (∃ r ∈ [friday, monday], r.IsComplete) ∧
      (withoutRules "1d").run (.clipping [friday, monday]) ⟨1000, 0, none⟩ =
        .error (.noData "ACME") := by
  have hrange :
      HistoryRange.ofText (withoutRules "1d").range = .ok (.days 1) := by
    decide +kernel
  have hrules := checkRules_withoutRules "1d"
  have hbars :
      (PriceSeries.ofRecords "ACME"
        (HistoryRange.clip (.days 1) PriceRecord.time
          [friday, monday])).bars = [] := by
    rw [clip_one_day, PriceSeries.bars_ofRecords_eq_nil_iff]
    simpa using not_isComplete_monday
  refine ⟨hrange, hrules, ⟨friday, List.mem_cons_self, isComplete_friday⟩, ?_⟩
  exact (run_eq_error_iff hrange hrules _ _ _).mpr
    (Or.inr ⟨_, PriceSource.clipping_eq_ok _ _ _ _, hbars, rfl⟩)

/-- A window of one day holds nothing complete, and one of five days reaches the
complete record, where the curve ends. -/
theorem run_endsAtLatestComplete_friday :
    (withoutRules "1d").run (.clipping [friday, monday]) ⟨1000, 0, none⟩ =
        .error (.noData "ACME") ∧
      ∃ p value,
        (withoutRules "5d").run (.clipping [friday, monday])
          ⟨1000, 0, none⟩ = .ok p ∧
        p.equityCurve.getLast? =
          some ⟨p.equityCurve.length, value, "MAR 1"⟩ := by
  have hday :
      HistoryRange.ofText (withoutRules "1d").range = .ok (.days 1) := by
    decide +kernel
  have hdays :
      HistoryRange.ofText (withoutRules "5d").range = .ok (.days 5) := by
    decide +kernel
  constructor
  · have hends := run_endsAtLatestComplete hday (checkRules_withoutRules "1d")
      (PriceSource.clipping_eq_ok [friday, monday] _ _ _) ⟨1000, 0, none⟩
    apply hends.1.mpr
    rw [clip_one_day]
    simpa using not_isComplete_monday
  · have hends := run_endsAtLatestComplete hdays (checkRules_withoutRules "5d")
      (PriceSource.clipping_eq_ok [friday, monday] _ _ _) ⟨1000, 0, none⟩
    have hcomplete :
        ∃ r ∈ HistoryRange.clip (.days 5) PriceRecord.time [friday, monday],
          r.IsComplete := by
      rw [clip_five_days]
      exact ⟨friday, List.mem_cons_self, isComplete_friday⟩
    obtain ⟨p, last, value, hrun, ⟨hmem, hlast, _⟩, _, hpoint⟩ :=
      hends.2.1 hcomplete
    have hfriday : last = friday := by
      simp only [List.mem_cons, List.not_mem_nil, or_false] at hmem
      rcases hmem with h | h
      · exact h
      · rw [h] at hlast
        exact (not_isComplete_monday hlast).elim
    have hlabel : last.time.curveLabel = "MAR 1" := by
      rw [hfriday]
      decide +kernel
    rw [hlabel] at hpoint
    exact ⟨p, value, hrun, hpoint⟩

end BacktestRequest
end RuleBacktest
