import RuleBacktest.PriceFile.Source
import RuleBacktest.Proofs.History.Admission
import RuleBacktest.Proofs.Scalar.Binary64
import RuleBacktest.Proofs.Store.Prices

/-!
# Order of the rows of a price file

A series takes from a price file, for each time inside the window, the first
complete row with that time.  Sorting the rows keeps those of one time in their
order, so only this order counts: files whose rows have different times may list
them in any order, and a store that holds the same rows serves the same series,
but for the signs of zeros.
-/

namespace RuleBacktest

open Calendar Scalar

/-! ## Records in the order of their times -/

namespace PriceRecord

variable {α : Type} {rs rs' : List (PriceRecord α)}

def inOrder (rs : List (PriceRecord α)) : List (PriceRecord α) :=
  rs.mergeSort fun a b => decide (a.time ≤ b.time)

/-- Both lists have the same records of each time, in the same order. -/
def SameAtEachTime (rs rs' : List (PriceRecord α)) : Prop :=
  ∀ t, rs.filter (fun r => r.time = t) = rs'.filter fun r => r.time = t

theorem sortsBy_time :
    SortsBy (fun a b : PriceRecord α => decide (a.time ≤ b.time)) time :=
  SortsBy.of_rank Moment.rank_injective time

theorem perm_inOrder (rs : List (PriceRecord α)) : (inOrder rs).Perm rs :=
  List.mergeSort_perm rs _

theorem pairwise_inOrder (rs : List (PriceRecord α)) :
    (inOrder rs).Pairwise fun r s => r.time ≤ s.time := by
  have hsorted := sortsBy_time.pairwise_mergeSort rs
  exact hsorted.imp of_decide_eq_true

theorem SameAtEachTime.inOrder_eq (h : SameAtEachTime rs rs') :
    inOrder rs = inOrder rs' :=
  sortsBy_time.mergeSort_congr h

theorem sameAtEachTime_of_perm
    (hperm : rs.Perm rs')
    (hdistinct : (rs.map time).Nodup) :
    SameAtEachTime rs rs' :=
  filter_key_eq_of_perm hperm hdistinct

theorem mem_map_time_inOrder (rs : List (PriceRecord α)) (t : Moment) :
    t ∈ (inOrder rs).map time ↔ t ∈ rs.map time := by
  have hperm := (perm_inOrder rs).map time
  exact hperm.mem_iff

end PriceRecord

/-! ## The series of a window -/

namespace PriceSeries

open PriceRecord

variable {α : Type} [Scalar α]

/-- For each time inside the window the first complete record of that time is a
bar. -/
theorem mem_bars_clip_inOrder (symbol : String) (range : HistoryRange)
    (rs : List (PriceRecord α)) {b : Bar α} :
    b ∈ (ofRecords symbol (range.clip time (inOrder rs))).bars ↔
      range.includes (rs.map time) b.time = true ∧
        (rs.filter fun r => r.time = b.time).findSome?
          Bar.ofRecord? = some b := by
  have hincludes : range.includes ((inOrder rs).map time) =
      range.includes (rs.map time) :=
    HistoryRange.includes_congr (mem_map_time_inOrder rs)
  have hwindow : range.clip time (inOrder rs) =
      (inOrder rs).filter fun r => range.includes (rs.map time) r.time := by
    rw [HistoryRange.clip_eq_filter, hincludes]
  have hsorted : (range.clip time (inOrder rs)).Pairwise fun r s =>
    r.time ≤ s.time := by
    rw [hwindow]
    exact (pairwise_inOrder rs).filter _
  have hofTime : (range.clip time (inOrder rs)).filter
      (fun r => r.time = b.time) =
    if range.includes (rs.map time) b.time = true then
      rs.filter fun r => r.time = b.time
      else [] := by
    rw [hwindow, List.filter_filter, ← sortsBy_time.filter_mergeSort rs b.time]
    by_cases hinside : range.includes (rs.map time) b.time = true
    · rw [if_pos hinside]
      apply List.filter_congr
      intro r _
      by_cases htime : r.time = b.time
      · simp [htime, hinside]
      · simp [htime]
    · rw [if_neg hinside]
      apply List.filter_eq_nil_iff.mpr
      intro r _
      by_cases htime : r.time = b.time
      · simp [htime, hinside]
      · simp [htime]
  have hbars : (ofRecords symbol (range.clip time (inOrder rs))).bars =
      accepted none (range.clip time (inOrder rs)) :=
    rfl
  rw [hbars, mem_accepted_iff hsorted, hofTime]
  by_cases hinside : range.includes (rs.map time) b.time = true
  · simp [hinside]
  · simp [hinside]

end PriceSeries

/-! ## Bars of records that a store has kept -/

/-- A number without the sign that a zero may have. -/
def Binary64.unsignedZero (x : Float) : Float :=
  if same x 0 then 0 else x

namespace Bar

open Binary64

def unsignedZeros (b : Bar Float) : Bar Float :=
  ⟨b.time, unsignedZero b.opening, unsignedZero b.high, unsignedZero b.low,
    unsignedZero b.close, b.volume.map unsignedZero⟩

theorem filter_isFinite_storedValue? (x : Option Float) :
    (x.bind storedValue?).filter Scalar.isFinite =
      (x.filter Scalar.isFinite).map unsignedZero := by
  have hzero : Scalar.isFinite (0 : Float) = true := by
    decide
  cases x with
  | none => rfl
  | some x =>
      rw [Option.bind_some, storedValue?]
      by_cases hfinite : Scalar.isFinite x = true
      · rw [if_pos (le_refl_of_isFinite hfinite)]
        by_cases hsame : same x 0 = true
        · simp [Option.filter_some, hsame, hfinite, hzero, unsignedZero]
        · simp [Option.filter_some, hsame, hfinite, unsignedZero]
      · have hother : same x 0 = false := by
          by_contra hsame
          exact hfinite (isFinite_of_same (by simpa using hsame) hzero)
        rw [hother]
        split <;> simp [Option.filter_some, hfinite]

theorem ofRecord?_kept (r : PriceRecord Float)
    (hwhole : r.time.wholeSeconds = r.time) :
    ofRecord? r.kept = (ofRecord? r).map unsignedZeros := by
  simp only [ofRecord?, PriceRecord.kept, filter_isFinite_storedValue?, hwhole]
  cases r.opening.filter Scalar.isFinite <;>
    cases r.high.filter Scalar.isFinite <;>
    cases r.low.filter Scalar.isFinite <;>
    cases r.close.filter Scalar.isFinite <;>
    rfl

end Bar

namespace PriceSeries

theorem accepted_map_kept (last : Option Moment) {rs : List (PriceRecord Float)}
    (hwhole : ∀ r ∈ rs, r.time.wholeSeconds = r.time) :
    accepted last (rs.map PriceRecord.kept) =
      (accepted last rs).map Bar.unsignedZeros := by
  induction rs generalizing last with
  | nil => rfl
  | cons r rs ih =>
      have hrest : ∀ last, accepted last (rs.map PriceRecord.kept) =
          (accepted last rs).map Bar.unsignedZeros :=
        fun last => ih last fun r' hr' => hwhole r' (List.mem_cons_of_mem r hr')
      rw [List.map_cons, accepted, accepted,
        Bar.ofRecord?_kept r (hwhole r List.mem_cons_self)]
      cases Bar.ofRecord? r with
      | none => exact hrest last
      | some b =>
          have htime : b.unsignedZeros.time = b.time := rfl
          simp only [Option.map_some, htime, hrest]
          split <;> rfl

end PriceSeries

/-! ## Files with the same rows -/

namespace PriceFile

open PriceRecord PriceSeries

variable {read : String → Except FileFault String}
  {directory symbol interval content : String} {rs : List (PriceRecord Float)}

theorem source_of_unsorted
    (hfile : read (path directory symbol interval) = .ok content)
    (hrows : unsorted content = .ok rs)
    (range : HistoryRange) :
    source read directory symbol range interval =
      .ok (range.clip PriceRecord.time (inOrder rs)) := by
  rw [source, hfile, history, records, hrows]
  rfl

theorem exists_unsorted_of_perm {content' : String}
    (hrows : unsorted content = .ok rs)
    (hheader : (rows content').head? = (rows content).head?)
    (hbody : (rows content).tail.Perm (rows content').tail) :
    ∃ rs', unsorted content' = .ok rs' ∧ rs.Perm rs' := by
  simp only [unsorted, hheader] at hrows ⊢
  cases hdate : column? ((rows content).head?.getD []) "date" with
  | none =>
      simp only [hdate] at hrows
      cases hrows
  | some dateColumn =>
      simp only [hdate] at hrows ⊢
      exact exists_mapM_of_perm hbody hrows

/-- A store with the records of a file serves them in the order of their
times. -/
theorem source_insertBatches {batches : List (PriceBatch Float)}
    (hplain : ∀ b ∈ batches, b.HasPlainYears)
    (hdistinct : (rs.map PriceRecord.time).Nodup)
    (hwhole : ∀ r ∈ rs, r.time.wholeSeconds = r.time)
    (hwritten : (written symbol interval batches).Perm rs)
    (range : HistoryRange) :
    ((Store.empty : Store Float).insertBatches batches).source symbol
        range interval =
      .ok ((range.clip PriceRecord.time (inOrder rs)).map kept) := by
  have hsecond : ∀ r ∈ written symbol interval batches, r.second = r.time :=
    fun r hr => hwhole r (hwritten.mem_iff.mp hr)
  have htimes : (written symbol interval batches).map second =
      (written symbol interval batches).map PriceRecord.time :=
    List.map_congr_left hsecond
  have hdistinct' : ((written symbol interval batches).map second).Nodup := by
    rw [htimes]
    exact (hwritten.map _).nodup_iff.mpr hdistinct
  have hsorted : ((written symbol interval batches).mergeSort notAfter).Pairwise
      fun r r' => decide (r.time ≤ r'.time) = true := by
    apply (sortsBy_notAfter.pairwise_mergeSort _).imp_of_mem
    intro r r' hr hr' hle
    rw [notAfter, hsecond r (List.mem_mergeSort.mp hr),
      hsecond r' (List.mem_mergeSort.mp hr')] at hle
    exact hle
  have hinOrder :
      (written symbol interval batches).mergeSort notAfter = inOrder rs := by
    apply sortsBy_time.eq_of_filter_eq hsorted
      (sortsBy_time.pairwise_mergeSort rs)
    have hperm :=
      (List.mergeSort_perm (written symbol interval batches) notAfter).trans
        (hwritten.trans (perm_inOrder rs).symm)
    exact filter_key_eq_of_perm hperm ((hperm.map _).nodup_iff.mpr
      (((perm_inOrder rs).map _).nodup_iff.mpr hdistinct))
  have hnone : (Store.empty : Store Float).prices = [] := rfl
  have hserved : Store.lastWrites symbol interval batches =
      (inOrder rs).map kept := by
    rw [Store.lastWrites, lastOfEach_eq_self second hdistinct', hinOrder]
  rw [Store.source, Store.history_insertBatches hnone hplain, hserved]
  apply congrArg Except.ok
  apply HistoryRange.clip_map
  intro r hr
  exact hwhole r ((perm_inOrder rs).mem_iff.mp hr)

theorem run_congr {read' : String → Except FileFault String}
    (h : ∀ range, source read' directory symbol range interval =
      source read directory symbol range interval)
    {request : BacktestRequest}
    (hsymbol : request.stockSymbol = symbol)
    (hinterval : request.interval = interval)
    (settings : BacktestSettings Float) :
    request.run (source read' directory) settings =
      request.run (source read directory) settings := by
  unfold BacktestRequest.run
  simp only [hsymbol, hinterval, h]

/-- The bars of a file are the first complete rows of each time inside the
window.  The order of its rows counts only among rows of one time, and a store
that holds the same rows serves the same bars, up to the sign of a zero. -/
theorem bars_independent_of_row_order
    (hfile : read (path directory symbol interval) = .ok content)
    (hrows : unsorted content = .ok rs)
    (range : HistoryRange) :
    ∃ records,
      source read directory symbol range interval = .ok records ∧
      ((ofRecords symbol records).bars.Pairwise fun a b => a.time < b.time) ∧
      (∀ b, b ∈ (ofRecords symbol records).bars ↔
        range.includes (rs.map PriceRecord.time) b.time = true ∧
          (rs.filter fun r => r.time = b.time).findSome?
            Bar.ofRecord? = some b) ∧
      (∀ content',
        (rows content').head? = (rows content).head? →
        (rows content).tail.Perm (rows content').tail →
        (rs.map PriceRecord.time).Nodup →
        ∃ rs', unsorted content' = .ok rs' ∧ SameAtEachTime rs rs') ∧
      (∀ read' content' rs',
        read' (path directory symbol interval) = .ok content' →
        unsorted content' = .ok rs' →
        SameAtEachTime rs rs' →
        source read' directory symbol range interval = .ok records ∧
          ∀ (request : BacktestRequest) settings,
            request.stockSymbol = symbol →
            request.interval = interval →
            request.run (source read' directory) settings =
              request.run (source read directory) settings) ∧
      ∀ batches,
        (∀ b ∈ batches, b.HasPlainYears) →
        (rs.map PriceRecord.time).Nodup →
        (∀ r ∈ rs, r.time.wholeSeconds = r.time) →
        (written symbol interval batches).Perm rs →
        ∃ stored,
          (Store.empty.insertBatches batches).source symbol range interval =
            .ok stored ∧
          (ofRecords symbol stored).bars =
            (ofRecords symbol records).bars.map Bar.unsignedZeros := by
  have hsource := source_of_unsorted hfile hrows
  refine ⟨range.clip PriceRecord.time (inOrder rs), hsource range,
    (ofRecords symbol _).ordered,
    fun b => mem_bars_clip_inOrder symbol range rs, ?_, ?_, ?_⟩
  · intro content' hheader hbody hdistinct
    obtain ⟨rs', hrows', hperm⟩ := exists_unsorted_of_perm hrows hheader hbody
    exact ⟨rs', hrows', sameAtEachTime_of_perm hperm hdistinct⟩
  · intro read' content' rs' hfile' hrows' hsame
    have hsource' : ∀ range, source read' directory symbol range interval =
        source read directory symbol range interval := by
      intro range
      rw [source_of_unsorted hfile' hrows', hsource, hsame.inOrder_eq]
    refine ⟨(hsource' range).trans (hsource range), ?_⟩
    intro request settings hsymbol hinterval
    exact run_congr hsource' hsymbol hinterval settings
  · intro batches hplain hdistinct hwhole hwritten
    refine ⟨_, source_insertBatches hplain hdistinct hwhole hwritten range, ?_⟩
    apply accepted_map_kept
    intro r hr
    exact hwhole r
      ((perm_inOrder rs).mem_iff.mp (HistoryRange.mem_clip.mp hr).1)

/-! ## Files of two days and of one -/

/-- Every file reads as this text. -/
def alwaysReading (content : String) : String → Except FileFault String :=
  fun _ => .ok content

def firstDay : PriceRecord Float :=
  ⟨⟨{ year := 2024, month := 5, day := 6 }, .midnight⟩, some 1, some 2, some 1,
    some 2, none, none⟩

def secondDay : PriceRecord Float :=
  ⟨⟨{ year := 2024, month := 5, day := 7 }, .midnight⟩, some 2, some 3, some 2,
    some 3, none, none⟩

def rising : String :=
  "date,open,high,low,close\n2024-05-06,1,2,1,2\n2024-05-07,2,3,2,3\n"

def risingBackwards : String :=
  "date,open,high,low,close\n2024-05-07,2,3,2,3\n2024-05-06,1,2,1,2\n"

theorem unsorted_eq_ok {content : String} {rs : List (PriceRecord Float)}
    (h : (unsorted content).toOption = some rs) :
    unsorted content = .ok rs := by
  cases hread : unsorted content with
  | error e =>
      rw [hread] at h
      cases h
  | ok rs' =>
      rw [hread] at h
      cases h
      rfl

theorem unsorted_rising : unsorted rising = .ok [firstDay, secondDay] :=
  unsorted_eq_ok (by decide +kernel)

/-- A file of two days with the later day first. -/
theorem bars_independent_of_row_order_rising :
    (∃ records,
        source (alwaysReading rising) "data" "ACME" .max "1d" = .ok records ∧
        source (alwaysReading risingBackwards) "data" "ACME" .max "1d" =
          .ok records ∧
        ∀ b, b ∈ (ofRecords "ACME" records).bars ↔
          ([firstDay, secondDay].filter fun r => r.time = b.time).findSome?
            Bar.ofRecord? = some b) ∧
      ∃ stored,
        (Store.empty.insertBatches
            [⟨"ACME", "1d", [secondDay, firstDay]⟩]).source "ACME" .max "1d" =
          .ok stored ∧
        ∃ records,
          source (alwaysReading rising) "data" "ACME" .max "1d" = .ok records ∧
          (ofRecords "ACME" stored).bars =
            (ofRecords "ACME" records).bars.map Bar.unsignedZeros := by
  have hfile : ∀ content,
      alwaysReading content (path "data" "ACME" "1d") = .ok content :=
    fun _ => rfl
  have hdistinct : ([firstDay, secondDay].map PriceRecord.time).Nodup := by
    decide
  obtain ⟨records, hrecords, _, hbars, hperm, hsame, hstored⟩ :=
    bars_independent_of_row_order (hfile rising) unsorted_rising .max
  obtain ⟨rs', hrows', hagree⟩ :=
    hperm risingBackwards (by decide +kernel) (by decide +kernel) hdistinct
  obtain ⟨hrecords', _⟩ := hsame _ _ rs' (hfile risingBackwards) hrows' hagree
  obtain ⟨stored, hsource, hzeros⟩ :=
    hstored [⟨"ACME", "1d", [secondDay, firstDay]⟩]
      (by simp [PriceBatch.HasPlainYears, Moment.HasPlainYear, firstDay,
        secondDay]) hdistinct (by decide) (List.Perm.swap firstDay secondDay [])
  refine ⟨⟨records, hrecords, hrecords', ?_⟩, stored, hsource, records,
    hrecords, hzeros⟩
  intro b
  rw [hbars b]
  apply and_iff_right
  rw [HistoryRange.includes]
  split <;> rfl

def fromMinusZero : PriceRecord Float :=
  ⟨firstDay.time, some (-0), some 1, some (-0), some 1, none, none⟩

def risingFromMinusZero : String :=
  "date,open,high,low,close\n2024-05-06,-0.0,1,-0.0,1\n"

/-- A day that opens at minus zero has this opening in the series of its file,
and opens at zero in the series of a store that holds the same row. -/
theorem store_differs_from_file_of_minusZero :
    ∃ records stored,
      source (alwaysReading risingFromMinusZero) "data" "ACME" .max "1d" =
        .ok records ∧
      (Store.empty.insertBatches [⟨"ACME", "1d", [fromMinusZero]⟩]).source
          "ACME" .max "1d" =
        .ok stored ∧
      (ofRecords "ACME" stored).bars ≠ (ofRecords "ACME" records).bars := by
  have hrows : unsorted risingFromMinusZero = .ok [fromMinusZero] :=
    unsorted_eq_ok (by decide +kernel)
  have hsorted : inOrder [fromMinusZero] = [fromMinusZero] :=
    List.mergeSort_singleton fromMinusZero
  have hfile :
      source (alwaysReading risingFromMinusZero) "data" "ACME" .max "1d" =
        .ok [fromMinusZero] := by
    have hread : alwaysReading risingFromMinusZero (path "data" "ACME" "1d") =
        .ok risingFromMinusZero :=
      rfl
    rw [source_of_unsorted hread hrows, hsorted, HistoryRange.clip_max]
  have hstored :
      (Store.empty.insertBatches [⟨"ACME", "1d", [fromMinusZero]⟩]).source
          "ACME" .max "1d" =
        .ok [fromMinusZero.kept] := by
    have hplain : ∀ b ∈ [(⟨"ACME", "1d", [fromMinusZero]⟩ : PriceBatch Float)],
        b.HasPlainYears := by
      simp [PriceBatch.HasPlainYears, Moment.HasPlainYear, fromMinusZero,
        firstDay]
    have hwritten : (written "ACME" "1d" [⟨"ACME", "1d", [fromMinusZero]⟩]).Perm
        [fromMinusZero] :=
      List.Perm.refl _
    rw [source_insertBatches hplain (by decide) (by decide) hwritten, hsorted,
      HistoryRange.clip_max, List.map_singleton]
  refine ⟨[fromMinusZero], [fromMinusZero.kept], hfile, hstored, ?_⟩
  decide +kernel

end PriceFile
end RuleBacktest
