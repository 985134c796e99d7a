import RuleBacktest.Proofs.History.Window
import RuleBacktest.Proofs.Keyed
import RuleBacktest.Proofs.Sorting
import RuleBacktest.Proofs.Store.Row

/-!
# Prices in a store

Whatever batches of records are put in, a store holds for each symbol, interval
and second the record put in last, and serves those of a symbol and an interval
in the order of their times.  A batch that is put in again changes nothing, and
of two batches that share no second either may come first.
-/

namespace RuleBacktest

open Calendar Scalar

variable {α : Type}

/-! ## What a row keeps of a record -/

def PriceRecord.second (r : PriceRecord α) : Moment :=
  r.time.wholeSeconds

def PriceRecord.kept [Scalar α] (r : PriceRecord α) : PriceRecord α :=
  ⟨r.time.wholeSeconds, r.opening.bind storedValue?, r.high.bind storedValue?,
    r.low.bind storedValue?, r.close.bind storedValue?,
    r.adjustedClose.bind storedValue?, r.volume.bind storedValue?⟩

namespace PriceRow

def key (row : PriceRow α) : String × String × String :=
  (row.symbol, row.interval, row.time)

theorem record_ofRecord [Scalar α] (symbol interval : String)
    {r : PriceRecord α}
    (hr : r.time.HasPlainYear) :
    (ofRecord symbol interval r).record = .ok r.kept := by
  have htime : columnTime 0 r.time.tableText = .ok r.time.wholeSeconds := by
    rw [columnTime, Moment.ofTableText_tableText hr]
  simp only [record, ofRecord, htime, bind, Except.bind]
  rfl

theorem key_ofRecord_eq_iff [Scalar α] (symbol interval : String)
    {r r' : PriceRecord α}
    (hr : r.time.HasPlainYear)
    (hr' : r'.time.HasPlainYear) :
    (ofRecord symbol interval r).key = (ofRecord symbol interval r').key ↔
      r.second = r'.second := by
  simp only [key, ofRecord, Prod.mk.injEq, true_and]
  constructor
  · exact Moment.wholeSeconds_eq_of_tableText_eq hr hr'
  · intro h
    exact le_antisymm
      ((Moment.tableText_le_iff hr hr').mpr
        (Int.le_of_eq (congrArg Moment.rank h)))
      ((Moment.tableText_le_iff hr' hr).mpr
        (Int.le_of_eq (congrArg Moment.rank h.symm)))

end PriceRow

/-! ## Batches -/

/-- Records that are put in together. -/
structure PriceBatch (α : Type) where
  symbol : String
  interval : String
  records : List (PriceRecord α)

namespace PriceBatch

def HasPlainYears (b : PriceBatch α) : Prop :=
  ∀ r ∈ b.records, r.time.HasPlainYear

/-- No record of one batch takes the place of a record of the other. -/
def Separate (b c : PriceBatch α) : Prop :=
  b.symbol = c.symbol → b.interval = c.interval →
    ∀ r ∈ b.records, ∀ r' ∈ c.records, r.second ≠ r'.second

def rows [Scalar α] (b : PriceBatch α) : List (PriceRow α) :=
  b.records.map (PriceRow.ofRecord b.symbol b.interval)

/-- The records of a batch that are for a symbol and an interval. -/
def recordsFor (symbol interval : String) (b : PriceBatch α) :
    List (PriceRecord α) :=
  if b.symbol = symbol ∧ b.interval = interval then b.records else []

end PriceBatch

/-- What batches write for a symbol and an interval, in the order of writing. -/
def written (symbol interval : String) (batches : List (PriceBatch α)) :
    List (PriceRecord α) :=
  batches.flatMap (PriceBatch.recordsFor symbol interval)

theorem mem_written {symbol interval : String} {batches : List (PriceBatch α)}
    {r : PriceRecord α} (h : r ∈ written symbol interval batches) :
    ∃ b ∈ batches, r ∈ b.records := by
  obtain ⟨b, hb, hr⟩ := List.mem_flatMap.mp h
  rw [PriceBatch.recordsFor] at hr
  split at hr
  · exact ⟨b, hb, hr⟩
  · cases hr

namespace PriceRecord

/-- Whether a record comes before another, or with it, by the second. -/
def notAfter (r r' : PriceRecord α) : Bool :=
  decide (r.second.rank ≤ r'.second.rank)

theorem sortsBy_notAfter : SortsBy (@notAfter α) second :=
  SortsBy.of_rank Moment.rank_injective _

end PriceRecord

theorem PriceBatch.Separate.filter_recordsFor {b c : PriceBatch α}
    (h : b.Separate c)
    (symbol interval : String) (t : Moment) :
    (b.recordsFor symbol interval).filter (fun r => r.second = t) = [] ∨
      (c.recordsFor symbol interval).filter (fun r => r.second = t) = [] := by
  by_contra hboth
  obtain ⟨hb, hc⟩ := not_or.mp hboth
  obtain ⟨r, hr⟩ := List.exists_mem_of_ne_nil _ hb
  obtain ⟨r', hr'⟩ := List.exists_mem_of_ne_nil _ hc
  rw [List.mem_filter, PriceBatch.recordsFor, decide_eq_true_eq] at hr hr'
  by_cases hbsame : b.symbol = symbol ∧ b.interval = interval
  · by_cases hcsame : c.symbol = symbol ∧ c.interval = interval
    · rw [if_pos hbsame] at hr
      rw [if_pos hcsame] at hr'
      exact h (hbsame.1.trans hcsame.1.symm) (hbsame.2.trans hcsame.2.symm) r
        hr.1 r' hr'.1 (hr.2.trans hr'.2.symm)
    · simp [hcsame] at hr'
  · simp [hbsame] at hr

variable [Scalar α]

theorem filter_rows (symbol interval : String) (b : PriceBatch α) :
    (b.rows.filter fun row =>
        row.symbol == symbol && row.interval == interval) =
      (b.recordsFor symbol interval).map
        (PriceRow.ofRecord symbol interval) := by
  rw [PriceBatch.rows, PriceBatch.recordsFor, List.filter_map]
  by_cases hb : b.symbol = symbol ∧ b.interval = interval
  · obtain ⟨rfl, rfl⟩ := hb
    simp [Function.comp_def, PriceRow.ofRecord]
  · simp [Function.comp_def, PriceRow.ofRecord, hb]

theorem filter_flatMap_rows (symbol interval : String)
    (batches : List (PriceBatch α)) :
    ((batches.flatMap PriceBatch.rows).filter fun row =>
        row.symbol == symbol && row.interval == interval) =
      (written symbol interval batches).map
          (PriceRow.ofRecord symbol interval) := by
  induction batches with
  | nil => rfl
  | cons b batches ih =>
      rw [List.flatMap_cons, List.filter_append, ih, filter_rows, written,
        written, List.flatMap_cons, List.map_append]

/-! ## The table after batches -/

namespace Store

def insertBatch (s : Store α) (b : PriceBatch α) : Store α :=
  s.insertRecords b.symbol b.interval b.records

def insertBatches (s : Store α) (batches : List (PriceBatch α)) : Store α :=
  batches.foldl insertBatch s

theorem prices_insertRecord (symbol interval : String) (s : Store α)
    (r : PriceRecord α) :
    (insertRecord symbol interval s r).prices =
      s.prices.filter
        (fun row => row.key ≠ (PriceRow.ofRecord symbol interval r).key) ++
        [PriceRow.ofRecord symbol interval r] := by
  have hother : ∀ row : PriceRow α,
      (!isAt symbol interval (PriceRow.ofRecord symbol interval r).time row) =
        decide (row.key ≠ (PriceRow.ofRecord symbol interval r).key) := by
    intro row
    rw [Bool.eq_iff_iff]
    simp [isAt, PriceRow.key, PriceRow.ofRecord, or_assoc]
  simp only [insertRecord, hother]

theorem prices_insertRecords {s : Store α} {rows : List (PriceRow α)}
    (hs : s.prices = lastOfEach PriceRow.key rows)
    (symbol interval : String) (rs : List (PriceRecord α)) :
    (s.insertRecords symbol interval rs).prices =
      lastOfEach PriceRow.key
        (rows ++ rs.map (PriceRow.ofRecord symbol interval)) := by
  induction rs generalizing s rows with
  | nil => simpa [insertRecords] using hs
  | cons r rs ih =>
      have hstep : (insertRecord symbol interval s r).prices =
          lastOfEach PriceRow.key
            (rows ++ [PriceRow.ofRecord symbol interval r]) := by
        rw [prices_insertRecord, hs, lastOfEach_append_singleton]
      have hrest := ih hstep
      rw [List.append_assoc] at hrest
      exact hrest

theorem prices_insertBatches {s : Store α} {rows : List (PriceRow α)}
    (hs : s.prices = lastOfEach PriceRow.key rows)
    (batches : List (PriceBatch α)) :
    (s.insertBatches batches).prices =
      lastOfEach PriceRow.key (rows ++ batches.flatMap PriceBatch.rows) := by
  induction batches generalizing s rows with
  | nil => simpa [insertBatches] using hs
  | cons b batches ih =>
      have hrest := ih (prices_insertRecords hs b.symbol b.interval b.records)
      rw [List.append_assoc] at hrest
      exact hrest

theorem prices_insertBatches_of_none {s : Store α} (hs : s.prices = [])
    (batches : List (PriceBatch α)) :
    (s.insertBatches batches).prices =
      lastOfEach PriceRow.key (batches.flatMap PriceBatch.rows) := by
  have hnone : s.prices = lastOfEach PriceRow.key [] := hs
  rw [prices_insertBatches hnone, List.nil_append]

theorem insertRecords_frame (s : Store α) (symbol interval : String)
    (rs : List (PriceRecord α)) :
    (s.insertRecords symbol interval rs).strategies = s.strategies ∧
      (s.insertRecords symbol interval rs).runs = s.runs := by
  induction rs generalizing s with
  | nil => exact ⟨rfl, rfl⟩
  | cons r rs ih => exact ih (insertRecord symbol interval s r)

theorem insertBatches_frame (s : Store α) (batches : List (PriceBatch α)) :
    (s.insertBatches batches).strategies = s.strategies ∧
      (s.insertBatches batches).runs = s.runs := by
  induction batches generalizing s with
  | nil => exact ⟨rfl, rfl⟩
  | cons b batches ih =>
      have hfirst := insertRecords_frame s b.symbol b.interval b.records
      have hrest := ih (s.insertBatch b)
      exact ⟨hrest.1.trans hfirst.1, hrest.2.trans hfirst.2⟩

/-! ## Histories -/

/-- What is served of a symbol and an interval after batches. -/
def lastWrites (symbol interval : String) (batches : List (PriceBatch α)) :
    List (PriceRecord α) :=
  ((lastOfEach PriceRecord.second (written symbol interval batches)).mergeSort
    PriceRecord.notAfter).map PriceRecord.kept

theorem history_insertBatches {s : Store α}
    (hs : s.prices = [])
    {batches : List (PriceBatch α)}
    (hplain : ∀ b ∈ batches, b.HasPlainYears)
    (symbol interval : String) :
    (s.insertBatches batches).history symbol interval =
      .ok (lastWrites symbol interval batches) := by
  have hyears : ∀ r ∈ written symbol interval batches, r.time.HasPlainYear := by
    intro r hr
    obtain ⟨b, hb, hmem⟩ := mem_written hr
    exact hplain b hb r hmem
  have hfilter : ((s.insertBatches batches).prices.filter fun row =>
      row.symbol == symbol && row.interval == interval) =
        (lastOfEach PriceRecord.second (written symbol interval batches)).map
          (PriceRow.ofRecord symbol interval) := by
    rw [prices_insertBatches_of_none hs, ← lastOfEach_filter PriceRow.key,
      filter_flatMap_rows, lastOfEach_map PriceRow.key PriceRecord.second]
    · intro r hr r' hr'
      exact PriceRow.key_ofRecord_eq_iff symbol interval (hyears r hr)
        (hyears r' hr')
    · intro row row' hkey
      simp only [PriceRow.key, Prod.mk.injEq] at hkey
      rw [hkey.1, hkey.2.1]
  have hlast :
      ∀ r ∈ lastOfEach PriceRecord.second (written symbol interval batches),
        r.time.HasPlainYear := by
    intro r hr
    exact hyears r (mem_of_mem_lastOfEach _ hr)
  have hsort :
      (((lastOfEach PriceRecord.second (written symbol interval batches)).map
          (PriceRow.ofRecord symbol interval)).mergeSort fun a b =>
          decide (a.time ≤ b.time)) =
        ((lastOfEach PriceRecord.second
          (written symbol interval batches)).mergeSort PriceRecord.notAfter).map
          (PriceRow.ofRecord symbol interval) := by
    symm
    apply List.map_mergeSort
    intro r hr r' hr'
    rw [PriceRecord.notAfter, decide_eq_decide]
    exact (Moment.tableText_le_iff (hlast r hr) (hlast r' hr')).symm
  rw [history, hfilter, hsort, lastWrites]
  apply mapM_map_eq_ok
  intro r hr
  exact PriceRow.record_ofRecord symbol interval
    (hlast r (List.mem_mergeSort.mp hr))

theorem pairwise_lastWrites (symbol interval : String)
    (batches : List (PriceBatch α)) :
    (lastWrites symbol interval batches).Pairwise fun r r' =>
      r.time < r'.time := by
  rw [lastWrites, List.pairwise_map]
  have hsorted := PriceRecord.sortsBy_notAfter.pairwise_mergeSort
    (lastOfEach PriceRecord.second (written symbol interval batches))
  have hdistinct : ((lastOfEach PriceRecord.second
    (written symbol interval batches)).mergeSort PriceRecord.notAfter).Pairwise
    fun r r' => r.second ≠ r'.second := by
    have hnodup := nodup_map_lastOfEach PriceRecord.second
      (written symbol interval batches)
    have hperm := List.mergeSort_perm (lastOfEach PriceRecord.second
      (written symbol interval batches)) PriceRecord.notAfter
    exact List.pairwise_map.mp ((hperm.map _).nodup_iff.mpr hnodup)
  apply (hsorted.and hdistinct).imp
  rintro r r' ⟨hle, hne⟩
  have hrank : r.second.rank ≤ r'.second.rank := of_decide_eq_true hle
  exact lt_of_le_of_ne hrank fun hsame => hne (Moment.rank_injective hsame)

theorem mem_lastWrites {symbol interval : String}
    {batches : List (PriceBatch α)} {t : Moment} {r : PriceRecord α} :
    r ∈ lastWrites symbol interval batches ∧ r.time = t ↔
      ∃ last,
        ((written symbol interval batches).filter fun w =>
            w.second = t).getLast? =
          some last ∧
        last.kept = r := by
  have hfilter := filter_lastOfEach PriceRecord.second
    (written symbol interval batches) t
  have hlast : ∀ w, ((written symbol interval batches).filter
      fun w => w.second = t).getLast? = some w ↔
        w ∈ lastOfEach PriceRecord.second (written symbol interval batches) ∧
          w.second = t := by
    intro w
    rw [← Option.mem_toList, ← hfilter, List.mem_filter, decide_eq_true_eq]
  simp only [hlast, lastWrites, List.mem_map, List.mem_mergeSort]
  constructor
  · rintro ⟨⟨w, hw, rfl⟩, ht⟩
    exact ⟨w, ⟨hw, ht⟩, rfl⟩
  · rintro ⟨w, ⟨hw, ht⟩, rfl⟩
    exact ⟨⟨w, hw, rfl⟩, ht⟩

/-- What is served depends on what is written last in each second. -/
theorem lastWrites_congr {symbol interval : String}
    {batches batches' : List (PriceBatch α)}
    (hsame : ∀ t,
      ((written symbol interval batches).filter fun r =>
          r.second = t).getLast? =
        ((written symbol interval batches').filter fun r =>
          r.second = t).getLast?) :
    lastWrites symbol interval batches =
      lastWrites symbol interval batches' := by
  rw [lastWrites, lastWrites]
  congr 1
  apply PriceRecord.sortsBy_notAfter.mergeSort_congr
  intro t
  rw [filter_lastOfEach, filter_lastOfEach, hsame t]

/-! ## The same batch twice, and batches in another order -/

theorem insertBatches_twice {s : Store α}
    (hs : s.prices = [])
    (before after : List (PriceBatch α)) (b : PriceBatch α) :
    s.insertBatches (before ++ b :: b :: after) =
      s.insertBatches (before ++ b :: after) := by
  have hframe := insertBatches_frame s (before ++ b :: b :: after)
  have hframe' := insertBatches_frame s (before ++ b :: after)
  have hsame : (s.insertBatches (before ++ b :: b :: after)).prices =
      (s.insertBatches (before ++ b :: after)).prices := by
    rw [prices_insertBatches_of_none hs, prices_insertBatches_of_none hs]
    simp only [List.flatMap_append, List.flatMap_cons]
    exact lastOfEach_append_self_append _ _ _ _
  cases hbatches : s.insertBatches (before ++ b :: b :: after)
  cases hbatches' : s.insertBatches (before ++ b :: after)
  simp only [hbatches, hbatches'] at hframe hframe' hsame
  rw [hsame, hframe.1, hframe'.1, hframe.2, hframe'.2]

theorem lastWrites_swap {b c : PriceBatch α}
    (h : b.Separate c)
    (symbol interval : String) (before after : List (PriceBatch α)) :
    lastWrites symbol interval (before ++ c :: b :: after) =
      lastWrites symbol interval (before ++ b :: c :: after) := by
  apply lastWrites_congr
  intro t
  simp only [written, List.flatMap_append, List.flatMap_cons,
    List.filter_append]
  rcases h.filter_recordsFor symbol interval t with hnone | hnone
  · rw [hnone, List.nil_append, List.nil_append]
  · rw [hnone, List.nil_append, List.nil_append]

/-- A table that was empty serves, of every symbol and interval, one record for
each second that was written, in the order of time, and it is the one written
last.  A zero is served without its sign, and what is left out, or is not a
number, as missing. -/
theorem insertBatches_serves_last_writes {s : Store α}
    (hs : s.prices = [])
    {batches : List (PriceBatch α)}
    (hplain : ∀ b ∈ batches, b.HasPlainYears) :
    (∀ symbol interval, ∃ records,
        (s.insertBatches batches).source symbol .max interval = .ok records ∧
        (records.Pairwise fun r r' => r.time < r'.time) ∧
        ∀ t r, r ∈ records ∧ r.time = t ↔
          ∃ last,
            ((written symbol interval batches).filter fun w =>
                w.second = t).getLast? =
              some last ∧
            last.kept = r) ∧
      (∀ before b after, batches = before ++ b :: after →
        s.insertBatches (before ++ b :: b :: after) = s.insertBatches batches) ∧
      ∀ before b c after,
        batches = before ++ b :: c :: after →
        b.Separate c →
        ∀ symbol range interval,
          (s.insertBatches (before ++ c :: b :: after)).source symbol
              range interval =
            (s.insertBatches batches).source symbol range interval := by
  refine ⟨?_, ?_, ?_⟩
  · intro symbol interval
    refine ⟨lastWrites symbol interval batches, ?_,
      pairwise_lastWrites symbol interval batches, fun t r => mem_lastWrites⟩
    rw [source, history_insertBatches hs hplain]
    exact congrArg Except.ok (HistoryRange.clip_max _ _)
  · rintro before b after rfl
    exact insertBatches_twice hs before after b
  · rintro before b c after rfl hseparate symbol range interval
    have hplain' : ∀ d ∈ before ++ c :: b :: after, d.HasPlainYears := by
      intro d hd
      apply hplain d
      simp only [List.mem_append, List.mem_cons] at hd ⊢
      tauto
    rw [source, source, history_insertBatches hs hplain,
      history_insertBatches hs hplain', lastWrites_swap hseparate]

def closing (close : Float) : PriceRecord Float :=
  ⟨⟨{ year := 2024, month := 4, day := 2 }, .midnight⟩, none, none, none,
    some close, none, none⟩

def closings (interval : String) (closes : List Float) : PriceBatch Float :=
  ⟨"ACME", interval, closes.map closing⟩

theorem hasPlainYears_closings (interval : String) (closes : List Float) :
    (closings interval closes).HasPlainYears := by
  intro r hr
  obtain ⟨close, _, rfl⟩ := List.mem_map.mp hr
  have hyear : (closing close).time.date.year = 2024 := rfl
  rw [Moment.HasPlainYear, hyear]
  omega

/-- Two closes of one day in one batch, and a close of that day for another
interval. -/
theorem insertBatches_serves_last_writes_closings :
    (∀ b ∈ [closings "1d" [10, 11], closings "1h" [12]], b.HasPlainYears) ∧
      (∃ records,
        ((empty : Store Float).insertBatches
            [closings "1d" [10, 11], closings "1h" [12]]).source "ACME"
            .max "1d" =
          .ok records ∧
        closing 11 ∈ records) ∧
      (empty : Store Float).insertBatches
          [closings "1d" [10, 11], closings "1d" [10, 11], closings "1h" [12]] =
        (empty : Store Float).insertBatches
          [closings "1d" [10, 11], closings "1h" [12]] ∧
      ∀ symbol range interval,
        ((empty : Store Float).insertBatches
            [closings "1h" [12], closings "1d" [10, 11]]).source symbol
            range interval =
          ((empty : Store Float).insertBatches
            [closings "1d" [10, 11], closings "1h" [12]]).source symbol
            range interval := by
  have hempty : (empty : Store Float).prices = [] := rfl
  have hplain : ∀ b ∈ [closings "1d" [10, 11], closings "1h" [12]],
      b.HasPlainYears := by
    simp [hasPlainYears_closings]
  obtain ⟨hserved, htwice, hswap⟩ :=
    insertBatches_serves_last_writes hempty hplain
  refine ⟨hplain, ?_, htwice [] _ [_] rfl, ?_⟩
  · obtain ⟨records, hsource, _, hmem⟩ := hserved "ACME" "1d"
    have hlast :
        ((written "ACME" "1d"
            [closings "1d" [10, 11], closings "1h" [12]]).filter fun w =>
            w.second = (closing 11).time).getLast? =
          some (closing 11) := by
      decide
    have hkept : (closing 11).kept = closing 11 := by
      decide
    exact ⟨records, hsource, ((hmem _ _).mpr ⟨_, hlast, hkept⟩).1⟩
  · refine hswap [] _ _ [] rfl ?_
    intro _ hinterval
    exact absurd hinterval (by decide)

/-- A close of minus zero is served as zero. -/
theorem not_served_as_written_of_minusZero :
    ((empty : Store Float).insertBatches [closings "1d" [-0]]).source "ACME"
          .max "1d" =
        .ok [closing 0] ∧
      written "ACME" "1d" [closings "1d" [-0]] = [closing (-0)] ∧
      closing 0 ≠ closing (-0) := by
  have hempty : (empty : Store Float).prices = [] := rfl
  have hplain : ∀ b ∈ [closings "1d" [-0]], b.HasPlainYears := by
    simp [hasPlainYears_closings]
  have hwritten : written "ACME" "1d" [closings "1d" [-0]] = [closing (-0)] :=
    rfl
  have hkept : (closing (-0)).kept = closing 0 := by
    decide
  have hserved : lastWrites "ACME" "1d" [closings "1d" [-0]] = [closing 0] := by
    rw [lastWrites, hwritten, ← hkept]
    simp [lastOfEach]
  refine ⟨?_, hwritten, by decide⟩
  rw [source, history_insertBatches hempty hplain, hserved]
  exact congrArg Except.ok (HistoryRange.clip_max _ _)

end Store
end RuleBacktest
