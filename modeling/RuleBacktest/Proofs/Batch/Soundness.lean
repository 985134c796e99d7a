import RuleBacktest.PriceFile.Source
import RuleBacktest.Proofs.Trading.Validation
import RuleBacktest.Store.Batch

/-!
# Batches over a sound store

A store is sound if the rules of every strategy in it can be read and pass the
check, and every run in it is of a strategy in it.  A batch keeps a store sound.
Since its strategies have rules that compile and its range is one that is known,
a strategy can fail for the prices only: there are none, or they cannot be had,
or the run cannot be recorded.
-/

namespace RuleBacktest

open Calendar

/-- The failure is one of the prices or of the store, not of a request. -/
def Failure.IsMarket : Failure → Prop
  | .noData _ => True
  | .database _ => True
  | .databaseQuery _ => True
  | _ => False

/-! ## Sources of prices -/

/-- A source fails for want of prices only. -/
def PriceSource.IsMarket (source : PriceSource Float) : Prop :=
  ∀ symbol range interval,
    OnlyFails Failure.IsMarket (source symbol range interval)

namespace PriceFile

theorem value_onlyFails (header row : List String) (name : String) :
    OnlyFails Failure.IsMarket (value header row name) := by
  unfold value
  split
  · exact OnlyFails.ok _
  · split
    · exact OnlyFails.ok _
    · split
      · exact OnlyFails.ok _
      · exact OnlyFails.error trivial

theorem time_onlyFails (raw : String) :
    OnlyFails Failure.IsMarket (time raw) := by
  unfold time
  split
  · exact OnlyFails.ok _
  · exact OnlyFails.error trivial

theorem record_onlyFails
    (header : List String)
    (dateColumn : Nat) (row : List String) :
    OnlyFails Failure.IsMarket (record header dateColumn row) := by
  unfold record
  simp only
  split
  · refine OnlyFails.bind (OnlyFails.ok _) fun date => ?_
    refine OnlyFails.bind (time_onlyFails date) fun time => ?_
    refine OnlyFails.bind (value_onlyFails header row "open") fun opening => ?_
    refine OnlyFails.bind (value_onlyFails header row "high") fun high => ?_
    refine OnlyFails.bind (value_onlyFails header row "low") fun low => ?_
    refine OnlyFails.bind (value_onlyFails header row "close") fun close => ?_
    refine OnlyFails.bind (value_onlyFails header row "adj_close")
      fun adjustedClose => ?_
    refine OnlyFails.bind (value_onlyFails header row "volume") fun volume => ?_
    exact OnlyFails.ok _
  · exact OnlyFails.error trivial

theorem source_isMarket (read : String → Except FileFault String)
    (directory : String) :
    (source read directory).IsMarket := by
  intro symbol range interval
  unfold source
  simp only
  generalize read (path directory symbol interval) = content
  cases content with
  | ok text =>
      have hunsorted : OnlyFails Failure.IsMarket (unsorted text) := by
        unfold unsorted
        simp only
        split
        · exact OnlyFails.error trivial
        · exact OnlyFails.mapM fun row _ => record_onlyFails _ _ row
      exact (hunsorted.map _).map _
  | error fault =>
      cases fault
      all_goals exact OnlyFails.error trivial

end PriceFile

theorem columnTime_onlyFails (column : Nat) (content : String) :
    OnlyFails Failure.IsMarket (columnTime column content) := by
  unfold columnTime
  split
  · exact OnlyFails.ok _
  · exact OnlyFails.error trivial

theorem Store.source_isMarket (s : Store Float) : s.source.IsMarket := by
  intro symbol range interval
  apply OnlyFails.map
  apply OnlyFails.mapM
  intro row _
  exact OnlyFails.bind (columnTime_onlyFails 0 row.time) fun _ => OnlyFails.ok _

/-! ## Sound stores -/

/-- The text is read as a strategy whose rules pass the check. -/
def SavedStrategy.Passes (rules : String) : Prop :=
  ∃ saved counts, SavedStrategy.ofText rules = .ok saved ∧
    checkRules Float saved.entryConfig saved.exitConfig = .ok counts

namespace Store

structure Sound (s : Store Float) : Prop where
  passes : ∀ row ∈ s.strategies, SavedStrategy.Passes row.rules
  owned : ∀ run ∈ s.runs, ∃ row ∈ s.strategies, row.id = run.strategyId

theorem Sound.of_no_rows {s : Store Float}
    (hstrategies : s.strategies = [])
    (hruns : s.runs = []) :
    s.Sound := by
  constructor
  · simp [hstrategies]
  · simp [hruns]

theorem Sound.of_same_rows {s s' : Store Float}
    (h : s.Sound)
    (hstrategies : s'.strategies = s.strategies)
    (hruns : s'.runs = s.runs) :
    s'.Sound := by
  constructor
  · rw [hstrategies]
    exact h.passes
  · rw [hstrategies, hruns]
    exact h.owned

theorem Sound.save {s s' : Store Float}
    (h : s.Sound)
    {t : StoredStrategy}
    (ht : SavedStrategy.Passes t.rules)
    (hsave : s.save t = .ok s') :
    s'.Sound := by
  unfold Store.save at hsave
  split at hsave
  · cases hsave
  · cases hsave
    constructor
    · intro row hrow
      rcases List.mem_append.mp hrow with hold | hlast
      · exact h.passes row hold
      · rw [List.mem_singleton.mp hlast]
        exact ht
    · intro run hrun
      obtain ⟨row, hrow, hid⟩ := h.owned run hrun
      exact ⟨row, List.mem_append_left _ hrow, hid⟩

theorem Sound.delete {s s' : Store Float} (h : s.Sound) {id : String}
    (hdelete : s.delete id = .ok s') : s'.Sound := by
  simp only [Store.delete] at hdelete
  split at hdelete
  · cases hdelete
  · cases hdelete
    constructor
    · intro row hrow
      exact h.passes row (List.mem_filter.mp hrow).1
    · intro run hrun
      obtain ⟨hold, hother⟩ := List.mem_filter.mp hrun
      obtain ⟨row, hrow, hid⟩ := h.owned run hold
      refine ⟨row, List.mem_filter.mpr ⟨hrow, ?_⟩, hid⟩
      rw [hid]
      exact hother

theorem recordRun_onlyFails (s : Store Float) (r : StrategyRun Float) :
    OnlyFails Failure.IsMarket (s.recordRun r) := by
  apply OnlyFails.bind
  · unfold RunRow.ofRun
    split
    · exact OnlyFails.error trivial
    · exact OnlyFails.error trivial
    · exact OnlyFails.ok _
  · exact fun _ => OnlyFails.ok _

theorem strategies_of_recordRun {s s' : Store Float} {r : StrategyRun Float}
    (h : s.recordRun r = .ok s') : s'.strategies = s.strategies := by
  obtain ⟨row, _, hs'⟩ := bind_eq_ok.mp h
  cases hs'
  rfl

theorem Sound.recordRun {s s' : Store Float}
    (h : s.Sound)
    {r : StrategyRun Float}
    (hstored : ∃ row ∈ s.strategies, row.id = r.strategyId)
    (hrecord : s.recordRun r = .ok s') :
    s'.Sound := by
  obtain ⟨row, hrow, hs'⟩ := bind_eq_ok.mp hrecord
  cases hs'
  refine ⟨h.passes, ?_⟩
  intro run hrun
  rcases List.mem_append.mp hrun with hold | hlast
  · exact h.owned run hold
  · rw [List.mem_singleton.mp hlast]
    have hid : row.strategyId = r.strategyId := by
      unfold RunRow.ofRun at hrow
      split at hrow
      · cases hrow
      · cases hrow
      · cases hrow
        rfl
    rw [hid]
    exact hstored

/-- A strategy that is listed is a row, with its id and with its rules. -/
theorem row_of_mem_list {s : Store Float} {ts : List StoredStrategy}
    (hlist : s.list = .ok ts)
    {t : StoredStrategy}
    (ht : t ∈ ts) :
    ∃ row ∈ s.strategies, row.id = t.id ∧ row.rules = t.rules := by
  obtain ⟨row, hrow, hread⟩ := exists_of_mem_mapM hlist ht
  obtain ⟨createdAt, _, hkept⟩ := bind_eq_ok.mp hread
  cases hkept
  exact ⟨row, List.mem_mergeSort.mp hrow, rfl, rfl⟩

end Store

/-! ## Batches -/

namespace Batch

theorem runOne_onlyFails {source : PriceSource Float}
    (hsource : source.IsMarket)
    {schedule : Schedule} {range : HistoryRange}
    (hrange : HistoryRange.ofText schedule.range = .ok range)
    {t : StoredStrategy}
    (ht : SavedStrategy.Passes t.rules)
    (settings : BacktestSettings Float) (ranAt : Moment) :
    OnlyFails Failure.IsMarket (runOne source schedule settings t ranAt) := by
  obtain ⟨saved, counts, hread, hrules⟩ := ht
  have hrequest : t.request schedule =
      .ok ⟨schedule.symbol, schedule.range, schedule.interval,
        saved.entryConfig, saved.exitConfig⟩ :=
    bind_eq_ok.mpr ⟨saved, hread, rfl⟩
  intro e he
  rcases bind_eq_error.mp he with hnone | ⟨request, hsome, hrest⟩
  · rw [hrequest] at hnone
    cases hnone
  · have hsame := Except.ok.inj (hrequest.symm.trans hsome)
    have hrangeOf : HistoryRange.ofText request.range = .ok range := by
      rw [← hsame]
      exact hrange
    have hrulesOf :
        checkRules Float request.entry request.exit = .ok counts := by
      rw [← hsame]
      exact hrules
    rcases bind_eq_error.mp hrest with hrun | ⟨p, _, hok⟩
    · have hfails :=
        BacktestRequest.run_eq_error_iff hrangeOf hrulesOf source settings e
      rcases hfails.mp hrun with hfetch | ⟨_, _, _, hnoData⟩
      · exact hsource _ _ _ e hfetch
      · rw [hnoData]
        exact trivial
    · cases hok

theorem id_of_runOne {source : PriceSource Float} {schedule : Schedule}
    {settings : BacktestSettings Float} {t : StoredStrategy} {ranAt : Moment}
    {r : StrategyRun Float}
    (hrun : runOne source schedule settings t ranAt = .ok r) :
    r.strategyId = t.id := by
  obtain ⟨request, _, hrest⟩ := bind_eq_ok.mp hrun
  obtain ⟨p, _, hr⟩ := bind_eq_ok.mp hrest
  cases hr
  rfl

/-- The strategies are as they were, the runs are theirs, and what failed did so
for the prices. -/
structure Keeping (strategies : List StrategyRow)
    (state : Store Float × BatchSummary Float) : Prop where
  same : state.1.strategies = strategies
  sound : state.1.Sound
  market : ∀ f ∈ state.2.failed, f.failure.IsMarket

variable {s : OpenStore Float} {strategies : List StrategyRow}
  {run : StoredStrategy → Moment → Except Failure (StrategyRun Float)}

theorem Keeping.step {state : Store Float × BatchSummary Float}
    (h : Keeping strategies state)
    {t : StoredStrategy}
    (ht : ∃ row ∈ strategies, row.id = t.id)
    {ranAt : Moment}
    (hfails : OnlyFails Failure.IsMarket (run t ranAt))
    (hid : ∀ r, run t ranAt = .ok r → r.strategyId = t.id) :
    Keeping strategies (step s.book run state t ranAt) := by
  obtain ⟨log, summary⟩ := state
  unfold Batch.step
  simp only
  cases hrecorded : recordOne s.book log (run t ranAt) with
  | ok recorded =>
      obtain ⟨log', r⟩ := recorded
      obtain ⟨r', hrun, hrest⟩ := bind_eq_ok.mp hrecorded
      obtain ⟨log'', hrecord, hpair⟩ := bind_eq_ok.mp hrest
      cases hpair
      have hkept : log.recordRun r = .ok log' := by
        simp only [OpenStore.book, OpenStore.recordRun] at hrecord
        split at hrecord
        · exact hrecord
        · cases hrecord
      refine ⟨(Store.strategies_of_recordRun hkept).trans h.same, ?_, h.market⟩
      apply h.sound.recordRun _ hkept
      rw [h.same, hid r hrun]
      exact ht
  | error e =>
      have hmarket : e.IsMarket := by
        rcases bind_eq_error.mp hrecorded with hrun | ⟨r, hrun, hrest⟩
        · exact hfails e hrun
        · rcases bind_eq_error.mp hrest with hrecord | ⟨log', _, hok⟩
          · simp only [OpenStore.book, OpenStore.recordRun] at hrecord
            split at hrecord
            · exact Store.recordRun_onlyFails log r e hrecord
            · cases hrecord
              exact trivial
          · cases hok
      -- Nothing is recorded, so the log is the one before the turn.
      refine ⟨h.same, h.sound, ?_⟩
      intro f hf
      rcases List.mem_append.mp hf with hold | hlast
      · exact h.market f hold
      · rw [List.mem_singleton.mp hlast]
        exact hmarket

theorem Keeping.foldl {ts : List StoredStrategy}
    {state : Store Float × BatchSummary Float}
    (h : Keeping strategies state)
    {ranAt : Moment}
    (hts : ∀ t ∈ ts,
      (∃ row ∈ strategies, row.id = t.id) ∧
      OnlyFails Failure.IsMarket (run t ranAt) ∧
      ∀ r, run t ranAt = .ok r → r.strategyId = t.id) :
    Keeping strategies
      (ts.foldl (fun state t => Batch.step s.book run state t ranAt)
        state) := by
  induction ts generalizing state with
  | nil => exact h
  | cons t ts ih =>
      obtain ⟨hstored, hfails, hid⟩ := hts t List.mem_cons_self
      exact ih (h.step hstored hfails hid) fun t' ht' =>
        hts t' (List.mem_cons_of_mem t ht')

/-- A batch over a sound store keeps it sound and fails for the prices only. -/
theorem keeping_of_list
    (hsound : s.content.Sound)
    {ts : List StoredStrategy}
    (hlist : s.content.list = .ok ts)
    {source : PriceSource Float}
    (hsource : source.IsMarket)
    {schedule : Schedule} {range : HistoryRange}
    (hrange : HistoryRange.ofText schedule.range = .ok range)
    (settings : BacktestSettings Float) (ranAt : Moment) :
    Keeping s.content.strategies
      (ts.foldl
        (fun state t =>
          Batch.step s.book (runOne source schedule settings) state t ranAt)
        (s.content, ⟨[], []⟩)) := by
  have hstart : Keeping s.content.strategies (s.content, ⟨[], []⟩) :=
    ⟨rfl, hsound, by simp⟩
  apply hstart.foldl
  intro t ht
  obtain ⟨row, hrow, hid, hrules⟩ := Store.row_of_mem_list hlist ht
  have hpasses : SavedStrategy.Passes t.rules := hrules ▸ hsound.passes row hrow
  exact ⟨⟨row, hrow, hid⟩,
    runOne_onlyFails hsource hrange hpasses settings ranAt,
    fun _ hrun => id_of_runOne hrun⟩

end Batch
end RuleBacktest
