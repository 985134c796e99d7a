import Mathlib.Data.List.Forall2
import RuleBacktest.Proofs.Batch.Summary
import RuleBacktest.Proofs.History.Request

/-!
# Isolation in a batch

Every strategy of a batch has one outcome, its run or its failure.  The outcome
is decided by the strategy, the market and the moment of its turn: a batch of
this strategy alone, at the same moment, comes to the same.  What was recorded
for the strategies before it plays no part, as long as whether a run can be
recorded is up to the run.
-/

namespace RuleBacktest

open Calendar

variable {α ρ σ : Type}

def StrategyRun.stamped (r : StrategyRun α) (t : Moment) : StrategyRun α :=
  { r with ranAt := t }

/-- A book gains the row of each run that it records, and refuses a run whatever
was recorded before. -/
def StrategyBook.Keeps (book : StrategyBook σ α) (rows : σ → List ρ)
    (row : StrategyRun α → Except Failure ρ) : Prop :=
  ∀ log r, (book.record log r).map rows = (row r).map fun x => rows log ++ [x]

/-! ## One turn and all turns -/

namespace Batch

variable {book : StrategyBook σ α} {rows : σ → List ρ}
  {row : StrategyRun α → Except Failure ρ}
  {run : StoredStrategy → Moment → Except Failure (StrategyRun α)}

/-- What a turn comes to: a run that cannot be recorded is a failure. -/
def outcome (row : StrategyRun α → Except Failure ρ)
    (achieved : Except Failure (StrategyRun α)) :
    Except Failure (StrategyRun α) := do
  let r ← achieved
  let _ ← row r
  .ok r

/-- A clock that shows one reading after the other. -/
def ticking (readings : Nat → Moment) : StateM Nat Moment :=
  fun n => (readings n, n + 1)

/-- The rows of a list of runs. -/
def RowsOf (row : StrategyRun α → Except Failure ρ)
    (runs : List (StrategyRun α)) (xs : List ρ) : Prop :=
  List.Forall₂ (fun r x => row r = .ok x) runs xs

/-- A turn is recorded exactly when its outcome is a run. -/
theorem recordOne_cases
    (hbook : book.Keeps rows row)
    (log : σ) (achieved : Except Failure (StrategyRun α)) :
    (∃ r x log',
        outcome row achieved = .ok r ∧
        row r = .ok x ∧
        recordOne book log achieved = .ok (log', r) ∧
        rows log' = rows log ++ [x]) ∨
      ∃ e, outcome row achieved = .error e ∧
        recordOne book log achieved = .error e := by
  cases achieved with
  | error e => exact Or.inr ⟨e, rfl, rfl⟩
  | ok r =>
      have hkeeps := hbook log r
      cases hrow : row r with
      | error e =>
          rw [hrow] at hkeeps
          have houtcome : outcome row (.ok r) = .error e :=
            bind_eq_error.mpr (Or.inr ⟨r, rfl, bind_eq_error.mpr (Or.inl hrow)⟩)
          cases hrecord : book.record log r with
          | ok log' =>
              rw [hrecord] at hkeeps
              cases hkeeps
          | error e' =>
              rw [hrecord] at hkeeps
              cases hkeeps
              exact Or.inr ⟨e, houtcome,
                bind_eq_error.mpr
                  (Or.inr ⟨r, rfl, bind_eq_error.mpr (Or.inl hrecord)⟩)⟩
      | ok x =>
          rw [hrow] at hkeeps
          obtain ⟨log', hrecord, hrows⟩ := map_eq_ok.mp hkeeps
          have houtcome : outcome row (.ok r) = .ok r :=
            bind_eq_ok.mpr ⟨r, rfl, bind_eq_ok.mpr ⟨x, hrow, rfl⟩⟩
          exact Or.inl ⟨r, x, log', houtcome, hrow,
            bind_eq_ok.mpr ⟨r, rfl, bind_eq_ok.mpr ⟨log', hrecord, rfl⟩⟩, hrows⟩

variable (run) in
theorem step_eq
    (hbook : book.Keeps rows row)
    (log : σ) (summary : BatchSummary α) (t : StoredStrategy) (ranAt : Moment) :
    ∃ log' added,
      step book run (log, summary) t ranAt =
        (log', summary ++ .ofOutcomes [(t, outcome row (run t ranAt))]) ∧
      rows log' = rows log ++ added ∧
      RowsOf row
        (BatchSummary.ofOutcomes [(t, outcome row (run t ranAt))]).succeeded
        added := by
  rcases recordOne_cases hbook log (run t ranAt) with
    ⟨r, x, log', houtcome, hrow, hrecord, hrows⟩ | ⟨e, houtcome, hrecord⟩
  · refine ⟨log', [x], ?_, hrows, ?_⟩
    · simp only [step, hrecord, houtcome, BatchSummary.ofOutcomes_ok,
        BatchSummary.append_mk, List.append_nil]
    · rw [houtcome, BatchSummary.ofOutcomes_ok]
      exact List.Forall₂.cons hrow List.Forall₂.nil
  · refine ⟨log, [], ?_, (List.append_nil _).symm, ?_⟩
    · simp only [step, hrecord, houtcome, BatchSummary.ofOutcomes_error,
        BatchSummary.append_mk, List.append_nil]
    · rw [houtcome, BatchSummary.ofOutcomes_error]
      exact List.Forall₂.nil

/-- The outcomes of strategies whose turns come one after the other, the first
at a given tick. -/
def outcomes (row : StrategyRun α → Except Failure ρ)
    (run : StoredStrategy → Moment → Except Failure (StrategyRun α))
    (readings : Nat → Moment) (start : Nat) (strategies : List StoredStrategy) :
    List (BatchSummary.Outcome α) :=
  (strategies.zipIdx start).map fun (t, n) =>
    (t, outcome row (run t (readings n)))

theorem outcomes_cons (readings : Nat → Moment) (start : Nat)
    (t : StoredStrategy) (ts : List StoredStrategy) :
    outcomes row run readings start (t :: ts) =
      (t, outcome row (run t (readings start))) ::
        outcomes row run readings (start + 1) ts := by
  simp [outcomes, List.zipIdx_cons]

theorem map_fst_outcomes (readings : Nat → Moment) (start : Nat)
    (ts : List StoredStrategy) :
    (outcomes row run readings start ts).map Prod.fst = ts := by
  rw [outcomes, List.map_map]
  exact List.zipIdx_map_fst start ts

variable (run) in
theorem foldlM_step
    (hbook : book.Keeps rows row)
    (readings : Nat → Moment) (strategies : List StoredStrategy) (log : σ)
    (summary : BatchSummary α) (start : Nat) :
    ∃ log' added, (strategies.foldlM (m := StateM Nat) (fun state t => do
            let ranAt ← ticking readings
            return step book run state t ranAt)
          (log, summary)).run start =
          ((log',
              summary ++
                .ofOutcomes (outcomes row run readings start strategies)),
            start + strategies.length) ∧
        rows log' = rows log ++ added ∧
        RowsOf row
            (BatchSummary.ofOutcomes
              (outcomes row run readings start strategies)).succeeded
            added := by
  -- The turns go on from what the first one leaves, so the log, the summary and
  -- the tick are free.
  induction strategies generalizing log summary start with
  | nil =>
      refine ⟨log, [], ?_, (List.append_nil _).symm, List.Forall₂.nil⟩
      have hsummary :
          summary ++
            .ofOutcomes (outcomes row run readings start []) = summary := by
        simp [outcomes, BatchSummary.ofOutcomes, BatchSummary.append_mk]
      rw [hsummary]
      rfl
  | cons t ts ih =>
      obtain ⟨log₁, added₁, hstep, hrows₁, hadded₁⟩ :=
        step_eq run hbook log summary t (readings start)
      obtain ⟨log₂, added₂, hrest, hrows₂, hadded₂⟩ :=
        ih log₁
          (summary ++ .ofOutcomes [(t, outcome row (run t (readings start)))])
          (start + 1)
      refine ⟨log₂, added₁ ++ added₂, ?_, ?_, ?_⟩
      · have hlength : start + (t :: ts).length = start + 1 + ts.length := by
          rw [List.length_cons]
          omega
        rw [outcomes_cons, BatchSummary.ofOutcomes_cons,
          ← BatchSummary.append_assoc, hlength, ← hrest, ← hstep]
        rfl
      · rw [hrows₂, hrows₁, List.append_assoc]
      · rw [outcomes_cons, BatchSummary.ofOutcomes_cons]
        exact List.rel_append hadded₁ hadded₂

/-- A run at another time differs in nothing but the time. -/
theorem runOne_stamped [Scalar α] (source : PriceSource α) (schedule : Schedule)
    (settings : BacktestSettings α) (t : StoredStrategy) (a b : Moment) :
    runOne source schedule settings t b =
      (runOne source schedule settings t a).map fun r => r.stamped b := by
  unfold runOne
  cases t.request schedule with
  | error e => rfl
  | ok request =>
      simp only [bind, Except.bind]
      cases request.run source settings with
      | error e => rfl
      | ok p => rfl

theorem owner_of_runOne [Scalar α] {source : PriceSource α}
    {schedule : Schedule} {settings : BacktestSettings α} {t : StoredStrategy}
    {ranAt : Moment} {r : StrategyRun α}
    (hrun : runOne source schedule settings t ranAt = .ok r) :
    r.owner = t.owner := by
  obtain ⟨request, _, hrest⟩ := bind_eq_ok.mp hrun
  obtain ⟨p, _, hr⟩ := bind_eq_ok.mp hrest
  cases hr
  rfl

theorem outcome_eq_ok {achieved : Except Failure (StrategyRun α)}
    {r : StrategyRun α}
    (h : outcome row achieved = .ok r) :
    achieved = .ok r := by
  obtain ⟨r', hachieved, hrest⟩ := bind_eq_ok.mp h
  obtain ⟨_, _, hr⟩ := bind_eq_ok.mp hrest
  rw [hachieved, Except.ok.inj hr]

theorem outcome_stamped {a b : Moment}
    {achieved : Except Failure (StrategyRun α)}
    (hstamped : achieved = achieved.map fun r => r.stamped a)
    (hrow : ∀ r : StrategyRun α,
      SameOutcome (row (r.stamped a)) (row (r.stamped b))) :
    outcome row (achieved.map fun r => r.stamped b) =
      (outcome row achieved).map fun r => r.stamped b := by
  cases achieved with
  | error e => rfl
  | ok r =>
      have hr : r = r.stamped a := Except.ok.inj hstamped
      have hsame := hrow r
      rw [← hr] at hsame
      cases hfirst : row r with
      | error e =>
          have hsecond := (hsame.error_iff e).mp hfirst
          simp only [outcome, Except.map, bind, Except.bind, hfirst, hsecond]
      | ok x =>
          obtain ⟨y, hsecond⟩ := hsame.exists_ok hfirst
          simp only [outcome, Except.map, bind, Except.bind, hfirst, hsecond]

theorem getElem?_outcomes {readings : Nat → Moment} {start i : Nat}
    {strategies : List StoredStrategy} {t : StoredStrategy}
    {x : Except Failure (StrategyRun α)}
    (h : (outcomes row run readings start strategies)[i]? = some (t, x)) :
    x = outcome row (run t (readings (start + i))) := by
  rw [outcomes, List.getElem?_map, List.getElem?_zipIdx, Option.map_map] at h
  obtain ⟨t', _, hpair⟩ := Option.map_eq_some_iff.mp h
  cases hpair
  rfl

theorem owned_outcomes [Scalar α] (source : PriceSource α) (schedule : Schedule)
    (settings : BacktestSettings α) (readings : Nat → Moment) (start : Nat)
    (strategies : List StoredStrategy) :
    BatchSummary.Owned
      (outcomes row (runOne source schedule settings) readings start
        strategies) := by
  intro o ho r hr
  obtain ⟨⟨t, n⟩, _, rfl⟩ := List.mem_map.mp ho
  exact owner_of_runOne (outcome_eq_ok hr)

end Batch

/-! ## A whole batch -/

section

open Batch

variable [Scalar α] {book : StrategyBook σ α} {rows : σ → List ρ}
  {row : StrategyRun α → Except Failure ρ}

theorem StrategyBook.runSaved_eq
    (hbook : book.Keeps rows row)
    {log : σ} {strategies : List StoredStrategy}
    (hlist : book.list log = .ok strategies)
    (source : PriceSource α) (schedule : Schedule)
    (settings : BacktestSettings α) (readings : Nat → Moment) (start : Nat) :
    let os :=
      outcomes row (runOne source schedule settings) readings start strategies
    ∃ log' added,
        (book.runSaved (ticking readings) source schedule settings log).run
            start =
          (.ok (log', .ofOutcomes os), start + strategies.length) ∧
        rows log' = rows log ++ added ∧
        RowsOf row (BatchSummary.ofOutcomes os).succeeded added := by
  intro os
  obtain ⟨log', added, hfold, hrows, hadded⟩ :=
    foldlM_step (runOne source schedule settings) hbook readings strategies log
      ⟨[], []⟩ start
  refine ⟨log', added, ?_, hrows, hadded⟩
  have hempty :
      (⟨[], []⟩ : BatchSummary α) ++ .ofOutcomes os = .ofOutcomes os := rfl
  rw [hempty] at hfold
  simp only [StrategyBook.runSaved, hlist, StateT.run_bind, runEach]
  rw [hfold]
  rfl

/-- A batch comes to an end and leaves no strategy out, it records the runs that
succeeded and nothing else, and what a strategy comes to is what it comes to in
a batch of its own. -/
theorem StrategyBook.runSaved_isolates
    (hbook : book.Keeps rows row)
    {log : σ} {strategies : List StoredStrategy}
    (hlist : book.list log = .ok strategies)
    (source : PriceSource α) (schedule : Schedule)
    (settings : BacktestSettings α) (readings : Nat → Moment) (start : Nat) :
    let os :=
      outcomes row (runOne source schedule settings) readings start strategies
    ∃ log' added,
        (book.runSaved (ticking readings) source schedule settings log).run
            start =
          (.ok (log', .ofOutcomes os), start + strategies.length) ∧
        os.map Prod.fst = strategies ∧
        (BatchSummary.ofOutcomes os).Covers strategies ∧
        rows log' = rows log ++ added ∧
        RowsOf row (BatchSummary.ofOutcomes os).succeeded added ∧
        ∀ (i : Nat) (t : StoredStrategy) (x : Except Failure (StrategyRun α)),
          os[i]? = some (t, x) →
          ∀ (alone : σ) (others : Nat → Moment) (tick : Nat),
            book.list alone = .ok [t] →
            (∀ r : StrategyRun α,
              SameOutcome (row (r.stamped (readings (start + i))))
                (row (r.stamped (others tick)))) →
            ∃ alone',
              (book.runSaved (ticking others) source schedule
                  settings alone).run tick =
                (.ok (alone',
                      .ofOutcomes
                        [(t, x.map fun r => r.stamped (others tick))]),
                  tick + 1) := by
  intro os
  obtain ⟨log', added, hrun, hrows, hadded⟩ :=
    runSaved_eq hbook hlist source schedule settings readings start
  have hfst : os.map Prod.fst = strategies :=
    map_fst_outcomes readings start strategies
  have hcovers : (BatchSummary.ofOutcomes os).Covers (os.map Prod.fst) :=
    (owned_outcomes source schedule settings readings start strategies).covers
  rw [hfst] at hcovers
  refine ⟨log', added, hrun, hfst, hcovers, hrows, hadded, ?_⟩
  intro i t x hplace alone others tick halone hrow
  obtain ⟨alone', _, hlone, _⟩ :=
    runSaved_eq hbook halone source schedule settings others tick
  refine ⟨alone', ?_⟩
  have hx := getElem?_outcomes hplace
  -- The two turns of the strategy differ in their times alone.
  have hturn : outcome row (runOne source schedule settings t (others tick)) =
      x.map fun r => r.stamped (others tick) := by
    rw [hx,
      runOne_stamped source schedule settings t (readings (start + i))
        (others tick)]
    exact outcome_stamped (runOne_stamped source schedule settings t _ _) hrow
  rw [hlone, outcomes_cons, hturn]
  rfl

end

/-! ## Stores -/

theorem Store.runs_of_recordRun [Scalar α] (s : Store α) (r : StrategyRun α) :
    (s.recordRun r).map Store.runs =
      (RunRow.ofRun r).map fun row => s.runs ++ [row] := by
  unfold Store.recordRun
  cases RunRow.ofRun r with
  | error e => rfl
  | ok row => rfl

theorem Store.book_keeps [Scalar α] :
    (Store.book (α := α)).Keeps Store.runs RunRow.ofRun :=
  Store.runs_of_recordRun

namespace OpenStore

variable [Scalar α]

/-- The row of a run in a store at work. -/
def rowOf (s : OpenStore α) (r : StrategyRun α) : Except Failure (RunRow α) :=
  if s.mayWrite then RunRow.ofRun r else .error Store.cannotKeep

theorem book_keeps (s : OpenStore α) : s.book.Keeps Store.runs s.rowOf := by
  intro log r
  by_cases hwrite : s.mayWrite = true
  · simpa only [book, OpenStore.recordRun, rowOf, hwrite, if_true]
      using log.runs_of_recordRun r
  · simp only [book, OpenStore.recordRun, rowOf, hwrite]
    rfl

/-- A batch at a store at work adds the rows of the runs that succeeded.  Where
the store may not be written, every strategy fails and the rows stay. -/
theorem runSaved_keeps (s : OpenStore α) {strategies : List StoredStrategy}
    (hlist : s.content.list = .ok strategies)
    (source : PriceSource α) (schedule : Schedule)
    (settings : BacktestSettings α) (readings : Nat → Moment) (start : Nat) :
    let os := Batch.outcomes s.rowOf (Batch.runOne source schedule settings)
      readings start strategies
    ∃ kept added,
      (s.book.runSaved (Batch.ticking readings) source schedule settings
          s.content).run start =
        (.ok (kept, .ofOutcomes os), start + strategies.length) ∧
      (BatchSummary.ofOutcomes os).Covers strategies ∧
      kept.runs = s.content.runs ++ added ∧
      Batch.RowsOf s.rowOf (BatchSummary.ofOutcomes os).succeeded added ∧
      (s.mayWrite = false →
        (BatchSummary.ofOutcomes os).succeeded = [] ∧
          kept.runs = s.content.runs) := by
  intro os
  obtain ⟨kept, added, hrun, hrows, hadded⟩ :=
    StrategyBook.runSaved_eq s.book_keeps hlist source schedule settings
      readings start
  have hcovers : (BatchSummary.ofOutcomes os).Covers (os.map Prod.fst) :=
    (Batch.owned_outcomes source schedule settings readings start
      strategies).covers
  rw [Batch.map_fst_outcomes] at hcovers
  refine ⟨kept, added, hrun, hcovers, hrows, hadded, ?_⟩
  intro hclosed
  have hrefused (r : StrategyRun α) : s.rowOf r = .error Store.cannotKeep := by
    rw [rowOf, hclosed]
    rfl
  change
    Batch.RowsOf s.rowOf (BatchSummary.ofOutcomes os).succeeded added at hadded
  cases hsucceeded : (BatchSummary.ofOutcomes os).succeeded with
  | nil =>
      rw [hsucceeded] at hadded
      cases hadded
      refine ⟨rfl, ?_⟩
      rw [hrows, List.append_nil]
  | cons r rs =>
      rw [hsucceeded] at hadded
      cases hadded with
      | cons hfirst _ =>
          rw [hrefused] at hfirst
          cases hfirst

end OpenStore

namespace StoredStrategy

def saturday : Moment := ⟨{ year := 2024, month := 3, day := 2 }, .midnight⟩

/-- A strategy whose rules are no document. -/
def torn : StoredStrategy := ⟨"1", "torn", "", saturday⟩

/-- A strategy that never trades. -/
def waiting : StoredStrategy := ⟨"2", "waiting", "{}", saturday⟩

theorem list_torn_waiting :
    (⟨[], [.ofStrategy torn, .ofStrategy waiting], []⟩ : Store Float).list =
      .ok [torn, waiting] := by
  have hlisted :
      StrategyRow.listedBefore (.ofStrategy torn)
        (.ofStrategy waiting) = true := by
    decide +kernel
  have hsorted : [StrategyRow.ofStrategy torn, .ofStrategy waiting].mergeSort
      StrategyRow.listedBefore = [.ofStrategy torn, .ofStrategy waiting] :=
    List.mergeSort_of_pairwise (by simpa using hlisted)
  rw [Store.list, hsorted]
  decide +kernel

end StoredStrategy

namespace Store

open StoredStrategy

theorem exists_run_waiting :
    ∃ (r : StrategyRun Float) (row : RunRow Float),
      Batch.runOne (.clipping [PriceRecord.friday]) {} ⟨1000, 0, none⟩
        waiting saturday = .ok r ∧
      RunRow.ofRun r = .ok row := by
  have hruns :
      ((Batch.runOne (.clipping [PriceRecord.friday]) {} ⟨1000, 0, none⟩
        waiting saturday).bind RunRow.ofRun).toOption.isSome = true := by
    decide +kernel
  obtain ⟨row, hrow⟩ := Option.isSome_iff_exists.mp hruns
  cases hkept : (Batch.runOne (.clipping [PriceRecord.friday]) {}
    ⟨1000, 0, none⟩ waiting saturday).bind RunRow.ofRun with
  | ok row =>
      obtain ⟨r, hrun, hrow⟩ := bind_eq_ok.mp hkept
      exact ⟨r, row, hrun, hrow⟩
  | error e =>
      rw [hkept] at hrow
      cases hrow

/-- The torn strategy fails, and the waiting one runs and is recorded, as it
would be alone. -/
theorem runSaved_isolates_waiting :
    ∃ (r : StrategyRun Float) (row : RunRow Float) (kept alone : Store Float),
      r.owner = waiting.owner ∧
      RunRow.ofRun r = .ok row ∧
      kept.runs = [row] ∧
      (Store.book.runSaved (Batch.ticking fun _ => saturday)
          (.clipping [PriceRecord.friday]) {} ⟨1000, 0, none⟩
          ⟨[], [.ofStrategy torn, .ofStrategy waiting], []⟩).run 0 =
        (.ok (kept, ⟨[r], [⟨"1", "torn", .malformedJson⟩]⟩), 2) ∧
      (Store.book.runSaved (Batch.ticking fun _ => saturday)
          (.clipping [PriceRecord.friday]) {} ⟨1000, 0, none⟩
          ⟨[], [.ofStrategy waiting], []⟩).run 0 =
        (.ok (alone, ⟨[r.stamped saturday], []⟩), 1) := by
  obtain ⟨r, row, hrun, hrow⟩ := exists_run_waiting
  have htorn :
      Batch.outcome RunRow.ofRun
          (Batch.runOne (.clipping [PriceRecord.friday]) {} ⟨1000, 0, none⟩
            torn saturday) =
        .error .malformedJson := by
    have hrules :
        Batch.runOne (.clipping [PriceRecord.friday]) {} ⟨1000, 0, none⟩
            torn saturday =
          .error .malformedJson := by
      decide +kernel
    rw [hrules]
    rfl
  have hwaiting :
      Batch.outcome RunRow.ofRun
        (Batch.runOne (.clipping [PriceRecord.friday]) {} ⟨1000, 0, none⟩
          waiting saturday) = .ok r :=
    bind_eq_ok.mpr ⟨r, hrun, bind_eq_ok.mpr ⟨row, hrow, rfl⟩⟩
  have hos :
      Batch.outcomes RunRow.ofRun
          (Batch.runOne (.clipping [PriceRecord.friday]) {} ⟨1000, 0, none⟩)
          (fun _ => saturday) 0 [torn, waiting] =
        [(torn, .error .malformedJson), (waiting, .ok r)] := by
    rw [Batch.outcomes_cons, Batch.outcomes_cons, htorn, hwaiting]
    rfl
  have halone :
      (⟨[], [.ofStrategy waiting], []⟩ : Store Float).list = .ok [waiting] := by
    rw [Store.list, List.mergeSort_singleton]
    decide +kernel
  obtain ⟨kept, added, hbatch, _, _, hrows, hadded, hlone⟩ :=
    StrategyBook.runSaved_isolates book_keeps list_torn_waiting
      (.clipping [PriceRecord.friday]) {} ⟨1000, 0, none⟩ (fun _ => saturday) 0
  rw [hos] at hbatch hadded hlone
  obtain ⟨alone, hlone⟩ :=
    hlone 1 waiting (.ok r) rfl ⟨[], [.ofStrategy waiting], []⟩
      (fun _ => saturday) 0 halone fun r => SameOutcome.refl _
  have hkept : kept.runs = [row] := by
    rw [hrows]
    cases hadded with
    | cons hfirst hrest =>
        cases hrest
        rw [hrow] at hfirst
        cases hfirst
        rfl
  exact ⟨r, row, kept, alone, Batch.owner_of_runOne hrun, hrow, hkept, hbatch,
    hlone⟩

end Store

end RuleBacktest
