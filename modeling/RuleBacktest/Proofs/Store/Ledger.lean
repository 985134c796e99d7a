import Mathlib.Data.List.Nodup
import Mathlib.Logic.Function.Basic
import RuleBacktest.Proofs.Keyed
import RuleBacktest.Proofs.Store.Row

/-!
# Stores as ledgers

Seen from outside, a store is a map from ids to strategies and, for each id, the
log of its runs.  Every operation answers as the ledger allows and changes the
tables as it changes the ledger; an operation that fails changes nothing.  So
the answers to any sequence of operations are those of a ledger that begins
empty.
-/

namespace RuleBacktest

open Calendar

variable {α : Type}

/-! ## Operations -/

inductive StoreOperation (α : Type) where
  | save (t : StoredStrategy)
  | get (id : String)
  | delete (id : String)
  | record (r : StrategyRun α)
  | list
  | runs (id : String)

inductive StoreAnswer (α : Type) where
  | done
  | strategy (t : StoredStrategy)
  | strategies (ts : List StoredStrategy)
  | runs (rs : List (StrategyRun α))

/-- The times that are put in have years with four digits. -/
def StoreOperation.HasPlainYears : StoreOperation α → Prop
  | save t => t.createdAt.HasPlainYear
  | record r => r.ranAt.HasPlainYear
  | _ => True

namespace Store

variable [Scalar α]

def perform (s : Store α) :
    StoreOperation α → Except Failure (Store α × StoreAnswer α)
  | .save t => (s.save t).map fun s' => (s', .done)
  | .get id => (s.get id).map fun t => (s, .strategy t)
  | .delete id => (s.delete id).map fun s' => (s', .done)
  | .record r => (s.recordRun r).map fun s' => (s', .done)
  | .list => s.list.map fun ts => (s, .strategies ts)
  | .runs id => (s.runsOf id).map fun rs => (s, .runs rs)

def answer (s : Store α) (op : StoreOperation α) :
    Except Failure (StoreAnswer α) :=
  (s.perform op).map Prod.snd

/-- The store after an operation, as it was if the operation failed. -/
def after (s : Store α) (op : StoreOperation α) : Store α :=
  match s.perform op with
  | .ok (s', _) => s'
  | .error _ => s

def answers (s : Store α) :
    List (StoreOperation α) → List (Except Failure (StoreAnswer α))
  | [] => []
  | op :: ops => s.answer op :: (s.after op).answers ops

def afterAll (s : Store α) (ops : List (StoreOperation α)) : Store α :=
  ops.foldl after s

end Store

/-! ## Ledgers -/

structure Ledger (α : Type) where
  strategies : String → Option StoredStrategy
  /-- The runs of an id, of which the one recorded last comes first. -/
  runs : String → List (StrategyRun α)

namespace Ledger

def empty : Ledger α := ⟨fun _ => none, fun _ => []⟩

def save (l : Ledger α) (t : StoredStrategy) : Ledger α :=
  { l with strategies := Function.update l.strategies t.id (some t.kept) }

def delete (l : Ledger α) (id : String) : Ledger α :=
  ⟨Function.update l.strategies id none, Function.update l.runs id []⟩

def record (l : Ledger α) (r : StrategyRun α) : Ledger α :=
  { l with
      runs := Function.update l.runs r.strategyId (r :: l.runs r.strategyId) }

/-- A list of all strategies, each once, by their times and then by their
names. -/
structure Lists (l : Ledger α) (ts : List StoredStrategy) : Prop where
  mem_iff : ∀ t, t ∈ ts ↔ l.strategies t.id = some t
  once : (ts.map StoredStrategy.id).Nodup
  ordered : ts.Pairwise StoredStrategy.ListedBefore

/-- A list of the runs of an id, the latest first, and among those of the same
time the one recorded last. -/
structure ListsRuns (l : Ledger α) (id : String) (rs : List (StrategyRun α)) :
    Prop where
  perm : rs.Perm (l.runs id)
  ordered : rs.Pairwise fun a b => b.ranAt ≤ a.ranAt
  same_time : ∀ time, rs.filter (fun r => r.ranAt = time) =
    (l.runs id).filter fun r => r.ranAt = time

variable [Scalar α]

/-- What an operation may answer and what becomes of the ledger. -/
inductive Step (l : Ledger α) :
    StoreOperation α → Except Failure (StoreAnswer α) → Ledger α → Prop where
  | save {t : StoredStrategy} : l.strategies t.id = none →
      Step l (.save t) (.ok .done) (l.save t)
  | saveTaken {t : StoredStrategy} : l.strategies t.id ≠ none →
      Step l (.save t) (.error Store.idTaken) l
  | get {id : String} {t : StoredStrategy} : l.strategies id = some t →
      Step l (.get id) (.ok (.strategy t)) l
  | getUnknown {id : String} : l.strategies id = none →
      Step l (.get id) (.error (.strategyNotFound id)) l
  | delete {id : String} : l.strategies id ≠ none →
      Step l (.delete id) (.ok .done) (l.delete id)
  | deleteUnknown {id : String} : l.strategies id = none →
      Step l (.delete id) (.error (.strategyNotFound id)) l
  | record {r kept : StrategyRun α} : r.kept? = some kept →
      Step l (.record r) (.ok .done) (l.record kept)
  | recordRefused {r : StrategyRun α} {column : String} : r.kept? = none →
      Step l (.record r) (.error (missingValue column)) l
  | list {ts : List StoredStrategy} : l.Lists ts →
      Step l .list (.ok (.strategies ts)) l
  | runs {id : String} {rs : List (StrategyRun α)} : l.ListsRuns id rs →
      Step l (.runs id) (.ok (.runs rs)) l

inductive Trace :
    Ledger α → List (StoreOperation α) →
      List (Except Failure (StoreAnswer α)) → Ledger α → Prop where
  | nil {l : Ledger α} : Trace l [] [] l
  | cons {l l' l'' : Ledger α} {op : StoreOperation α}
      {answer : Except Failure (StoreAnswer α)}
      {ops : List (StoreOperation α)}
      {answers : List (Except Failure (StoreAnswer α))} :
      Step l op answer l' →
      Trace l' ops answers l'' →
      Trace l (op :: ops) (answer :: answers) l''

end Ledger

/-! ## What a store stands for -/

/-- The tables of a store and the ledger that they stand for. -/
structure Store.Represents (s : Store α) (l : Ledger α) : Prop where
  strategies : ∃ saved : List StoredStrategy,
    s.strategies = saved.map StrategyRow.ofStrategy ∧
    (saved.map StoredStrategy.id).Nodup ∧
    (∀ t ∈ saved, t.createdAt.HasPlainYear) ∧
    ∀ id, l.strategies id =
      (saved.find? fun t => t.id == id).map StoredStrategy.kept
  runs : ∃ recorded : List (RunRow α × StrategyRun α),
    s.runs = recorded.map Prod.fst ∧
    (∀ e ∈ recorded, e.1.Keeps e.2) ∧
    ∀ id, l.runs id =
      ((recorded.map Prod.snd).filter fun r => r.strategyId == id).reverse

namespace Store.Represents

variable {s : Store α} {l : Ledger α}

theorem find?_eq (h : s.Represents l) (id : String) :
    ∃ found : Option StoredStrategy,
      (s.strategies.find? fun row => row.id == id) =
        found.map StrategyRow.ofStrategy ∧
      l.strategies id = found.map StoredStrategy.kept ∧
      ∀ t, found = some t → t.createdAt.HasPlainYear := by
  obtain ⟨saved, hrows, _, hyears, hfind⟩ := h.strategies
  refine ⟨saved.find? fun t => t.id == id, ?_, hfind id, ?_⟩
  · rw [hrows, List.find?_map]
    rfl
  · intro t ht
    exact hyears t (List.mem_of_find?_eq_some ht)

theorem get_eq (h : s.Represents l) (id : String) :
    s.get id = match l.strategies id with
      | some t => .ok t
      | none => .error (.strategyNotFound id) := by
  obtain ⟨found, hrow, hfound, hyears⟩ := h.find?_eq id
  rw [Store.get, hrow, hfound]
  cases found with
  | none => rfl
  | some t => exact StrategyRow.strategy_ofStrategy (hyears t rfl)

theorem any_id_iff (h : s.Represents l) (id : String) :
    (s.strategies.any fun row => row.id == id) = true ↔
      l.strategies id ≠ none := by
  obtain ⟨found, hrow, hfound, _⟩ := h.find?_eq id
  rw [← List.isSome_find?, hrow, hfound]
  cases found with
  | none => simp
  | some t => simp

theorem empty (prices : List (PriceRow α)) :
    Represents ⟨prices, [], []⟩ (Ledger.empty : Ledger α) where
  strategies := by
    refine ⟨[], rfl, List.nodup_nil, by simp, ?_⟩
    intro id
    rfl
  runs := by
    refine ⟨[], rfl, by simp, ?_⟩
    intro id
    rfl

theorem save
    (h : s.Represents l)
    {t : StoredStrategy}
    (hid : l.strategies t.id = none)
    (hyear : t.createdAt.HasPlainYear) :
    Represents { s with strategies := s.strategies ++ [.ofStrategy t] }
      (l.save t) where
  strategies := by
    obtain ⟨saved, hrows, hnodup, hyears, hfind⟩ := h.strategies
    have hnew : saved.find? (fun t' => t'.id == t.id) = none := by
      have hnone := hfind t.id
      rw [hid] at hnone
      exact Option.map_eq_none_iff.mp hnone.symm
    refine ⟨saved ++ [t], by simp [hrows], ?_, ?_, ?_⟩
    · rw [List.map_append, List.nodup_append]
      refine ⟨hnodup, by simp, ?_⟩
      rintro id hmem id' hmem' rfl
      obtain ⟨t', ht', hidt⟩ := List.mem_map.mp hmem
      have hother := List.find?_eq_none.mp hnew t' ht'
      have hsame : id = t.id := by simpa using hmem'
      exact hother (by simp [hidt, hsame])
    · intro t' ht'
      rcases List.mem_append.mp ht' with hold | hlast
      · exact hyears t' hold
      · rw [List.mem_singleton.mp hlast]
        exact hyear
    · intro id
      by_cases hsame : id = t.id
      · rw [hsame, List.find?_append, hnew]
        simp [Ledger.save]
      · have hother : (t.id == id) = false := by simpa using Ne.symm hsame
        have hlast : [t].find? (fun t' => t'.id == id) = none := by
          simp [hother]
        rw [List.find?_append, hlast, Option.or_none, ← hfind id]
        exact Function.update_of_ne hsame _ _
  runs := h.runs

theorem delete (h : s.Represents l) (id : String) :
    ((s.deleteStrategies id).2.deleteRuns id).Represents (l.delete id) where
  strategies := by
    obtain ⟨saved, hrows, hnodup, hyears, hfind⟩ := h.strategies
    have hkept : (saved.filter fun t => t.id != id).Sublist saved :=
      List.filter_sublist
    refine ⟨saved.filter fun t => t.id != id, ?_, ?_, ?_, ?_⟩
    · simp only [deleteStrategies, deleteRuns, hrows, List.filter_map]
      rfl
    · exact hnodup.sublist (hkept.map _)
    · intro t ht
      exact hyears t (hkept.subset ht)
    · intro id'
      by_cases hsame : id' = id
      · rw [hsame, find?_filter_key_self StoredStrategy.id]
        exact Function.update_self _ _ _
      · rw [find?_filter_key_of_ne StoredStrategy.id hsame, ← hfind id']
        exact Function.update_of_ne hsame _ _
  runs := by
    obtain ⟨recorded, hrows, hkeeps, hruns⟩ := h.runs
    refine ⟨recorded.filter fun e => e.1.strategyId != id, ?_, ?_, ?_⟩
    · simp only [deleteStrategies, deleteRuns, hrows, List.filter_map]
      rfl
    · intro e he
      exact hkeeps e (List.mem_filter.mp he).1
    · intro id'
      have hsame_id : (recorded.filter fun e => e.1.strategyId != id) =
          recorded.filter
            ((fun r : StrategyRun α => r.strategyId != id) ∘ Prod.snd) := by
        apply List.filter_congr
        intro e he
        rw [(hkeeps e he).id]
        rfl
      rw [hsame_id, ← List.filter_map]
      by_cases hsame : id' = id
      · rw [hsame, filter_filter_key_self StrategyRun.strategyId]
        exact Function.update_self _ _ _
      · rw [filter_filter_key_of_ne StrategyRun.strategyId hsame, ← hruns id']
        exact Function.update_of_ne hsame _ _

theorem record (h : s.Represents l) {row : RunRow α} {kept : StrategyRun α}
    (hkeeps : row.Keeps kept) :
    Represents { s with runs := s.runs ++ [row] } (l.record kept) where
  strategies := h.strategies
  runs := by
    obtain ⟨recorded, hrows, hall, hruns⟩ := h.runs
    refine ⟨recorded ++ [(row, kept)], by simp [hrows], ?_, ?_⟩
    · intro e he
      rcases List.mem_append.mp he with hold | hlast
      · exact hall e hold
      · rw [List.mem_singleton.mp hlast]
        exact hkeeps
    · intro id
      rw [List.map_append, List.filter_append, List.reverse_append, ← hruns id]
      by_cases hsame : id = kept.strategyId
      · simp [Ledger.record, hsame]
      · have hother : (kept.strategyId == id) = false := by
          simpa using Ne.symm hsame
        simp [Ledger.record, hother, hsame]

/-- The rows of strategies in the order of the list are read as all strategies
in order. -/
theorem lists (h : s.Represents l) : ∃ ts, s.list = .ok ts ∧ l.Lists ts := by
  obtain ⟨saved, hrows, hnodup, hyears, hfind⟩ := h.strategies
  let before : StoredStrategy → StoredStrategy → Bool := fun a b =>
    StrategyRow.listedBefore (.ofStrategy a) (.ofStrategy b)
  have hperm : (saved.mergeSort before).Perm saved :=
    List.mergeSort_perm saved before
  have hsorted : s.strategies.mergeSort StrategyRow.listedBefore =
      (saved.mergeSort before).map StrategyRow.ofStrategy := by
    rw [hrows]
    exact (List.map_mergeSort (r := before) (f := StrategyRow.ofStrategy)
        fun _ _ _ _ => rfl).symm
  have hlist : s.list =
      .ok ((saved.mergeSort before).map StoredStrategy.kept) := by
    rw [Store.list, hsorted]
    apply mapM_map_eq_ok
    intro t ht
    exact StrategyRow.strategy_ofStrategy (hyears t (hperm.mem_iff.mp ht))
  refine ⟨_, hlist, ?_, ?_, ?_⟩
  · intro t
    rw [hfind t.id]
    constructor
    · intro ht
      obtain ⟨t', ht', rfl⟩ := List.mem_map.mp ht
      have hmem := hperm.mem_iff.mp ht'
      have hsome : (saved.find? fun x => x.id == t'.id).isSome = true :=
        List.find?_isSome.mpr ⟨t', hmem, by simp⟩
      obtain ⟨x, hx⟩ := Option.isSome_iff_exists.mp hsome
      have hid : x.id = t'.id := by simpa using List.find?_some hx
      have hsame :=
        List.inj_on_of_nodup_map hnodup (List.mem_of_find?_eq_some hx) hmem hid
      rw [StoredStrategy.id_kept, hx, hsame]
      rfl
    · intro ht
      obtain ⟨t', hfound, rfl⟩ := Option.map_eq_some_iff.mp ht
      exact List.mem_map_of_mem
        (hperm.mem_iff.mpr (List.mem_of_find?_eq_some hfound))
  · have hids :
        ((saved.mergeSort before).map StoredStrategy.kept).map
            StoredStrategy.id =
          (saved.mergeSort before).map StoredStrategy.id := by
      rw [List.map_map]
      rfl
    rw [hids]
    exact (hperm.map StoredStrategy.id).nodup_iff.mpr hnodup
  · rw [List.pairwise_map]
    have hpairwise : (saved.mergeSort before).Pairwise fun a b =>
      before a b = true := by
      apply List.pairwise_mergeSort
      · intro a b c
        exact StrategyRow.listedBefore_trans _ _ _
      · intro a b
        exact StrategyRow.listedBefore_total _ _
    apply hpairwise.imp_of_mem
    intro a b ha hb hab
    exact StrategyRow.kept_listedBefore (hyears a (hperm.mem_iff.mp ha))
      (hyears b (hperm.mem_iff.mp hb)) hab

theorem listsRuns (h : s.Represents l) (id : String) :
    ∃ rs, s.runsOf id = .ok rs ∧ l.ListsRuns id rs := by
  obtain ⟨recorded, hrows, hkeeps, hruns⟩ := h.runs
  let entries := (recorded.filter fun e => e.2.strategyId == id).reverse
  let later : RunRow α × StrategyRun α → RunRow α × StrategyRun α → Bool :=
    fun d e =>
    d.2.isLater e.2
  have hentries : ∀ e ∈ entries, e.1.Keeps e.2 := by
    intro e he
    exact hkeeps e (List.mem_filter.mp (List.mem_reverse.mp he)).1
  have hfiltered : (s.runs.filter fun row => row.strategyId == id).reverse =
      entries.map Prod.fst := by
    rw [hrows, List.filter_map, List.map_reverse]
    congr 2
    apply List.filter_congr
    intro e he
    simp [(hkeeps e he).id]
  have hlogged : entries.map Prod.snd = l.runs id := by
    rw [hruns id, List.filter_map, List.map_reverse]
    rfl
  -- Rows are sorted by the texts of their times, and runs by their times.
  have hsorted :
      (entries.map Prod.fst).mergeSort (fun a b => decide (b.ranAt ≤ a.ranAt)) =
        (entries.mergeSort later).map Prod.fst := by
    symm
    apply List.map_mergeSort
    intro d hd e he
    exact decide_eq_decide.mpr
      ((hentries e he).ranAt_le_iff (hentries d hd)).symm
  have hread : (entries.mergeSort later).map Prod.snd =
      (l.runs id).mergeSort StrategyRun.isLater := by
    rw [← hlogged]
    exact List.map_mergeSort fun _ _ _ _ => rfl
  have hruns : s.runsOf id =
      .ok ((l.runs id).mergeSort StrategyRun.isLater) := by
    rw [Store.runsOf, hfiltered, hsorted, ← hread]
    apply mapM_map_eq_ok
    intro e he
    exact (hentries e (List.mem_mergeSort.mp he)).run
  have hsorts : SortsBy (@StrategyRun.isLater α) StrategyRun.ranAt :=
    StrategyRun.sortsBy_isLater
  refine ⟨_, hruns, List.mergeSort_perm _ _, ?_, hsorts.filter_mergeSort _⟩
  exact (hsorts.pairwise_mergeSort _).imp fun hab => of_decide_eq_true hab

end Store.Represents

/-! ## Answers -/

namespace Store

variable [Scalar α] {s : Store α} {l : Ledger α}

theorem answer_of_ok {op : StoreOperation α} {s' : Store α} {a : StoreAnswer α}
    (hperform : s.perform op = .ok (s', a)) : s.answer op = .ok a := by
  rw [answer, hperform]
  rfl

theorem after_of_ok {op : StoreOperation α} {s' : Store α} {a : StoreAnswer α}
    (hperform : s.perform op = .ok (s', a)) : s.after op = s' := by
  rw [after, hperform]

theorem answer_of_error {op : StoreOperation α} {e : Failure}
    (hperform : s.perform op = .error e) : s.answer op = .error e := by
  rw [answer, hperform]
  rfl

theorem after_of_error {op : StoreOperation α} {e : Failure}
    (hperform : s.perform op = .error e) : s.after op = s := by
  rw [after, hperform]

theorem step_of_ok {op : StoreOperation α} {s' : Store α} {a : StoreAnswer α}
    {l' : Ledger α}
    (hperform : s.perform op = .ok (s', a))
    (hstep : l.Step op (.ok a) l')
    (hnext : s'.Represents l') :
    ∃ l', l.Step op (s.answer op) l' ∧ (s.after op).Represents l' := by
  rw [answer_of_ok hperform, after_of_ok hperform]
  exact ⟨l', hstep, hnext⟩

theorem step_of_error {op : StoreOperation α} {e : Failure}
    (hperform : s.perform op = .error e)
    (hstep : l.Step op (.error e) l)
    (h : s.Represents l) :
    ∃ l', l.Step op (s.answer op) l' ∧ (s.after op).Represents l' := by
  rw [answer_of_error hperform, after_of_error hperform]
  exact ⟨l, hstep, h⟩

/-- An id without a strategy is not found, whatever runs it has. -/
theorem perform_unknown
    (h : s.Represents l)
    {id : String}
    (hid : l.strategies id = none) :
    s.perform (.get id) = .error (.strategyNotFound id) ∧
      s.perform (.delete id) = .error (.strategyNotFound id) := by
  have hget : s.get id = .error (.strategyNotFound id) := by
    rw [h.get_eq, hid]
  have hdelete : s.delete id = .error (.strategyNotFound id) := by
    have hany := (h.any_id_iff id).not_left.mpr hid
    have hnone : (s.strategies.filter fun row => row.id == id).length = 0 := by
      simpa using hany
    simp only [delete, deleteStrategies, hnone, if_true]
  simp only [perform, hget, hdelete]
  exact ⟨rfl, rfl⟩

theorem perform_delete
    (h : s.Represents l)
    {id : String}
    (hid : l.strategies id ≠ none) :
    s.perform (.delete id) =
      .ok ((s.deleteStrategies id).2.deleteRuns id, .done) := by
  have hany := (h.any_id_iff id).mpr hid
  have hdeleted : (s.deleteStrategies id).1 ≠ 0 := by
    simpa [deleteStrategies] using hany
  have hdelete : s.delete id = .ok ((s.deleteStrategies id).2.deleteRuns id) :=
    if_neg hdeleted
  rw [perform, hdelete]
  rfl

theorem perform_step
    (h : s.Represents l)
    {op : StoreOperation α}
    (hop : op.HasPlainYears) :
    ∃ l', l.Step op (s.answer op) l' ∧ (s.after op).Represents l' := by
  cases op with
  | save t =>
      by_cases hid : l.strategies t.id = none
      · have hany : ¬ (s.strategies.any fun row => row.id == t.id) = true :=
          (h.any_id_iff t.id).not_left.mpr hid
        have hsave : s.perform (.save t) =
            .ok ({ s with strategies := s.strategies ++ [.ofStrategy t] },
                .done) := by
          rw [perform, Store.save, if_neg hany]
          rfl
        exact step_of_ok hsave (Ledger.Step.save hid) (h.save hid hop)
      · have hsave : s.perform (.save t) = .error idTaken := by
          rw [perform, Store.save, if_pos ((h.any_id_iff t.id).mpr hid)]
          rfl
        exact step_of_error hsave (Ledger.Step.saveTaken hid) h
  | get id =>
      cases hid : l.strategies id with
      | none =>
          exact step_of_error (perform_unknown h hid).1
            (Ledger.Step.getUnknown hid) h
      | some t =>
          have hget : s.perform (.get id) = .ok (s, .strategy t) := by
            rw [perform, h.get_eq, hid]
            rfl
          exact step_of_ok hget (Ledger.Step.get hid) h
  | delete id =>
      by_cases hid : l.strategies id = none
      · exact step_of_error (perform_unknown h hid).2
          (Ledger.Step.deleteUnknown hid) h
      · exact step_of_ok (perform_delete h hid) (Ledger.Step.delete hid)
          (h.delete id)
  | record r =>
      rcases RunRow.ofRun_cases r hop with
        ⟨row, kept, hrow, hkept, hkeeps⟩ | ⟨column, hrow, hkept⟩
      · have hrecord : s.perform (.record r) =
            .ok ({ s with runs := s.runs ++ [row] }, .done) := by
          rw [perform, Store.recordRun, hrow]
          rfl
        exact step_of_ok hrecord (Ledger.Step.record hkept) (h.record hkeeps)
      · have hrecord : s.perform (.record r) =
            .error (missingValue column) := by
          rw [perform, Store.recordRun, hrow]
          rfl
        exact step_of_error hrecord (Ledger.Step.recordRefused hkept) h
  | list =>
      obtain ⟨ts, hts, hlists⟩ := h.lists
      have hlist : s.perform .list = .ok (s, .strategies ts) := by
        rw [perform, hts]
        rfl
      exact step_of_ok hlist (Ledger.Step.list hlists) h
  | runs id =>
      obtain ⟨rs, hrs, hlists⟩ := h.listsRuns id
      have hruns : s.perform (.runs id) = .ok (s, .runs rs) := by
        rw [perform, hrs]
        rfl
      exact step_of_ok hruns (Ledger.Step.runs hlists) h

theorem trace_answers (h : s.Represents l) {ops : List (StoreOperation α)}
    (hops : ∀ op ∈ ops, op.HasPlainYears) :
    ∃ l', l.Trace ops (s.answers ops) l' ∧ (s.afterAll ops).Represents l' := by
  -- What the store stands for is known again after every operation.
  induction ops generalizing s l with
  | nil => exact ⟨l, Ledger.Trace.nil, h⟩
  | cons op ops ih =>
      obtain ⟨l₁, hstep, hnext⟩ := perform_step h (hops op List.mem_cons_self)
      obtain ⟨l₂, htrace, hlast⟩ :=
        ih hnext fun op' hop' => hops op' (List.mem_cons_of_mem op hop')
      exact ⟨l₂, Ledger.Trace.cons hstep htrace, hlast⟩

theorem prices_after (s : Store α) (op : StoreOperation α) :
    (s.after op).prices = s.prices := by
  have hperform : ∀ s' a, s.perform op = .ok (s', a) →
      s'.prices = s.prices := by
    intro s' a h
    cases op with
    | save t =>
        obtain ⟨s₁, hsave, hpair⟩ := map_eq_ok.mp h
        cases hpair
        unfold Store.save at hsave
        split at hsave
        · cases hsave
        · cases hsave
          rfl
    | get id =>
        obtain ⟨t, _, hpair⟩ := map_eq_ok.mp h
        cases hpair
        rfl
    | delete id =>
        obtain ⟨s₁, hdelete, hpair⟩ := map_eq_ok.mp h
        cases hpair
        simp only [Store.delete] at hdelete
        split at hdelete
        · cases hdelete
        · cases hdelete
          rfl
    | record r =>
        obtain ⟨s₁, hrecord, hpair⟩ := map_eq_ok.mp h
        cases hpair
        obtain ⟨row, _, hrow⟩ := bind_eq_ok.mp hrecord
        cases hrow
        rfl
    | list =>
        obtain ⟨ts, _, hpair⟩ := map_eq_ok.mp h
        cases hpair
        rfl
    | runs id =>
        obtain ⟨rs, _, hpair⟩ := map_eq_ok.mp h
        cases hpair
        rfl
  unfold after
  cases h : s.perform op with
  | ok result => exact hperform result.1 result.2 h
  | error e => rfl

theorem prices_afterAll (s : Store α) (ops : List (StoreOperation α)) :
    (s.afterAll ops).prices = s.prices := by
  induction ops generalizing s with
  | nil => rfl
  | cons op ops ih => exact (ih (s.after op)).trans (prices_after s op)

/-- Whatever is done to a store without strategies and runs, it answers as a
ledger does and its tables stand for the ledger.  A strategy that is deleted
goes with its runs and nothing else, and of one that is unknown nothing is
deleted. -/
theorem answers_refine_ledger (prices : List (PriceRow α))
    {ops : List (StoreOperation α)}
    (hops : ∀ op ∈ ops, op.HasPlainYears) :
    let start : Store α := ⟨prices, [], []⟩
    let s := start.afterAll ops
    ∃ l,
        Ledger.empty.Trace ops (start.answers ops) l ∧
        s.Represents l ∧
        s.prices = prices ∧
        ∀ id,
          (l.strategies id ≠ none →
            s.answer (.delete id) = .ok .done ∧
              s.after (.delete id) =
                ⟨prices, s.strategies.filter fun row => row.id != id,
                  s.runs.filter fun row => row.strategyId != id⟩) ∧
          (l.strategies id = none →
            s.answer (.get id) = .error (.strategyNotFound id) ∧
              s.after (.get id) = s ∧
              s.answer (.delete id) = .error (.strategyNotFound id) ∧
              s.after (.delete id) = s) := by
  intro start s
  obtain ⟨l, htrace, hrep⟩ := trace_answers (Represents.empty prices) hops
  have hprices : s.prices = prices := prices_afterAll start ops
  refine ⟨l, htrace, hrep, hprices, ?_⟩
  intro id
  constructor
  · intro hid
    have hdelete := perform_delete hrep hid
    have htables : (s.deleteStrategies id).2.deleteRuns id =
        ⟨s.prices, s.strategies.filter fun row => row.id != id,
          s.runs.filter fun row => row.strategyId != id⟩ :=
      rfl
    rw [hprices] at htables
    exact ⟨answer_of_ok hdelete, (after_of_ok hdelete).trans htables⟩
  · intro hid
    obtain ⟨hget, hdelete⟩ := perform_unknown hrep hid
    exact ⟨answer_of_error hget, after_of_error hget, answer_of_error hdelete,
      after_of_error hdelete⟩

def newYear : Moment := ⟨{ year := 2024, month := 1, day := 1 }, .midnight⟩

def held : StoredStrategy := ⟨"1", "held", "{}", newYear⟩

def heldRun (trades : Nat) : StrategyRun Float :=
  ⟨"1", "held", "ACME", "1d", "1d", 0, trades, 0, newYear⟩

theorem hasPlainYear_newYear : newYear.HasPlainYear := by
  constructor <;> decide

/-- The strategy is saved, run and deleted with its run, and cannot be deleted
again, although it has a run once more. -/
theorem answers_refine_ledger_held :
    ∃ l,
      (Ledger.empty : Ledger Float).Trace [.save held, .record (heldRun 3),
        .delete "1", .record (heldRun 4), .delete "1"] [.ok .done, .ok .done,
        .ok .done, .ok .done, .error (.strategyNotFound "1")] l := by
  let ops : List (StoreOperation Float) :=
    [.save held, .record (heldRun 3), .delete "1", .record (heldRun 4),
      .delete "1"]
  have hops : ∀ op ∈ ops, op.HasPlainYears := by
    simp [ops, StoreOperation.HasPlainYears, held, heldRun,
      hasPlainYear_newYear]
  have hanswers : (⟨[], [], []⟩ : Store Float).answers ops =
      [.ok .done, .ok .done, .ok .done, .ok .done,
        .error (.strategyNotFound "1")] := by
    rfl
  obtain ⟨l, htrace, _⟩ :=
    answers_refine_ledger ([] : List (PriceRow Float)) hops
  rw [hanswers] at htrace
  exact ⟨l, htrace⟩

theorem answers_record_runs {r kept : StrategyRun α}
    (hyear : r.ranAt.HasPlainYear)
    (hkept : r.kept? = some kept) :
    (empty : Store α).answers [.record r, .runs kept.strategyId] =
      [.ok .done, .ok (.runs [kept])] := by
  rcases RunRow.ofRun_cases r hyear with ⟨row, kept', hrow, hkept', hkeeps⟩ |
    ⟨_, _, hnone⟩
  · have hsame : kept' = kept := Option.some.inj (hkept'.symm.trans hkept)
    rw [hsame] at hkeeps
    have hrecord : (empty : Store α).perform (.record r) =
        .ok (⟨[], [], [row]⟩, .done) := by
      rw [perform, recordRun, hrow]
      rfl
    have hruns :
        (⟨[], [], [row]⟩ : Store α).runsOf kept.strategyId = .ok [kept] := by
      have hrows :
          ([row].filter fun row =>
            row.strategyId == kept.strategyId).reverse = [row] := by
        simp [hkeeps.id]
      rw [runsOf, hrows, List.mergeSort_singleton, List.mapM_cons, hkeeps.run]
      rfl
    have hanswer : (⟨[], [], [row]⟩ : Store α).answer (.runs kept.strategyId) =
        .ok (.runs [kept]) := by
      rw [answer, perform, hruns]
      rfl
    rw [answers, answer_of_ok hrecord, after_of_ok hrecord, answers, hanswer,
      answers]
  · rw [hkept] at hnone
    cases hnone

/-- A run with a count beyond 63 bits is not listed as it was recorded. -/
theorem listed_count_of_large_count :
    newYear.HasPlainYear ∧
      newYear = newYear.wholeSeconds ∧
      (empty : Store Float).answers
          [.record (heldRun 9223372036854775808), .runs "1"] =
        [.ok .done, .ok (.runs [heldRun 0])] ∧
      heldRun 0 ≠ heldRun 9223372036854775808 := by
  have hcount : keptCount 9223372036854775808 = 0 := by
    decide +kernel
  have hkept : (heldRun 9223372036854775808).kept? =
      some (heldRun (keptCount 9223372036854775808)) := by
    rfl
  rw [hcount] at hkept
  refine ⟨hasPlainYear_newYear, rfl,
    answers_record_runs hasPlainYear_newYear hkept, ?_⟩
  intro h
  have hcount := congrArg StrategyRun.totalTrades h
  cases hcount

end Store
end RuleBacktest
