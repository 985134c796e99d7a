import RuleBacktest.Backtest.Performance
import RuleBacktest.Proofs.Scalar.Exact

/-!
# The largest decline from a peak

One pass over the values keeps the greatest of them and the largest decline from
it.  In exact arithmetic this is the largest of all declines: at each place the
peak is the greatest value up to there.  Where no value is negative, no pair of
values declines by more, so that the peaks need not be known.
-/

namespace RuleBacktest

namespace Performance

variable {values : List ℝ} {x p d : ℝ} {s : ℝ × ℝ}

/-! ## Declines -/

/-- What is lost at some place against the greatest value up to it, as a
fraction of that peak. -/
def declinesFromPeak (values : List ℝ) : Set ℝ :=
  {d | ∃ (j : ℕ) (v p : ℝ),
      values[j]? = some v ∧
      IsGreatest {x | x ∈ values.take (j + 1)} p ∧
      0 < p ∧
      d = (p - v) / p}

/-- What is lost between a positive value and a value at the same place or
behind it. -/
def declinesOfPairs (values : List ℝ) : Set ℝ :=
  {d | ∃ (i j : ℕ) (before after : ℝ), i ≤ j ∧ values[i]? = some before ∧
    values[j]? = some after ∧ 0 < before ∧ d = (before - after) / before}

@[simp] theorem declinesFromPeak_nil : declinesFromPeak [] = ∅ := by
  simp [declinesFromPeak]

theorem declinesFromPeak_subset_append (values more : List ℝ) :
    declinesFromPeak values ⊆ declinesFromPeak (values ++ more) := by
  rintro d ⟨j, v, p, hv, hpeak, hpositive, hd⟩
  have hj : j < values.length := (List.getElem?_eq_some_iff.mp hv).1
  refine ⟨j, v, p, ?_, ?_, hpositive, hd⟩
  · rw [List.getElem?_append_left hj, hv]
  · rwa [List.take_append_of_le_length hj]

/-- The last value adds its decline from the greatest value of all, if this one
is positive. -/
theorem declinesFromPeak_concat (hpeak : IsGreatest {y | y ∈ values ++ [x]} p) :
    declinesFromPeak (values ++ [x]) =
      declinesFromPeak values ∪ {d | 0 < p ∧ d = (p - x) / p} := by
  have hlast : (values ++ [x])[values.length]? = some x := by simp
  have hwhole : (values ++ [x]).take (values.length + 1) = values ++ [x] :=
    List.take_of_length_le (by simp)
  ext d
  constructor
  · rintro ⟨j, v, q, hv, hq, hpositive, rfl⟩
    rcases Nat.lt_or_ge j values.length with hj | hj
    · rw [List.getElem?_append_left hj] at hv
      rw [List.take_append_of_le_length hj] at hq
      exact Or.inl ⟨j, v, q, hv, hq, hpositive, rfl⟩
    · obtain rfl : j = values.length := by
        have hlt := (List.getElem?_eq_some_iff.mp hv).1
        rw [List.length_append, List.length_singleton] at hlt
        omega
      rw [hwhole] at hq
      obtain rfl : v = x := Option.some.inj (hv.symm.trans hlast)
      obtain rfl : q = p := hq.unique hpeak
      exact Or.inr ⟨hpositive, rfl⟩
  · rintro (hd | ⟨hpositive, hd⟩)
    · exact declinesFromPeak_subset_append values [x] hd
    · exact ⟨values.length, x, p, hlast, by rwa [hwhole], hpositive, hd⟩

/-! ## The pass -/

/-- A value above the peak declines by nothing from the peak that it becomes. -/
theorem declineStep_eq (hdecline : 0 ≤ s.2) (x : ℝ) :
    declineStep s x =
      (max s.1 x,
        if 0 < max s.1 x then max s.2 ((max s.1 x - x) / max s.1 x)
        else s.2) := by
  by_cases hpeak : s.1 < x
  · simp [declineStep, hpeak, hpeak.le, hdecline]
  · by_cases hpositive : 0 < s.1
    · simp [declineStep, hpeak, hpositive, not_lt.mp hpeak, Scalar.real_larger]
    · simp [declineStep, hpeak, hpositive, not_lt.mp hpeak]

/-- What the pass knows of the values so far. -/
structure Tracks (values : List ℝ) (s : ℝ × ℝ) : Prop where
  peak : IsGreatest {x | x ∈ values} s.1
  decline : IsGreatest (insert 0 (declinesFromPeak values)) s.2

theorem Tracks.step (h : Tracks values s) (x : ℝ) :
    Tracks (values ++ [x]) (declineStep s x) := by
  have hpeak : IsGreatest {y | y ∈ values ++ [x]} (max s.1 x) := by
    have hinsert : {y | y ∈ values ++ [x]} = insert x {y | y ∈ values} := by
      ext y
      simp [or_comm]
    rw [hinsert, max_comm]
    exact h.peak.insert x
  rw [declineStep_eq (h.decline.2 (Set.mem_insert 0 _))]
  refine ⟨hpeak, ?_⟩
  rw [declinesFromPeak_concat hpeak]
  by_cases hpositive : 0 < max s.1 x
  · simp only [hpositive, true_and, if_true, Set.ofPred_eq_eq_singleton,
      Set.union_singleton]
    rw [Set.insert_comm, max_comm s.2]
    exact h.decline.insert _
  · simpa only [hpositive, false_and, if_false, Set.ofPred_false,
      Set.union_empty] using h.decline

theorem Tracks.foldl (h : Tracks values s) (more : List ℝ) :
    Tracks (values ++ more) (more.foldl declineStep s) := by
  induction more generalizing values s with
  | nil => simpa using h
  | cons x more ih =>
      rw [List.foldl_cons, List.append_cons]
      exact ih (h.step x)

theorem isGreatest_insert_zero_iff {declines : Set ℝ} :
    IsGreatest (insert 0 declines) 0 ↔ ∀ d ∈ declines, d ≤ 0 := by
  constructor
  · exact fun h d hd => h.2 (Set.mem_insert_of_mem 0 hd)
  · intro h
    refine ⟨Set.mem_insert 0 _, ?_⟩
    rintro d (rfl | hd)
    · exact le_rfl
    · exact h d hd

theorem declineStep_self (x : ℝ) : declineStep (x, 0) x = (x, 0) := by
  rw [declineStep_eq le_rfl]
  simp

theorem tracks_singleton (x : ℝ) : Tracks [x] (x, 0) := by
  have hpeak : IsGreatest {y | y ∈ [] ++ [x]} x := by simp
  refine ⟨hpeak, ?_⟩
  rw [isGreatest_insert_zero_iff, ← List.nil_append [x],
    declinesFromPeak_concat hpeak]
  rintro d (hd | ⟨-, rfl⟩)
  · simp at hd
  · simp

theorem tracks_cons (first : ℝ) (rest : List ℝ) :
    Tracks (first :: rest) (rest.foldl declineStep (first, 0)) := by
  have hfirst := tracks_singleton first
  exact hfirst.foldl rest

theorem maxDrawdownOf_cons (first : ℝ) (rest : List ℝ) :
    maxDrawdownOf (first :: rest) =
      100 * (rest.foldl declineStep (first, 0)).2 := by
  rw [maxDrawdownOf, List.foldl_cons, Scalar.real_zero, declineStep_self,
    Scalar.real_mul, mul_comm]

/-- The result is the largest decline from a peak in percent, and zero where
there is none. -/
theorem exists_isGreatest_declinesFromPeak (values : List ℝ) :
    ∃ m, maxDrawdownOf values = 100 * m ∧
      IsGreatest (insert 0 (declinesFromPeak values)) m := by
  cases values with
  | nil => exact ⟨0, by simp [maxDrawdownOf], by simp⟩
  | cons first rest =>
      exact ⟨_, maxDrawdownOf_cons first rest, (tracks_cons first rest).decline⟩

/-! ## Pairs of values -/

theorem mem_take_succ_iff {j : ℕ} :
    x ∈ values.take (j + 1) ↔ ∃ i ≤ j, values[i]? = some x := by
  simp only [List.mem_iff_getElem?, List.getElem?_take, Nat.lt_succ_iff]
  constructor
  · rintro ⟨i, hi⟩
    split at hi
    next hle => exact ⟨i, hle, hi⟩
    next => cases hi
  · rintro ⟨i, hle, hi⟩
    exact ⟨i, by rwa [if_pos hle]⟩

/-- The pass finds the greatest value of a list that has one. -/
theorem exists_peak (hvalues : values ≠ []) :
    ∃ p, IsGreatest {x | x ∈ values} p := by
  obtain ⟨first, rest, rfl⟩ := List.exists_cons_of_ne_nil hvalues
  exact ⟨_, (tracks_cons first rest).peak⟩

theorem exists_peak_at {j : ℕ} (hx : values[j]? = some x) :
    ∃ p, IsGreatest {y | y ∈ values.take (j + 1)} p := by
  have hmem : x ∈ values.take (j + 1) :=
    mem_take_succ_iff.mpr ⟨j, le_rfl, hx⟩
  exact exists_peak (List.ne_nil_of_mem hmem)

theorem le_peak {i j : ℕ}
    (hpeak : IsGreatest {y | y ∈ values.take (j + 1)} p)
    (hij : i ≤ j)
    (hx : values[i]? = some x) :
    x ≤ p := by
  have hmem : x ∈ values.take (j + 1) :=
    mem_take_succ_iff.mpr ⟨i, hij, hx⟩
  exact hpeak.2 hmem

theorem declinesFromPeak_subset_declinesOfPairs (values : List ℝ) :
    declinesFromPeak values ⊆ declinesOfPairs values := by
  rintro d ⟨j, v, p, hv, hpeak, hpositive, hd⟩
  obtain ⟨i, hij, hp⟩ := mem_take_succ_iff.mp hpeak.1
  exact ⟨i, j, p, v, hij, hp, hv, hpositive, hd⟩

/-- Against the peak nothing less is lost than against an earlier value, since
what is left is a smaller part of the peak. -/
theorem exists_le_of_mem_declinesOfPairs
    (hvalues : ∀ v ∈ values, 0 ≤ v)
    (hd : d ∈ declinesOfPairs values) :
    ∃ d' ∈ declinesFromPeak values, d ≤ d' := by
  obtain ⟨i, j, before, after, hij, hbefore, hafter, hpositive, rfl⟩ := hd
  obtain ⟨p, hpeak⟩ := exists_peak_at hafter
  have hle : before ≤ p := le_peak hpeak hij hbefore
  have hp : 0 < p := hpositive.trans_le hle
  have hleft : 0 ≤ after := hvalues after (List.mem_of_getElem? hafter)
  refine ⟨(p - after) / p, ⟨j, after, p, hafter, hpeak, hp, rfl⟩, ?_⟩
  rw [sub_div, sub_div, div_self hpositive.ne', div_self hp.ne']
  exact sub_le_sub_left (div_le_div_of_nonneg_left hleft hpositive hle) 1

theorem le_one_of_mem_declinesOfPairs (hvalues : ∀ v ∈ values, 0 ≤ v)
    (hd : d ∈ declinesOfPairs values) : d ≤ 1 := by
  obtain ⟨i, j, before, after, -, -, hafter, hpositive, rfl⟩ := hd
  have hleft : 0 ≤ after := hvalues after (List.mem_of_getElem? hafter)
  rw [div_le_one hpositive]
  exact sub_le_self before hleft

theorem isGreatest_declinesOfPairs {m : ℝ} (hvalues : ∀ v ∈ values, 0 ≤ v)
    (hm : IsGreatest (insert 0 (declinesFromPeak values)) m) :
    IsGreatest (insert 0 (declinesOfPairs values)) m := by
  refine ⟨Set.insert_subset_insert
      (declinesFromPeak_subset_declinesOfPairs values) hm.1, ?_⟩
  rintro d (rfl | hd)
  · exact hm.2 (Set.mem_insert 0 _)
  · obtain ⟨d', hd', hle⟩ := exists_le_of_mem_declinesOfPairs hvalues hd
    exact hle.trans (hm.2 (Set.mem_insert_of_mem 0 hd'))

/-- From a positive value on all peaks are positive, so that any fall counts. -/
theorem declinesFromPeak_nonpos_iff {first : ℝ}
    (hfirst : values.head? = some first)
    (hpositive : 0 < first) :
    (∀ d ∈ declinesFromPeak values, d ≤ 0) ↔ values.Pairwise (· ≤ ·) := by
  have hhead : values[0]? = some first := by
    rw [← List.head?_eq_getElem?, hfirst]
  rw [List.pairwise_iff_getElem]
  constructor
  · intro h i j hi hj hij
    have hafter : values[j]? = some values[j] := List.getElem?_eq_getElem hj
    obtain ⟨p, hpeak⟩ := exists_peak_at hafter
    have hp : 0 < p := hpositive.trans_le (le_peak hpeak (Nat.zero_le j) hhead)
    have hdecline : (p - values[j]) / p ≤ 0 :=
      h _ ⟨j, values[j], p, hafter, hpeak, hp, rfl⟩
    rw [div_le_iff₀ hp, zero_mul, sub_nonpos] at hdecline
    exact (le_peak hpeak hij.le (List.getElem?_eq_getElem hi)).trans hdecline
  · rintro h d ⟨j, v, p, hv, hpeak, hp, rfl⟩
    obtain ⟨i, hij, hi⟩ := mem_take_succ_iff.mp hpeak.1
    obtain ⟨hj, rfl⟩ := List.getElem?_eq_some_iff.mp hv
    obtain ⟨hlength, rfl⟩ := List.getElem?_eq_some_iff.mp hi
    have hle : values[i] ≤ values[j] := by
      rcases hij.eq_or_lt with rfl | hlt
      · exact le_rfl
      · exact h i j hlength hj hlt
    exact div_nonpos_of_nonpos_of_nonneg (sub_nonpos.mpr hle) hp.le

/-! ## The largest decline -/

/-- The result is the largest decline from a peak in percent, zero if there is
none.  Where no value is negative it is at most a hundred, and the largest
decline of any pair.  After a positive first value it is zero exactly for values
that never fall.  Further values do not lower it. -/
theorem maxDrawdownOf_largest_decline (values : List ℝ) :
    (∃ m, maxDrawdownOf values = 100 * m ∧
        IsGreatest (insert 0 (declinesFromPeak values)) m) ∧
      ((∀ v ∈ values, 0 ≤ v) →
        maxDrawdownOf values ∈ Set.Icc 0 100 ∧
          ∃ m, maxDrawdownOf values = 100 * m ∧
            IsGreatest (insert 0 (declinesOfPairs values)) m) ∧
      (∀ first,
        values.head? = some first →
        0 < first →
        (maxDrawdownOf values = 0 ↔ values.Pairwise (· ≤ ·))) ∧
      ∀ more, maxDrawdownOf values ≤ maxDrawdownOf (values ++ more) := by
  obtain ⟨m, hresult, hm⟩ := exists_isGreatest_declinesFromPeak values
  have hnonneg : 0 ≤ m := hm.2 (Set.mem_insert 0 _)
  refine ⟨⟨m, hresult, hm⟩, ?_, ?_, ?_⟩
  · intro hvalues
    have hpairs := isGreatest_declinesOfPairs hvalues hm
    have hone : m ≤ 1 := by
      rcases hpairs.1 with rfl | hmem
      · exact zero_le_one
      · exact le_one_of_mem_declinesOfPairs hvalues hmem
    refine ⟨?_, m, hresult, hpairs⟩
    rw [hresult]
    exact ⟨by linarith, by linarith⟩
  · intro first hfirst hpositive
    have hzero : m = 0 ↔ ∀ d ∈ declinesFromPeak values, d ≤ 0 := by
      rw [← isGreatest_insert_zero_iff]
      constructor
      · rintro rfl
        exact hm
      · exact fun h => hm.unique h
    rw [← declinesFromPeak_nonpos_iff hfirst hpositive, ← hzero, hresult]
    simp
  · intro more
    obtain ⟨m', hresult', hm'⟩ :=
      exists_isGreatest_declinesFromPeak (values ++ more)
    have hle : m ≤ m' :=
      hm.mono hm'
        (Set.insert_subset_insert (declinesFromPeak_subset_append values more))
    rw [hresult, hresult']
    linarith

/-- From 110 the values fall to 80. -/
theorem maxDrawdownOf_largest_decline_eighty :
    maxDrawdownOf [100, 110, (80 : ℝ)] = 100 * (30 / 110) ∧
      IsGreatest (insert 0 (declinesOfPairs [100, 110, 80])) (30 / 110) ∧
      ¬ [100, 110, (80 : ℝ)].Pairwise (· ≤ ·) ∧
      100 * (30 / 110) ≤ maxDrawdownOf [100, 110, (80 : ℝ), 95] := by
  have hvalues : ∀ v ∈ [100, 110, (80 : ℝ)], 0 ≤ v := by
    norm_num
  have hrise : declineStep ((100 : ℝ), 0) 110 = (110, 0) := by
    rw [declineStep_eq le_rfl]
    norm_num
  have hfall : declineStep ((110 : ℝ), 0) 80 = (110, 30 / 110) := by
    rw [declineStep_eq le_rfl]
    norm_num
  have hresult : maxDrawdownOf [100, 110, (80 : ℝ)] = 100 * (30 / 110) := by
    rw [maxDrawdownOf_cons, List.foldl_cons, hrise, List.foldl_cons, hfall,
      List.foldl_nil]
  obtain ⟨-, hpairs, hrises, hgrows⟩ :=
    maxDrawdownOf_largest_decline [100, 110, (80 : ℝ)]
  obtain ⟨-, m, hm, hgreatest⟩ := hpairs hvalues
  obtain rfl : m = 30 / 110 := by linarith
  refine ⟨hresult, hgreatest, ?_, ?_⟩
  · rw [← hrises 100 rfl (by norm_num), hresult]
    norm_num
  · rw [← hresult]
    exact hgrows [95]

end Performance
end RuleBacktest
