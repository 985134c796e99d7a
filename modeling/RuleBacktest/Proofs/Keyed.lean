import Mathlib.Data.List.Induction

/-!
# Lists with keys

Taking the entries of one key out of a list leaves none with that key, and those
with another key where they were.  The last entries of each key are what is left
of a list when every entry takes the place of those with its key before it.
-/

namespace RuleBacktest

variable {β κ : Type}

/-! ## Entries taken out -/

section

variable [BEq κ] [LawfulBEq κ] (key : β → κ) {k other : κ}

theorem find?_filter_key_self (xs : List β) :
    (xs.filter fun x => key x != k).find? (fun x => key x == k) = none := by
  apply List.find?_eq_none.mpr
  intro x hx
  have hother : key x ≠ k := by simpa using (List.mem_filter.mp hx).2
  simpa using hother

theorem find?_filter_key_of_ne (h : other ≠ k) (xs : List β) :
    (xs.filter fun x => key x != k).find? (fun x => key x == other) =
      xs.find? fun x => key x == other := by
  have hsame : (fun x =>
      decide ((key x != k) = true ∧ (key x == other) = true)) =
    fun x => key x == other := by
    funext x
    by_cases hx : key x = other
    · simp [hx, h]
    · simp [hx]
  rw [List.find?_filter, hsame]

theorem filter_filter_key_self (xs : List β) :
    (xs.filter fun x => key x != k).filter (fun x => key x == k) = [] := by
  apply List.filter_eq_nil_iff.mpr
  intro x hx
  have hother : key x ≠ k := by simpa using (List.mem_filter.mp hx).2
  simpa using hother

theorem filter_filter_key_of_ne (h : other ≠ k) (xs : List β) :
    (xs.filter fun x => key x != k).filter (fun x => key x == other) =
      xs.filter fun x => key x == other := by
  rw [List.filter_filter]
  apply List.filter_congr
  intro x _
  by_cases hx : key x = other
  · simp [hx, h]
  · simp [hx]

end

/-! ## The last entry of each key -/

section

variable [DecidableEq κ] (key : β → κ)

def lastOfEach : List β → List β
  | [] => []
  | x :: xs =>
      if ∃ y ∈ xs, key y = key x then lastOfEach xs else x :: lastOfEach xs

theorem mem_of_mem_lastOfEach {xs : List β} {x : β}
    (h : x ∈ lastOfEach key xs) :
    x ∈ xs := by
  induction xs with
  | nil => exact h
  | cons y xs ih =>
      rw [lastOfEach] at h
      split at h
      · exact List.mem_cons_of_mem _ (ih h)
      · rcases List.mem_cons.mp h with rfl | h
        · exact List.mem_cons_self
        · exact List.mem_cons_of_mem _ (ih h)

theorem lastOfEach_append_singleton (xs : List β) (x : β) :
    lastOfEach key (xs ++ [x]) =
      (lastOfEach key xs).filter (fun y => key y ≠ key x) ++ [x] := by
  induction xs with
  | nil => simp [lastOfEach]
  | cons y xs ih =>
      rw [List.cons_append, lastOfEach, lastOfEach, ih]
      by_cases hlater : ∃ z ∈ xs, key z = key y
      · have hlater' : ∃ z ∈ xs ++ [x], key z = key y := by
          obtain ⟨z, hz, hkey⟩ := hlater
          exact ⟨z, List.mem_append_left _ hz, hkey⟩
        rw [if_pos hlater', if_pos hlater]
      · by_cases hlast : key x = key y
        · have hlater' : ∃ z ∈ xs ++ [x], key z = key y := ⟨x, by simp, hlast⟩
          rw [if_pos hlater', if_neg hlater]
          simp [hlast]
        · have hlater' : ¬ ∃ z ∈ xs ++ [x], key z = key y := by
            simp only [List.mem_append, List.mem_singleton]
            rintro ⟨z, hz | rfl, hkey⟩
            · exact hlater ⟨z, hz, hkey⟩
            · exact hlast hkey
          rw [if_neg hlater', if_neg hlater]
          simp [Ne.symm hlast]

theorem filter_lastOfEach (xs : List β) (k : κ) :
    (lastOfEach key xs).filter (fun x => key x = k) =
      (xs.filter fun x => key x = k).getLast?.toList := by
  induction xs using List.reverseRecOn with
  | nil => rfl
  | append_singleton xs x ih =>
      rw [lastOfEach_append_singleton, List.filter_append, List.filter_append]
      by_cases hkey : key x = k
      · have hnone : ((lastOfEach key xs).filter fun y => key y ≠ key x).filter
            (fun y => key y = k) = [] := by
          simp [hkey]
        rw [hnone]
        simp [hkey]
      · have hothers : ((lastOfEach key xs).filter fun y =>
            key y ≠ key x).filter (fun y => key y = k) =
          (lastOfEach key xs).filter fun y => key y = k := by
          rw [List.filter_filter]
          apply List.filter_congr
          intro y _
          by_cases hy : key y = k
          · simp [hy, Ne.symm hkey]
          · simp [hy]
        rw [hothers, ih]
        simp [hkey]

theorem nodup_map_lastOfEach (xs : List β) :
    ((lastOfEach key xs).map key).Nodup := by
  induction xs with
  | nil => exact List.nodup_nil
  | cons x xs ih =>
      rw [lastOfEach]
      by_cases hlater : ∃ y ∈ xs, key y = key x
      · rw [if_pos hlater]
        exact ih
      · rw [if_neg hlater, List.map_cons, List.nodup_cons]
        refine ⟨?_, ih⟩
        intro hmem
        obtain ⟨y, hy, hkey⟩ := List.mem_map.mp hmem
        exact hlater ⟨y, mem_of_mem_lastOfEach key hy, hkey⟩

theorem lastOfEach_eq_self {xs : List β} (h : (xs.map key).Nodup) :
    lastOfEach key xs = xs := by
  induction xs with
  | nil => rfl
  | cons x xs ih =>
      rw [List.map_cons, List.nodup_cons] at h
      have hlater : ¬ ∃ y ∈ xs, key y = key x := by
        rintro ⟨y, hy, hkey⟩
        exact h.1 (hkey ▸ List.mem_map_of_mem hy)
      rw [lastOfEach, if_neg hlater, ih h.2]

theorem lastOfEach_append (xs ys : List β) :
    lastOfEach key (xs ++ ys) =
      (lastOfEach key xs).filter (fun x => ∀ y ∈ ys, key x ≠ key y) ++
        lastOfEach key ys := by
  induction ys using List.reverseRecOn with
  | nil =>
      have hall :
          (lastOfEach key xs).filter (fun x => ∀ y ∈ [], key x ≠ key y) =
            lastOfEach key xs :=
        List.filter_eq_self.mpr (by simp)
      rw [hall, List.append_nil, lastOfEach, List.append_nil]
  | append_singleton ys z ih =>
      rw [← List.append_assoc, lastOfEach_append_singleton,
        lastOfEach_append_singleton, ih, List.filter_append, List.filter_filter,
        List.append_assoc]
      congr 1
      apply List.filter_congr
      intro x _
      by_cases hz : key x = key z
      · simp [hz]
      · simp [hz, or_imp, forall_and]

theorem lastOfEach_append_self_append (xs ys zs : List β) :
    lastOfEach key (xs ++ (ys ++ (ys ++ zs))) =
      lastOfEach key (xs ++ (ys ++ zs)) := by
  have hnone :
      (lastOfEach key ys).filter
        (fun x => ∀ y ∈ ys ++ zs, key x ≠ key y) = [] := by
    apply List.filter_eq_nil_iff.mpr
    intro x hx
    simp only [decide_eq_true_eq]
    intro hall
    exact hall x (List.mem_append_left _ (mem_of_mem_lastOfEach key hx)) rfl
  rw [lastOfEach_append key xs, lastOfEach_append key xs,
    lastOfEach_append key ys (ys ++ zs), hnone, List.nil_append]
  congr 1
  apply List.filter_congr
  intro x _
  simp

theorem lastOfEach_filter {p : β → Bool}
    (hp : ∀ x y, key x = key y → p x = p y)
    (xs : List β) :
    lastOfEach key (xs.filter p) = (lastOfEach key xs).filter p := by
  induction xs with
  | nil => rfl
  | cons x xs ih =>
      by_cases hx : p x = true
      · have hlater : (∃ y ∈ xs.filter p, key y = key x) ↔
            ∃ y ∈ xs, key y = key x := by
          constructor
          · rintro ⟨y, hy, hkey⟩
            exact ⟨y, (List.mem_filter.mp hy).1, hkey⟩
          · rintro ⟨y, hy, hkey⟩
            exact ⟨y, List.mem_filter.mpr ⟨hy, (hp y x hkey).trans hx⟩, hkey⟩
        rw [List.filter_cons_of_pos hx, lastOfEach, lastOfEach, ih]
        simp only [hlater]
        split
        · rfl
        · rw [List.filter_cons_of_pos hx]
      · rw [List.filter_cons_of_neg hx, lastOfEach, ih]
        split
        · rfl
        · rw [List.filter_cons_of_neg hx]

theorem lastOfEach_map {γ ι : Type} [DecidableEq ι] {f : γ → β} (key' : γ → ι)
    {xs : List γ}
    (hkey : ∀ x ∈ xs, ∀ y ∈ xs, key (f x) = key (f y) ↔ key' x = key' y) :
    lastOfEach key (xs.map f) = (lastOfEach key' xs).map f := by
  induction xs with
  | nil => rfl
  | cons x xs ih =>
      have htail : ∀ y ∈ xs, ∀ z ∈ xs, key (f y) = key (f z) ↔
          key' y = key' z := by
        intro y hy z hz
        exact hkey y (List.mem_cons_of_mem _ hy) z (List.mem_cons_of_mem _ hz)
      have hlater : (∃ y ∈ xs.map f, key y = key (f x)) ↔
          ∃ y ∈ xs, key' y = key' x := by
        simp only [List.mem_map, exists_exists_and_eq_and]
        apply exists_congr
        intro y
        apply and_congr_right
        intro hy
        exact hkey y (List.mem_cons_of_mem _ hy) x List.mem_cons_self
      rw [List.map_cons, lastOfEach, lastOfEach, ih htail]
      simp only [hlater]
      split
      · rfl
      · rfl

end

end RuleBacktest
