import RuleBacktest.Backtest.Request
import RuleBacktest.Proofs.Calendar.Order

/-!
# Windows of a history

A range that reads from a text reaches back from the latest record, so that this
record is always inside its window.  What lies inside the window depends on the
time of a record alone: with a record the window holds every record that is as
late.
-/

namespace RuleBacktest
namespace HistoryRange

open Calendar

variable {β : Type} {time : β → Moment} {range : HistoryRange}
  {records : List β} {r s : β}

def ReachesBack : HistoryRange → Prop
  | .days n => 0 ≤ n
  | _ => True

theorem reachesBack_of_counted? {cs : List Char}
    (h : counted? cs = some range) :
    range.ReachesBack := by
  unfold counted? at h
  split at h
  next => cases h
  next n _ =>
    split at h
    next => cases h
    next =>
      split at h
      next => cases h; exact Int.natCast_nonneg n
      next => cases h; exact trivial
      next => cases h; exact trivial
      next => cases h

theorem reachesBack_of_ofText {text : String} (h : ofText text = .ok range) :
    range.ReachesBack := by
  have htext : ofText? text = some range := by
    unfold ofText at h
    split at h
    next r hr => cases h; exact hr
    next => cases h
  simp only [ofText?] at htext
  split at htext
  next => cases htext; exact trivial
  next =>
    split at htext
    next => cases htext; exact trivial
    next => exact reachesBack_of_counted? htext

theorem windowStart?_le (hback : range.ReachesBack) {latest start : Moment}
    (h : range.windowStart? latest = some start) : start ≤ latest := by
  cases range with
  | days n =>
      simp only [windowStart?] at h
      split at h
      · cases h
      · exact Moment.le_of_daysBefore? hback h
  | months n => exact Moment.le_of_monthsBefore? h
  | years n =>
      simp only [windowStart?] at h
      split at h
      · cases h
      · exact Moment.le_of_monthsBefore? h
  | yearToDate => exact Moment.le_of_startOfYear? h
  | max => cases h

theorem foldl_later_mem (ts : List Moment) (t : Moment) :
    ts.foldl Moment.later t ∈ t :: ts := by
  induction ts generalizing t with
  | nil => exact List.mem_singleton_self t
  | cons u ts ih =>
      have hstep : (u :: ts).foldl Moment.later t =
          ts.foldl Moment.later (t.later u) := rfl
      have hlater : t.later u = t ∨ t.later u = u := by
        unfold Moment.later
        split
        · exact Or.inl rfl
        · exact Or.inr rfl
      rw [hstep]
      rcases List.mem_cons.mp (ih (t.later u)) with hhead | htail
      · rw [hhead]
        rcases hlater with h | h
        · rw [h]
          exact List.mem_cons_self
        · rw [h]
          exact List.mem_cons_of_mem t List.mem_cons_self
      · exact List.mem_cons_of_mem t (List.mem_cons_of_mem u htail)

theorem latest?_mem {times : List Moment} {latest : Moment}
    (h : latest? times = some latest) :
    latest ∈ times := by
  cases times with
  | nil => cases h
  | cons t ts =>
      cases h
      exact foldl_later_mem ts t

theorem le_foldl_later (ts : List Moment) (t : Moment) :
    t ≤ ts.foldl Moment.later t ∧ ∀ u ∈ ts, u ≤ ts.foldl Moment.later t := by
  induction ts generalizing t with
  | nil => exact ⟨Int.le_refl _, by simp⟩
  | cons u ts ih =>
      have hlater : t ≤ t.later u ∧ u ≤ t.later u := by
        unfold Moment.later
        split
        next h => exact ⟨Int.le_refl _, Int.le_of_lt h⟩
        next h => exact ⟨Int.not_lt.mp h, Int.le_refl _⟩
      obtain ⟨hfirst, hrest⟩ := ih (t.later u)
      refine ⟨Int.le_trans hlater.1 hfirst, ?_⟩
      intro v hv
      rcases List.mem_cons.mp hv with rfl | hv
      · exact Int.le_trans hlater.2 hfirst
      · exact hrest v hv

theorem latest?_eq_some_iff {times : List Moment} {latest : Moment} :
    latest? times = some latest ↔ latest ∈ times ∧ ∀ t ∈ times, t ≤ latest := by
  cases times with
  | nil => simp [latest?]
  | cons t ts =>
      have hmem := foldl_later_mem ts t
      have hle : ∀ u ∈ t :: ts, u ≤ ts.foldl Moment.later t := by
        simpa using le_foldl_later ts t
      rw [latest?, Option.some.injEq]
      constructor
      · rintro rfl
        exact ⟨hmem, hle⟩
      · rintro ⟨hlatest, hbound⟩
        exact Moment.rank_injective
          (Int.le_antisymm (hbound _ hmem) (hle _ hlatest))

/-! ## What lies inside -/

/-- Whether a time lies inside the window that ends at the latest of some
times. -/
def includes (range : HistoryRange) (times : List Moment) (t : Moment) : Bool :=
  match latest? times with
  | none => true
  | some latest =>
      (range.windowStart? latest).all fun start => decide (start ≤ t)

theorem includes_congr {times times' : List Moment}
    (h : ∀ t, t ∈ times ↔ t ∈ times') :
    range.includes times = range.includes times' := by
  have hlatest : latest? times = latest? times' := by
    apply Option.ext
    intro latest
    simp only [latest?_eq_some_iff, h]
  funext t
  rw [includes, includes, hlatest]

theorem clip_eq_filter (time : β → Moment) (records : List β) :
    range.clip time records =
      records.filter fun r => range.includes (records.map time) (time r) := by
  unfold clip includes
  cases latest? (records.map time) with
  | none => simp
  | some latest =>
      cases hstart : range.windowStart? latest with
      | none => simp [hstart]
      | some start => simp [hstart]

@[simp] theorem clip_max (time : β → Moment) (records : List β) :
    max.clip time records = records := by
  unfold clip
  split <;> rfl

theorem clip_map {γ : Type} {f : γ → β} {time' : γ → Moment} {xs : List γ}
    (htime : ∀ x ∈ xs, time (f x) = time' x) :
    range.clip time (xs.map f) = (range.clip time' xs).map f := by
  have htimes : (xs.map f).map time = xs.map time' := by
    rw [List.map_map]
    exact List.map_congr_left htime
  rw [clip_eq_filter, clip_eq_filter, htimes, List.filter_map]
  congr 1
  apply List.filter_congr
  intro x hx
  rw [Function.comp_apply, htime x hx]

theorem mem_clip : r ∈ range.clip time records ↔
    r ∈ records ∧ ∀ latest start, latest? (records.map time) = some latest →
      range.windowStart? latest = some start → start ≤ time r := by
  rw [clip_eq_filter, List.mem_filter]
  apply and_congr_right
  intro _
  unfold includes
  cases latest? (records.map time) with
  | none => simp
  | some latest =>
      simp only [Option.all_eq_true, decide_eq_true_eq, Option.some.injEq]
      constructor
      · rintro hinside _ start rfl hstart
        exact hinside start hstart
      · intro hinside start hstart
        exact hinside latest start rfl hstart

theorem mem_clip_of_le
    (hr : r ∈ range.clip time records)
    (hs : s ∈ records)
    (hle : time r ≤ time s) :
    s ∈ range.clip time records := by
  obtain ⟨_, hinside⟩ := mem_clip.mp hr
  refine mem_clip.mpr ⟨hs, ?_⟩
  intro latest start hlatest hstart
  exact Int.le_trans (hinside latest start hlatest hstart) hle

theorem latest_mem_clip
    (hback : range.ReachesBack)
    (hr : r ∈ records)
    (hlatest : ∀ s ∈ records, time s ≤ time r) :
    r ∈ range.clip time records := by
  refine mem_clip.mpr ⟨hr, ?_⟩
  intro latest start htime hstart
  obtain ⟨s, hs, rfl⟩ := List.mem_map.mp (latest?_mem htime)
  exact Int.le_trans (windowStart?_le hback hstart) (hlatest s hs)

end HistoryRange
end RuleBacktest
