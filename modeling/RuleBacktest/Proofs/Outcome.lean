import RuleBacktest.Error

/-!
# Outcomes of what may fail

A computation that may fail succeeds with a value or fails with a cause.  A
sequence of two succeeds when both do, and fails with the first failure.  Two
computations have the same outcome when they succeed together or fail with the
same cause; the values may differ, and even their types.
-/

namespace RuleBacktest

theorem bind_eq_ok {β γ : Type} {x : Except Failure β}
    {f : β → Except Failure γ} {c : γ} :
    x >>= f = .ok c ↔ ∃ b, x = .ok b ∧ f b = .ok c := by
  constructor
  · intro h
    cases x with
    | ok b => exact ⟨b, rfl, h⟩
    | error e => cases h
  · rintro ⟨b, rfl, h⟩
    exact h

theorem bind_eq_error {β γ : Type} {x : Except Failure β}
    {f : β → Except Failure γ} {e : Failure} :
    x >>= f = .error e ↔ x = .error e ∨ ∃ b, x = .ok b ∧ f b = .error e := by
  cases x with
  | ok b => simp [bind, Except.bind]
  | error e' => simp [bind, Except.bind]

theorem map_eq_ok {β γ : Type} {x : Except Failure β} {f : β → γ} {c : γ} :
    x.map f = .ok c ↔ ∃ b, x = .ok b ∧ f b = c := by
  constructor
  · intro h
    cases x with
    | ok b => exact ⟨b, rfl, Except.ok.inj h⟩
    | error e => cases h
  · rintro ⟨b, rfl, rfl⟩
    rfl

theorem mapM_map_eq_ok {β γ δ : Type} {f : γ → Except Failure δ} {g : β → γ}
    {h : β → δ} {bs : List β}
    (hf : ∀ b ∈ bs, f (g b) = .ok (h b)) :
    (bs.map g).mapM f = .ok (bs.map h) := by
  induction bs with
  | nil => rfl
  | cons b bs ih =>
      have hfirst := hf b List.mem_cons_self
      have hrest := ih fun b' hb' => hf b' (List.mem_cons_of_mem b hb')
      rw [List.map_cons, List.mapM_cons, hfirst, List.map_cons, hrest]
      rfl

theorem exists_mapM_of_perm {β γ : Type} {f : β → Except Failure γ}
    {bs bs' : List β}
    (hperm : bs.Perm bs')
    {cs : List γ}
    (h : bs.mapM f = .ok cs) :
    ∃ cs', bs'.mapM f = .ok cs' ∧ cs.Perm cs' := by
  induction hperm generalizing cs with
  | nil => exact ⟨cs, h, List.Perm.refl cs⟩
  | cons b _ ih =>
      rw [List.mapM_cons] at h
      obtain ⟨c, hfirst, hnext⟩ := bind_eq_ok.mp h
      obtain ⟨ds, hrest, hcs⟩ := bind_eq_ok.mp hnext
      cases hcs
      obtain ⟨ds', hrest', hperm⟩ := ih hrest
      refine ⟨c :: ds', ?_, hperm.cons c⟩
      rw [List.mapM_cons, hfirst, hrest']
      rfl
  | swap b b' bs =>
      rw [List.mapM_cons, List.mapM_cons] at h
      obtain ⟨c', hfirst', hnext'⟩ := bind_eq_ok.mp h
      obtain ⟨ds', hrest', hcs'⟩ := bind_eq_ok.mp hnext'
      obtain ⟨c, hfirst, hnext⟩ := bind_eq_ok.mp hrest'
      obtain ⟨ds, hrest, hcs⟩ := bind_eq_ok.mp hnext
      cases hcs
      cases hcs'
      refine ⟨c :: c' :: ds, ?_, List.Perm.swap c c' ds⟩
      rw [List.mapM_cons, List.mapM_cons, hfirst, hfirst', hrest]
      rfl
  | trans _ _ ih ih' =>
      obtain ⟨ds, hds, hperm⟩ := ih h
      obtain ⟨ds', hds', hperm'⟩ := ih' hds
      exact ⟨ds', hds', hperm.trans hperm'⟩

theorem exists_of_mem_mapM {β γ : Type} {f : β → Except Failure γ} {bs : List β}
    {cs : List γ}
    (h : bs.mapM f = .ok cs)
    {c : γ}
    (hc : c ∈ cs) :
    ∃ b ∈ bs, f b = .ok c := by
  induction bs generalizing cs with
  | nil =>
      cases h
      cases hc
  | cons b bs ih =>
      rw [List.mapM_cons] at h
      obtain ⟨c', hfirst, hnext⟩ := bind_eq_ok.mp h
      obtain ⟨cs', hrest, hcs⟩ := bind_eq_ok.mp hnext
      cases hcs
      rcases List.mem_cons.mp hc with hsame | hmem
      · rw [hsame]
        exact ⟨b, List.mem_cons_self, hfirst⟩
      · obtain ⟨b', hb', hf⟩ := ih hrest hmem
        exact ⟨b', List.mem_cons_of_mem b hb', hf⟩

def SameOutcome {β γ : Type} : Except Failure β → Except Failure γ → Prop
  | .ok _, .ok _ => True
  | .error e, .error f => e = f
  | _, _ => False

namespace SameOutcome

variable {β γ δ ε : Type}

theorem refl (x : Except Failure β) : SameOutcome x x := by
  cases x with
  | ok b => exact trivial
  | error e => exact rfl

theorem map {x : Except Failure β} {y : Except Failure γ}
    (h : SameOutcome x y)
    (f : β → δ) (g : γ → ε) :
    SameOutcome (x.map f) (y.map g) := by
  cases x <;> cases y <;> exact h

theorem bind {x : Except Failure β} {y : Except Failure γ}
    {f : β → Except Failure δ} {g : γ → Except Failure ε}
    (h : SameOutcome x y)
    (hnext : ∀ b c, SameOutcome (f b) (g c)) :
    SameOutcome (x >>= f) (y >>= g) := by
  cases x with
  | ok b =>
      cases y with
      | ok c => exact hnext b c
      | error e => exact h.elim
  | error e =>
      cases y with
      | ok c => exact h.elim
      | error f => exact h

/-- Two computations that begin alike have the same outcome if they go on to the
same outcome. -/
theorem bind_left (x : Except Failure β) {f : β → Except Failure δ}
    {g : β → Except Failure ε}
    (hnext : ∀ b, SameOutcome (f b) (g b)) :
    SameOutcome (x >>= f) (x >>= g) := by
  cases x with
  | ok b => exact hnext b
  | error e => exact rfl

theorem error_iff {x : Except Failure β} {y : Except Failure γ}
    (h : SameOutcome x y)
    (e : Failure) :
    x = .error e ↔ y = .error e := by
  cases x with
  | ok b =>
      cases y with
      | ok c => simp
      | error f => exact h.elim
  | error f =>
      cases y with
      | ok c => exact h.elim
      | error f' =>
          have hsame : f = f' := h
          rw [hsame]
          simp

theorem exists_ok {x : Except Failure β} {y : Except Failure γ}
    (h : SameOutcome x y)
    {b : β}
    (hx : x = .ok b) :
    ∃ c, y = .ok c := by
  subst x
  cases y with
  | ok c => exact ⟨c, rfl⟩
  | error e => exact h.elim

end SameOutcome

/-- Every cause with which a computation may fail is of one kind. -/
def OnlyFails {β : Type} (kind : Failure → Prop) (x : Except Failure β) :
    Prop :=
  ∀ e, x = .error e → kind e

namespace OnlyFails

variable {β γ : Type} {kind : Failure → Prop}

theorem ok (b : β) : OnlyFails kind (.ok b) := by
  intro e h
  cases h

theorem error {e : Failure} (h : kind e) :
    OnlyFails kind (.error e : Except Failure β) := by
  intro e' he
  cases he
  exact h

theorem bind {x : Except Failure β} {f : β → Except Failure γ}
    (hx : OnlyFails kind x)
    (hf : ∀ b, OnlyFails kind (f b)) :
    OnlyFails kind (x >>= f) := by
  intro e h
  rcases bind_eq_error.mp h with hfirst | ⟨b, _, hnext⟩
  · exact hx e hfirst
  · exact hf b e hnext

theorem map {x : Except Failure β} (hx : OnlyFails kind x) (f : β → γ) :
    OnlyFails kind (x.map f) := by
  cases x with
  | ok b => exact ok (f b)
  | error e => exact error (hx e rfl)

theorem mapM {f : β → Except Failure γ} {bs : List β}
    (hf : ∀ b ∈ bs, OnlyFails kind (f b)) :
    OnlyFails kind (bs.mapM f) := by
  induction bs with
  | nil => exact ok []
  | cons b bs ih =>
      rw [List.mapM_cons]
      apply bind (hf b List.mem_cons_self)
      intro c
      apply bind (ih fun b' hb' => hf b' (List.mem_cons_of_mem b hb'))
      intro cs
      exact ok (c :: cs)

end OnlyFails

end RuleBacktest
