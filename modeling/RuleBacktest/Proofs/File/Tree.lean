import RuleBacktest.File.Tree
import RuleBacktest.Proofs.Keyed

/-!
# Routes in a file tree

A file that is put at a route is found there, and what is taken away at one
route is no matter to the others.  A settled route is made of file names alone,
so that following it finds the very file that stands at the route; and no side
file stands at the route of its own file.
-/

namespace RuleBacktest

theorem isFileName_iff (name : String) :
    isFileName name = true ↔ name ≠ "" ∧ name ≠ "." ∧ name ≠ ".." := by
  simp [isFileName, and_assoc]

namespace FileTree

variable {β : Type}

/-! ## Files at routes -/

theorem get?_put_self (t : FileTree β) (route : List String) (content : β) :
    (t.put route content).get? route = some content := by
  have hothers := find?_filter_key_self (k := route) Prod.fst t.files
  simp only [get?, put, List.find?_append, hothers]
  simp

theorem get?_remove_of_ne (t : FileTree β) {route other : List String}
    (h : other ≠ route) :
    (t.remove route).get? other = t.get? other := by
  rw [get?, remove, find?_filter_key_of_ne Prod.fst h, get?]

/-! ## Settled routes -/

theorem all_stepRoute {route : List String}
    (h : route.all isFileName)
    (name : String) :
    (stepRoute route name).all isFileName := by
  unfold stepRoute
  split
  · exact h
  · split
    · rw [List.all_eq_true] at h ⊢
      intro name' hname'
      exact h name' ((List.dropLast_sublist route).subset hname')
    · next hstays hback =>
        have hname : isFileName name = true := by
          rw [isFileName_iff]
          simp_all
        simp [h, hname]

theorem all_settledRoute (t : FileTree β) (path : String) :
    (t.settledRoute path).all isFileName := by
  have horigin : (t.origin path).all isFileName := by
    unfold origin
    split
    · rfl
    · exact t.valid
  have hfold : ∀ (ns route : List String), route.all isFileName →
      (ns.foldl stepRoute route).all isFileName := by
    intro ns
    induction ns with
    | nil => exact fun route h => h
    | cons n ns ih => exact fun route h => ih _ (all_stepRoute h n)
  exact hfold _ _ horigin

theorem settle_eq_ok {t : FileTree β} {path : String} {route : List String}
    (h : t.settle path = .ok route) : route = t.settledRoute path := by
  unfold settle at h
  cases hpath : checkPath path with
  | error fault =>
      rw [hpath] at h
      cases h
  | ok _ =>
      cases hnames : t.checkNames (t.origin path) (names path) with
      | error fault =>
          rw [hpath, hnames] at h
          cases h
      | ok _ =>
          rw [hpath, hnames] at h
          simp only [bind, Except.bind] at h
          split at h
          · cases h
          · exact (Except.ok.inj h).symm

/-! ## Following a route -/

theorem walk_file {t : FileTree β} {route rest found : List String}
    {content : β}
    (hrest : rest.all isFileName)
    (h : t.walk route rest = .ok (.file found content)) :
    t.get? (route ++ rest) = some content := by
  induction rest generalizing route with
  | nil => cases h
  | cons name rest ih =>
      obtain ⟨hname, hrest⟩ : isFileName name = true ∧
          rest.all isFileName = true := by
        simpa using hrest
      obtain ⟨hempty, hdot, hdots⟩ := (isFileName_iff name).mp hname
      simp only [walk, hempty, hdot, hdots, or_self, if_false] at h
      split at h
      · cases h
      · split at h
        · split at h
          · next c hfile hlast =>
              cases h
              rw [List.isEmpty_iff.mp hlast]
              exact hfile
          · cases h
        · split at h
          · have hnext := ih hrest h
            rwa [List.append_assoc, List.singleton_append] at hnext
          · split at h
            · cases h
            · cases h

theorem walk_vacant {t : FileTree β} {route rest found : List String}
    (hrest : rest.all isFileName)
    (h : t.walk route rest = .ok (.vacant found)) :
    t.get? (route ++ rest) = none := by
  induction rest generalizing route with
  | nil => cases h
  | cons name rest ih =>
      obtain ⟨hname, hrest⟩ : isFileName name = true ∧
          rest.all isFileName = true := by
        simpa using hrest
      obtain ⟨hempty, hdot, hdots⟩ := (isFileName_iff name).mp hname
      simp only [walk, hempty, hdot, hdots, or_self, if_false] at h
      split at h
      · cases h
      · split at h
        · split at h
          · cases h
          · cases h
        · next hfile =>
            split at h
            · have hnext := ih hrest h
              rwa [List.append_assoc, List.singleton_append] at hnext
            · split at h
              · next hlast =>
                  rw [List.isEmpty_iff.mp hlast]
                  exact hfile
              · cases h

/-- A side file does not stand at the route of its file. -/
theorem besideRoute_ne (route : List String) {ending : String}
    (h : ending ≠ "") :
    besideRoute route ending ≠ route := by
  intro hsame
  have hlast := congrArg (fun r : List String => (r.getLastD "").length) hsame
  have hlength : (route.getLastD "" ++ ending).length =
      (route.getLastD "").length := by
    simpa [besideRoute] using hlast
  rw [String.length_append] at hlength
  have hzero : ending.length = 0 := by omega
  exact h (String.length_eq_zero_iff.mp hzero)

end FileTree
end RuleBacktest
