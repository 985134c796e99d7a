import RuleBacktest.Command.Workspace
import RuleBacktest.Proofs.File.Tree

/-!
# Stores in a workspace

Opening a store finds what is kept in its file, and leaves it as it is, whatever
is cleared away beside it; where there is no file yet, or a blank one, an empty
store is made, which is what was kept there. Keeping a store changes the file of
this store and no other.
-/

namespace RuleBacktest

/-- The store that a file holds.  A file of another kind holds nothing. -/
def WorkspaceFile.kept : WorkspaceFile → Store Float
  | store s => s
  | _ => .empty

theorem StorePlace.content_of_openStore {place : StorePlace}
    {left : Option (Store Float)} {s : OpenStore Float}
    (h : place.openStore left = .ok s) :
    s.content = left.getD .empty := by
  cases left with
  | some content =>
      cases h
      rfl
  | none =>
      simp only [openStore] at h
      split at h
      · cases h
        rfl
      · cases h

namespace Workspace

/-- The store in the file at a route. -/
def storeAt (w : Workspace) (route : List String) : Store Float :=
  ((w.files.get? route).map WorkspaceFile.kept).getD .empty

/-- A store of this name is in the file at a route, if it is in a file at
all. -/
def Leads (w : Workspace) (name : String) (route : List String) : Prop :=
  ∀ place path, StorePlace.ofText name = .ok place → place.file = some path →
    w.files.settledRoute path = route

/-- Paths start where they did, and the store at a route is the same. -/
structure SameAt (route : List String) (w w' : Workspace) : Prop where
  start : w'.files.start = w.files.start
  store : w'.storeAt route = w.storeAt route

namespace SameAt

variable {route : List String} {w w' w'' : Workspace}

theorem refl (w : Workspace) : SameAt route w w where
  start := rfl
  store := rfl

theorem trans
    (h : SameAt route w w')
    (h' : SameAt route w' w'') :
    SameAt route w w'' where
  start := h'.start.trans h.start
  store := h'.store.trans h.store

end SameAt

theorem settledRoute_of_start {t t' : FileTree WorkspaceFile}
    (h : t'.start = t.start)
    (path : String) :
    t'.settledRoute path = t.settledRoute path := by
  simp only [FileTree.settledRoute, FileTree.origin, h]

theorem Leads.of_start {w w' : Workspace} {name : String} {route : List String}
    (hleads : w.Leads name route)
    (h : w'.files.start = w.files.start) :
    w'.Leads name route := by
  intro place path hplace hpath
  rw [settledRoute_of_start h]
  exact hleads place path hplace hpath

variable {route : List String} {w : Workspace}

theorem storeAt_put (w : Workspace) (route : List String)
    (file : WorkspaceFile) :
    (w.put route file).storeAt route = file.kept := by
  rw [storeAt, put, FileTree.get?_put_self]
  rfl

theorem sameAt_put {file : WorkspaceFile} (h : file.kept = w.storeAt route) :
    SameAt route w (w.put route file) where
  start := rfl
  store := by
    rw [storeAt_put, h]

theorem sameAt_removeBeside (w : Workspace) (route : List String)
    (side : SideFile) :
    SameAt route w (w.removeBeside route side) := by
  have hending : side.ending ≠ "" := by
    cases side <;> decide
  have hbeside := (FileTree.besideRoute_ne route hending).symm
  refine ⟨rfl, ?_⟩
  rw [storeAt, removeBeside, FileTree.get?_remove_of_ne w.files hbeside,
    storeAt]

theorem sameAt_clear (w : Workspace) (route : List String)
    (sides : List SideFile) :
    SameAt route w
      (sides.foldl (fun w side => w.removeBeside route side) w) := by
  induction sides generalizing w with
  | nil => exact SameAt.refl w
  | cons side sides ih => exact (sameAt_removeBeside w route side).trans (ih _)

theorem storeAt_keepAt (w : Workspace) (route : List String)
    (store : Store Float) :
    (w.keepAt route store).storeAt route = store := by
  have hcleared :=
    (sameAt_removeBeside (w.put route (.store store)) route .journal).store
  rw [keepAt, hcleared, storeAt_put]
  rfl

/-! ## Opening -/

/-- What is opened at a route is what is kept there, and it stays. -/
structure OpensAt (route : List String) (w : Workspace)
    (opened : Except Failure (OpenStore Float) × Workspace) : Prop where
  same : SameAt route w opened.2
  content : ∀ s, opened.1 = .ok s → s.content = w.storeAt route

theorem OpensAt.fails (e : Failure) (h : SameAt route w w') :
    OpensAt route w (.error e, w') where
  same := h
  content := by
    intro s hs
    cases hs

theorem OpensAt.of_same {w' : Workspace}
    {opened : Except Failure (OpenStore Float) × Workspace}
    (h : SameAt route w w')
    (hopened : OpensAt route w' opened) :
    OpensAt route w opened where
  same := h.trans hopened.same
  content := by
    intro s hs
    rw [hopened.content s hs, h.store]

theorem opensAt_makeAt (place : StorePlace)
    (hempty : w.storeAt route = .empty) :
    OpensAt route w (w.makeAt place route) := by
  unfold makeAt
  cases hopen : place.openStore (none : Option (Store Float)) with
  | error e => exact OpensAt.fails e (SameAt.refl w)
  | ok s =>
      have hcontent : s.content = w.storeAt route :=
        (StorePlace.content_of_openStore hopen).trans hempty.symm
      simp only
      split
      · refine ⟨⟨rfl, ?_⟩, ?_⟩
        · exact (storeAt_keepAt w route s.content).trans hcontent
        · intro s' hs'
          cases hs'
          exact hcontent
      · exact OpensAt.fails _ (SameAt.refl w)

theorem opensAt_openAt (place : StorePlace) {file : WorkspaceFile}
    (hfile : w.storeAt route = file.kept) :
    OpensAt route w (w.openAt place route file) := by
  -- Whatever comes of it, the files beside the store are cleared first.
  have hcleared :=
    sameAt_clear w route
      (place.recover file.isEmptyStore (w.remnant route)).cleared
  unfold openAt
  simp only
  split
  · exact OpensAt.fails _ hcleared
  · next _ _ content _ =>
      refine ⟨hcleared, ?_⟩
      intro s hs
      have hcontent : s.content = (some content).getD .empty :=
        StorePlace.content_of_openStore hs
      exact hcontent.trans hfile.symm
  · split
    · exact OpensAt.of_same hcleared
        (opensAt_makeAt place (hcleared.store.trans hfile))
    · exact OpensAt.fails _ hcleared
  · exact OpensAt.fails _ hcleared

theorem opensAt_openFile (w : Workspace) (name : String) (place : StorePlace)
    (path : String) :
    OpensAt (w.files.settledRoute path) w (w.openFile name place path) := by
  unfold openFile
  split
  · exact OpensAt.fails _ (SameAt.refl w)
  · next route hsettled =>
      have hroute : route = w.files.settledRoute path :=
        FileTree.settle_eq_ok hsettled
      have hnames : route.all isFileName = true := by
        rw [hroute]
        exact w.files.all_settledRoute path
      rw [← hroute]
      split
      · exact OpensAt.fails _ (SameAt.refl w)
      · split
        · next found file hwalk =>
            have hfile := FileTree.walk_file hnames hwalk
            apply opensAt_openAt
            rw [storeAt, ← List.nil_append route, hfile]
            rfl
        · next found hwalk =>
            have hvacant := FileTree.walk_vacant hnames hwalk
            have hempty : (WorkspaceFile.text "").kept = w.storeAt route := by
              rw [storeAt, ← List.nil_append route, hvacant]
              rfl
            split
            · apply OpensAt.of_same (sameAt_put hempty)
              apply opensAt_openAt
              exact storeAt_put w route (.text "")
            · exact OpensAt.fails _ (SameAt.refl w)
        · exact OpensAt.fails _ (SameAt.refl w)
        · exact OpensAt.fails _ (SameAt.refl w)

/-- A store that is in no file begins empty. -/
theorem openStore_spec {name : String} (hleads : w.Leads name route) :
    SameAt route w (w.openStore name).2 ∧
      ∀ s, (w.openStore name).1 = .ok s →
        s.content = w.storeAt route ∨ s.content = .empty := by
  unfold openStore
  split
  · refine ⟨SameAt.refl w, ?_⟩
    intro s hs
    cases hs
  · next place hplace =>
      split
      · next path hpath =>
          have hopens := opensAt_openFile w name place path
          rw [hleads place path hplace hpath] at hopens
          exact ⟨hopens.same, fun s hs => Or.inl (hopens.content s hs)⟩
      · refine ⟨SameAt.refl w, ?_⟩
        intro s hs
        have hcontent : s.content = (none : Option (Store Float)).getD .empty :=
          StorePlace.content_of_openStore hs
        exact Or.inr hcontent

theorem keepStore_spec {name : String}
    (hleads : w.Leads name route)
    (store : Store Float) :
    (w.keepStore name store).files.start = w.files.start ∧
      ((w.keepStore name store).storeAt route = store ∨
        (w.keepStore name store).storeAt route = w.storeAt route) := by
  unfold keepStore
  split
  · exact ⟨rfl, Or.inr rfl⟩
  · next path hpath =>
      obtain ⟨place, hplace, hfile⟩ := Option.bind_eq_some_iff.mp hpath
      have hname : StorePlace.ofText name = .ok place := by
        cases hread : StorePlace.ofText name with
        | ok place' =>
            rw [hread] at hplace
            exact congrArg Except.ok (Option.some.inj hplace)
        | error e =>
            rw [hread] at hplace
            cases hplace
      rw [hleads place path hname hfile]
      exact ⟨rfl, Or.inl (storeAt_keepAt w route store)⟩

end Workspace
end RuleBacktest
