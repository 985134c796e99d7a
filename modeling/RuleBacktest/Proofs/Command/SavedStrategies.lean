import Mathlib.Logic.Relation
import RuleBacktest.Proofs.Batch.Soundness
import RuleBacktest.Proofs.Command.Attempt
import RuleBacktest.Proofs.Store.Opening

/-!
# What was saved can be run

The commands that save, delete and run strategies share a store, and between
them anything may happen to the other files, to the prices and to the clock.
Only rules that pass the check are saved, and they are saved as they are, so
that the store stays sound: whenever the strategies are run, their rules can be
read and compiled, and what fails does so for the prices.
-/

namespace RuleBacktest

open Calendar Attempt

namespace Workspace

/-- The configuration at a path, where it can be read, names the store at a
route, or one in no file. -/
def Uses (w : Workspace) (route : List String) (config : String) : Prop :=
  ∀ ini name,
    Command.configOf config (w.readText config) = .ok ini →
    ini.storePath = .ok name →
    w.Leads name route

end Workspace

namespace Command

open Workspace

variable {w : Workspace} {route : List String} {config : String}

/-! ## Configurations and sources -/

theorem loadConfig_ends (w : Workspace) (config : String) :
    Ends (loadConfig config) w
      (fun ini w' => w' = w ∧ configOf config (w.readText config) = .ok ini)
      (fun _ w' => w' = w) := by
  apply Ends.bind
  apply Ends.readText
  apply Ends.conclude
  · exact fun ini hini => ⟨rfl, hini⟩
  · exact fun _ _ => rfl

theorem loadValidConfig_ends (w : Workspace) (config : String) :
    Ends (loadValidConfig config) w
      (fun ini w' => w' = w ∧ configOf config (w.readText config) = .ok ini)
      (fun _ w' => w' = w) := by
  apply (loadConfig_ends w config).andThen
  · rintro ini w' ⟨rfl, hini⟩
    apply Ends.concludeThen
    · exact fun _ _ => Ends.pure ⟨rfl, hini⟩
    · exact fun _ _ => rfl
  · exact fun _ _ h => h

/-- The store that a configuration names is opened, and what is found is the
store at the route, or an empty one. -/
theorem openStore_ends {place : String} (hleads : w.Leads place route) :
    Ends
      (Host.openStore place >>= conclude :
        Attempt (StateM Workspace) (OpenStore Float)) w
      (fun s w' =>
        SameAt route w w' ∧ (s.content = w.storeAt route ∨ s.content = .empty))
      (fun _ w' => SameAt route w w') := by
  obtain ⟨hsame, hcontent⟩ := openStore_spec hleads
  apply Ends.bind
  apply Ends.openStore
  apply Ends.conclude
  · exact fun s hs => ⟨hsame, hcontent s hs⟩
  · exact fun _ _ => hsame

theorem keepStore_ends {place : String}
    (hleads : w.Leads place route)
    (store : Store Float) :
    Ends
      (Host.keepStore place store >>= conclude :
        Attempt (StateM Workspace) Unit) w
      (fun _ w' =>
        w'.files.start = w.files.start ∧
          (w'.storeAt route = store ∨ w'.storeAt route = w.storeAt route))
      (fun _ _ => False) := by
  apply Ends.bind
  apply Ends.keepStore
  apply Ends.conclude
  · exact fun _ _ => keepStore_spec hleads store
  · intro e he
    cases he

theorem openSource_ends {ini : Ini}
    (hleads : ∀ name, ini.storePath = .ok name → w.Leads name route)
    (symbol interval : String) :
    Ends (openSource ini symbol interval) w
      (fun source w' => SameAt route w w' ∧ source.IsMarket)
      (fun _ w' => SameAt route w w') := by
  apply Ends.concludeThen
  · intro data _
    cases data with
    | csv =>
        apply Ends.concludeThen
        · intro directory _
          apply Ends.bind
          apply Ends.readText
          exact Ends.pure ⟨SameAt.refl w, PriceFile.source_isMarket _ directory⟩
        · exact fun _ _ => SameAt.refl w
    | sqlite =>
        apply Ends.concludeThen
        · intro name hname
          apply (openStore_ends (hleads name hname)).andThen
          · rintro s w' ⟨hsame, _⟩
            exact Ends.pure ⟨hsame, s.content.source_isMarket⟩
          · exact fun _ _ h => h
        · exact fun _ _ => SameAt.refl w
  · exact fun _ _ => SameAt.refl w

/-! ## Saving and deleting -/

theorem passes_of_checkSaved {rules : String} {u : Unit}
    (h : checkSaved rules = .ok u) :
    SavedStrategy.Passes rules := by
  obtain ⟨saved, hread, hrest⟩ := bind_eq_ok.mp h
  obtain ⟨counts, hrules, _⟩ := bind_eq_ok.mp hrest
  exact ⟨saved, counts, hread, hrules⟩

/-- A store at work in a workspace where the store at the route is sound. -/
structure AtWork (w : Workspace) (route : List String) (place : String)
    (s : OpenStore Float) : Prop where
  leads : w.Leads place route
  kept : (w.storeAt route).Sound
  content : s.content.Sound

theorem AtWork.of_opened {opened : Workspace} {place : String}
    {s : OpenStore Float}
    (hsound : (w.storeAt route).Sound)
    (hleads : w.Leads place route)
    (hsame : SameAt route w opened)
    (hcontent : s.content = w.storeAt route ∨ s.content = .empty) :
    AtWork opened route place s where
  leads := hleads.of_start hsame.start
  kept := by
    rw [hsame.store]
    exact hsound
  content := by
    rcases hcontent with hcontent | hcontent
    · rw [hcontent]
      exact hsound
    · rw [hcontent]
      exact Store.Sound.of_no_rows rfl rfl

theorem AtWork.of_same {w' : Workspace} {place : String} {s : OpenStore Float}
    (h : AtWork w route place s)
    (hsame : SameAt route w w') :
    AtWork w' route place s where
  leads := h.leads.of_start hsame.start
  kept := by
    rw [hsame.store]
    exact h.kept
  content := h.content

theorem sound_of_forChange {s : OpenStore Float}
    (h : s.content.Sound)
    {content : Store Float}
    (hchange : s.forChange = .ok content) :
    content.Sound := by
  unfold OpenStore.forChange at hchange
  split at hchange
  · cases hchange
    exact h
  · cases hchange

/-- Giving out an id is no matter to a store. -/
theorem sameAt_issue (w : Workspace) (route : List String) (n : Nat) :
    SameAt route w { w with issued := n } :=
  ⟨rfl, rfl⟩

theorem AtWork.keepStore_ends {place : String} {s : OpenStore Float}
    (h : AtWork w route place s)
    {content : Store Float}
    (hcontent : content.Sound) :
    Ends
      (Host.keepStore place content >>= conclude :
        Attempt (StateM Workspace) Unit) w
      (fun _ w' => (w'.storeAt route).Sound) (fun _ _ => False) := by
  apply (Command.keepStore_ends h.leads content).mono
  · rintro _ w' ⟨_, hstore | hstore⟩
    · rw [hstore]
      exact hcontent
    · rw [hstore]
      exact h.kept
  · exact fun _ _ h => h

theorem save_ends {place : String} {s : OpenStore Float}
    (h : AtWork w route place s)
    (name file : String) :
    Ends (runAction place s (.save name file)) w
      (fun _ w' => (w'.storeAt route).Sound)
      (fun _ w' => SameAt route w w') := by
  have hread :
      Ends (readFile file) w (fun _ w' => w' = w) (fun _ w' => w' = w) := by
    apply Ends.bind
    apply Ends.readText
    apply Ends.conclude
    · exact fun _ _ => rfl
    · exact fun _ _ => rfl
  apply hread.andThen
  · rintro rules w' rfl
    apply Ends.concludeThen
    · intro _ hchecked
      apply Ends.bind
      apply Ends.freshId
      have hissued := sameAt_issue w' route (w'.issued + 1)
      apply Ends.bind
      apply Ends.now
      apply Ends.concludeThen
      · intro content hchange
        apply Ends.concludeThen
        · intro saved hsave
          have hsound : saved.Sound := by
            refine (sound_of_forChange h.content hchange).save ?_ hsave
            exact passes_of_checkSaved hchecked
          apply ((h.of_same hissued).keepStore_ends hsound).andThen
          · intro _ kept hkept
            exact Ends.say hkept
          · exact fun _ _ hfalse => hfalse.elim
        · exact fun _ _ => hissued
      · exact fun _ _ => hissued
    · exact fun _ _ => SameAt.refl w'
  · rintro e w' rfl
    exact SameAt.refl w'

theorem delete_ends {place : String} {s : OpenStore Float}
    (h : AtWork w route place s)
    (id : String) :
    Ends (runAction place s (.delete id)) w
      (fun _ w' => (w'.storeAt route).Sound)
      (fun _ w' => SameAt route w w') := by
  apply Ends.concludeThen
  · intro content hchange
    apply Ends.concludeThen
    · intro left hdelete
      have hsound := (sound_of_forChange h.content hchange).delete hdelete
      apply (h.keepStore_ends hsound).andThen
      · intro _ kept hkept
        exact Ends.tell hkept
      · exact fun _ _ hfalse => hfalse.elim
    · exact fun _ _ => SameAt.refl w
  · exact fun _ _ => SameAt.refl w

/-- What works on the store that a configuration names. -/
theorem runStrategy_ends
    (hsound : (w.storeAt route).Sound)
    (huses : w.Uses route config)
    {action : StrategyAction}
    (haction : ∀ w' place s, AtWork w' route place s →
      Ends (runAction place s action) w'
        (fun _ w'' => (w''.storeAt route).Sound)
        (fun _ w'' => SameAt route w' w'')) :
    Ends (runStrategy config action) w (fun _ w' => (w'.storeAt route).Sound)
      (fun _ w' => SameAt route w w') := by
  apply (loadConfig_ends w config).andThen
  · rintro ini w' ⟨rfl, hini⟩
    apply Ends.concludeThen
    · intro place hplace
      have hleads := huses ini place hini hplace
      apply (openStore_ends hleads).andThen
      · rintro s opened ⟨hsame, hcontent⟩
        apply (haction opened place s
            (AtWork.of_opened hsound hleads hsame hcontent)).mono
        · exact fun _ _ h => h
        · exact fun _ _ h => hsame.trans h
      · exact fun _ _ h => h
    · exact fun _ _ => SameAt.refl w'
  · rintro e w' rfl
    exact SameAt.refl w'

/-! ## Running -/

/-- The strategies run one after the other, at the time that the clock shows. -/
theorem runEach_ends (book : StrategyBook (Store Float) Float)
    (run : StoredStrategy → Moment → Except Failure (StrategyRun Float))
    (log : Store Float) (ts : List StoredStrategy) (w : Workspace) :
    Ends (Batch.runEach Host.now book run log ts) w
      (fun ran w' =>
        w' = w ∧
          ran =
            ts.foldl (fun state t => Batch.step book run state t w.clock)
              (log, ⟨[], []⟩)) (fun _ _ => False) := by
  have hfold : ∀ state : Store Float × BatchSummary Float,
      on (ts.foldlM
          (fun state t => do
            let ranAt ← Host.now
            return Batch.step book run state t ranAt) state) w =
        (.ok (ts.foldl (fun state t => Batch.step book run state t w.clock)
                state), w) := by
    induction ts with
    | nil => exact fun _ => rfl
    | cons t ts ih =>
        intro state
        rw [List.foldlM_cons, on_bind]
        exact ih (Batch.step book run state t w.clock)
  unfold Ends Batch.runEach
  rw [hfold]
  exact ⟨rfl, rfl⟩

theorem runSaved_ends {s : OpenStore Float}
    (hsound : s.content.Sound)
    {source : PriceSource Float}
    (hsource : source.IsMarket)
    {schedule : Schedule} {range : HistoryRange}
    (hrange : HistoryRange.ofText schedule.range = .ok range)
    (settings : BacktestSettings Float) (w : Workspace) :
    Ends (s.book.runSaved Host.now source schedule settings s.content) w
      (fun ran w' =>
        w' = w ∧
          ∀ state, ran = .ok state → Batch.Keeping s.content.strategies state)
      (fun _ _ => False) := by
  unfold StrategyBook.runSaved
  split
  · refine Ends.pure ⟨rfl, ?_⟩
    intro state hstate
    cases hstate
  · next ts hlist =>
      have hkeeping :=
        Batch.keeping_of_list hsound hlist hsource hrange settings w.clock
      apply (runEach_ends _ _ _ _ _).andThen
      · rintro ran w' ⟨rfl, rfl⟩
        refine Ends.pure ⟨rfl, ?_⟩
        intro state hstate
        cases hstate
        exact hkeeping
      · exact fun _ _ h => h

theorem range_of_schedule {ini : Ini} {schedule : Schedule}
    (h : ini.schedule = .ok schedule) :
    ∃ range, HistoryRange.ofText schedule.range = .ok range := by
  unfold Ini.schedule at h
  simp only at h
  split at h
  · next range hrange =>
      cases h
      exact ⟨range, hrange⟩
  · cases h

/-- What succeeds is recorded in a store that stays sound, and what fails does
so for the prices. -/
theorem runOpened_ends {place : String} {s : OpenStore Float}
    (h : AtWork w route place s)
    {ini : Ini}
    (hplace : ini.storePath = .ok place)
    {schedule : Schedule} {range : HistoryRange}
    (hrange : HistoryRange.ofText schedule.range = .ok range)
    (settings : BacktestSettings Float) :
    Ends (runOpened ini settings schedule place s) w
      (fun summary w' =>
        (w'.storeAt route).Sound ∧ ∀ f ∈ summary.failed, f.failure.IsMarket)
      (fun _ w' => SameAt route w w') := by
  have hleads : ∀ name, ini.storePath = .ok name → w.Leads name route := by
    intro name hname
    rw [hplace] at hname
    cases hname
    exact h.leads
  apply (openSource_ends hleads _ _).andThen
  · rintro source reached ⟨hreached, hsource⟩
    -- The prices may be kept in the same store, which is then opened a second
    -- time and stays as it is.
    have hwork := h.of_same hreached
    apply (runSaved_ends hwork.content hsource hrange settings reached).andThen
    · rintro ran _ ⟨rfl, hkeeping⟩
      apply Ends.concludeThen
      · rintro ⟨content, summary⟩ hran
        have hkept := hkeeping _ hran
        simp only
        split
        · apply (hwork.keepStore_ends hkept.sound).andThen
          · exact fun _ _ hstored => Ends.pure ⟨hstored, hkept.market⟩
          · exact fun _ _ hfalse => hfalse.elim
        · exact Ends.pure ⟨hwork.kept, hkept.market⟩
      · exact fun _ _ => hreached
    · exact fun _ _ hfalse => hfalse.elim
  · exact fun _ _ hreached => hreached

theorem runBatch_ends
    (hsound : (w.storeAt route).Sound)
    (huses : w.Uses route config) :
    Ends (runBatch config) w
      (fun summary w' =>
        (w'.storeAt route).Sound ∧ ∀ f ∈ summary.failed, f.failure.IsMarket)
      (fun _ w' => SameAt route w w') := by
  apply (loadValidConfig_ends w config).andThen
  · rintro ini w' ⟨rfl, hini⟩
    apply Ends.concludeThen
    · intro settings _
      apply Ends.concludeThen
      · intro schedule hschedule
        obtain ⟨range, hrange⟩ := range_of_schedule hschedule
        apply Ends.concludeThen
        · intro place hplace
          have hleads := huses ini place hini hplace
          apply (openStore_ends hleads).andThen
          · rintro s opened ⟨hsame, hcontent⟩
            have hwork := AtWork.of_opened hsound hleads hsame hcontent
            apply (runOpened_ends hwork hplace hrange settings).mono
            · exact fun _ _ h => h
            · exact fun _ _ h => hsame.trans h
          · exact fun _ _ h => h
        · exact fun _ _ => SameAt.refl w'
      · exact fun _ _ => SameAt.refl w'
    · exact fun _ _ => SameAt.refl w'
  · rintro e w' rfl
    exact SameAt.refl w'

theorem tellAll_ends {lines : List String} {w' : Workspace}
    (hsame : SameAt route w w') :
    Ends (tellAll lines) w' (fun _ w'' => SameAt route w w'')
      (fun _ _ => False) := by
  induction lines generalizing w' with
  | nil => exact Ends.pure hsame
  | cons line lines ih =>
      apply Ends.bind
      apply Ends.tell
      exact ih ⟨hsame.start, hsame.store⟩

theorem runAllSaved_ends
    (hsound : (w.storeAt route).Sound)
    (huses : w.Uses route config) :
    Ends (runAllSaved config) w (fun _ w' => (w'.storeAt route).Sound)
      (fun _ w' => SameAt route w w') := by
  apply (runBatch_ends hsound huses).andThen
  · rintro summary w' ⟨hkept, _⟩
    apply (tellAll_ends (SameAt.refl w')).mono
    · intro _ w'' hsame
      rw [hsame.store]
      exact hkept
    · exact fun _ _ hfalse => hfalse.elim
  · exact fun _ _ h => h

end Command

/-! ## Sequences of commands -/

namespace Workspace

/-- What can happen to a workspace with a store at a route.  Whatever leaves the
strategies and the runs in the store alone may happen, and so may the commands
that save, delete and run strategies. -/
inductive Step (route : List String) : Workspace → Workspace → Prop where
  | outside {w w' : Workspace} :
      (w'.storeAt route).strategies = (w.storeAt route).strategies →
      (w'.storeAt route).runs = (w.storeAt route).runs → Step route w w'
  | save {w : Workspace} {config : String} (name file : String) : w.Uses route
        config →
      Step route w (w.run (.strategy config (.save name file))).2
  | delete {w : Workspace} {config : String} (id : String) : w.Uses route
        config →
      Step route w (w.run (.strategy config (.delete id))).2
  | runSaved {w : Workspace} {config : String} : w.Uses route config →
      Step route w (w.run (.runSaved config)).2

variable {route : List String} {w w' : Workspace} {config : String}

theorem sound_run {c : Command} (hsound : (w.storeAt route).Sound)
    (h : Attempt.Ends (Command.attempt c) { w with said := [], told := [] }
      (fun _ w' => (w'.storeAt route).Sound)
      (fun _ w' => SameAt route { w with said := [], told := [] } w')) :
    ((w.run c).2.storeAt route).Sound ∧
      ((w.run c).1 ≠ 0 → (w.run c).2.storeAt route = w.storeAt route) := by
  rcases w.run_cases c h with ⟨w', hkept, hrun⟩ | ⟨e, w', hsame, hrun⟩
  · rw [hrun]
    exact ⟨hkept, fun hcode => (hcode rfl).elim⟩
  · have hstore : w'.storeAt route = w.storeAt route := hsame.store
    rw [hrun]
    refine ⟨?_, fun _ => hstore⟩
    have hkept : (w'.storeAt route).Sound := by
      rw [hstore]
      exact hsound
    exact hkept

theorem sound_save
    (hsound : (w.storeAt route).Sound)
    (huses : w.Uses route config)
    (name file : String) :
    ((w.run (.strategy config (.save name file))).2.storeAt route).Sound ∧
      ((w.run (.strategy config (.save name file))).1 ≠ 0 →
        (w.run (.strategy config (.save name file))).2.storeAt route =
          w.storeAt route) := by
  apply sound_run hsound
  apply Command.runStrategy_ends
  · exact hsound
  · exact huses
  · exact fun _ _ _ hwork => Command.save_ends hwork name file

theorem Step.sound
    (hstep : Step route w w')
    (hsound : (w.storeAt route).Sound) :
    (w'.storeAt route).Sound := by
  cases hstep with
  | outside hstrategies hruns => exact hsound.of_same_rows hstrategies hruns
  | save name file huses => exact (sound_save hsound huses name file).1
  | delete id huses =>
      refine (sound_run hsound ?_).1
      apply Command.runStrategy_ends
      · exact hsound
      · exact huses
      · exact fun _ _ _ hwork => Command.delete_ends hwork id
  | runSaved huses =>
      refine (sound_run hsound ?_).1
      apply Command.runAllSaved_ends
      · exact hsound
      · exact huses

/-- Whatever was saved, deleted and run since the store was without strategies
and runs: the rules of every strategy in it pass the check and every run in it
is of a strategy in it, a strategy that cannot be saved leaves it as it is, and
strategies that are run fail for the prices only. -/
theorem saved_can_run {start : Workspace}
    (hstrategies : (start.storeAt route).strategies = [])
    (hruns : (start.storeAt route).runs = [])
    (hsteps : Relation.ReflTransGen (Step route) start w) :
    (∀ row ∈ (w.storeAt route).strategies, SavedStrategy.Passes row.rules) ∧
      (∀ run ∈ (w.storeAt route).runs, ∃ row ∈ (w.storeAt route).strategies,
        row.id = run.strategyId) ∧
      (∀ config name file,
        w.Uses route config →
        (w.run (.strategy config (.save name file))).1 ≠ 0 →
        (w.run (.strategy config (.save name file))).2.storeAt route =
          w.storeAt route) ∧
      ∀ config summary w',
        w.Uses route config →
        Attempt.on (Command.runBatch config) w = (.ok summary, w') →
        ∀ f ∈ summary.failed, f.failure.IsMarket := by
  -- Soundness is what every step preserves; the rest is said of the store that
  -- is reached.
  have hsound : (w.storeAt route).Sound := by
    induction hsteps with
    | refl => exact Store.Sound.of_no_rows hstrategies hruns
    | tail _ hstep ih => exact hstep.sound ih
  refine ⟨hsound.passes, hsound.owned, ?_, ?_⟩
  · intro config name file huses
    exact (sound_save hsound huses name file).2
  · intro config summary w' huses hbatch
    exact ((Command.runBatch_ends hsound huses).ok hbatch).2

/-- A configuration beside a strategy without rules, and no store yet. -/
def desk : Workspace :=
  ofTexts [("app.ini", "[data]\nsource=sqlite\n[sqlite]\npath=store.db\n"),
    ("idle.json", "{}")] ⟨{ year := 2024, month := 4, day := 1 }, .midnight⟩

def deskStore : List String := ["tmp", ".workspace", "store.db"]

def deskIni : Ini :=
  ⟨[⟨"data", "source", some "sqlite"⟩, ⟨"sqlite", "path", some "store.db"⟩]⟩

theorem uses_deskStore
    (hread : Command.configOf "app.ini" (w.readText "app.ini") = .ok deskIni)
    (hroute : w.files.settledRoute "store.db" = deskStore) :
    w.Uses deskStore "app.ini" := by
  have hpath : deskIni.storePath = .ok "store.db" := by
    decide +kernel
  have hplace : StorePlace.ofText "store.db" =
      .ok ⟨some "store.db", .make, false, .byMachine, none⟩ := by
    decide +kernel
  intro ini name hini hname place path hplaceOf hfile
  rw [hread] at hini
  cases hini
  rw [hpath] at hname
  cases hname
  rw [hplace] at hplaceOf
  cases hplaceOf
  cases hfile
  exact hroute

/-- The strategy is saved with its rules, which pass the check; one whose file
is missing is not, and leaves it there. -/
theorem saved_can_run_idle :
    let saved := (desk.run (.strategy "app.ini" (.save "idle" "idle.json"))).2
    let again := saved.run (.strategy "app.ini" (.save "other" "other.json"))
    (saved.storeAt deskStore).strategies =
          [⟨"@0", "idle", "{}", "2024-04-01 00:00:00"⟩] ∧
        SavedStrategy.Passes "{}" ∧
        again.1 = 1 ∧
        again.2.storeAt deskStore = saved.storeAt deskStore := by
  intro saved again
  have hstart : desk.storeAt deskStore = .empty := by
    rfl
  have huses : desk.Uses deskStore "app.ini" := by
    apply uses_deskStore
    · decide +kernel
    · decide +kernel
  have husesAgain : saved.Uses deskStore "app.ini" := by
    apply uses_deskStore
    · decide +kernel
    · decide +kernel
  have hrows : (saved.storeAt deskStore).strategies =
      [⟨"@0", "idle", "{}", "2024-04-01 00:00:00"⟩] := by
    decide +kernel
  have hcode : again.1 = 1 := by
    decide +kernel
  have hstep : Step deskStore desk saved := Step.save "idle" "idle.json" huses
  obtain ⟨hpasses, _, hfails, _⟩ :=
    saved_can_run (congrArg Store.strategies hstart)
      (congrArg Store.runs hstart) (Relation.ReflTransGen.single hstep)
  refine ⟨hrows, ?_, hcode, ?_⟩
  · apply hpasses ⟨"@0", "idle", "{}", "2024-04-01 00:00:00"⟩
    rw [hrows]
    exact List.mem_singleton_self _
  · apply hfails "app.ini" "other" "other.json" husesAgain
    rw [hcode]
    exact Nat.one_ne_zero

end Workspace
end RuleBacktest
