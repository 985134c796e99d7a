import RuleBacktest.Proofs.Cache.Growth
import RuleBacktest.Proofs.Compilation.Meaning
import RuleBacktest.Proofs.Registry.Names

/-!
# What rules are refused for

A leaf is read word by word: the name on its left, its right side, and its
operator.  The leaves of a tree are read from left to right, and those of the
exit after those of the entry.  Rules compile when every word means something.
Otherwise the failure is that of the first word that means nothing, and the
cache has been asked for the indicators named before that word and for no
others.
-/

namespace RuleBacktest

open Scalar IndicatorCache

variable {α : Type} [Scalar α]

/-! ## Words -/

inductive LeafWord where
  | indicator (spec : IndicatorSpec)
  | literal (raw : String)
  | operator (raw : String)

namespace LeafWord

/-- A registered name, a numeral for a finite number, or a known operator. -/
def IsReadable (α : Type) [Scalar α] : LeafWord → Prop
  | indicator spec => Family.normalize spec.name ∈ Family.names
  | literal raw => ∃ d, Numeral.ofText? (Text.trim raw) = some (.finite d) ∧
      isFinite (ofDecimal d : α) = true
  | operator raw => ∃ o, Operator.ofText? raw = some o

def failure : LeafWord → Failure
  | indicator spec => .unknownIndicator spec.name
  | literal raw => .invalidRuleValue raw
  | operator raw => .unknownOperator raw

/-- The word without its parameters. -/
def bare : LeafWord → LeafWord
  | indicator spec => indicator ⟨spec.name, []⟩
  | literal raw => literal raw
  | operator raw => operator raw

def indicator? : LeafWord → Option (Indicator α)
  | indicator spec => (spec.resolve : Except Failure (Indicator α)).toOption
  | literal _ => none
  | operator _ => none

/-- The indicators that some words name, in their order. -/
def indicators (words : List LeafWord) : List (Indicator α) :=
  words.filterMap indicator?

theorem indicators_append (words more : List LeafWord) :
    (indicators (words ++ more) : List (Indicator α)) =
      indicators words ++ indicators more :=
  List.filterMap_append

theorem isReadable_bare (w : LeafWord) :
    w.bare.IsReadable α ↔ w.IsReadable α := by
  cases w <;> rfl

theorem failure_bare (w : LeafWord) : w.bare.failure = w.failure := by
  cases w <;> rfl

/-! ## What a word comes to -/

theorem literalValue_of_isReadable {raw : String}
    (h : (literal raw).IsReadable α) :
    ∃ x : α, literalValue raw = .ok x := by
  obtain ⟨d, hnumeral, hfinite⟩ := h
  refine ⟨ofDecimal d, ?_⟩
  simp only [literalValue, hnumeral, Option.bind_some, ofNumeral?, hfinite,
    if_true]

theorem literalValue_of_not_isReadable {raw : String}
    (h : ¬ (literal raw).IsReadable α) :
    (literalValue raw : Except Failure α) = .error (literal raw).failure := by
  unfold literalValue
  split
  next x hx =>
    obtain ⟨n, hnumeral, hvalue⟩ := Option.bind_eq_some_iff.mp hx
    cases n with
    | finite d =>
        refine absurd ⟨d, hnumeral, ?_⟩ h
        by_contra hinfinite
        simp only [ofNumeral?, if_neg hinfinite] at hvalue
        cases hvalue
    | infinite negative => cases hvalue
    | notANumber negative => cases hvalue
  next => rfl

theorem readOperator_of_isReadable {raw : String}
    (h : (operator raw).IsReadable α) :
    ∃ o, readOperator raw = .ok o := by
  obtain ⟨o, ho⟩ := h
  exact ⟨o, by rw [readOperator, ho]⟩

theorem readOperator_of_not_isReadable {raw : String}
    (h : ¬ (operator raw).IsReadable α) :
    readOperator raw = .error (operator raw).failure := by
  unfold readOperator
  split
  next o ho => exact absurd ⟨o, ho⟩ h
  next => rfl

end LeafWord

open LeafWord

namespace CompareTarget

def word : CompareTarget → LeafWord
  | .value raw => .literal raw
  | .indicator spec => .indicator spec

def bare : CompareTarget → CompareTarget
  | .value raw => .value raw
  | .indicator spec => .indicator ⟨spec.name, []⟩

end CompareTarget

namespace Comparison

/-- The words of a leaf in the order in which they are read. -/
def words (c : Comparison) : List LeafWord :=
  [.indicator c.indicator, c.target.word, .operator c.operator]

def IsReadable (α : Type) [Scalar α] (c : Comparison) : Prop :=
  ∀ w ∈ c.words, w.IsReadable α

/-- The leaf without the parameters of its indicators. -/
def bare (c : Comparison) : Comparison :=
  ⟨⟨c.indicator.name, []⟩, c.operator, c.target.bare⟩

theorem words_bare (c : Comparison) :
    c.bare.words = c.words.map LeafWord.bare := by
  obtain ⟨left, operator, target⟩ := c
  cases target <;> rfl

theorem map_bare_flatMap_words (leaves : List Comparison) :
    (leaves.flatMap words).map LeafWord.bare =
      (leaves.map bare).flatMap words := by
  rw [List.map_flatMap, List.flatMap_map]
  simp only [words_bare]

end Comparison

/-! ## Reading words in a row -/

namespace Compilation

variable {β γ : Type} {bars : List (Bar α)} {words more : List LeafWord}
  {cache : IndicatorCache α}

/-- How far some words were read, and what has come of it. -/
inductive ReadTo (cache : IndicatorCache α) (words : List LeafWord) :
    Except Failure β × IndicatorCache α → Prop
  | through {b : β} {later : IndicatorCache α}
      (hwords : ∀ w ∈ words, w.IsReadable α)
      (hgrown : cache.Grown (indicators words) later) :
      ReadTo cache words (.ok b, later)
  | stopped {done rest : List LeafWord} {w : LeafWord}
      {later : IndicatorCache α}
      (hwords : words = done ++ w :: rest)
      (hdone : ∀ v ∈ done, v.IsReadable α)
      (hw : ¬ w.IsReadable α)
      (hgrown : cache.Grown (indicators done) later) :
      ReadTo cache words (.error w.failure, later)

/-- The computation reads some words, one after the other, until one of them
means nothing. -/
def Reads (c : Compilation α β) (words : List LeafWord) : Prop :=
  ∀ cache : IndicatorCache α, cache.WellKept → ReadTo cache words (c.run cache)

theorem reads_pure (b : β) : Reads (pure b : Compilation α β) [] := by
  intro cache hcache
  exact .through (List.forall_mem_nil _) (Grown.nil hcache)

theorem Reads.bind {c : Compilation α β} {next : β → Compilation α γ}
    (hc : Reads c words)
    (hnext : ∀ b, Reads (next b) more) :
    Reads (c >>= next) (words ++ more) := by
  intro cache hcache
  have hfirst := hc cache hcache
  rw [run_bind]
  generalize c.run cache = out at hfirst
  cases hfirst with
  | @stopped done rest w _ hwords hdone hw hgrown =>
      have hall : words ++ more = done ++ w :: (rest ++ more) := by
        rw [hwords, List.append_assoc, List.cons_append]
      exact .stopped hall hdone hw hgrown
  | @through b between hwords hgrown =>
      have hsecond := hnext b between hgrown.wellKept
      simp only
      generalize (next b).run between = out at hsecond
      cases hsecond with
      | through hmore hgrown' =>
          refine .through (List.forall_mem_append.mpr ⟨hwords, hmore⟩) ?_
          rw [indicators_append]
          exact hgrown.append hgrown'
      | @stopped done rest w _ hmore hdone hw hgrown' =>
          have hall : words ++ more = (words ++ done) ++ w :: rest := by
            rw [hmore, List.append_assoc]
          refine .stopped hall (List.forall_mem_append.mpr ⟨hwords, hdone⟩)
            hw ?_
          rw [indicators_append]
          exact hgrown.append hgrown'

theorem readTo_of_not_isReadable {w : LeafWord}
    (hw : ¬ w.IsReadable α)
    (hcache : cache.WellKept) :
    ReadTo (β := β) cache [w] (.error w.failure, cache) := by
  have hfirst : [w] = [] ++ w :: [] := rfl
  have hbefore : ∀ v ∈ ([] : List LeafWord), v.IsReadable α :=
    List.forall_mem_nil _
  exact .stopped hfirst hbefore hw (Grown.nil hcache)

theorem reads_series (bars : List (Bar α)) (spec : IndicatorSpec) :
    Reads (series bars spec) [.indicator spec] := by
  intro cache hcache
  rw [run_series]
  by_cases hspec : (LeafWord.indicator spec).IsReadable α
  · obtain ⟨i, hi⟩ := IndicatorSpec.exists_resolve_of_mem_names (α := α) hspec
    rw [hi]
    refine .through (List.forall_mem_singleton.mpr hspec) ?_
    have hnamed :
        (indicators [.indicator spec] : List (Indicator α)) = [i] := by
      simp [indicators, indicator?, hi, Except.toOption]
    rw [hnamed]
    exact hcache.grown_get bars i
  · rw [IndicatorSpec.resolve_eq_error_iff.mpr ⟨rfl, hspec⟩]
    exact readTo_of_not_isReadable hspec hcache

/-- A word that is no name is read without the cache. -/
theorem reads_lift {result : Except Failure β} {w : LeafWord}
    (hword : w.indicator? (α := α) = none)
    (hok : w.IsReadable α → ∃ b, result = .ok b)
    (herror : ¬ w.IsReadable α → result = .error w.failure) :
    Reads (ExceptT.mk (pure result) : Compilation α β) [w] := by
  intro cache hcache
  change ReadTo cache [w] (result, cache)
  by_cases hw : w.IsReadable α
  · obtain ⟨b, rfl⟩ := hok hw
    refine .through (List.forall_mem_singleton.mpr hw) ?_
    have hnone : (indicators [w] : List (Indicator α)) = [] := by
      simp [indicators, hword]
    rw [hnone]
    exact Grown.nil hcache
  · rw [herror hw]
    exact readTo_of_not_isReadable hw hcache

theorem reads_literal (raw : String) :
    Reads (ExceptT.mk (pure (literalValue raw)) : Compilation α α)
      [.literal raw] :=
  reads_lift rfl literalValue_of_isReadable literalValue_of_not_isReadable

theorem reads_operator (raw : String) :
    Reads (ExceptT.mk (pure (readOperator raw)) : Compilation α Operator)
      [.operator raw] :=
  reads_lift rfl readOperator_of_isReadable readOperator_of_not_isReadable

theorem reads_target (bars : List (Bar α)) (target : CompareTarget) :
    Reads (target.compile bars) [target.word] := by
  cases target with
  | value raw => exact (reads_literal raw).bind fun _ => reads_pure _
  | indicator spec => exact (reads_series bars spec).bind fun _ => reads_pure _

theorem reads_comparison (bars : List (Bar α)) (c : Comparison) :
    Reads (c.compile bars) c.words := by
  refine (reads_series bars c.indicator).bind ?_
  intro left
  refine (reads_target bars c.target).bind ?_
  intro right
  refine (reads_operator c.operator).bind ?_
  intro operator
  exact reads_pure _

end Compilation

open Compilation

/-! ## Trees -/

mutual

theorem RuleNode.reads_compile (bars : List (Bar α)) : ∀ node : RuleNode,
    Reads (node.compile bars) (node.leaves.flatMap Comparison.words)
  | .comparison c => by
      rw [RuleNode.compile, RuleNode.leaves, List.flatMap_singleton]
      exact reads_comparison bars c
  | .group _ [] => by
      rw [RuleNode.compile]
      exact reads_pure _
  | .group combinator ((_, first) :: rest) => by
      rw [RuleNode.compile, RuleNode.leaves, RuleNode.leavesOf,
        List.flatMap_append]
      exact (first.reads_compile bars).bind fun p =>
        RuleNode.reads_compileRest bars combinator p rest

theorem RuleNode.reads_compileRest (bars : List (Bar α))
    (combinator : Combinator) (running : Predicate α) :
    ∀ rest : List (Option Combinator × RuleNode),
      Reads (RuleNode.compileRest bars combinator running rest)
        ((RuleNode.leavesOf rest).flatMap Comparison.words)
  | [] => by
      rw [RuleNode.compileRest]
      exact reads_pure _
  | (own, node) :: rest => by
      rw [RuleNode.compileRest, RuleNode.leavesOf, List.flatMap_append]
      exact (node.reads_compile bars).bind fun p =>
        RuleNode.reads_compileRest bars combinator _ rest

end

theorem Strategy.reads_compile (bars : List (Bar α)) (entry exit : RuleGroup) :
    Reads (Strategy.compile bars entry exit)
      ((entry.leaves ++ exit.leaves).flatMap Comparison.words) := by
  have hboth := (entry.toNode.reads_compile bars).bind fun p =>
    (exit.toNode.reads_compile bars).bind fun q =>
      reads_pure (⟨p, q⟩ : Strategy α)
  rw [List.append_nil, ← List.flatMap_append] at hboth
  exact hboth

/-! ## The first word that means nothing -/

/-- The first word that means nothing stands in `leaf`, behind the leaves
`before` and behind the words `done` of that leaf. -/
structure StopsAt (α : Type) [Scalar α] (leaves before : List Comparison)
    (leaf : Comparison) (done : List LeafWord) (word : LeafWord) : Prop where
  leaves : ∃ after, leaves = before ++ leaf :: after
  before : ∀ c ∈ before, c.IsReadable α
  words : ∃ rest, leaf.words = done ++ word :: rest
  done : ∀ w ∈ done, w.IsReadable α
  word : ¬ word.IsReadable α

theorem exists_first_not {β : Type} {p : β → Prop} {xs : List β}
    (h : ¬ ∀ x ∈ xs, p x) :
    ∃ done x rest, xs = done ++ x :: rest ∧ (∀ y ∈ done, p y) ∧ ¬ p x := by
  induction xs with
  | nil => exact absurd (List.forall_mem_nil p) h
  | cons x xs ih =>
      by_cases hx : p x
      · obtain ⟨done, y, rest, rfl, hdone, hy⟩ :=
          ih fun hxs => h (List.forall_mem_cons.mpr ⟨hx, hxs⟩)
        exact ⟨x :: done, y, rest, rfl, List.forall_mem_cons.mpr ⟨hx, hdone⟩,
          hy⟩
      · exact ⟨[], x, xs, rfl, List.forall_mem_nil p, hx⟩

theorem not_forall_of_not {β : Type} {p : β → Prop} {xs done rest : List β}
    {b : β}
    (hxs : xs = done ++ b :: rest)
    (hb : ¬ p b) :
    ¬ ∀ x ∈ xs, p x := by
  rw [hxs]
  exact fun h => hb (h b (List.mem_append_right done List.mem_cons_self))

theorem eq_of_first_not {β : Type} {p : β → Prop}
    {done done' rest rest' : List β} {b b' : β}
    (h : done ++ b :: rest = done' ++ b' :: rest')
    (hdone : ∀ x ∈ done, p x)
    (hb : ¬ p b)
    (hdone' : ∀ x ∈ done', p x)
    (hb' : ¬ p b') :
    done = done' ∧ b = b' := by
  classical
  have htake {done rest : List β} {b : β} (hdone : ∀ x ∈ done, p x)
      (hb : ¬ p b) :
      (done ++ b :: rest).takeWhile (fun x => decide (p x)) = done := by
    rw [List.takeWhile_append_of_pos fun x hx => decide_eq_true (hdone x hx),
      List.takeWhile_cons_of_neg (by simpa using hb), List.append_nil]
  have hsame : done = done' := by
    rw [← htake hdone hb, h, htake hdone' hb']
  subst hsame
  exact ⟨rfl, (List.cons.inj (List.append_cancel_left h)).1⟩

namespace StopsAt

variable {leaves before : List Comparison} {leaf : Comparison}
  {done : List LeafWord} {word : LeafWord}

theorem exists_words (h : StopsAt α leaves before leaf done word) :
    ∃ rest, leaves.flatMap Comparison.words =
      (before.flatMap Comparison.words ++ done) ++ word :: rest := by
  obtain ⟨after, rfl⟩ := h.leaves
  obtain ⟨rest, hrest⟩ := h.words
  refine ⟨rest ++ after.flatMap Comparison.words, ?_⟩
  rw [List.flatMap_append, List.flatMap_cons, hrest]
  simp only [List.append_assoc, List.cons_append]

theorem isReadable (h : StopsAt α leaves before leaf done word) :
    ∀ w ∈ before.flatMap Comparison.words ++ done, w.IsReadable α := by
  refine List.forall_mem_append.mpr ⟨?_, h.done⟩
  intro w hw
  obtain ⟨c, hc, hw⟩ := List.mem_flatMap.mp hw
  exact h.before c hc w hw

end StopsAt

theorem exists_stopsAt {leaves : List Comparison}
    (h : ¬ ∀ leaf ∈ leaves, leaf.IsReadable α) :
    ∃ before leaf done word, StopsAt α leaves before leaf done word := by
  obtain ⟨before, leaf, after, hleaves, hbefore, hleaf⟩ := exists_first_not h
  obtain ⟨done, word, rest, hwords, hdone, hword⟩ := exists_first_not hleaf
  exact ⟨before, leaf, done, word, ⟨after, hleaves⟩, hbefore, ⟨rest, hwords⟩,
    hdone, hword⟩

namespace Compilation.ReadTo

variable {β : Type} {cache cache' : IndicatorCache α}
  {words words' : List LeafWord}
  {out out' : Except Failure β × IndicatorCache α}

theorem exists_ok_iff (h : ReadTo cache words out) :
    (∃ b, out.1 = .ok b) ↔ ∀ w ∈ words, w.IsReadable α := by
  cases h with
  | through hwords _ => exact iff_of_true ⟨_, rfl⟩ hwords
  | stopped hwords _ hw _ =>
      exact iff_of_false (fun ⟨_, h⟩ => nomatch h) (not_forall_of_not hwords hw)

theorem grown_of_readable
    (h : ReadTo cache words out)
    (hwords : ∀ w ∈ words, w.IsReadable α) :
    cache.Grown (indicators words) out.2 := by
  cases h with
  | through _ hgrown => exact hgrown
  | stopped hsplit _ hw _ => exact absurd hwords (not_forall_of_not hsplit hw)

theorem of_stop
    (h : ReadTo cache words out)
    {done rest : List LeafWord} {w : LeafWord}
    (hwords : words = done ++ w :: rest)
    (hdone : ∀ v ∈ done, v.IsReadable α)
    (hw : ¬ w.IsReadable α) :
    out.1 = .error w.failure ∧ cache.Grown (indicators done) out.2 := by
  cases h with
  | through hall _ => exact absurd hall (not_forall_of_not hwords hw)
  | stopped hsplit hdone' hw' hgrown =>
      obtain ⟨rfl, rfl⟩ :=
        eq_of_first_not (hwords.symm.trans hsplit) hdone hw hdone' hw'
      exact ⟨rfl, hgrown⟩

/-- What is read does not depend on parameters. -/
theorem sameOutcome {γ : Type} {out' : Except Failure γ × IndicatorCache α}
    (h : ReadTo cache words out)
    (h' : ReadTo cache' words' out')
    (hsame : words'.map bare = words.map bare) :
    SameOutcome out.1 out'.1 := by
  have hbare (ws : List LeafWord) :
      (∀ w ∈ ws.map bare, w.IsReadable α) ↔ ∀ w ∈ ws, w.IsReadable α := by
    simp only [List.forall_mem_map, isReadable_bare]
  cases h with
  | through hwords _ =>
      rw [← hbare, ← hsame, hbare] at hwords
      obtain ⟨b, hb⟩ := h'.exists_ok_iff.mpr hwords
      rw [hb]
      exact trivial
  | @stopped done rest w _ hwords hdone hw _ =>
      cases h' with
      | through hwords' _ =>
          rw [← hbare, hsame, hbare] at hwords'
          exact absurd hwords' (not_forall_of_not hwords hw)
      | @stopped done' rest' w' _ hwords' hdone' hw' _ =>
          rw [hwords, hwords', List.map_append, List.map_append, List.map_cons,
            List.map_cons] at hsame
          have hfirst := eq_of_first_not hsame ((hbare done').mpr hdone')
            (fun h => hw' ((isReadable_bare w').mp h)) ((hbare done).mpr hdone)
            (fun h => hw ((isReadable_bare w).mp h))
          change w.failure = w'.failure
          rw [← failure_bare w, ← failure_bare w', hfirst.2]

end Compilation.ReadTo

theorem Comparison.forall_words_iff {leaves : List Comparison} :
    (∀ w ∈ leaves.flatMap words, w.IsReadable α) ↔
      ∀ leaf ∈ leaves, leaf.IsReadable α :=
  List.forall_mem_flatMap

/-- Two rule trees compile when each of their leaves can be read.  If one
cannot, the failure is that of the first word that means nothing.  Beside what
the cache held before it then holds the parts of the indicators named up to that
word, or of all of them, and nothing else.  Neither parameters nor the way in
which leaves are joined and nested make a difference to whether the trees
compile, and to the failure with which they do not. -/
theorem Strategy.compile_reads_until_unreadable (bars : List (Bar α))
    (requests : List (CacheRequest α)) (entry exit : RuleGroup) :
    let leaves := entry.leaves ++ exit.leaves
    let cache := IndicatorCache.after bars requests
    let outcome := (compile bars entry exit).run cache
    ((∃ s, outcome.1 = .ok s) ↔ ∀ leaf ∈ leaves, leaf.IsReadable α) ∧
      (∀ e, outcome.1 = .error e ↔
        ∃ before leaf done word,
          StopsAt α leaves before leaf done word ∧ e = word.failure) ∧
      (∀ before leaf done word,
        StopsAt α leaves before leaf done word →
        cache.Grown (indicators (before.flatMap Comparison.words ++ done))
          outcome.2) ∧
      ((∀ leaf ∈ leaves, leaf.IsReadable α) →
        cache.Grown (indicators (leaves.flatMap Comparison.words)) outcome.2) ∧
      ∀ (bars' : List (Bar α)) (requests' : List (CacheRequest α))
        (entry' exit' : RuleGroup),
        entry'.leaves.map Comparison.bare = entry.leaves.map Comparison.bare →
        exit'.leaves.map Comparison.bare = exit.leaves.map Comparison.bare →
        SameOutcome outcome.1
          ((compile bars' entry' exit').run
            (IndicatorCache.after bars' requests')).1 := by
  intro leaves cache outcome
  have hread (bars : List (Bar α)) (requests : List (CacheRequest α))
      (entry exit : RuleGroup) :=
    reads_compile bars entry exit _
      (IndicatorCache.grown_after bars requests).wellKept
  have hhere : ReadTo cache (leaves.flatMap Comparison.words) outcome :=
    hread bars requests entry exit
  have hok : (∃ s, outcome.1 = .ok s) ↔ ∀ leaf ∈ leaves, leaf.IsReadable α :=
    hhere.exists_ok_iff.trans Comparison.forall_words_iff
  have hstop {before : List Comparison} {leaf : Comparison}
      {done : List LeafWord} {word : LeafWord}
      (h : StopsAt α leaves before leaf done word) :
      outcome.1 = .error word.failure ∧
        cache.Grown (indicators (before.flatMap Comparison.words ++ done))
          outcome.2 := by
    obtain ⟨rest, hwords⟩ := h.exists_words
    exact hhere.of_stop hwords h.isReadable h.word
  refine ⟨hok, ?_, fun _ _ _ _ h => (hstop h).2,
    fun h => hhere.grown_of_readable (Comparison.forall_words_iff.mpr h), ?_⟩
  · intro e
    constructor
    · intro he
      have hunreadable : ¬ ∀ leaf ∈ leaves, leaf.IsReadable α := by
        rw [← hok, he]
        exact fun ⟨_, h⟩ => nomatch h
      obtain ⟨before, leaf, done, word, h⟩ := exists_stopsAt hunreadable
      exact ⟨before, leaf, done, word, h,
        Except.error.inj (he.symm.trans (hstop h).1)⟩
    · rintro ⟨before, leaf, done, word, h, rfl⟩
      exact (hstop h).1
  · intro bars' requests' entry' exit' hentry hexit
    refine hhere.sameOutcome (hread bars' requests' entry' exit') ?_
    rw [Comparison.map_bare_flatMap_words, Comparison.map_bare_flatMap_words,
      List.map_append, List.map_append, hentry, hexit]

/-- A leaf that can be read, and in a group of its own one with a wrong literal
and a wrong operator. -/
def RuleGroup.risingOrAboveTen : RuleGroup :=
  ⟨.or,
    [(some .and, .comparison ⟨⟨"CLOSE", []⟩, ">", .indicator ⟨"OPEN", []⟩⟩),
      (none,
        .group .and [(none,
            .comparison
              ⟨⟨"SMA", [⟨"period", "fourteen"⟩]⟩, "=>", .value "ten"⟩)])]⟩

/-- A leaf whose name is not registered. -/
def RuleGroup.nothingBelowOne : RuleGroup :=
  ⟨.and, [(none, .comparison ⟨⟨"NOTHING", []⟩, "<", .value "1"⟩)]⟩

/-- The literal is read before the operator, and both before the exit.  The
average was asked for before the literal, with its standard period. -/
theorem Strategy.compile_reads_until_unreadable_ten :
    let outcome :=
      (compile Bar.flatAndRising .risingOrAboveTen .nothingBelowOne).run
        (IndicatorCache.after Bar.flatAndRising [])
    outcome.1 = .error (.invalidRuleValue "ten") ∧
        .sma 50 ∈ outcome.2.keys := by
  have hclose : Family.normalize "CLOSE" ∈ Family.names := by
    decide +kernel
  have hopening : Family.normalize "OPEN" ∈ Family.names := by
    decide +kernel
  have haverage : Family.normalize "SMA" ∈ Family.names := by
    decide +kernel
  have hten : Numeral.ofText? (Text.trim "ten") = none := by
    decide +kernel
  have hresolve : (IndicatorSpec.resolve ⟨"SMA", [⟨"period", "fourteen"⟩]⟩ :
      Except Failure (Indicator Float)) = .ok (.sma 50) := by
    decide +kernel
  have hrising : Comparison.IsReadable Float
      ⟨⟨"CLOSE", []⟩, ">", .indicator ⟨"OPEN", []⟩⟩ :=
    List.forall_mem_cons.mpr ⟨hclose, List.forall_mem_cons.mpr ⟨hopening,
      List.forall_mem_singleton.mpr ⟨.greater, rfl⟩⟩⟩
  have hstops : StopsAt Float
      (RuleGroup.risingOrAboveTen.leaves ++ RuleGroup.nothingBelowOne.leaves)
      [⟨⟨"CLOSE", []⟩, ">", .indicator ⟨"OPEN", []⟩⟩]
      ⟨⟨"SMA", [⟨"period", "fourteen"⟩]⟩, "=>", .value "ten"⟩
      [.indicator ⟨"SMA", [⟨"period", "fourteen"⟩]⟩] (.literal "ten") :=
    { leaves := ⟨[⟨⟨"NOTHING", []⟩, "<", .value "1"⟩], rfl⟩
      before := List.forall_mem_singleton.mpr hrising
      words := ⟨[.operator "=>"], rfl⟩
      done := List.forall_mem_singleton.mpr haverage
      word := by
        rintro ⟨d, hd, -⟩
        rw [hten] at hd
        cases hd }
  obtain ⟨-, hfails, hgrown, -⟩ :=
    compile_reads_until_unreadable Bar.flatAndRising [] .risingOrAboveTen
      .nothingBelowOne
  refine ⟨(hfails _).mpr ⟨_, _, _, _, hstops, rfl⟩, ?_⟩
  refine ((hgrown _ _ _ _ hstops).mem_keys _).mpr (Or.inr ⟨.sma 50, ?_, .refl⟩)
  refine List.mem_filterMap.mpr
    ⟨_, List.mem_append_right _ (List.mem_singleton_self _), ?_⟩
  rw [indicator?, hresolve]
  rfl

end RuleBacktest
